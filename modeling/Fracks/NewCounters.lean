import Fracks.Routes

/-!
# New counters

A counter that an instruction leaves behind was there before for the same
module, or has just been opened and is at zero.
-/

namespace Fracks

open Checked AccountType Ledger TokenHook HookedModule

/-- The number that a counter holds. -/
def AccountData.counter : AccountData → ℕ
  | .maxInvestorsModule m => m.holderCount
  | .supplyCapModule m => m.totalSupply
  | .countryInvestorCount c => c.count
  | .dailyWalletUsage u => u.volume
  | _ => 0

/-- The counters of the later ledger were counters of the same modules before. -/
def CountersKnown (L L' : Ledger) : Prop :=
  ∀ k M, (L'.accounts k).counterModule k = some M → (L.accounts k).counterModule k = some M

variable {L L' L₁ L₂ : Ledger} {k M C : Pubkey} {signers : List Pubkey} {S : List AccountKind}

namespace CountersKnown

theorem of_frame (h : Frame S L L') (hS : ∀ K ∈ counterKinds, K ∉ S) : CountersKnown L L' := by
  intro k M hM
  by_cases hsame : L'.accounts k = L.accounts k
  · rwa [hsame] at hM
  · have hkind := CounterChange.counterModule_kind hM
    rcases (h k hsame).2 with hvacant | hin
    · rw [hvacant] at hkind
      exact absurd hkind (by decide)
    · exact absurd hin (hS _ hkind)

theorem of_change {P : Pubkey → Pubkey → Prop} (h : CounterChange P L L') :
    CountersKnown L L' := by
  intro k M hM
  rwa [(h.same k).counterModule] at hM

theorem trans (h : CountersKnown L L₁) (h' : CountersKnown L₁ L') : CountersKnown L L' :=
  fun k M hM ↦ h k M (h' k M hM)

end CountersKnown

/-! ## Movements -/

section Controller

variable [Borsh] {ts : TokenState} {amount country : ℕ} {s d : TokenAccount}

theorem Token.Issue.known {accts : Token.ReceiverAccounts}
    (h : Token.Issue L L' ts accts amount country d L₁ L₂) : CountersKnown L L' := by
  obtain ⟨_, hminted⟩ := h.minted
  have hpaid : CountersKnown L L₁ := .of_frame h.paid (by decide)
  have hcreated : CountersKnown L₁ L₂ := by
    obtain ⟨-, ⟨-, hcall⟩ | ⟨-, rfl⟩⟩ := invokeCompliance_ok h.booked
    · obtain ⟨_, hstep⟩ := Compliance.created_step hcall
      exact .of_change hstep.change
    · exact fun _ _ hM ↦ hM
  exact (hpaid.trans hcreated).trans (.of_frame (Token2022.frame_mintTo hminted) (by decide))

omit [Borsh] in
theorem Token.Redemption.known {accts : Token.BurnAccounts}
    (h : Token.Redemption L L' ts accts amount country s L₁) : CountersKnown L L' := by
  obtain ⟨_, hburned⟩ := h.burned
  have hdestroyed : CountersKnown L L₁ := by
    obtain ⟨-, ⟨-, hcall⟩ | ⟨-, rfl⟩⟩ := invokeCompliance_ok h.booked
    · obtain ⟨_, hstep⟩ := Compliance.destroyed_step hcall
      exact .of_change hstep.change
    · exact fun _ _ hM ↦ hM
  exact hdestroyed.trans (.of_frame (Token2022.frame_burn hburned) (by decide))

end Controller

section Transfer

variable {source mintKey destination authority : Pubkey} {additional : List Pubkey}
  {amount decimals : ℕ}

theorem invokeHook_known {call : Token2022.HookCall} (h : invokeHook L call = .ok L') :
    CountersKnown L L' := by
  rcases invokeHook_ok h with ⟨-, accts, -, -, -, -, hexecute⟩ | ⟨-, rfl⟩
  · obtain ⟨approval, _, _, _, _, hexecuted⟩ := executeTransferHook_ok hexecute
    obtain ⟨L₁, hrouter, rfl⟩ := hexecuted.routed
    obtain ⟨_, hstep⟩ := Compliance.transferred_step hrouter
    have happroval : L₁.accounts accts.transferApproval = account approval :=
      hstep.frame.accounts_eq (by decide) hexecuted.approvalAt
    have hput : Frame [.transferApproval] L₁
        (L₁.put accts.transferApproval (consumeApproval approval)) := .put happroval (by decide)
    exact (CountersKnown.of_change hstep.change).trans (.of_frame hput (by decide))
  · exact fun _ _ hM ↦ hM

theorem transferChecked_known
    (h : Token2022.transferChecked invokeHook L signers source mintKey destination authority
      additional amount decimals = .ok L') : CountersKnown L L' := by
  rcases Token2022.transferChecked_ok h with ⟨-, rfl⟩ |
    ⟨_, _, _, _, hne, ha, hb, -, -, -, -, -, -, rfl⟩ | ⟨_, _, _, _, _, L₂, hhooked⟩
  · exact fun _ _ hM ↦ hM
  · exact .of_frame (Token2022.frame_put_pair hne ha hb) (by decide)
  · have hup : CountersKnown L _ := .of_frame hhooked.frame_moved (by decide)
    have hhook := invokeHook_known hhooked.invoked
    exact (hup.trans hhook).trans (.of_frame hhooked.frame_down (by decide))

theorem Token.ControllerTransfer.known {ts : TokenState}
    {accts : Token.ControllerTransferAccounts} {s d : TokenAccount}
    (h : Token.ControllerTransfer L L' ts accts source destination amount s d L₁ L₂) :
    CountersKnown L L' := by
  obtain ⟨_, _, _, -, -, -, -, happroved⟩ := h.approved
  obtain ⟨_, _, hmoved⟩ := h.moved
  have happrove : CountersKnown L L₁ :=
    .of_frame (approveTransfer_frame happroved (List.Subset.refl _)) (by decide)
  have htransfer := transferChecked_known hmoved
  exact (happrove.trans htransfer).trans (.of_frame h.released (by decide))

end Transfer

theorem Token2022.known {i : Token2022.Instruction} (h : Token2022.process L signers i = .ok L') :
    CountersKnown L L' := by
  cases hmoves : i.moves with
  | false => exact .of_frame (Token2022.process_quiet h hmoves).frame (by decide)
  | true =>
      cases i with
      | mintTo => exact .of_frame (Token2022.frame_mintTo h) (by decide)
      | burn => exact .of_frame (Token2022.frame_burn h) (by decide)
      | transferChecked => exact transferChecked_known h
      | transfer =>
          rcases Token2022.transfer_ok h with ⟨-, rfl⟩ |
            ⟨_, _, _, hne, ha, hb, -, -, -, -, rfl⟩
          · exact fun _ _ hM ↦ hM
          · exact .of_frame (Token2022.frame_put_pair hne ha hb) (by decide)
      | _ => exact nomatch hmoves

theorem TokenInstruction.known [Borsh] {i : TokenInstruction} (h : i.process L signers = .ok L') :
    CountersKnown L L' := by
  cases i with
  | mint =>
      obtain ⟨_, _, _, _, _, hissue⟩ := Token.mint_ok h
      exact hissue.known
  | purchaseMint =>
      obtain ⟨_, _, _, _, _, hissue⟩ := Token.purchaseMint_ok h
      exact hissue.known
  | settleSubscriptionMint =>
      obtain ⟨_, _, _, _, _, _, hissue⟩ := Token.settleSubscriptionMint_ok h
      exact hissue.known
  | burn =>
      obtain ⟨_, _, _, _, -, -, hredeemed⟩ := Token.burn_ok h
      exact hredeemed.known
  | forcedTransfer =>
      obtain ⟨_, _, _, _, _, htransfer, -⟩ := Token.forcedTransfer_ok h
      exact htransfer.known
  | recovery =>
      obtain ⟨_, _, _, _, htransfer⟩ := Token.recovery_ok h
      exact htransfer.known
  | _ =>
      exact .of_frame (TokenInstruction.frame h)
        (by simp [TokenInstruction.kinds, Irs.identityKinds, counterKinds])

/-! ## Opening -/

/-- A counter that was there before, or is at zero. -/
def KnownOrOpened (L L' : Ledger) (k M : Pubkey) : Prop :=
  (L.accounts k).counterModule k = some M ∨ (L'.accounts k).data.counter = 0

theorem CountersKnown.orOpened (h : CountersKnown L L')
    (hM : (L'.accounts k).counterModule k = some M) : KnownOrOpened L L' k M :=
  .inl (h k M hM)

/-- A new account holds what it was opened with. -/
theorem knownOrOpened_of_new {x : Pubkey} {a : Account} (hnew : L'.accounts x = a)
    (hzero : a.data.counter = 0) (hother : ∀ y, y ≠ x → L'.accounts y = L.accounts y)
    (hM : (L'.accounts k).counterModule k = some M) : KnownOrOpened L L' k M := by
  by_cases hk : k = x
  · subst hk
    exact .inr (hnew ▸ hzero)
  · rw [hother k hk] at hM
    exact .inl hM

/-- The owner's instructions on a module open no counter. -/
theorem updateModuleOwner_known {α : Type} [AccountType α] [HookedModule α] {caller : Pubkey}
    {f : α → Result α} (hcounter : ∀ (x : Pubkey) (m : α), (account m).counterModule x = some x)
    (h : updateModuleOwner L signers caller C f = .ok L')
    (hM : (L'.accounts k).counterModule k = some M) : KnownOrOpened L L' k M := by
  obtain ⟨-, m, m', hm, -, -, -, rfl⟩ := updateModuleOwner_eq_ok.1 h
  by_cases hk : k = C
  · subst hk
    rw [put_accounts_self, hcounter] at hM
    exact .inl (hm ▸ (hcounter k m).trans hM)
  · rw [put_accounts_of_ne m' hk] at hM
    exact .inl hM

theorem ModuleInstruction.opened {i : ModuleInstruction} (h : i.process L signers = .ok L')
    (hM : (L'.accounts k).counterModule k = some M) : KnownOrOpened L L' k M := by
  cases hi : i.called with
  | some M' =>
      obtain ⟨authority, hook, hcall⟩ := ModuleInstruction.call hi h
      exact (CountersKnown.of_change hcall.change).orOpened hM
  | none =>
      cases i with
      | initializeMaxInvestors =>
          obtain ⟨-, -, hnew, hother⟩ := initializeModuleAccount_ok h
          exact knownOrOpened_of_new hnew rfl hother hM
      | initializeSupplyCap =>
          obtain ⟨-, -, hnew, hother⟩ := initializeModuleAccount_ok h
          exact knownOrOpened_of_new hnew rfl hother hM
      | setMaxInvestorsHookAuthority => exact updateModuleOwner_known (fun _ _ ↦ rfl) h hM
      | setSupplyCapHookAuthority => exact updateModuleOwner_known (fun _ _ ↦ rfl) h hM
      | setMaxSupply => exact updateModuleOwner_known (fun _ _ ↦ rfl) h hM
      | initializeCountryCount =>
          obtain ⟨-, hnew, hother, -⟩ := initializeCountryCount_ok h
          exact knownOrOpened_of_new hnew rfl hother hM
      | initializeWalletUsage =>
          simp only [ModuleInstruction.process, ModDailyLimit.initializeWalletUsage, bind_eq_ok,
            requireSigner_eq_ok, load_eq_ok, requireSeeds_eq_ok, exists_const] at h
          obtain ⟨-, m, -, -, hinit⟩ := h
          obtain ⟨-, -, hnew, hother⟩ := initRecord_ok hinit
          exact knownOrOpened_of_new hnew rfl hother hM
      | maxInvestorsTransferred | maxInvestorsCreated | maxInvestorsDestroyed | supplyCapCreated
      | supplyCapDestroyed | countryCapTransferred | countryCapCreated | countryCapDestroyed
      | dailyLimitTransferred => cases hi
      | _ =>
          have hframe := ModuleInstruction.frame h
          exact (CountersKnown.of_frame hframe
            (by simp [ModuleInstruction.kinds, counterKinds])).orOpened hM

theorem ComplianceInstruction.known {i : ComplianceInstruction}
    (h : i.process L signers = .ok L') : CountersKnown L L' := by
  cases i with
  | transferred =>
      obtain ⟨_, hstep⟩ := Compliance.transferred_step h
      exact .of_change hstep.change
  | created =>
      obtain ⟨_, hstep⟩ := Compliance.created_step h
      exact .of_change hstep.change
  | destroyed =>
      obtain ⟨_, hstep⟩ := Compliance.destroyed_step h
      exact .of_change hstep.change
  | _ =>
      exact .of_frame (ComplianceInstruction.frame h)
        (by simp [ComplianceInstruction.kinds, counterKinds])

theorem HookInstruction.known {i : HookInstruction} (h : i.process L signers = .ok L')
    (hL : FlagsDown L) : CountersKnown L L' := by
  cases i with
  | executeTransferHook => exact absurd h (executeTransferHook_refused hL)
  | _ =>
      exact .of_frame (HookInstruction.frame h) (by simp [HookInstruction.kinds, counterKinds])

/-- Every counter after an instruction was there before or is new and at zero. -/
theorem process_opened [Borsh] {i : Instruction} (h : process L signers i = .ok L')
    (hL : FlagsDown L) (hM : (L'.accounts k).counterModule k = some M) :
    KnownOrOpened L L' k M := by
  induction i with
  | token i => exact (TokenInstruction.known h).orOpened hM
  | hook i => exact (HookInstruction.known h hL).orOpened hM
  | compliance i => exact (ComplianceInstruction.known h).orOpened hM
  | module i => exact ModuleInstruction.opened h hM
  | token2022 i => exact (Token2022.known h).orOpened hM
  | createTokenMint =>
      have hframe := Factory.frame_createTokenMint h
      exact (CountersKnown.of_frame hframe (by decide)).orOpened hM
  | callModuleFunction owner complianceState inner ih =>
      obtain ⟨_, -, hinner⟩ := bind_eq_ok.1 h
      exact ih hinner

end Fracks
