import Fracks.Movements

/-!
# Records of modules

No program closes the record of a module or turns it into a record of another
kind: an address that holds a module holds a module of the same kind for good.
-/

namespace Fracks

open Checked AccountType Ledger TokenHook Compliance HookedModule

/-- The kinds of the records of modules. -/
def moduleKinds : List AccountKind :=
  [.maxInvestorsModule, .supplyCapModule, .investorCountryCapModule, .dailyTransferLimitModule,
    .countryRestrictModule, .maxBalanceModule, .maxTransferModule, .lockupModule]

/-- A module of one of the module programs is at the address. -/
def IsModule (L : Ledger) (k : Pubkey) : Prop := (L.accounts k).kind ∈ moduleKinds

instance (L : Ledger) (k : Pubkey) : Decidable (IsModule L k) :=
  inferInstanceAs (Decidable (_ ∈ _))

/-- Every module stays a module of its kind. -/
def ModulesKept (L L' : Ledger) : Prop :=
  ∀ k, IsModule L k → (L'.accounts k).kind = (L.accounts k).kind

variable {L L' L₁ L₂ : Ledger} {T C k : Pubkey} {signers : List Pubkey} {S : List AccountKind}
  {v : Movement}

/-! ## Writes -/

namespace ModulesKept

theorem refl (L : Ledger) : ModulesKept L L := fun _ _ ↦ rfl

theorem isModule (h : ModulesKept L L') (hk : IsModule L k) : IsModule L' k := by
  rw [IsModule, h k hk]
  exact hk

theorem trans (h : ModulesKept L L₁) (h' : ModulesKept L₁ L') : ModulesKept L L' :=
  fun k hk ↦ (h' k (h.isModule hk)).trans (h k hk)

theorem of_frame (h : Frame S L L') (hS : ∀ K ∈ moduleKinds, K ∉ S) : ModulesKept L L' := by
  intro k hk
  by_cases hsame : L'.accounts k = L.accounts k
  · rw [hsame]
  · rcases (h k hsame).1 with hvacant | hkind
    · rw [IsModule, hvacant] at hk
      exact absurd hk (by decide)
    · exact absurd hkind (hS _ hk)

theorem of_change {P : Pubkey → Pubkey → Prop} (h : CounterChange P L L') : ModulesKept L L' :=
  fun k _ ↦ (h.same k).kind

/-- Overwriting a record by one of the same type. -/
theorem put {α : Type} [AccountType α] {a a' : α} (h : L.accounts k = account a) :
    ModulesKept L (L.put k a') := by
  intro x _
  by_cases hx : x = k
  · rw [hx, put_accounts_self, h, kind_account, kind_account]
  · rw [put_accounts_of_ne a' hx]

theorem updateModuleOwner {α : Type} [AccountType α] [HookedModule α] {caller : Pubkey}
    {f : α → Result α} (h : updateModuleOwner L signers caller k f = .ok L') :
    ModulesKept L L' := by
  obtain ⟨-, m, m', hm, -, -, -, rfl⟩ := updateModuleOwner_eq_ok.1 h
  exact .put hm

theorem mutateModule {α : Type} [AccountType α] [HookedModule α] {authority : Pubkey}
    {f : α → Result α} (h : mutateModule L signers authority k f = .ok L') :
    ModulesKept L L' := by
  obtain ⟨-, m, m', hm, -, -, -, rfl⟩ := mutateModule_eq_ok.1 h
  exact .put hm

theorem initializeModuleAccount {α : Type} [AccountType α] {label : SeedLabel}
    {owner tokenMint : Pubkey} {space : ℕ} {m : α}
    (h : initializeModuleAccount label L signers owner k tokenMint space m = .ok L') :
    ModulesKept L L' := by
  obtain ⟨-, hvacant, -, hother⟩ := initializeModuleAccount_ok h
  intro x hx
  have hne : x ≠ k := by
    rintro rfl
    rw [IsModule, hvacant] at hx
    exact absurd hx (by decide)
  rw [hother x hne]

theorem routerStep {hook : PostHook} {state : ComplianceState}
    (h : RouterStep hook C state L L') : ModulesKept L L' := .of_change h.change

end ModulesKept

/-! ## Instructions -/

theorem Booked.modulesKept (h : Booked T C v L L') : ModulesKept L L' := by
  obtain ⟨L₁, L₂, hbefore, hposted, hafter⟩ := h.posted
  obtain ⟨hook, state, hstep⟩ := hposted.step
  have hfirst : ModulesKept L L₁ := .of_frame hbefore (by decide)
  exact (hfirst.trans (.routerStep hstep)).trans (.of_frame hafter (by decide))

theorem Transferred.modulesKept (h : Transferred T v L L') : ModulesKept L L' := by
  cases h with
  | same h => exact .of_frame h (by decide)
  | hooked m x ts _ _ _ _ _ h => exact h.modulesKept
  | unhooked m _ _ h => exact .of_frame h.frame (by decide)

theorem Moves.modulesKept {hook : Prop} (h : Moves T C hook v L L') : ModulesKept L L' := by
  rcases h with ⟨-, hbooked⟩ | ⟨-, hunbooked⟩
  · exact hbooked.modulesKept
  · exact .of_frame hunbooked.frame (by decide)

theorem HookInstruction.modulesKept {j : HookInstruction} (h : j.process L signers = .ok L') :
    ModulesKept L L' := by
  cases j with
  | executeTransferHook accts amount =>
      obtain ⟨a, _, _, _, _, hexecuted⟩ := executeTransferHook_ok h
      obtain ⟨L₁, hrouted, rfl⟩ := hexecuted.routed
      obtain ⟨state, hstep⟩ := transferred_step hrouted
      have happroval : L₁.accounts accts.transferApproval = account a :=
        hstep.frame.accounts_eq (by decide) hexecuted.approvalAt
      exact (ModulesKept.routerStep hstep).trans (.put happroval)
  | _ => exact .of_frame (HookInstruction.frame h) (by simp [HookInstruction.kinds, moduleKinds])

theorem ComplianceInstruction.modulesKept {j : ComplianceInstruction}
    (h : j.process L signers = .ok L') : ModulesKept L L' := by
  cases j with
  | transferred =>
      obtain ⟨state, hstep⟩ := transferred_step h
      exact .routerStep hstep
  | created =>
      obtain ⟨state, hstep⟩ := created_step h
      exact .routerStep hstep
  | destroyed =>
      obtain ⟨state, hstep⟩ := destroyed_step h
      exact .routerStep hstep
  | _ =>
      exact .of_frame (ComplianceInstruction.frame h)
        (by simp [ComplianceInstruction.kinds, moduleKinds])

theorem ModuleInstruction.modulesKept {j : ModuleInstruction} (h : j.process L signers = .ok L') :
    ModulesKept L L' := by
  cases j with
  | initializeMaxInvestors | initializeSupplyCap | initializeDailyLimit | initializeMaxBalance
  | initializeMaxTransfer | initializeLockup => exact .initializeModuleAccount h
  | initializeCountryCap owner moduleState tokenMint caps =>
      obtain ⟨L₁, hinit, hchecked⟩ := bind_eq_ok.1 h
      simp only [bind_eq_ok, require_eq_ok, exists_const, Except.ok.injEq] at hchecked
      obtain ⟨-, rfl⟩ := hchecked
      exact .initializeModuleAccount hinit
  | initializeCountryRestrict owner moduleState tokenMint countries =>
      obtain ⟨L₁, hinit, hchecked⟩ := bind_eq_ok.1 h
      simp only [bind_eq_ok, require_eq_ok, exists_const, Except.ok.injEq] at hchecked
      obtain ⟨-, rfl⟩ := hchecked
      exact .initializeModuleAccount hinit
  | setMaxInvestorsHookAuthority | setSupplyCapHookAuthority | setCountryCapHookAuthority
  | setDailyLimitHookAuthority => exact .updateModuleOwner h
  | setMaxSupply owner moduleState maxSupply =>
      obtain ⟨-, m, hm, -, -, -, rfl⟩ := ModSupplyCap.setMaxSupply_eq_ok.1 h
      exact .put hm
  | maxInvestorsTransferred | maxInvestorsCreated | maxInvestorsDestroyed | supplyCapCreated
  | supplyCapDestroyed => exact .mutateModule h
  | _ =>
      exact .of_frame (ModuleInstruction.frame h) (by simp [ModuleInstruction.kinds, moduleKinds])

section Process

variable [Borsh] {i : Instruction}

theorem TokenInstruction.modulesKept {j : TokenInstruction} (h : j.process L signers = .ok L') :
    ModulesKept L L' := by
  cases j with
  | mint =>
      obtain ⟨_, _, _, _, _, hissue⟩ := Token.mint_ok h
      exact hissue.moves.modulesKept
  | purchaseMint =>
      obtain ⟨_, _, _, _, _, hissue⟩ := Token.purchaseMint_ok h
      exact hissue.moves.modulesKept
  | settleSubscriptionMint =>
      obtain ⟨_, _, _, _, _, _, hissue⟩ := Token.settleSubscriptionMint_ok h
      exact hissue.moves.modulesKept
  | burn =>
      obtain ⟨_, _, _, _, -, -, hredeemed⟩ := Token.burn_ok h
      exact hredeemed.moves.modulesKept
  | forcedTransfer =>
      obtain ⟨_, _, _, _, _, htransfer, -⟩ := Token.forcedTransfer_ok h
      exact htransfer.moves.modulesKept
  | recovery =>
      obtain ⟨_, _, _, _, htransfer⟩ := Token.recovery_ok h
      exact htransfer.moves.modulesKept
  | _ =>
      exact .of_frame (TokenInstruction.frame h)
        (by simp [TokenInstruction.kinds, Irs.identityKinds, moduleKinds])

omit [Borsh] in
theorem Token2022.process_modulesKept {j : Token2022.Instruction}
    (h : Token2022.process L signers j = .ok L') : ModulesKept L L' := by
  cases j with
  | transferChecked => exact (transferChecked_moves h).modulesKept
  | mintTo => exact .of_frame (Token2022.frame_mintTo h) (by decide)
  | burn => exact .of_frame (Token2022.frame_burn h) (by decide)
  | transfer =>
      rcases Token2022.transfer_ok h with ⟨-, rfl⟩ | ⟨_, _, _, hne, ha, hb, -, -, -, -, rfl⟩
      · exact .refl _
      · exact .of_frame (Token2022.frame_put_pair hne ha hb) (by decide)
  | _ => exact .of_frame (Token2022.process_quiet h rfl).frame (by decide)

theorem process_modulesKept (h : process L signers i = .ok L') : ModulesKept L L' := by
  induction i with
  | token j => exact TokenInstruction.modulesKept h
  | hook j => exact HookInstruction.modulesKept h
  | compliance j => exact ComplianceInstruction.modulesKept h
  | module j => exact ModuleInstruction.modulesKept h
  | token2022 j => exact Token2022.process_modulesKept h
  | createTokenMint => exact .of_frame (Factory.frame_createTokenMint h) (by decide)
  | callModuleFunction owner complianceState inner ih =>
      obtain ⟨_, -, hinner⟩ := bind_eq_ok.1 h
      exact ih hinner

theorem Step.modulesKept {l : Label} (h : Step L l L') : ModulesKept L L' := by
  cases h with
  | instruction signers i _ h => exact process_modulesKept h
  | environment h => exact .of_frame h (by decide)

end Process

end Fracks
