import Fracks.NewCounters
import Fracks.Pending

/-!
# Postings under a compliance state

For the modules bound to a token all instructions are of few sorts: an issue of
the token, a redemption, the execution of a pending approval, a transfer by the
controller with an approval of its own, and those that leave the counters of
the modules alone.
-/

namespace Fracks

open Checked AccountType Ledger TokenHook HookedModule Compliance

variable {L L' L₁ L₂ : Ledger} {T k M : Pubkey} {signers : List Pubkey} {i : Instruction}
  {state : ComplianceState}

/-! ## Instructions that move tokens -/

/-- How an instruction that moves tokens reaches the modules of `T`. -/
inductive Posts [Borsh] (T : Pubkey) (i : Instruction) (L L' : Ledger) : Prop
  | issued (L₁ L₂ : Ledger) (ts : TokenState) (accts : Token.ReceiverAccounts)
      (amount country : ℕ) (d : TokenAccount) :
      Token.Issue L L' ts accts amount country d L₁ L₂ → ts.tokenMint = T →
        Booked T (complianceAddress T) (.minted accts.destinationTokenAccount amount) L L' →
          Posts T i L L'
  | redeemed (L₁ : Ledger) (ts : TokenState) (accts : Token.BurnAccounts)
      (amount country : ℕ) (s : TokenAccount) :
      Token.Redemption L L' ts accts amount country s L₁ → ts.tokenMint = T →
        accts.complianceState = complianceAddress T →
          Booked T (complianceAddress T) (.burned accts.sourceTokenAccount amount) L L' →
            Posts T i L L'
  | executed (source destination authority : Pubkey) (additional : List Pubkey) (n decimals : ℕ)
      (k : Pubkey) (a : TransferApproval) :
      i = .token2022 (.transferChecked source T destination authority additional n decimals) →
        Uses T L L' source destination authority n k a → Posts T i L L'
  | controlled (L₁ L₂ : Ledger) (source destination authority : Pubkey) (n : ℕ) (k : Pubkey)
      (a : TransferApproval) :
      Frame [.transferApproval] L L₁ → L₁.now = L.now → Granted T L i a →
        Uses T L₁ L₂ source destination authority n k a → Frame [.partialFreeze] L₂ L' →
          Posts T i L L'
  | aside : Untouched (complianceAddress T) L L' → Posts T i L L'

section Controller

variable [Borsh] {ts : TokenState} {amount country : ℕ}

theorem Token.Issue.posts {accts : Token.ReceiverAccounts} {d : TokenAccount}
    (h : Token.Issue L L' ts accts amount country d L₁ L₂) (hT : Anchored T L)
    (hstate : L.accounts (complianceAddress T) = account state) (hhome : state.tokenMint = T) :
    Posts T i L L' := by
  by_cases hts : ts.tokenMint = T
  · exact .issued _ _ _ _ _ _ _ h hts (h.booked_home hT hstate hts)
  · exact .aside (h.aside hstate hhome hts)

theorem Token.Redemption.posts {accts : Token.BurnAccounts} {s : TokenAccount}
    (h : Token.Redemption L L' ts accts amount country s L₁)
    (hstate : L.accounts (complianceAddress T) = account state)
    (hburns : accts.complianceState = complianceAddress T → ts.tokenMint = T) :
    Posts T i L L' := by
  by_cases haccts : accts.complianceState = complianceAddress T
  · have hts := hburns haccts
    have hbooked := h.booked_home hstate haccts
    rw [hts] at hbooked
    exact .redeemed _ _ _ _ _ _ h hts haccts hbooked
  · exact .aside (h.aside haccts)

omit [Borsh] in
/-- A transfer by the controller uses the approval it has written. -/
theorem Token.ControllerApproved.uses {operator : Token.OperatorAccounts}
    {accts : Token.ControllerTransferAccounts} {s d : TokenAccount} {args : ApproveTransferArgs}
    (h : Token.ControllerApproved L L₁ L₂ signers operator accts ts s d args) (hT : Anchored T L)
    (hts : ts.tokenMint = T) :
    L₂ = L₁ ∨ ∃ k, Uses T L₁ L₂ accts.sourceTokenAccount accts.destinationTokenAccount
      operator.tokenState args.amount k
        (newApproval (Token.controllerApprovalAccounts operator accts) args) := by
  obtain ⟨_, _, htransfer⟩ := h.transfers
  rw [hts] at htransfer
  have hframe := approveTransfer_frame h.approves (List.Subset.refl _)
  have hT₁ := hT.of_frame hframe (by decide) (by decide) (by decide)
  rcases hT₁.uses htransfer with ⟨-, hsame⟩ | ⟨-, k, a, huses⟩
  · exact .inl hsame
  · obtain ⟨-, -, hkey, -, -, hnew, -⟩ := approveTransfer_ok h.approves
    -- both the approval and its use are under the address of the token state
    have hk : k = accts.transferApproval := huses.key.trans hkey.symm
    subst hk
    obtain rfl := account_inj.1 (huses.pending.loaded.symm.trans hnew)
    exact .inr ⟨_, huses⟩

omit [Borsh] in
theorem Token.ControllerApproved.mintKey {operator : Token.OperatorAccounts}
    {accts : Token.ControllerTransferAccounts} {s d : TokenAccount} {args : ApproveTransferArgs}
    (h : Token.ControllerApproved L L₁ L₂ signers operator accts ts s d args) :
    accts.tokenMintAccount = ts.tokenMint := by
  obtain ⟨-, -, -, ⟨ts', hts', hmint⟩, -⟩ := approveTransfer_ok h.approves
  obtain rfl := account_inj.1 (h.tokenStateAt.symm.trans hts')
  exact hmint.symm

omit [Borsh] in
/-- A transfer of another token by the controller is not booked here. -/
theorem Token.ControllerApproved.aside {operator : Token.OperatorAccounts}
    {accts : Token.ControllerTransferAccounts} {s d : TokenAccount} {args : ApproveTransferArgs}
    (h : Token.ControllerApproved L L₁ L₂ signers operator accts ts s d args)
    (hL : TokenStatesDerived L)
    (hX : ¬ PointsTo (Token.tokenStateAddress ts.tokenMint) (complianceAddress T) L)
    (hreleased : Frame [.partialFreeze] L₂ L') : Untouched (complianceAddress T) L L' := by
  obtain ⟨_, _, htransfer⟩ := h.transfers
  have hmoved := (transferChecked_moves htransfer).around
    (approveTransfer_frame h.approves (by decide)) (hreleased.mono (by decide))
  exact hmoved.aside hL hX

theorem TokenInstruction.posts {j : TokenInstruction} (h : j.process L signers = .ok L')
    (hmoves : Instruction.moves (.token j) = true) (hT : Anchored T L)
    (hstate : L.accounts (complianceAddress T) = account state) (hhome : state.tokenMint = T)
    (hmisburns : ¬ Instruction.Misburns T (.token j))
    (hmismoves : ¬ Instruction.Mismoves T L (.token j)) : Posts T (.token j) L L' := by
  cases j with
  | mint operator accts =>
      obtain ⟨_, _, _, _, _, hissue⟩ := Token.mint_ok h
      exact hissue.posts hT hstate hhome
  | purchaseMint purchase accts =>
      obtain ⟨_, _, _, _, _, hissue⟩ := Token.purchaseMint_ok h
      exact hissue.posts hT hstate hhome
  | settleSubscriptionMint operator settle accts =>
      obtain ⟨_, _, _, _, _, _, hissue⟩ := Token.settleSubscriptionMint_ok h
      exact hissue.posts hT hstate hhome
  | burn operator accts =>
      obtain ⟨ts, _, _, _, -, hoperator, hredeemed⟩ := Token.burn_ok h
      refine hredeemed.posts hstate fun haccts ↦ ?_
      by_contra hts
      refine hmisburns ⟨fun heq ↦ hts ?_, haccts⟩
      exact tokenStateAddress_inj.1 (hoperator.symm.trans heq)
  | forcedTransfer operator fromPartialFreeze accts =>
      obtain ⟨ts, s, d, _, _, L₁, L₂, happroved, -, -, hcomplies, record, hrecord, record', -,
        rfl⟩ := Token.forcedTransfer_approved h
      have hreleased : Frame [.partialFreeze] L₂ (L₂.put fromPartialFreeze record') :=
        .put hrecord (by decide)
      by_cases hts : ts.tokenMint = T
      · rcases happroved.uses hT hts with rfl | ⟨k, huses⟩
        · have happrove : Frame aroundKinds L L₂ :=
            approveTransfer_frame happroved.approves (by decide)
          have hframe := happrove.trans (hreleased.mono (by decide))
          exact .aside (.of_frame hframe (by decide) (by decide))
        · exact .controlled _ _ _ _ _ _ _ _
            (approveTransfer_frame happroved.approves (List.Subset.refl _))
            (approveTransfer_now happroved.approves)
            (.forcedTransfer _ _ _ _ _ _ _ _ _ _ _ _ _ _ _ _ happroved hcomplies
              (hts ▸ happroved.tokenStateKey)) huses hreleased
      · have hts' := happroved.tokenStateAt
        rw [happroved.tokenStateKey] at hts'
        have hpoints := Token.not_pointsTo_of_complies hts' hcomplies hstate hhome hts
        exact .aside (happroved.aside hT.wellFormed.tokenStates hpoints hreleased)
  | recovery operator irsProgram accts =>
      obtain ⟨ts, s, d, _, _, L₁, happroved, -⟩ := Token.recovery_approved h
      by_cases hts : ts.tokenMint = T
      · rcases happroved.uses hT hts with rfl | ⟨k, huses⟩
        · have happrove : Frame aroundKinds L L' :=
            approveTransfer_frame happroved.approves (by decide)
          exact .aside (.of_frame happrove (by decide) (by decide))
        · exact .controlled _ _ _ _ _ _ _ _
            (approveTransfer_frame happroved.approves (List.Subset.refl _))
            (approveTransfer_now happroved.approves)
            (.recovery _ _ _ _ _ _ _ _ _ _ _ _ _ _ happroved (hts ▸ happroved.tokenStateKey))
            huses (.refl _ _)
      · have hpoints :
            ¬ PointsTo (Token.tokenStateAddress ts.tokenMint) (complianceAddress T) L := by
          intro hpoints
          rw [← happroved.mintKey] at hts hpoints
          exact hmismoves ⟨hts, hpoints⟩
        exact .aside (happroved.aside hT.wellFormed.tokenStates hpoints (.refl _ _))
  | _ => exact nomatch hmoves

end Controller

theorem Token2022.posts [Borsh] {j : Token2022.Instruction}
    (h : Token2022.process L signers j = .ok L') (hT : Anchored T L)
    (hmismoves : ¬ Instruction.Mismoves T L (.token2022 j)) :
    Posts T (.token2022 j) L L' := by
  have hframed : ∀ {S : List AccountKind}, Frame S L L' → (∀ K ∈ counterKinds, K ∉ S) →
      AccountKind.complianceState ∉ S → Posts T (.token2022 j) L L' :=
    fun hframe hcounters hstates ↦ .aside (.of_frame hframe hcounters hstates)
  cases hj : j.moves with
  | false => exact hframed (Token2022.process_quiet h hj).frame (by decide) (by decide)
  | true =>
      cases j with
      | mintTo => exact hframed (Token2022.frame_mintTo h) (by decide) (by decide)
      | burn => exact hframed (Token2022.frame_burn h) (by decide) (by decide)
      | transferChecked source mint destination authority additional n decimals =>
          by_cases hmint : mint = T
          · subst hmint
            rcases hT.uses h with ⟨-, rfl⟩ | ⟨-, k, a, huses⟩
            · exact hframed (.refl [] _) (by decide) (by decide)
            · exact .executed _ _ _ _ _ _ _ _ rfl huses
          · have hpoints : ¬ PointsTo (Token.tokenStateAddress mint) (complianceAddress T) L :=
              fun hpoints ↦ hmismoves ⟨hmint, hpoints⟩
            exact .aside ((transferChecked_moves h).aside hT.wellFormed.tokenStates hpoints)
      | transfer source destination authority amount =>
          rcases hT.unhooked h with rfl | ⟨hframe, -⟩
          · exact hframed (.refl [] _) (by decide) (by decide)
          · exact hframed hframe (by decide) (by decide)
      | _ => exact nomatch hj

/-- Every instruction that moves tokens, apart from those that book another token
under the compliance state of `T`. -/
theorem process_posts [Borsh] (h : process L signers i = .ok L')
    (hmoves : i.core.moves = true) (hT : Anchored T L)
    (hstate : L.accounts (complianceAddress T) = account state) (hhome : state.tokenMint = T)
    (hmisburns : ¬ i.core.Misburns T) (hmismoves : ¬ i.core.Mismoves T L) :
    Posts T i.core L L' := by
  induction i with
  | token j => exact TokenInstruction.posts h hmoves hT hstate hhome hmisburns hmismoves
  | token2022 j => exact Token2022.posts h hT hmismoves
  | createTokenMint =>
      have hframe := Factory.frame_createTokenMint h
      exact .aside (.of_frame hframe (by decide) (by decide))
  | callModuleFunction owner complianceState inner ih =>
      obtain ⟨_, -, hinner⟩ := bind_eq_ok.1 h
      exact ih hinner hmoves hmisburns hmismoves
  | _ => exact nomatch hmoves

/-- A burn of another token is at most a burn under the compliance state of `T`. -/
theorem misburn_booked [Borsh] (h : process L signers i = .ok L') (hi : i.core.Misburns T)
    (hstate : L.accounts (complianceAddress T) = account state) :
    ∃ X x n, Booked X (complianceAddress T) (.burned x n) L L' := by
  have hcore := process_core h
  generalize i.core = j at hcore hi
  cases j with
  | token j =>
      cases j with
      | burn operator accts wallet amount fromAfter =>
          obtain ⟨ts, _, _, _, -, -, hredeemed⟩ := Token.burn_ok hcore
          exact ⟨_, _, _, hredeemed.booked_home hstate hi.2⟩
      | _ => exact hi.elim
  | _ => exact hi.elim

/-- A burn for another token touches no approvals and no usage records. -/
theorem frame_misburn [Borsh] (h : process L signers i = .ok L') (hi : i.core.Misburns T) :
    Frame [.maxInvestorsModule, .supplyCapModule, .countryInvestorCount, .mint, .tokenAccount]
      L L' := by
  have hcore := process_core h
  generalize i.core = j at hcore hi
  cases j with
  | token j =>
      cases j with
      | burn => exact TokenInstruction.frame hcore
      | _ => exact hi.elim
  | _ => exact hi.elim

/-! ## Instructions that move nothing -/

/-- The counters of `M` are not moved by direct calls, and `M` keeps its hook
authority. -/
def CountersLeft (T M : Pubkey) : Instruction → Prop
  | .compliance j => j.router ≠ some (complianceAddress T)
  | .module (.setMaxInvestorsHookAuthority _ M' _)
  | .module (.setCountryCapHookAuthority _ M' _)
  | .module (.setDailyLimitHookAuthority _ M' _) => M' ≠ M
  | .module j => j.called ≠ some M
  | _ => True

theorem process_countersLeft [Borsh] (h : process L signers i = .ok L') (hflags : FlagsDown L)
    (hstill : i.core.moves = false) (hleft : CountersLeft T M i.core)
    (hserved : (L.accounts M).data.hookAuthority = some (complianceAddress T))
    (hcap : ∀ m : SupplyCapModule, L.accounts M ≠ account m)
    (hM : (L.accounts k).counterModule k = some M) : L'.accounts k = L.accounts k := by
  by_contra hchange
  have hcore := process_core h
  have hreaches := process_reaches h hflags hstill hM hchange
  generalize i.core = j at hcore hreaches hleft
  cases hreaches with
  | @router j C state hj hstate hbound hhook =>
      obtain rfl := Option.some.inj (hhook.symm.trans hserved)
      exact hleft hj
  | @called j hj =>
      cases j with
      | setMaxInvestorsHookAuthority | setCountryCapHookAuthority | setDailyLimitHookAuthority =>
          exact nomatch hj
      | _ => exact hleft hj
  | @administered j hj hsigned =>
      cases j with
      | setMaxInvestorsHookAuthority owner M' hookAuthority =>
          exact hleft (Option.some.inj hj)
      | setSupplyCapHookAuthority owner M' hookAuthority =>
          obtain rfl := Option.some.inj hj
          obtain ⟨-, m, _, hm, -⟩ := updateModuleOwner_eq_ok.1 hcore
          exact hcap m hm
      | setMaxSupply owner M' maxSupply =>
          obtain rfl := Option.some.inj hj
          obtain ⟨-, m, hm, -⟩ := ModSupplyCap.setMaxSupply_eq_ok.1 hcore
          exact hcap m hm
      | _ => exact nomatch hj

/-! ## Settings -/

/-- The settings of a daily limit or a country cap change only with its hook
authority. -/
theorem ModuleInstruction.settings {α : Type} [AccountType α] {m : α} {j : ModuleInstruction}
    (h : j.process L signers = .ok L')
    (hα : kind α ∈ [AccountKind.dailyTransferLimitModule, .investorCountryCapModule])
    (hleft : CountersLeft T M (.module j)) (hM : L.accounts M = account m) :
    L'.accounts M = account m := by
  cases j with
  | initializeCountryCap owner moduleState tokenMint caps =>
      simp only [ModuleInstruction.process, ModCountryCap.initializeModule, bind_eq_ok,
        require_eq_ok, exists_const, Except.ok.injEq] at h
      obtain ⟨L₁, hinit, -, rfl⟩ := h
      obtain ⟨-, hvacant, -, hother⟩ := initializeModuleAccount_ok hinit
      have hne : M ≠ moduleState := by
        rintro rfl
        exact account_ne_vacant m (hM.symm.trans hvacant)
      exact (hother M hne).trans hM
  | initializeDailyLimit owner moduleState tokenMint dailyLimit =>
      obtain ⟨-, hvacant, -, hother⟩ := initializeModuleAccount_ok h
      have hne : M ≠ moduleState := by
        rintro rfl
        exact account_ne_vacant m (hM.symm.trans hvacant)
      exact (hother M hne).trans hM
  | setCountryCapHookAuthority owner moduleState hookAuthority =>
      obtain ⟨-, _, m', -, -, -, -, rfl⟩ := updateModuleOwner_eq_ok.1 h
      exact (put_accounts_of_ne m' (Ne.symm hleft)).trans hM
  | setDailyLimitHookAuthority owner moduleState hookAuthority =>
      obtain ⟨-, _, m', -, -, -, -, rfl⟩ := updateModuleOwner_eq_ok.1 h
      exact (put_accounts_of_ne m' (Ne.symm hleft)).trans hM
  | _ =>
      have hframe := ModuleInstruction.frame h
      refine hframe.accounts_eq ?_ hM
      simp only [List.mem_cons, List.not_mem_nil, or_false] at hα
      rcases hα with hα | hα <;> simp [hα, ModuleInstruction.kinds]

theorem process_settings [Borsh] {α : Type} [AccountType α] {m : α}
    (h : process L signers i = .ok L')
    (hα : kind α ∈ [AccountKind.dailyTransferLimitModule, .investorCountryCapModule])
    (hleft : CountersLeft T M i.core) (hM : L.accounts M = account m) :
    L'.accounts M = account m := by
  have hkinds : kind α = .dailyTransferLimitModule ∨ kind α = .investorCountryCapModule := by
    simpa using hα
  induction i with
  | token j =>
      refine (TokenInstruction.frame h).accounts_eq ?_ hM
      rcases hkinds with hα | hα <;> rw [hα] <;> cases j <;>
        simp [TokenInstruction.kinds, hookKinds, Irs.identityKinds]
  | hook j =>
      refine (HookInstruction.frame h).accounts_eq ?_ hM
      rcases hkinds with hα | hα <;> rw [hα] <;> cases j <;>
        simp [HookInstruction.kinds, hookKinds]
  | compliance j =>
      refine (ComplianceInstruction.frame h).accounts_eq ?_ hM
      rcases hkinds with hα | hα <;> rw [hα] <;> cases j <;>
        simp [ComplianceInstruction.kinds, PostHook.kinds]
  | module j => exact ModuleInstruction.settings h hα hleft hM
  | token2022 j =>
      refine (Token2022.process_frame h).accounts_eq ?_ hM
      rcases hkinds with hα | hα <;> rw [hα] <;> decide
  | createTokenMint =>
      refine (Factory.frame_createTokenMint h).accounts_eq ?_ hM
      rcases hkinds with hα | hα <;> rw [hα] <;> decide
  | callModuleFunction owner complianceState inner ih =>
      obtain ⟨_, -, hinner⟩ := bind_eq_ok.1 h
      exact ih hinner hleft

end Fracks
