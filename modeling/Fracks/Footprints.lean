import Fracks.World

/-!
# Footprints

Every instruction touches accounts of its kinds only.  What is not of these
kinds, and what environment steps do not own, is carried through a step.
-/

namespace Fracks

open Checked AccountType Ledger HookedModule

variable {L L' : Ledger} {signers : List Pubkey}

/-! ## The programs one by one -/

theorem frame_initializeExtraAccountMetas {accts : TokenHook.MetasAccounts}
    (h : TokenHook.initializeExtraAccountMetas L signers accts = .ok L') :
    Frame [.extraAccountMetas] L L' := by
  simp only [TokenHook.initializeExtraAccountMetas, bind_eq_ok, requireSigner_eq_ok,
    requireSeeds_eq_ok, require_eq_ok, exists_const, Except.ok.injEq] at h
  obtain ⟨-, -, L₁, hcreate, _, -, _, -, _, -, -, _, -, metas, -, rfl⟩ := h
  exact .create hcreate (by decide)

theorem frame_refreshExtraAccountMetas {accts : TokenHook.MetasAccounts}
    (h : TokenHook.refreshExtraAccountMetas L signers accts = .ok L') :
    Frame [.extraAccountMetas] L L' := by
  simp only [TokenHook.refreshExtraAccountMetas, bind_eq_ok, requireSigner_eq_ok,
    requireSeeds_eq_ok, require_eq_ok, okOr_eq_ok, view_eq_some, exists_const,
    Except.ok.injEq] at h
  obtain ⟨-, -, _, -, _, -, -, _, -, old, hold, metas, -, rfl⟩ := h
  exact .put hold (by decide)

theorem frame_updateComplianceOwner {owner complianceState : Pubkey}
    {f : ComplianceState → Result ComplianceState}
    (h : Compliance.updateComplianceOwner L signers owner complianceState f = .ok L') :
    Frame [.complianceState] L L' := by
  simp only [Compliance.updateComplianceOwner, bind_eq_ok, requireSigner_eq_ok,
    exists_const] at h
  exact .modify h.2 (by decide)

theorem frame_updateModuleOwner {α : Type} [AccountType α] [HookedModule α]
    {caller moduleState : Pubkey} {f : α → Result α}
    (h : updateModuleOwner L signers caller moduleState f = .ok L') : Frame [kind α] L L' := by
  obtain ⟨-, m, m', hm, -, -, -, rfl⟩ := updateModuleOwner_eq_ok.1 h
  exact .put hm (by simp)

theorem frame_mutateModule {α : Type} [AccountType α] [HookedModule α]
    {authority moduleState : Pubkey} {f : α → Result α}
    (h : mutateModule L signers authority moduleState f = .ok L') : Frame [kind α] L L' := by
  obtain ⟨-, m, m', hm, -, -, -, rfl⟩ := mutateModule_eq_ok.1 h
  exact .put hm (by simp)

theorem frame_initializeCountryCap {owner moduleState tokenMint : Pubkey}
    {caps : List CountryCapEntry}
    (h : ModCountryCap.initializeModule L signers owner moduleState tokenMint caps = .ok L') :
    Frame [.investorCountryCapModule] L L' := by
  simp only [ModCountryCap.initializeModule, bind_eq_ok, require_eq_ok, exists_const,
    Except.ok.injEq] at h
  obtain ⟨L₁, hinit, -, rfl⟩ := h
  exact frame_initializeModuleAccount hinit (by decide)

theorem frame_initializeCountryRestrict {owner moduleState tokenMint : Pubkey}
    {countries : List ℕ}
    (h : ModCountryRestrict.initializeModule L signers owner moduleState tokenMint countries =
      .ok L') : Frame [.countryRestrictModule] L L' := by
  simp only [ModCountryRestrict.initializeModule, bind_eq_ok, require_eq_ok, exists_const,
    Except.ok.injEq] at h
  obtain ⟨L₁, hinit, -, rfl⟩ := h
  exact frame_initializeModuleAccount hinit (by decide)

theorem initializeCountryCount_ok {owner moduleState countryCount : Pubkey} {country : ℕ}
    (h : ModCountryCap.initializeCountryCount L signers owner moduleState countryCount country =
      .ok L') :
    L.accounts countryCount = .vacant ∧
      L'.accounts countryCount =
        account ({ module := moduleState, country, count := 0 } : CountryInvestorCount) ∧
      (∀ x, x ≠ countryCount → L'.accounts x = L.accounts x) ∧
        Frame [.countryInvestorCount] L L' := by
  simp only [ModCountryCap.initializeCountryCount, bind_eq_ok, requireSigner_eq_ok, load_eq_ok,
    requireSeeds_eq_ok, exists_const] at h
  obtain ⟨-, m, -, -, hinit⟩ := h
  obtain ⟨-, hvacant, hnew, hother⟩ := initRecord_ok hinit
  exact ⟨hvacant, hnew, hother, .initRecord hinit (by decide)⟩

theorem frame_initializeWalletUsage {owner moduleState walletUsage wallet : Pubkey}
    (h : ModDailyLimit.initializeWalletUsage L signers owner moduleState walletUsage wallet =
      .ok L') : Frame [.dailyWalletUsage] L L' := by
  simp only [ModDailyLimit.initializeWalletUsage, bind_eq_ok, requireSigner_eq_ok, load_eq_ok,
    requireSeeds_eq_ok, exists_const] at h
  obtain ⟨-, m, -, -, hinit⟩ := h
  exact .initRecord hinit (by decide)

theorem frame_countryCapTransferred {authority moduleState fromCount toCount : Pubkey}
    {amount fromAfter toAfter fromCountry toCountry : ℕ}
    (h : ModCountryCap.transferred L signers authority moduleState fromCount toCount amount
      fromAfter toAfter fromCountry toCountry = .ok L') : Frame [.countryInvestorCount] L L' := by
  obtain ⟨-, m, cf, ct, cf', ct', -, hf, ht, -, -, -, -, -, rfl⟩ := ModCountryCap.transferred_ok h
  have hfirst : Frame [.countryInvestorCount] L (L.put fromCount cf') := .put hf (by decide)
  refine hfirst.trans ?_
  by_cases htf : toCount = fromCount
  · subst htf
    exact .put (put_accounts_self cf') (by decide)
  · exact .put (a := ct) (by rw [put_accounts_of_ne cf' htf, ht]) (by decide)

theorem frame_updateSingleCountryCount {authority moduleState count : Pubkey}
    {f : CountryInvestorCount → Result CountryInvestorCount}
    (h : ModCountryCap.updateSingleCountryCount L signers authority moduleState count f = .ok L') :
    Frame [.countryInvestorCount] L L' := by
  obtain ⟨-, m, c, c', -, hc, -, -, -, -, rfl⟩ := ModCountryCap.updateSingleCountryCount_ok h
  exact .put hc (by decide)

theorem frame_dailyLimitTransferred {authority moduleState usage wallet : Pubkey} {amount : ℕ}
    (h : ModDailyLimit.transferred L signers authority moduleState usage wallet amount = .ok L') :
    Frame [.dailyWalletUsage] L L' := by
  obtain ⟨-, m, r, -, hr, -, -, -, -, -, -, rfl⟩ := ModDailyLimit.transferred_ok h
  exact .put hr (by decide)

/-- The call of the compliance program is a call of the router or does nothing. -/
theorem invokeCompliance_ok {complianceProgram complianceState : Pubkey} {call : Result Ledger}
    (h : Token.invokeCompliance L complianceProgram complianceState call = .ok L') :
    complianceProgram = (L.accounts complianceState).owner ∧
      ((complianceProgram = .program .fracksCompliance ∧ call = .ok L') ∨
        (complianceProgram ≠ .program .fracksCompliance ∧ L' = L)) := by
  simp only [Token.invokeCompliance, bind_eq_ok, require_eq_ok, exists_const] at h
  obtain ⟨howner, h⟩ := h
  refine ⟨howner, ?_⟩
  split at h
  case isTrue hprogram => exact .inl ⟨hprogram, h⟩
  case isFalse hprogram =>
    split at h
    · obtain ⟨_, -, h⟩ := bind_eq_ok.1 h
      exact .inr ⟨hprogram, (Except.ok.inj h).symm⟩
    · exact .inr ⟨hprogram, (Except.ok.inj h).symm⟩

theorem frame_invokeComplianceCreated {complianceProgram complianceState : Pubkey}
    {remaining : List Pubkey} {amount toAfter toCountry : ℕ}
    (h : Token.invokeComplianceCreated L complianceProgram complianceState remaining amount toAfter
      toCountry = .ok L') : Frame Compliance.PostHook.created.kinds L L' := by
  obtain ⟨-, ⟨-, hcall⟩ | ⟨-, rfl⟩⟩ := invokeCompliance_ok h
  · obtain ⟨state, hstep⟩ := Compliance.created_step hcall
    exact hstep.frame
  · exact .refl _ _

theorem frame_invokeComplianceDestroyed {complianceProgram complianceState : Pubkey}
    {remaining : List Pubkey} {amount fromAfter fromCountry : ℕ}
    (h : Token.invokeComplianceDestroyed L complianceProgram complianceState remaining amount
      fromAfter fromCountry = .ok L') : Frame Compliance.PostHook.destroyed.kinds L L' := by
  obtain ⟨-, ⟨-, hcall⟩ | ⟨-, rfl⟩⟩ := invokeCompliance_ok h
  · obtain ⟨state, hstep⟩ := Compliance.destroyed_step hcall
    exact hstep.frame
  · exact .refl _ _

section Transfers

variable [Borsh] {ts : TokenState} {amount country : ℕ} {s d : TokenAccount} {L₁ L₂ : Ledger}

theorem frame_issue {accts : Token.ReceiverAccounts}
    (h : Token.Issue L L' ts accts amount country d L₁ L₂) :
    Frame [.subscriptionEscrow, .maxInvestorsModule, .supplyCapModule, .countryInvestorCount,
      .mint, .tokenAccount] L L' := by
  obtain ⟨_, hminted⟩ := h.minted
  have hbooked := frame_invokeComplianceCreated h.booked
  exact ((h.paid.mono (by decide)).trans (hbooked.mono (by decide))).trans
    ((Token2022.frame_mintTo hminted).mono (by decide))

omit [Borsh] in
theorem frame_redemption {accts : Token.BurnAccounts}
    (h : Token.Redemption L L' ts accts amount country s L₁) :
    Frame [.maxInvestorsModule, .supplyCapModule, .countryInvestorCount, .mint, .tokenAccount]
      L L' := by
  obtain ⟨_, hburned⟩ := h.burned
  have hbooked := frame_invokeComplianceDestroyed h.booked
  exact (hbooked.mono (by decide)).trans ((Token2022.frame_burn hburned).mono (by decide))

omit [Borsh] in
theorem frame_controllerTransfer {accts : Token.ControllerTransferAccounts}
    {source destination : Pubkey}
    (h : Token.ControllerTransfer L L' ts accts source destination amount s d L₁ L₂) :
    Frame (.partialFreeze :: .tokenAccount :: TokenHook.hookKinds) L L' := by
  obtain ⟨_, _, _, -, -, -, -, happroved⟩ := h.approved
  obtain ⟨_, _, hmoved⟩ := h.moved
  exact ((TokenHook.approveTransfer_frame happroved (by decide)).trans
    ((Token2022.frame_transferChecked hmoved).mono (by decide))).trans
      (h.released.mono (by decide))

end Transfers

/-! ## All instructions -/

section Process

variable [Borsh]

theorem TokenInstruction.frame {i : TokenInstruction} (h : i.process L signers = .ok L') :
    Frame i.kinds L L' := by
  cases i with
  | initializeToken => exact Token.frame_initializeToken h
  | initializeMintMetadata =>
      obtain rfl := Token.initializeMintMetadata_ok h
      exact .refl _ _
  | transfer =>
      obtain ⟨_, _, _, _, _, happroved, -⟩ := Token.transfer_eq_ok.1 h
      exact TokenHook.approveTransfer_frame happroved.approves (List.Subset.refl _)
  | mint =>
      obtain ⟨_, _, _, _, _, hissue⟩ := Token.mint_ok h
      exact frame_issue hissue
  | purchaseMint =>
      obtain ⟨_, _, _, _, _, hissue⟩ := Token.purchaseMint_ok h
      exact frame_issue hissue
  | depositSubscription => exact Token.frame_depositSubscription h
  | settleSubscriptionMint =>
      obtain ⟨_, _, _, _, _, _, hissue⟩ := Token.settleSubscriptionMint_ok h
      exact frame_issue hissue
  | burn =>
      obtain ⟨_, _, _, _, -, -, hredeemed⟩ := Token.burn_ok h
      exact frame_redemption hredeemed
  | forcedTransfer =>
      obtain ⟨_, _, _, _, _, htransfer, -⟩ := Token.forcedTransfer_ok h
      exact frame_controllerTransfer htransfer
  | recovery =>
      obtain ⟨_, _, _, _, htransfer⟩ := Token.recovery_ok h
      exact frame_controllerTransfer htransfer
  | finalizeRecovery => exact Token.frame_finalizeRecovery h
  | pause =>
      rw [TokenInstruction.process, Token.pause] at h
      exact Token.frame_updateTokenState h
  | unpause =>
      rw [TokenInstruction.process, Token.unpause] at h
      exact Token.frame_updateTokenState h
  | setIdentityRegistry =>
      rw [TokenInstruction.process, Token.setIdentityRegistry] at h
      exact Token.frame_updateTokenState h
  | setCompliance =>
      rw [TokenInstruction.process, Token.setCompliance] at h
      exact Token.frame_updateTokenState h
  | transferOwnership => exact Token.frame_transferOwnership h
  | addAgent => exact Token.frame_addAgent h
  | removeAgent => exact Token.frame_removeAgent h
  | freezeWallet => exact Token.frame_freezeWallet h
  | unfreezeWallet => exact Token.frame_unfreezeWallet h
  | freezePartial =>
      obtain ⟨_, -, -, -, -, hframe⟩ := Token.freezePartial_ok h
      exact hframe
  | unfreezePartial => exact Token.frame_unfreezePartial h

omit [Borsh] in
theorem HookInstruction.frame {i : HookInstruction} (h : i.process L signers = .ok L') :
    Frame i.kinds L L' := by
  cases i with
  | initializeExtraAccountMetas => exact frame_initializeExtraAccountMetas h
  | refreshExtraAccountMetas => exact frame_refreshExtraAccountMetas h
  | approveTransfer => exact TokenHook.approveTransfer_frame h (List.Subset.refl _)
  | executeTransferHook =>
      obtain ⟨_, _, _, _, _, hexecuted⟩ := TokenHook.executeTransferHook_ok h
      exact hexecuted.frame

omit [Borsh] in
theorem ComplianceInstruction.frame {i : ComplianceInstruction}
    (h : i.process L signers = .ok L') : Frame i.kinds L L' := by
  cases i with
  | initializeCompliance =>
      obtain ⟨-, -, hinit⟩ := bind_eq_ok.1 h
      exact .initRecord hinit (List.mem_singleton.2 rfl)
  | bindModule => exact frame_updateComplianceOwner h
  | unbindModule => exact frame_updateComplianceOwner h
  | setModulesPaused => exact frame_updateComplianceOwner h
  | transferOwnership => exact frame_updateComplianceOwner h
  | canTransfer =>
      obtain ⟨_, -, hsame⟩ := bind_eq_ok.1 h
      obtain rfl := Except.ok.inj hsame
      exact .refl _ _
  | transferred =>
      obtain ⟨state, hstep⟩ := Compliance.transferred_step h
      exact hstep.frame
  | created =>
      obtain ⟨state, hstep⟩ := Compliance.created_step h
      exact hstep.frame
  | destroyed =>
      obtain ⟨state, hstep⟩ := Compliance.destroyed_step h
      exact hstep.frame

omit [Borsh] in
theorem ModuleInstruction.frame {i : ModuleInstruction} (h : i.process L signers = .ok L') :
    Frame i.kinds L L' := by
  cases i with
  | initializeMaxInvestors => exact frame_initializeModuleAccount h (List.mem_singleton.2 rfl)
  | initializeSupplyCap => exact frame_initializeModuleAccount h (List.mem_singleton.2 rfl)
  | initializeCountryCap => exact frame_initializeCountryCap h
  | initializeDailyLimit => exact frame_initializeModuleAccount h (List.mem_singleton.2 rfl)
  | initializeCountryRestrict => exact frame_initializeCountryRestrict h
  | initializeMaxBalance => exact frame_initializeModuleAccount h (List.mem_singleton.2 rfl)
  | initializeMaxTransfer => exact frame_initializeModuleAccount h (List.mem_singleton.2 rfl)
  | initializeLockup => exact frame_initializeModuleAccount h (List.mem_singleton.2 rfl)
  | setMaxInvestorsHookAuthority => exact frame_updateModuleOwner h
  | setSupplyCapHookAuthority => exact frame_updateModuleOwner h
  | setCountryCapHookAuthority => exact frame_updateModuleOwner h
  | setDailyLimitHookAuthority => exact frame_updateModuleOwner h
  | setMaxSupply => exact frame_updateModuleOwner h
  | initializeCountryCount => exact (initializeCountryCount_ok h).2.2.2
  | initializeWalletUsage => exact frame_initializeWalletUsage h
  | maxInvestorsTransferred => exact frame_mutateModule h
  | maxInvestorsCreated => exact frame_mutateModule h
  | maxInvestorsDestroyed => exact frame_mutateModule h
  | supplyCapCreated => exact frame_mutateModule h
  | supplyCapDestroyed => exact frame_mutateModule h
  | countryCapTransferred => exact frame_countryCapTransferred h
  | countryCapCreated => exact frame_updateSingleCountryCount h
  | countryCapDestroyed => exact frame_updateSingleCountryCount h
  | dailyLimitTransferred => exact frame_dailyLimitTransferred h

/-- An instruction touches accounts of its kinds only. -/
theorem process_frame {i : Instruction} (h : process L signers i = .ok L') :
    Frame i.kinds L L' := by
  induction i with
  | token i => exact TokenInstruction.frame h
  | hook i => exact HookInstruction.frame h
  | compliance i => exact ComplianceInstruction.frame h
  | module i => exact ModuleInstruction.frame h
  | token2022 i => exact Token2022.process_frame h
  | createTokenMint => exact Factory.frame_createTokenMint h
  | callModuleFunction owner complianceState inner ih =>
      obtain ⟨_, -, hinner⟩ := bind_eq_ok.1 h
      exact ih hinner

end Process

end Fracks
