import Fracks.Footprints
import Fracks.Tables
import Fracks.Identity.Storage
import Fracks.Identity.Registry

/-!
# The whole platform

The core programs together with the identity programs: FIDs and claims, the
identity storage and the identity registry.  To the core an instruction of an
identity program is one of the changes that other programs make to accounts of
their own, so every history of the platform is a history of the core.
-/

namespace Fracks

open Checked AccountType Ledger Runs

/-! ## Frames of the identity programs -/

section Frames

variable {L L' : Ledger} {signers : List Pubkey}

theorem Fid.loadClaim_ok {claim claimTopicIndex : Pubkey} {r : ClaimAccount × ClaimTopicIndex}
    (h : Fid.loadClaim L claim claimTopicIndex = .ok r) :
    L.accounts claim = account r.1 ∧ L.accounts claimTopicIndex = account r.2 ∧
      claim = Fid.claimAddress r.1.fid r.1.claimId ∧
        claimTopicIndex = Fid.claimTopicIndexAddress r.1.fid r.1.issuerFid r.1.topic := by
  simp only [Fid.loadClaim, bind_eq_ok, load_eq_ok, requireSeeds_eq_ok, require_eq_ok,
    exists_const, Except.ok.injEq] at h
  obtain ⟨record, hrecord, index, hindex, hclaim, hseeds, -, -, -, rfl⟩ := h
  exact ⟨hrecord, hindex, hclaim, hseeds⟩

theorem Fid.updateFid_ok {authority fid : Pubkey} {f : FidAccount → Result FidAccount}
    (h : Fid.updateFid L signers authority fid f = .ok L') :
    ∃ old new, L.accounts fid = account old ∧ f old = .ok new ∧ L' = L.put fid new := by
  simp only [Fid.updateFid, bind_eq_ok, requireSigner_eq_ok, requireSeeds_eq_ok, require_eq_ok,
    exists_const, modify_eq_ok] at h
  obtain ⟨-, old, new, hold, ⟨-, -, hnew⟩, rfl⟩ := h
  exact ⟨old, new, hold, hnew, rfl⟩

theorem Fid.frame_addClaim {accts : Fid.AddClaimAccounts} {topic : ℕ} {issuerFid : Pubkey}
    {expiresAt : ℤ} (h : Fid.addClaim L signers accts topic issuerFid expiresAt = .ok L') :
    Frame Fid.fidKinds L L' := by
  simp only [Fid.addClaim, bind_eq_ok, requireSigner_eq_ok, requireSeeds_eq_ok, require_eq_ok,
    load_eq_ok, okOr_eq_ok, exists_const, Except.ok.injEq] at h
  obtain ⟨-, target, htarget, -, L₁, hcreate, ⟨L₂, old⟩, hinit, -, -, n, -, rfl⟩ := h
  obtain ⟨hvacant, hother, -⟩ := createAccount_ok hcreate
  obtain ⟨-, hkept, hindex, -⟩ := initIfNeeded_ok hinit
  intro x hx
  by_cases hxt : x = accts.targetFid
  · subst hxt
    rw [htarget, put_accounts_self, kind_account, kind_account]
    exact ⟨.inr (by decide), .inr (by decide)⟩
  rw [put_accounts_of_ne _ hxt] at hx ⊢
  by_cases hxi : x = accts.claimTopicIndex
  · subst hxi
    rw [put_accounts_self, kind_account]
    refine ⟨?_, .inr (by decide)⟩
    by_cases hxc : accts.claimTopicIndex = accts.claim
    · exact .inl (hxc ▸ hvacant)
    · rw [← hother _ hxc]
      rcases hindex with ⟨-, hnone, -⟩ | ⟨a, -, ha, -⟩
      · exact .inl hnone
      · rw [ha, kind_account]
        exact .inr (by decide)
  rw [put_accounts_of_ne _ hxi] at hx ⊢
  by_cases hxc : x = accts.claim
  · subst hxc
    rw [put_accounts_self, kind_account]
    exact ⟨.inl hvacant, .inr (by decide)⟩
  rw [put_accounts_of_ne _ hxc, hkept x hxi, hother x hxc] at hx
  exact absurd rfl hx

theorem Fid.frame {i : Fid.Instruction} (h : Fid.process L signers i = .ok L') :
    Frame Fid.fidKinds L L' := by
  cases i with
  | createFid owner fid isIssuer country =>
      simp only [Fid.process, Fid.createFid, bind_eq_ok, Except.ok.injEq] at h
      obtain ⟨_, -, ⟨L₁, old⟩, hinit, _, -, _, -, rfl⟩ := h
      exact (initIfNeeded_ok hinit).2.2.2 _ (by decide) _
  | setManagementKey owner fid newKey =>
      simp only [Fid.process, Fid.setManagementKey, bind_eq_ok] at h
      obtain ⟨_, -, hmodify⟩ := h
      exact .modify hmodify (by decide)
  | setSignerKey authority fid newKey =>
      obtain ⟨old, new, hold, -, rfl⟩ := Fid.updateFid_ok h
      exact .put hold (by decide)
  | updateFidProfile authority fid isIssuer country =>
      obtain ⟨old, new, hold, -, rfl⟩ := Fid.updateFid_ok h
      exact .put hold (by decide)
  | addClaim accts topic issuerFid expiresAt => exact Fid.frame_addClaim h
  | revokeClaim issuerOwner claim claimTopicIndex =>
      simp only [Fid.process, Fid.revokeClaim, bind_eq_ok, Except.ok.injEq] at h
      obtain ⟨_, -, ⟨record, index⟩, hload, _, -, rfl⟩ := h
      obtain ⟨hrecord, hindex, -⟩ := Fid.loadClaim_ok hload
      have hput : Frame Fid.fidKinds L (L.put claim { record with revoked := true }) :=
        .put hrecord (by decide)
      refine hput.trans (.put (a := index) ?_ (by decide))
      rw [put_accounts_of_ne _ (ne_of_kind hindex hrecord (by decide)), hindex]
  | removeClaim authority fid claim claimTopicIndex =>
      simp only [Fid.process, Fid.removeClaim, bind_eq_ok, Except.ok.injEq] at h
      obtain ⟨_, -, _, -, ⟨record, index⟩, hload, _, -, _, -, rfl⟩ := h
      obtain ⟨hrecord, hindex, -⟩ := Fid.loadClaim_ok hload
      have hput : Frame Fid.fidKinds L
          (L.put claimTopicIndex (Fid.withoutClaim index claim)) := .put hindex (by decide)
      refine hput.trans (.close (a := record) ?_ (by decide))
      rw [put_accounts_of_ne _ (ne_of_kind hrecord hindex (by decide)), hrecord]

/-- The kinds that the core touches when it does not call the identity storage. -/
def coreKinds : List AccountKind :=
  [.tokenState, .ownerState, .agentRole, .subscriptionEscrow, .frozenWallet, .partialFreeze,
    .transferApproval, .extraAccountMetas, .complianceState, .maxInvestorsModule,
    .supplyCapModule, .investorCountryCapModule, .countryInvestorCount,
    .dailyTransferLimitModule, .dailyWalletUsage, .countryRestrictModule, .maxBalanceModule,
    .maxTransferModule, .lockupModule, .mint, .tokenAccount]

/-- The instruction finalizes a recovery, which calls the identity storage. -/
def Instruction.Finalizes (i : Instruction) : Prop :=
  ∃ operator accts lostWallet newWallet amount,
    i.core = .token (.finalizeRecovery operator accts lostWallet newWallet amount)

theorem Instruction.kinds_cases (i : Instruction) :
    i.kinds ⊆ coreKinds ∨ i.Finalizes ∧ i.kinds = Irs.identityKinds := by
  induction i with
  | token i =>
      cases i with
      | finalizeRecovery operator accts lostWallet newWallet amount =>
          exact .inr ⟨⟨operator, accts, lostWallet, newWallet, amount, rfl⟩, rfl⟩
      | _ => exact .inl (by simp [Instruction.kinds, TokenInstruction.kinds, TokenHook.hookKinds,
          coreKinds])
  | hook i =>
      left
      cases i <;> simp [Instruction.kinds, HookInstruction.kinds, TokenHook.hookKinds, coreKinds]
  | compliance i =>
      left
      cases i <;> simp [Instruction.kinds, ComplianceInstruction.kinds, Compliance.PostHook.kinds,
        coreKinds]
  | module i =>
      left
      cases i <;> simp [Instruction.kinds, ModuleInstruction.kinds, coreKinds]
  | token2022 i => exact .inl (by simp [Instruction.kinds, TokenHook.hookKinds, coreKinds])
  | createTokenMint => exact .inl (by simp [Instruction.kinds, coreKinds])
  | callModuleFunction _ _ inner ih => exact ih

theorem frame_core [Borsh] {i : Instruction} (h : process L signers i = .ok L') :
    Frame (coreKinds ++ Irs.identityKinds) L L' := by
  refine (process_frame h).mono ?_
  rcases i.kinds_cases with hkinds | ⟨-, hkinds⟩
  · exact List.subset_append_of_subset_left _ hkinds
  · rw [hkinds]
    exact List.subset_append_right _ _

/-- Without a recovery to finalize the core leaves the identity storage alone. -/
theorem frame_core_of_not_finalizes [Borsh] {i : Instruction} (hi : ¬ i.Finalizes)
    (h : process L signers i = .ok L') : Frame coreKinds L L' :=
  (process_frame h).mono (i.kinds_cases.resolve_right fun hfinalizes ↦ hi hfinalizes.1)

/-- The kinds of accounts of the identity storage. -/
def Irs.kinds : List AccountKind :=
  [.identityRegistryStorageState, .walletIdentity, .onboardingApplication]

theorem Irs.identityKinds_subset : Irs.identityKinds ⊆ Irs.kinds := by decide

theorem Irs.loadIrsState_ok {irsState : Pubkey} {state : IdentityRegistryStorageState}
    (h : Irs.loadIrsState L irsState = .ok state) :
    L.accounts irsState = account state ∧ irsState = Irs.irsAddress state.authoritySeed := by
  simp only [Irs.loadIrsState, bind_eq_ok, load_eq_ok, requireSeeds_eq_ok, exists_const,
    Except.ok.injEq] at h
  obtain ⟨_, hstate, hseeds, rfl⟩ := h
  exact ⟨hstate, hseeds⟩

theorem Irs.updateIrsOwnerState_ok {owner irsState : Pubkey}
    {f : IdentityRegistryStorageState → Result IdentityRegistryStorageState}
    (h : Irs.updateIrsOwnerState L signers owner irsState f = .ok L') :
    ∃ old new, L.accounts irsState = account old ∧ f old = .ok new ∧ L' = L.put irsState new := by
  simp only [Irs.updateIrsOwnerState, bind_eq_ok, requireSigner_eq_ok, requireSeeds_eq_ok,
    require_eq_ok, exists_const, modify_eq_ok] at h
  obtain ⟨-, old, new, hold, ⟨-, -, hnew⟩, rfl⟩ := h
  exact ⟨old, new, hold, hnew, rfl⟩

theorem Irs.frame_updateIrsOwnerState {owner irsState : Pubkey}
    {f : IdentityRegistryStorageState → Result IdentityRegistryStorageState}
    (h : Irs.updateIrsOwnerState L signers owner irsState f = .ok L') :
    Frame Irs.kinds L L' := by
  obtain ⟨old, new, hold, -, rfl⟩ := Irs.updateIrsOwnerState_ok h
  exact .put hold (by decide)

theorem Irs.frame_submitOnboardingApplication {applicant irsState application wallet : Pubkey}
    (h : Irs.submitOnboardingApplication L signers applicant irsState application wallet = .ok L') :
    Frame [.onboardingApplication] L L' := by
  simp only [Irs.submitOnboardingApplication, bind_eq_ok, Except.ok.injEq] at h
  obtain ⟨_, -, _, -, ⟨L₁, old⟩, hinit, _, -, rfl⟩ := h
  exact (initIfNeeded_ok hinit).2.2.2 _ (by decide) _

theorem Irs.frame_reviewOnboardingApplication [Borsh]
    {authority irsState registryState application : Pubkey} {approved : Bool}
    (h : Irs.reviewOnboardingApplication L signers authority irsState registryState application
      approved = .ok L') : Frame [.onboardingApplication] L L' := by
  simp only [Irs.reviewOnboardingApplication, bind_eq_ok, load_eq_ok, Except.ok.injEq] at h
  obtain ⟨_, -, _, -, record, hrecord, _, -, _, -, _, -, _, -, rfl⟩ := h
  exact .put hrecord (by decide)

theorem Irs.frame_cancelOnboardingApplication {authority irsState application : Pubkey}
    (h : Irs.cancelOnboardingApplication L signers authority irsState application = .ok L') :
    Frame [.onboardingApplication] L L' := by
  simp only [Irs.cancelOnboardingApplication, bind_eq_ok, load_eq_ok, Except.ok.injEq] at h
  obtain ⟨_, -, _, -, record, hrecord, _, -, _, -, _, -, rfl⟩ := h
  exact .close hrecord (by decide)

theorem Irs.frame [Borsh] {i : Irs.Instruction} (h : Irs.process L signers i = .ok L') :
    Frame Irs.kinds L L' := by
  cases i with
  | initializeIrs owner irsState authoritySeed =>
      simp only [Irs.process, Irs.initializeIrs, bind_eq_ok] at h
      obtain ⟨_, -, hinit⟩ := h
      exact .initRecord hinit (by decide)
  | bindRegistry owner irsState irp => exact Irs.frame_updateIrsOwnerState h
  | unbindRegistry owner irsState irp => exact Irs.frame_updateIrsOwnerState h
  | transferOwnership owner irsState newOwner => exact Irs.frame_updateIrsOwnerState h
  | registerIdentity accts fidAccount wallet fid country =>
      simp only [Irs.process, Irs.registerIdentity, bind_eq_ok, Except.ok.injEq] at h
      obtain ⟨_, -, state, hstate, _, -, _, -, ⟨L₁, old⟩, hinit, _, -, _, -, _, -, _, -, n, -,
        rfl⟩ := h
      obtain ⟨hstate, -⟩ := Irs.loadIrsState_ok hstate
      have hkept : L₁.accounts accts.irsState = account state := by
        rw [← view_eq_some, (view_initIfNeeded hinit).2.2, view_eq_some, hstate]
      have hput := (initIfNeeded_ok hinit).2.2.2 Irs.kinds (by decide)
        { wallet, fid, country, irs := accts.irsState, isActive := false, activatedBy := .default,
          activatedAt := 0 : WalletIdentity }
      refine hput.trans (.put (a := state) ?_ (by decide))
      rw [put_accounts_of_ne _ (initIfNeeded_ne hinit (by decide) hkept), hkept]
  | submitOnboardingApplication applicant irsState application wallet =>
      exact (Irs.frame_submitOnboardingApplication h).mono (by decide)
  | reviewOnboardingApplication authority irsState registryState application approved =>
      exact (Irs.frame_reviewOnboardingApplication h).mono (by decide)
  | cancelOnboardingApplication authority irsState application =>
      exact (Irs.frame_cancelOnboardingApplication h).mono (by decide)
  | setIdentityActivation owner irsState walletIdentity active =>
      simp only [Irs.process, Irs.setIdentityActivation, bind_eq_ok, load_eq_ok,
        Except.ok.injEq] at h
      obtain ⟨_, -, _, -, _, -, identity, hidentity, _, -, _, -, rfl⟩ := h
      exact .put hidentity (by decide)
  | updateIdentity accts newFid =>
      exact (Irs.frame_updateIdentity h).mono Irs.identityKinds_subset
  | updateCountry accts newCountry =>
      exact (Irs.frame_updateCountry h).mono Irs.identityKinds_subset
  | removeIdentity accts => exact (Irs.frame_removeIdentity h).mono Irs.identityKinds_subset
  | removeOwnIdentity owner irsState walletIdentity =>
      simp only [Irs.process, Irs.removeOwnIdentity, bind_eq_ok, load_eq_ok,
        Except.ok.injEq] at h
      obtain ⟨_, -, state, hstate, identity, hidentity, _, -, _, -, _, -, n, -, rfl⟩ := h
      obtain ⟨hstate, -⟩ := Irs.loadIrsState_ok hstate
      have hput : Frame Irs.kinds L (L.put irsState { state with registeredCount := n }) :=
        .put hstate (by decide)
      refine hput.trans (.close (a := identity) ?_ (by decide))
      rw [put_accounts_of_ne _ (ne_of_kind hidentity hstate (by decide)), hidentity]

theorem Irp.frame_updateRegistryOwner {owner registryState : Pubkey}
    {f : IdentityRegistryState → Result IdentityRegistryState}
    (h : Irp.updateRegistryOwner L signers owner registryState f = .ok L') :
    Frame [.identityRegistryState] L L' := by
  simp only [Irp.updateRegistryOwner, bind_eq_ok] at h
  obtain ⟨_, -, hmodify⟩ := h
  exact .modify hmodify (by decide)

theorem Irp.frame {i : Irp.Instruction} (h : Irp.process L signers i = .ok L') :
    Frame [.identityRegistryState] L L' := by
  cases i with
  | initializeRegistry owner registryState tokenMint irs tir ctr =>
      simp only [Irp.process, Irp.initializeRegistry, bind_eq_ok] at h
      obtain ⟨_, -, hinit⟩ := h
      exact .initRecord hinit (by decide)
  | _ => exact Irp.frame_updateRegistryOwner h

end Frames

/-! ## Histories of the platform -/

namespace Platform

inductive Instruction
  | core (i : Fracks.Instruction)
  | fid (i : Fid.Instruction)
  | irs (i : Irs.Instruction)
  | irp (i : Irp.Instruction)

/-- The kinds that belong to programs outside the platform. -/
def outsideKinds : List AccountKind :=
  [.foreign, .offeringTerms, .trustedIssuersState, .claimTopicsState, .issuerEntry, .factoryState,
    .tokenDeployment, .platformAuthority, .custodyMandate, .custodyAttestation, .assetRegistry,
    .successionClaim, .governanceState, .proposal, .voteRecord]

inductive Label
  | instruction (signers : List Pubkey) (i : Instruction)
  | environment

/-- What the core sees of a step. -/
def Label.seen : Label → Fracks.Label
  | .instruction signers (.core i) => .instruction signers i
  | _ => .environment

variable [Borsh]

def process (L : Ledger) (signers : List Pubkey) : Instruction → Result Ledger
  | .core i => Fracks.process L signers i
  | .fid i => Fid.process L signers i
  | .irs i => Irs.process L signers i
  | .irp i => Irp.process L signers i

inductive Step : Ledger → Label → Ledger → Prop
  | instruction {L L' : Ledger} (signers : List Pubkey) (i : Instruction) :
      (∀ k ∈ signers, k.External) → process L signers i = .ok L' →
        Step L (.instruction signers i) L'
  | environment {L L' : Ledger} : Frame outsideKinds L L' → Step L .environment L'

variable {L L' : Ledger} {l : Label} {labels : List Label}

theorem Step.seen (h : Step L l L') : Fracks.Step L l.seen L' := by
  cases h with
  | instruction signers i hexternal h =>
      cases i with
      | core i => exact .instruction signers i hexternal h
      | fid i => exact .environment ((Fid.frame h).mono (by decide))
      | irs i => exact .environment ((Irs.frame h).mono (by decide))
      | irp i => exact .environment ((Irp.frame h).mono (by decide))
  | environment hframe => exact .environment (hframe.mono (by decide))

/-- Every history of the platform is a history of the core. -/
theorem run_seen (h : Run Step L labels L') :
    Run Fracks.Step L (labels.map Label.seen) L' := by
  induction h with
  | nil => exact .nil _
  | cons hstep _ ih => exact .cons hstep.seen ih

end Platform

end Fracks
