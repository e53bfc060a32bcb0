import Fracks.Assets
import Fracks.Deployment
import Fracks.Identity.ClaimIndex

/-!
# What the asset instructions do

An asset goes through a small automaton: every instruction on it has a fixed
effect on its lifecycle and on its dispute flag and leaves the parties of the
asset alone.  The other instructions open an asset or work on a claim of
succession.
-/

namespace Fracks.Assets

open Checked AccountType Ledger Runs

variable {program : ProgramName} {L L' : Ledger} {signers : List Pubkey} {k : Pubkey}

/-! ## The checks -/

theorem loadFid_eq_ok {wallet fidAccount : Pubkey} {invalidFid : FracksAssetRegistryError}
    {fid : FidAccount} :
    loadFid program L wallet fidAccount invalidFid = .ok fid ↔
      L.accounts fidAccount = account fid ∧ fidAccount = fidSeeds program wallet ∧
        fid.owner = wallet := by
  simp only [loadFid, bind_eq_ok, load_eq_ok, requireSeeds_eq_ok, require_eq_ok, exists_const,
    Except.ok.injEq]
  constructor
  · rintro ⟨_, hfid, hseeds, howner, rfl⟩
    exact ⟨hfid, hseeds, howner⟩
  · rintro ⟨hfid, hseeds, howner⟩
    exact ⟨fid, hfid, hseeds, howner, rfl⟩

@[simp] theorem validateRoleTopic_eq_ok {tirState expectedFid : Pubkey} {entry : IssuerEntry}
    {topic : ℕ} {u : Unit} :
    validateRoleTopic tirState entry expectedFid topic = .ok u ↔
      entry.tir = tirState ∧ entry.issuerFid = expectedFid ∧ entry.isActive = true ∧
        topic ∈ entry.allowedTopics := by
  simp only [validateRoleTopic, bind_eq_ok, require_eq_ok, exists_const]

@[simp] theorem validatePositiveValidity_eq_ok {validitySeconds : ℤ} {u : Unit} :
    validatePositiveValidity validitySeconds = .ok u ↔ 0 < validitySeconds :=
  require_eq_ok

theorem modifyAsset_eq_ok {f : AssetRegistry → Result AssetRegistry} :
    modifyAsset L k f = .ok L' ↔
      ∃ r r', L.accounts k = account r ∧ k = assetRegistryAddress r.assetId ∧ f r = .ok r' ∧
        L' = L.put k r' := by
  simp only [modifyAsset, modify_eq_ok, bind_eq_ok, requireSeeds_eq_ok, exists_const, and_assoc]

theorem mutateAsset_eq_ok {authority : Pubkey} {f : AssetRegistry → Result AssetRegistry} :
    mutateAsset L signers authority k f = .ok L' ↔
      authority ∈ signers ∧ ∃ r r', L.accounts k = account r ∧
        k = assetRegistryAddress r.assetId ∧ authority = r.issuer ∧ f r = .ok r' ∧
          L' = L.put k r' := by
  simp only [mutateAsset, bind_eq_ok, requireSigner_eq_ok, require_eq_ok, exists_const,
    modifyAsset_eq_ok, and_assoc]

/-- The context of an attestation: the records it reads. -/
structure RoleContext (program : ProgramName) (L : Ledger) (signers : List Pubkey)
    (accts : RoleAccounts) (r : AssetRegistry) (fid : FidAccount) (entry : IssuerEntry) :
    Prop where
  signed : accts.signer ∈ signers
  assetAt : L.accounts accts.assetRegistry = account r
  assetKey : accts.assetRegistry = assetRegistryAddress r.assetId
  fidAt : L.accounts accts.fidAccount = account fid
  fidKey : accts.fidAccount = fidSeeds program accts.signer
  fidOwner : fid.owner = accts.signer
  registryAt : ∃ tir : TrustedIssuersState, L.accounts accts.tirState = account tir
  entryAt : L.accounts accts.issuerEntry = account entry
  entryTir : entry.tir = accts.tirState

theorem withRole_eq_ok {accts : RoleAccounts} {invalidFid : FracksAssetRegistryError}
    {f : AssetRegistry → FidAccount → IssuerEntry → Result AssetRegistry} :
    withRole program L signers accts invalidFid f = .ok L' ↔
      ∃ r fid entry r', RoleContext program L signers accts r fid entry ∧
        f r fid entry = .ok r' ∧ L' = L.put accts.assetRegistry r' := by
  simp only [withRole, bind_eq_ok, requireSigner_eq_ok, require_eq_ok, exists_const, load_eq_ok,
    modifyAsset_eq_ok, loadFid_eq_ok]
  constructor
  · rintro ⟨hsigned, r, r', hr, hkey, ⟨fid, ⟨hfid, hseeds, howner⟩, tir, htir, entry, hentry,
      hof, hf⟩, rfl⟩
    exact ⟨r, fid, entry, r',
      ⟨hsigned, hr, hkey, hfid, hseeds, howner, ⟨tir, htir⟩, hentry, hof⟩, hf, rfl⟩
  · rintro ⟨r, fid, entry, r', hcontext, hf, rfl⟩
    obtain ⟨tir, htir⟩ := hcontext.registryAt
    exact ⟨hcontext.signed, r, r', hcontext.assetAt, hcontext.assetKey,
      ⟨fid, ⟨hcontext.fidAt, hcontext.fidKey, hcontext.fidOwner⟩, tir, htir, entry,
        hcontext.entryAt, hcontext.entryTir, hf⟩, rfl⟩

/-! ## The automaton of an asset -/

/-- The asset whose record an instruction changes. -/
def Instruction.asset : Instruction → Option Pubkey
  | .attestCustody accts .. | .attestReserve accts .. | .attestValuation accts ..
  | .acceptCustodyMandate accts | .signRedemptionEvent accts _ | .attestMilestone accts .. =>
      some accts.assetRegistry
  | .releaseCustodyMandate _ assetRegistry .. | .releaseEscrowTranche _ assetRegistry ..
  | .distributeApartmentTokens _ assetRegistry _ | .setTitleFlags _ assetRegistry ..
  | .titleDisputeFreeze _ assetRegistry _ | .liftDisputeFreeze _ assetRegistry
  | .transitionLifecycle _ assetRegistry _ | .declareTotalLoss _ assetRegistry _ =>
      some assetRegistry
  | .initializeAssetRegistry .. | .createSuccessionClaim .. | .approveSuccession ..
  | .executeSuccessionTransfer .. => none

/-- The lifecycle after an instruction on the asset. -/
def Instruction.lifecycle : Instruction → AssetLifecycleState → AssetLifecycleState
  | .attestCustody .., state => if state = .pendingCustody then .active else state
  | .attestMilestone _ _ _ completionBps _, _ =>
      if 10000 ≤ completionBps then .constructionComplete else .underConstruction
  | .releaseCustodyMandate .., _ | .titleDisputeFreeze .., _ => .paused
  | .distributeApartmentTokens .., _ => .apartmentDistribution
  | .transitionLifecycle _ _ state, _ => state
  | .declareTotalLoss .., _ => .totalLoss
  | _, state => state

/-- The dispute flag after an instruction on the asset. -/
def Instruction.disputed : Instruction → Bool → Bool
  | .setTitleFlags _ _ titleDisputeFlag _, _ => titleDisputeFlag
  | .titleDisputeFreeze .., _ => true
  | .liftDisputeFreeze .., _ => false
  | _, flag => flag

/-- One move of the automaton; the parties of the asset stay. -/
structure Moved (i : Instruction) (r r' : AssetRegistry) : Prop where
  assetId : r'.assetId = r.assetId
  tokenMint : r'.tokenMint = r.tokenMint
  issuer : r'.issuer = r.issuer
  custodianFid : r'.custodianFid = r.custodianFid
  lifecycle : r'.lifecycleState = i.lifecycle r.lifecycleState
  disputed : r'.titleDisputeFlag = i.disputed r.titleDisputeFlag

theorem process_asset {i : Instruction} (h : process program L signers i = .ok L')
    (hasset : i.asset = some k) :
    ∃ r r', L.accounts k = account r ∧ k = assetRegistryAddress r.assetId ∧ Moved i r r' ∧
      L' = L.put k r' := by
  cases i with
  | attestCustody | attestReserve | attestValuation | acceptCustodyMandate
  | signRedemptionEvent | attestMilestone =>
      obtain rfl := Option.some.inj hasset
      obtain ⟨r, fid, entry, r', hcontext, hf, rfl⟩ := withRole_eq_ok.1 h
      simp only [bind_eq_ok, require_eq_ok, exists_const, Except.ok.injEq] at hf
      refine ⟨r, r', hcontext.assetAt, hcontext.assetKey, ?_, rfl⟩
      grind [Moved, Instruction.lifecycle, Instruction.disputed]
  | releaseCustodyMandate =>
      obtain rfl := Option.some.inj hasset
      simp only [process, releaseCustodyMandate, bind_eq_ok, requireSigner_eq_ok, require_eq_ok,
        exists_const, modifyAsset_eq_ok, Except.ok.injEq] at h
      obtain ⟨-, r, _, hr, hkey, ⟨_, -, -, -, _, -, rfl⟩, rfl⟩ := h
      refine ⟨r, _, hr, hkey, ?_, rfl⟩
      exact ⟨rfl, rfl, rfl, rfl, rfl, rfl⟩
  | releaseEscrowTranche | distributeApartmentTokens | setTitleFlags | titleDisputeFreeze
  | liftDisputeFreeze | transitionLifecycle | declareTotalLoss =>
      obtain rfl := Option.some.inj hasset
      obtain ⟨-, r, r', hr, hkey, -, hf, rfl⟩ := mutateAsset_eq_ok.1 h
      simp only [bind_eq_ok, require_eq_ok, exists_const, Except.ok.injEq] at hf
      refine ⟨r, r', hr, hkey, ?_, rfl⟩
      grind [Moved, Instruction.lifecycle, Instruction.disputed]
  | _ => cases hasset

theorem initializeAssetRegistry_ok {issuer assetRegistry issuerFidAccount : Pubkey}
    {args : InitializeAssetRegistryArgs}
    (h : initializeAssetRegistry program L signers issuer assetRegistry issuerFidAccount args =
      .ok L') :
    (∃ fid, loadFid program L issuer issuerFidAccount .invalidIssuerFid = .ok fid) ∧
      ∃ r : AssetRegistry, L.initRecord issuer assetRegistry (assetRegistryAddress args.assetId)
        assetRegistrySpace r = .ok L' := by
  simp only [initializeAssetRegistry, bind_eq_ok, requireSigner_eq_ok, require_eq_ok,
    exists_const] at h
  obtain ⟨-, fid, hfid, _, -, _, -, -, -, -, hinit⟩ := h
  exact ⟨⟨fid, hfid⟩, _, hinit⟩

/-! ## Claims of succession -/

theorem createSuccessionClaim_ok {claimant successionClaim deceasedWallet : Pubkey}
    {deathCertHash wirasatHash courtRefHash : ℕ}
    (h : createSuccessionClaim L signers claimant successionClaim deceasedWallet deathCertHash
      wirasatHash courtRefHash = .ok L') :
    ∃ claim : SuccessionClaim, claim.status = .pending ∧
      L.initRecord claimant successionClaim (successionAddress deceasedWallet) successionClaimSpace
        claim = .ok L' := by
  simp only [createSuccessionClaim, bind_eq_ok, requireSigner_eq_ok, exists_const] at h
  exact ⟨_, rfl, h.2⟩

theorem approveSuccession_ok {authority successionClaim : Pubkey} {approvalHash : ℕ}
    (h : approveSuccession L signers authority successionClaim approvalHash = .ok L') :
    ∃ claim claim' : SuccessionClaim, L.accounts successionClaim = account claim ∧
      claim.status = .pending ∧ claim'.status = .approved ∧ claim'.claimant = claim.claimant ∧
        L' = L.put successionClaim claim' := by
  simp only [approveSuccession, bind_eq_ok, requireSigner_eq_ok, require_eq_ok, exists_const,
    modify_eq_ok, Except.ok.injEq] at h
  obtain ⟨-, claim, _, hclaim, ⟨hpending, rfl⟩, rfl⟩ := h
  refine ⟨claim, _, hclaim, hpending, ?_, ?_, rfl⟩
  · rfl
  · rfl

theorem executeSuccessionTransfer_ok {authority successionClaim : Pubkey}
    {heirsHash transferHash : ℕ}
    (h : executeSuccessionTransfer L signers authority successionClaim heirsHash transferHash =
      .ok L') :
    ∃ claim claim' : SuccessionClaim, L.accounts successionClaim = account claim ∧
      claim.status = .approved ∧ claim'.status = .executed ∧ claim'.claimant = claim.claimant ∧
        L' = L.put successionClaim claim' := by
  simp only [executeSuccessionTransfer, bind_eq_ok, requireSigner_eq_ok, require_eq_ok,
    exists_const, modify_eq_ok, Except.ok.injEq] at h
  obtain ⟨-, claim, _, hclaim, ⟨happroved, rfl⟩, rfl⟩ := h
  refine ⟨claim, _, hclaim, happroved, ?_, ?_, rfl⟩
  · rfl
  · rfl

/-! ## Frames -/

/-- The kinds of accounts of the program. -/
def assetKinds : List AccountKind := [.assetRegistry, .successionClaim]

/-- The kind of record an instruction writes. -/
def Instruction.kind : Instruction → AccountKind
  | .createSuccessionClaim .. | .approveSuccession .. | .executeSuccessionTransfer .. =>
      .successionClaim
  | _ => .assetRegistry

theorem process_frame {i : Instruction} (h : process program L signers i = .ok L') :
    Frame [i.kind] L L' := by
  cases i with
  | initializeAssetRegistry =>
      obtain ⟨-, r, hinit⟩ := initializeAssetRegistry_ok h
      exact .initRecord hinit (.head _)
  | createSuccessionClaim =>
      obtain ⟨claim, -, hinit⟩ := createSuccessionClaim_ok h
      exact .initRecord hinit (.head _)
  | approveSuccession =>
      obtain ⟨claim, claim', hclaim, -, -, -, rfl⟩ := approveSuccession_ok h
      exact .put hclaim (.head _)
  | executeSuccessionTransfer =>
      obtain ⟨claim, claim', hclaim, -, -, -, rfl⟩ := executeSuccessionTransfer_ok h
      exact .put hclaim (.head _)
  | _ =>
      obtain ⟨r, r', hr, -, -, rfl⟩ := process_asset h rfl
      exact .put hr (.head _)

theorem frame {i : Instruction} (h : process program L signers i = .ok L') :
    Frame assetKinds L L' :=
  (process_frame h).mono fun _ hkind ↦ by
    rw [List.mem_singleton.1 hkind]
    cases i <;> simp [Instruction.kind, assetKinds]

/-- What an instruction does to an asset that is there. -/
theorem process_at {i : Instruction} {r : AssetRegistry}
    (h : process program L signers i = .ok L') (hr : L.accounts k = account r) :
    (i.asset = some k ∧ ∃ r', L'.accounts k = account r' ∧ Moved i r r') ∨
      (i.asset ≠ some k ∧ L'.accounts k = account r) := by
  by_cases hk : i.asset = some k
  · obtain ⟨s, s', hs, -, hmoved, rfl⟩ := process_asset h hk
    obtain rfl := account_inj.1 (hs.symm.trans hr)
    exact .inl ⟨hk, s', put_accounts_self s', hmoved⟩
  · refine .inr ⟨hk, ?_⟩
    cases hasset : i.asset with
    | some x =>
        obtain ⟨s, s', -, -, -, rfl⟩ := process_asset h hasset
        have hx : k ≠ x := fun heq ↦ hk (heq ▸ hasset)
        rw [put_accounts_of_ne s' hx, hr]
    | none =>
        cases i with
        | initializeAssetRegistry =>
            obtain ⟨-, s, hinit⟩ := initializeAssetRegistry_ok h
            obtain ⟨-, hvacant, -, hother⟩ := initRecord_ok hinit
            have hx : k ≠ _ := fun heq ↦ account_ne_vacant r (hr.symm.trans (heq ▸ hvacant))
            rw [hother k hx, hr]
        | createSuccessionClaim | approveSuccession | executeSuccessionTransfer =>
            exact (process_frame h).accounts_eq (by simp [Instruction.kind, AccountType.kind]) hr
        | _ => cases hasset

/-! ## Histories -/

inductive Label
  | instruction (signers : List Pubkey) (i : Instruction)
  | fid (signers : List Pubkey) (i : Fid.Instruction)
  | environment

/-- An instruction of the asset registry or of the FID program, or anything else
that leaves their assets, claims of succession and FIDs alone. -/
inductive Step (program : ProgramName) : Ledger → Label → Ledger → Prop
  | instruction {L L' : Ledger} (signers : List Pubkey) (i : Instruction) :
      process program L signers i = .ok L' → Step program L (.instruction signers i) L'
  | fid {L L' : Ledger} (signers : List Pubkey) (i : Fid.Instruction) :
      Fid.process L signers i = .ok L' → Step program L (.fid signers i) L'
  | environment {L L' : Ledger} (S : List AccountKind) : Frame S L L' →
      (∀ kind ∈ AccountKind.fidAccount :: assetKinds, kind ∉ S) → Step program L .environment L'

/-- FIDs are at the addresses derived from their owners. -/
def FidsDerived (L : Ledger) : Prop :=
  Everywhere (fun k fid ↦ k = Fid.fidAddress fid.owner) (L.view FidAccount)

theorem FidsDerived.written {fid : Pubkey} {old record : FidAccount} (hL : FidsDerived L)
    (hold : L.accounts fid = account old)
    (hfids : L'.view FidAccount = Function.update (L.view FidAccount) fid (some record))
    (howner : record.owner = old.owner) :
    FidsDerived L' := by
  unfold FidsDerived
  rw [hfids]
  refine Everywhere.update hL fun a ha ↦ ?_
  obtain rfl := Option.some.inj ha
  rw [howner]
  exact hL fid old (view_eq_some.2 hold)

theorem FidsDerived.fid {i : Fid.Instruction} (hL : FidsDerived L)
    (h : Fid.process L signers i = .ok L') : FidsDerived L' := by
  cases i with
  | createFid =>
      simp only [Fid.process, Fid.createFid, bind_eq_ok, Except.ok.injEq] at h
      obtain ⟨_, -, ⟨L₁, old⟩, hinit, _, -, _, -, rfl⟩ := h
      obtain ⟨hkey, -, hviews⟩ := view_initIfNeeded (β := FidAccount) hinit
      have hL₁ : FidsDerived L₁ := by
        unfold FidsDerived
        rw [hviews]
        exact hL
      exact Everywhere.put hL₁ hkey
  | setManagementKey =>
      obtain ⟨old, hold, hwritten⟩ := Fid.setManagementKey_ok h
      exact hL.written hold hwritten.fids rfl
  | setSignerKey =>
      obtain ⟨old, hold, hwritten⟩ := Fid.setSignerKey_ok h
      exact hL.written hold hwritten.fids rfl
  | updateFidProfile =>
      obtain ⟨old, hold, -, hwritten⟩ := Fid.updateFidProfile_ok h
      exact hL.written hold hwritten.fids rfl
  | addClaim =>
      obtain ⟨target, _, _, htarget, -, -, -, -, -, hfids, -⟩ := Fid.addClaim_ok h
      exact hL.written htarget hfids rfl
  | revokeClaim =>
      obtain ⟨_, _, -, hfids, -⟩ := Fid.revokeClaim_ok h
      unfold FidsDerived
      rw [hfids]
      exact hL
  | removeClaim =>
      obtain ⟨_, _, -, hfids, -⟩ := Fid.removeClaim_ok h
      unfold FidsDerived
      rw [hfids]
      exact hL

theorem FidsDerived.step {l : Label} (hL : FidsDerived L) (h : Step program L l L') :
    FidsDerived L' := by
  cases h with
  | instruction signers i h => exact hL.of_frame (Assets.frame h) (by decide)
  | fid signers i h => exact hL.fid h
  | environment S hframe hS => exact hL.of_frame hframe (hS _ (by decide))

/-! ## An asset with its parties -/

def assetIssuer : Pubkey := .address 1

def assetCustodian : Pubkey := .address 2

def assetCertifier : Pubkey := .address 3

def outsider : Pubkey := .address 4

def assetMint : Pubkey := .address 10

def otherMint : Pubkey := .address 20

def fidRecord (wallet : Pubkey) : Pubkey × Account :=
  (Fid.fidAddress wallet, account
    { owner := wallet, managementKey := wallet, signerKey := wallet, claimCount := 0
      isIssuer := true, country := 0 : FidAccount })

/-- A registry of issuers with its owner. -/
def tirRecord (mint owner : Pubkey) (issuerCount : ℕ) : Pubkey × Account :=
  (Tir.tirAddress mint, account { owner, tokenMint := mint, issuerCount : TrustedIssuersState })

def entryRecord (mint wallet : Pubkey) (topics : List ℕ) : Pubkey × Account :=
  (Tir.issuerEntryAddress (Tir.tirAddress mint) (Fid.fidAddress wallet), account
    { issuerFid := Fid.fidAddress wallet, tir := Tir.tirAddress mint, allowedTopics := topics
      isActive := true, label := "agent" : IssuerEntry })

/-- The registry of the asset's mint trusts the custodian and the certifier; the
outsider has a registry of another mint. -/
def assetLedger : Ledger :=
  .ofRecords (([assetIssuer, assetCustodian, assetCertifier, outsider].map fidRecord) ++
    [tirRecord assetMint assetIssuer 2, entryRecord assetMint assetCustodian [4],
      entryRecord assetMint assetCertifier [5, 6], tirRecord otherMint outsider 1,
      entryRecord otherMint outsider [4, 5, 6]])

def assetKey : Pubkey := assetRegistryAddress 7

def assetRegistration : Instruction :=
  .initializeAssetRegistry assetIssuer assetKey (Fid.fidAddress assetIssuer)
    { assetId := 7
      tokenMint := assetMint
      issuerFid := Fid.fidAddress assetIssuer
      custodianFid := Fid.fidAddress assetCustodian
      fardRef := "fard"
      spvSecpReg := "spv"
      province := 1
      whitepaperHash := 1
      legalOpinionHash := 2
      insurancePolicyHash := 3
      beneficialOwnerHash := 4
      navValidityDays := 90
      encumbranceFlag := false }

/-- The accounts of an attestation by `wallet` under the registry of `mint`. -/
def roleAccounts (wallet mint entryWallet : Pubkey) : RoleAccounts where
  signer := wallet
  assetRegistry := assetKey
  fidAccount := Fid.fidAddress wallet
  tirState := Tir.tirAddress mint
  issuerEntry := Tir.issuerEntryAddress (Tir.tirAddress mint) (Fid.fidAddress entryWallet)

end Fracks.Assets
