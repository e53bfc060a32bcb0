import Fracks.Identity.Fid
import Fracks.Identity.Issuers

/-!
# The asset registry

`fracks_asset_registry`: the record of an asset with what its custodian, its
valuers and its certifiers attest, its lifecycle and title flags, and the claims
of succession.  Three contexts read the FID of the signer by a `seeds`
constraint; the program under which its address is derived is a parameter here.
-/

namespace Fracks.Assets

open Checked AccountType Ledger

def topicCustodianAuthority : ℕ := 4

def topicValuationAuthority : ℕ := 5

def topicConstructionAuthority : ℕ := 6

def maxFardRefLen : ℕ := 64

def maxSpvRegLen : ℕ := 64

def assetRegistrySpace : ℕ := 8 + 1536

def successionClaimSpace : ℕ := 8 + 384

def assetRegistryAddress (assetId : ℕ) : Pubkey :=
  .findProgramAddress .assetRegistry [.num assetId] (.program .fracksAssetRegistry)

def successionAddress (deceasedWallet : Pubkey) : Pubkey :=
  .findProgramAddress .succession [.key deceasedWallet] (.program .fracksAssetRegistry)

/-- The address that the seeds of a FID give under `program`. -/
def fidSeeds (program : ProgramName) (wallet : Pubkey) : Pubkey :=
  .findProgramAddress .fid [.key wallet] (.program program)

/-- A `seeds` constraint that names no program derives under the program it is in. -/
def seedsProgram : ProgramName := .fracksAssetRegistry

structure InitializeAssetRegistryArgs where
  assetId : ℕ
  tokenMint : Pubkey
  issuerFid : Pubkey
  custodianFid : Pubkey
  fardRef : String
  spvSecpReg : String
  province : ℕ
  whitepaperHash : ℕ
  legalOpinionHash : ℕ
  insurancePolicyHash : ℕ
  beneficialOwnerHash : ℕ
  navValidityDays : ℕ
  encumbranceFlag : Bool

/-- The accounts of an attestation: the custodian, valuer or certifier, the asset,
the FID of the signer, and a registry of issuers with one of its entries. -/
structure RoleAccounts where
  signer : Pubkey
  assetRegistry : Pubkey
  fidAccount : Pubkey
  tirState : Pubkey
  issuerEntry : Pubkey

/-! ## Checks -/

def validateFardRef (value : String) : Result Unit :=
  require (value.utf8ByteSize ≤ maxFardRefLen) (.assetRegistry .fardRefTooLong)

def validateSpvSecpReg (value : String) : Result Unit :=
  require (value.utf8ByteSize ≤ maxSpvRegLen) (.assetRegistry .spvRegTooLong)

def validatePositiveValidity (validitySeconds : ℤ) : Result Unit :=
  require (0 < validitySeconds) (.assetRegistry .invalidValidityWindow)

def validateRoleTopic (tirState : Pubkey) (entry : IssuerEntry) (expectedFid : Pubkey)
    (topic : ℕ) : Result Unit := do
  require (entry.tir = tirState) (.assetRegistry .roleNotTrusted)
  require (entry.issuerFid = expectedFid) (.assetRegistry .roleNotTrusted)
  require (entry.isActive = true) (.assetRegistry .roleNotTrusted)
  require (topic ∈ entry.allowedTopics) (.assetRegistry .roleTopicMissing)

/-- The FID of a signer, at its seeds and owned by the signer. -/
def loadFid (program : ProgramName) (L : Ledger) (wallet fidAccount : Pubkey)
    (invalidFid : FracksAssetRegistryError) : Result FidAccount := do
  let fid ← L.load FidAccount fidAccount
  requireSeeds fidAccount (fidSeeds program wallet)
  require (fid.owner = wallet) (.assetRegistry invalidFid)
  .ok fid

/-- An asset at its seeds, changed by `f`. -/
def modifyAsset (L : Ledger) (assetRegistry : Pubkey)
    (f : AssetRegistry → Result AssetRegistry) : Result Ledger :=
  L.modify assetRegistry fun registry ↦ do
    requireSeeds assetRegistry (assetRegistryAddress registry.assetId)
    f registry

/-- The contexts `CustodyAttestation`, `ValuationAttestation` and
`ConstructionAttestation`, which differ in the error of the FID constraint. -/
def withRole (program : ProgramName) (L : Ledger) (signers : List Pubkey) (accts : RoleAccounts)
    (invalidFid : FracksAssetRegistryError)
    (f : AssetRegistry → FidAccount → IssuerEntry → Result AssetRegistry) : Result Ledger := do
  requireSigner signers accts.signer
  modifyAsset L accts.assetRegistry fun registry ↦ do
    let fid ← loadFid program L accts.signer accts.fidAccount invalidFid
    let _ ← L.load TrustedIssuersState accts.tirState
    let entry ← L.load IssuerEntry accts.issuerEntry
    require (entry.tir = accts.tirState) (.assetRegistry .roleNotTrusted)
    f registry fid entry

/-- The context `IssuerOrAdminMutateAsset`. -/
def mutateAsset (L : Ledger) (signers : List Pubkey) (authority assetRegistry : Pubkey)
    (f : AssetRegistry → Result AssetRegistry) : Result Ledger := do
  requireSigner signers authority
  modifyAsset L assetRegistry fun registry ↦ do
    require (authority = registry.issuer) (.assetRegistry .unauthorizedAssetAuthority)
    f registry

/-! ## Assets -/

def initializeAssetRegistry (program : ProgramName) (L : Ledger) (signers : List Pubkey)
    (issuer assetRegistry issuerFidAccount : Pubkey) (args : InitializeAssetRegistryArgs) :
    Result Ledger := do
  requireSigner signers issuer
  let fid ← loadFid program L issuer issuerFidAccount .invalidIssuerFid
  validateFardRef args.fardRef
  validateSpvSecpReg args.spvSecpReg
  require (args.custodianFid ≠ args.issuerFid) (.assetRegistry .custodianCannotEqualIssuer)
  require (issuerFidAccount = args.issuerFid) (.assetRegistry .invalidIssuerFid)
  require (fid.owner = issuer) (.assetRegistry .invalidIssuerFid)
  L.initRecord issuer assetRegistry (assetRegistryAddress args.assetId) assetRegistrySpace
    { assetId := args.assetId
      tokenMint := args.tokenMint
      issuer
      issuerFid := args.issuerFid
      fardRef := args.fardRef
      spvSecpReg := args.spvSecpReg
      province := args.province
      whitepaperHash := args.whitepaperHash
      legalOpinionHash := args.legalOpinionHash
      custodianFid := args.custodianFid
      custodyDocumentHash := 0
      custodyAttestationHash := 0
      custodyAttestationDate := 0
      custodyAttestationExpiry := 0
      valuerFid := .default
      currentNav := 0
      navDate := 0
      navValidityDays := args.navValidityDays
      lifecycleState := .pendingCustody
      titleDisputeFlag := false
      encumbranceFlag := args.encumbranceFlag
      insurancePolicyHash := args.insurancePolicyHash
      beneficialOwnerHash := args.beneficialOwnerHash
      valuationMethodologyHash := 0
      reserveAttestationHash := 0
      reserveRatioBps := 0
      lastReserveAttestation := 0
      insuranceClaimHash := 0
      mandateStatus := .pending
      mandateAcceptedAt := 0
      mandateReleasedAt := 0
      releaseNoticeExpiry := 0
      releaseReasonHash := 0
      currentMilestoneId := 0
      currentMilestoneHash := 0
      currentCompletionBps := 0
      escrowReleasedTotal := 0
      apartmentDistributionHash := 0
      titleDisputeOrderHash := 0
      lastRedemptionEventHash := 0
      createdAt := L.now
      updatedAt := L.now : AssetRegistry }

/-! ## Custody -/

def attestCustody (program : ProgramName) (L : Ledger) (signers : List Pubkey)
    (accts : RoleAccounts) (documentHash attestationHash : ℕ) (validitySeconds : ℤ) :
    Result Ledger :=
  withRole program L signers accts .invalidCustodianFid fun registry fid entry ↦ do
    validatePositiveValidity validitySeconds
    validateRoleTopic accts.tirState entry registry.custodianFid topicCustodianAuthority
    require (accts.fidAccount = registry.custodianFid) (.assetRegistry .invalidCustodianFid)
    require (fid.owner = accts.signer) (.assetRegistry .unauthorizedCustodian)
    let expiry ← okOr (checkedAddI64 L.now validitySeconds) (.assetRegistry .arithmeticOverflow)
    .ok { registry with
      custodyDocumentHash := documentHash
      custodyAttestationHash := attestationHash
      custodyAttestationDate := L.now
      custodyAttestationExpiry := expiry
      updatedAt := L.now
      lifecycleState :=
        if registry.lifecycleState = .pendingCustody then .active else registry.lifecycleState }

def attestReserve (program : ProgramName) (L : Ledger) (signers : List Pubkey)
    (accts : RoleAccounts) (reserveRatioBps attestationHash : ℕ) (validitySeconds : ℤ) :
    Result Ledger :=
  withRole program L signers accts .invalidCustodianFid fun registry fid entry ↦ do
    require (reserveRatioBps ≤ 10000) (.assetRegistry .invalidReserveRatio)
    validatePositiveValidity validitySeconds
    validateRoleTopic accts.tirState entry registry.custodianFid topicCustodianAuthority
    require (fid.owner = accts.signer) (.assetRegistry .unauthorizedCustodian)
    let expiry ← okOr (checkedAddI64 L.now validitySeconds) (.assetRegistry .arithmeticOverflow)
    .ok { registry with
      reserveRatioBps
      reserveAttestationHash := attestationHash
      lastReserveAttestation := L.now
      custodyAttestationExpiry := expiry
      updatedAt := L.now }

def acceptCustodyMandate (program : ProgramName) (L : Ledger) (signers : List Pubkey)
    (accts : RoleAccounts) : Result Ledger :=
  withRole program L signers accts .invalidCustodianFid fun registry fid entry ↦ do
    validateRoleTopic accts.tirState entry registry.custodianFid topicCustodianAuthority
    require (fid.owner = accts.signer) (.assetRegistry .unauthorizedCustodian)
    .ok { registry with
      mandateStatus := .accepted
      mandateAcceptedAt := L.now
      updatedAt := L.now }

/-- The issuer or the custodian ends the mandate; the FID account is any FID. -/
def releaseCustodyMandate (L : Ledger) (signers : List Pubkey)
    (authority assetRegistry custodianFidAccount : Pubkey) (reasonHash : ℕ) (noticeSeconds : ℤ) :
    Result Ledger := do
  requireSigner signers authority
  modifyAsset L assetRegistry fun registry ↦ do
    let fid ← L.load FidAccount custodianFidAccount
    require (0 ≤ noticeSeconds) (.assetRegistry .invalidValidityWindow)
    require (authority = registry.issuer ∨
        fid.owner = authority ∧ custodianFidAccount = registry.custodianFid)
      (.assetRegistry .unauthorizedAssetAuthority)
    let expiry ← okOr (checkedAddI64 L.now noticeSeconds) (.assetRegistry .arithmeticOverflow)
    .ok { registry with
      releaseReasonHash := reasonHash
      releaseNoticeExpiry := expiry
      mandateReleasedAt := L.now
      mandateStatus := .releasePending
      lifecycleState := .paused
      updatedAt := L.now }

def signRedemptionEvent (program : ProgramName) (L : Ledger) (signers : List Pubkey)
    (accts : RoleAccounts) (redemptionHash : ℕ) : Result Ledger :=
  withRole program L signers accts .invalidCustodianFid fun registry fid entry ↦ do
    validateRoleTopic accts.tirState entry registry.custodianFid topicCustodianAuthority
    require (fid.owner = accts.signer) (.assetRegistry .unauthorizedCustodian)
    .ok { registry with lastRedemptionEventHash := redemptionHash, updatedAt := L.now }

/-! ## Valuation and construction -/

def attestValuation (program : ProgramName) (L : Ledger) (signers : List Pubkey)
    (accts : RoleAccounts) (nav methodologyHash navValidityDays : ℕ) : Result Ledger :=
  withRole program L signers accts .invalidValuerFid fun registry fid entry ↦ do
    require (0 < nav) (.assetRegistry .invalidNav)
    require (0 < navValidityDays) (.assetRegistry .invalidNavValidity)
    validateRoleTopic accts.tirState entry accts.fidAccount topicValuationAuthority
    require (fid.owner = accts.signer) (.assetRegistry .unauthorizedValuer)
    .ok { registry with
      valuerFid := accts.fidAccount
      currentNav := nav
      navDate := L.now
      navValidityDays
      valuationMethodologyHash := methodologyHash
      updatedAt := L.now }

def attestMilestone (program : ProgramName) (L : Ledger) (signers : List Pubkey)
    (accts : RoleAccounts) (milestoneId certHash completionBps updatedNav : ℕ) : Result Ledger :=
  withRole program L signers accts .invalidCertifierFid fun registry fid entry ↦ do
    require (0 < milestoneId) (.assetRegistry .invalidMilestone)
    require (completionBps ≤ 10000) (.assetRegistry .invalidCompletionRatio)
    require (0 < updatedNav) (.assetRegistry .invalidNav)
    validateRoleTopic accts.tirState entry accts.fidAccount topicConstructionAuthority
    require (fid.owner = accts.signer) (.assetRegistry .unauthorizedCertifier)
    .ok { registry with
      currentMilestoneId := milestoneId
      currentMilestoneHash := certHash
      currentCompletionBps := completionBps
      currentNav := updatedNav
      navDate := L.now
      lifecycleState := if 10000 ≤ completionBps then .constructionComplete else .underConstruction
      updatedAt := L.now }

/-! ## Actions of the issuer -/

def releaseEscrowTranche (L : Ledger) (signers : List Pubkey) (authority assetRegistry : Pubkey)
    (milestoneId amount : ℕ) : Result Ledger :=
  mutateAsset L signers authority assetRegistry fun registry ↦ do
    require (0 < amount) (.assetRegistry .invalidEscrowAmount)
    require (milestoneId ≤ registry.currentMilestoneId) (.assetRegistry .milestoneNotAttested)
    let released ← okOr (checkedAdd registry.escrowReleasedTotal amount)
      (.assetRegistry .arithmeticOverflow)
    .ok { registry with escrowReleasedTotal := released, updatedAt := L.now }

def distributeApartmentTokens (L : Ledger) (signers : List Pubkey)
    (authority assetRegistry : Pubkey) (distributionHash : ℕ) : Result Ledger :=
  mutateAsset L signers authority assetRegistry fun registry ↦
    .ok { registry with
      apartmentDistributionHash := distributionHash
      lifecycleState := .apartmentDistribution
      updatedAt := L.now }

def setTitleFlags (L : Ledger) (signers : List Pubkey) (authority assetRegistry : Pubkey)
    (titleDisputeFlag encumbranceFlag : Bool) : Result Ledger :=
  mutateAsset L signers authority assetRegistry fun registry ↦
    .ok { registry with titleDisputeFlag, encumbranceFlag, updatedAt := L.now }

def titleDisputeFreeze (L : Ledger) (signers : List Pubkey) (authority assetRegistry : Pubkey)
    (courtOrderHash : ℕ) : Result Ledger :=
  mutateAsset L signers authority assetRegistry fun registry ↦
    .ok { registry with
      titleDisputeFlag := true
      titleDisputeOrderHash := courtOrderHash
      lifecycleState := .paused
      updatedAt := L.now }

def liftDisputeFreeze (L : Ledger) (signers : List Pubkey) (authority assetRegistry : Pubkey) :
    Result Ledger :=
  mutateAsset L signers authority assetRegistry fun registry ↦
    .ok { registry with titleDisputeFlag := false, updatedAt := L.now }

def transitionLifecycle (L : Ledger) (signers : List Pubkey) (authority assetRegistry : Pubkey)
    (lifecycleState : AssetLifecycleState) : Result Ledger :=
  mutateAsset L signers authority assetRegistry fun registry ↦
    .ok { registry with lifecycleState, updatedAt := L.now }

def declareTotalLoss (L : Ledger) (signers : List Pubkey) (authority assetRegistry : Pubkey)
    (insuranceClaimHash : ℕ) : Result Ledger :=
  mutateAsset L signers authority assetRegistry fun registry ↦
    .ok { registry with
      insuranceClaimHash
      lifecycleState := .totalLoss
      updatedAt := L.now }

/-! ## Succession -/

def createSuccessionClaim (L : Ledger) (signers : List Pubkey)
    (claimant successionClaim deceasedWallet : Pubkey)
    (deathCertHash wirasatHash courtRefHash : ℕ) : Result Ledger := do
  requireSigner signers claimant
  L.initRecord claimant successionClaim (successionAddress deceasedWallet) successionClaimSpace
    { deceasedWallet
      claimant
      approver := .default
      deathCertHash
      wirasatHash
      courtRefHash
      approvalHash := 0
      heirsHash := 0
      transferHash := 0
      status := .pending
      createdAt := L.now
      approvedAt := 0
      executedAt := 0 : SuccessionClaim }

/-- Whoever signs is the approver. -/
def approveSuccession (L : Ledger) (signers : List Pubkey) (authority successionClaim : Pubkey)
    (approvalHash : ℕ) : Result Ledger := do
  requireSigner signers authority
  L.modify successionClaim fun (claim : SuccessionClaim) ↦ do
    require (claim.status = .pending) (.assetRegistry .invalidSuccessionStatus)
    .ok { claim with
      status := .approved
      approver := authority
      approvalHash
      approvedAt := L.now }

def executeSuccessionTransfer (L : Ledger) (signers : List Pubkey)
    (authority successionClaim : Pubkey) (heirsHash transferHash : ℕ) : Result Ledger := do
  requireSigner signers authority
  L.modify successionClaim fun (claim : SuccessionClaim) ↦ do
    require (claim.status = .approved) (.assetRegistry .invalidSuccessionStatus)
    .ok { claim with
      status := .executed
      heirsHash
      transferHash
      executedAt := L.now }

/-! ## Instructions -/

inductive Instruction
  | initializeAssetRegistry (issuer assetRegistry issuerFidAccount : Pubkey)
      (args : InitializeAssetRegistryArgs)
  | attestCustody (accts : RoleAccounts) (documentHash attestationHash : ℕ) (validitySeconds : ℤ)
  | attestReserve (accts : RoleAccounts) (reserveRatioBps attestationHash : ℕ)
      (validitySeconds : ℤ)
  | attestValuation (accts : RoleAccounts) (nav methodologyHash navValidityDays : ℕ)
  | acceptCustodyMandate (accts : RoleAccounts)
  | releaseCustodyMandate (authority assetRegistry custodianFidAccount : Pubkey)
      (reasonHash : ℕ) (noticeSeconds : ℤ)
  | signRedemptionEvent (accts : RoleAccounts) (redemptionHash : ℕ)
  | attestMilestone (accts : RoleAccounts) (milestoneId certHash completionBps updatedNav : ℕ)
  | releaseEscrowTranche (authority assetRegistry : Pubkey) (milestoneId amount : ℕ)
  | distributeApartmentTokens (authority assetRegistry : Pubkey) (distributionHash : ℕ)
  | setTitleFlags (authority assetRegistry : Pubkey) (titleDisputeFlag encumbranceFlag : Bool)
  | titleDisputeFreeze (authority assetRegistry : Pubkey) (courtOrderHash : ℕ)
  | liftDisputeFreeze (authority assetRegistry : Pubkey)
  | createSuccessionClaim (claimant successionClaim deceasedWallet : Pubkey)
      (deathCertHash wirasatHash courtRefHash : ℕ)
  | approveSuccession (authority successionClaim : Pubkey) (approvalHash : ℕ)
  | executeSuccessionTransfer (authority successionClaim : Pubkey) (heirsHash transferHash : ℕ)
  | transitionLifecycle (authority assetRegistry : Pubkey) (lifecycleState : AssetLifecycleState)
  | declareTotalLoss (authority assetRegistry : Pubkey) (insuranceClaimHash : ℕ)

def process (program : ProgramName) (L : Ledger) (signers : List Pubkey) :
    Instruction → Result Ledger
  | .initializeAssetRegistry issuer assetRegistry issuerFidAccount args =>
      Assets.initializeAssetRegistry program L signers issuer assetRegistry issuerFidAccount args
  | .attestCustody accts documentHash attestationHash validitySeconds =>
      Assets.attestCustody program L signers accts documentHash attestationHash validitySeconds
  | .attestReserve accts reserveRatioBps attestationHash validitySeconds =>
      Assets.attestReserve program L signers accts reserveRatioBps attestationHash validitySeconds
  | .attestValuation accts nav methodologyHash navValidityDays =>
      Assets.attestValuation program L signers accts nav methodologyHash navValidityDays
  | .acceptCustodyMandate accts => Assets.acceptCustodyMandate program L signers accts
  | .releaseCustodyMandate authority assetRegistry custodianFidAccount reasonHash noticeSeconds =>
      Assets.releaseCustodyMandate L signers authority assetRegistry custodianFidAccount reasonHash
        noticeSeconds
  | .signRedemptionEvent accts redemptionHash =>
      Assets.signRedemptionEvent program L signers accts redemptionHash
  | .attestMilestone accts milestoneId certHash completionBps updatedNav =>
      Assets.attestMilestone program L signers accts milestoneId certHash completionBps updatedNav
  | .releaseEscrowTranche authority assetRegistry milestoneId amount =>
      Assets.releaseEscrowTranche L signers authority assetRegistry milestoneId amount
  | .distributeApartmentTokens authority assetRegistry distributionHash =>
      Assets.distributeApartmentTokens L signers authority assetRegistry distributionHash
  | .setTitleFlags authority assetRegistry titleDisputeFlag encumbranceFlag =>
      Assets.setTitleFlags L signers authority assetRegistry titleDisputeFlag encumbranceFlag
  | .titleDisputeFreeze authority assetRegistry courtOrderHash =>
      Assets.titleDisputeFreeze L signers authority assetRegistry courtOrderHash
  | .liftDisputeFreeze authority assetRegistry =>
      Assets.liftDisputeFreeze L signers authority assetRegistry
  | .createSuccessionClaim claimant successionClaim deceasedWallet deathCertHash wirasatHash
      courtRefHash =>
      Assets.createSuccessionClaim L signers claimant successionClaim deceasedWallet deathCertHash
        wirasatHash courtRefHash
  | .approveSuccession authority successionClaim approvalHash =>
      Assets.approveSuccession L signers authority successionClaim approvalHash
  | .executeSuccessionTransfer authority successionClaim heirsHash transferHash =>
      Assets.executeSuccessionTransfer L signers authority successionClaim heirsHash transferHash
  | .transitionLifecycle authority assetRegistry lifecycleState =>
      Assets.transitionLifecycle L signers authority assetRegistry lifecycleState
  | .declareTotalLoss authority assetRegistry insuranceClaimHash =>
      Assets.declareTotalLoss L signers authority assetRegistry insuranceClaimHash

end Fracks.Assets
