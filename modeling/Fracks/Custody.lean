import Fracks.Factory
import Fracks.Identity.Fid

/-!
# Custody in the factory

`fracks_factory` records which FIDs it trusts in a role, the mandate of a
custodian for an asset, and the attestation that the custodian gives under the
mandate.  A suite is only deployed for an asset whose mandate and attestation
pass the custody gate.
-/

namespace Fracks.Factory

open Checked AccountType Ledger

def topicCustodianAuthority : ℕ := 4

def maxAttestationValiditySeconds : ℤ := 365 * 24 * 60 * 60

def factoryStateSpace : ℕ := 8 + 32 * 8 + 8 + 1

def platformAuthoritySpace : ℕ := 8 + 32 + 8 + 1 + 8 + 1

def custodyMandateSpace : ℕ := 8 + 8 + 32 * 4 + 2 + 8 * 4 + 1

def custodyAttestationSpace : ℕ := 8 + 8 + 32 * 6 + 2 + 8 * 2 + 1 + 1

def factoryStateAddress : Pubkey :=
  .findProgramAddress .factoryState [] (.program .fracksFactory)

def platformAuthorityAddress (authorityFid : Pubkey) (topic : ℕ) : Pubkey :=
  .findProgramAddress .platformAuthority [.key authorityFid, .num topic] (.program .fracksFactory)

def custodyMandateAddress (assetId : ℕ) : Pubkey :=
  .findProgramAddress .custodyMandate [.num assetId] (.program .fracksFactory)

def custodyAttestationAddress (custodyMandate : Pubkey) : Pubkey :=
  .findProgramAddress .custodyAttestation [.key custodyMandate] (.program .fracksFactory)

/-! ## The factory -/

structure InitializeFactory where
  owner : Pubkey
  factoryState : Pubkey
  tokenProgram : Pubkey
  irpProgram : Pubkey
  irsProgram : Pubkey
  tirProgram : Pubkey
  ctrProgram : Pubkey
  complianceProgram : Pubkey

structure ProgramIds where
  tokenProgramId : Pubkey
  fidProgramId : Pubkey
  irpProgramId : Pubkey
  irsProgramId : Pubkey
  tirProgramId : Pubkey
  ctrProgramId : Pubkey
  complianceProgramId : Pubkey

def initializeFactory (L : Ledger) (signers : List Pubkey) (accts : InitializeFactory) :
    Result Ledger := do
  requireSigner signers accts.owner
  requireProgram accts.tokenProgram .fracksToken
  requireProgram accts.irpProgram .fracksIrp
  requireProgram accts.irsProgram .fracksIrs
  requireProgram accts.tirProgram .fracksTir
  requireProgram accts.ctrProgram .fracksCtr
  requireProgram accts.complianceProgram .fracksCompliance
  L.initRecord accts.owner accts.factoryState factoryStateAddress factoryStateSpace
    { owner := accts.owner
      tokenProgramId := accts.tokenProgram
      fidProgramId := .program .fracksFid
      irpProgramId := accts.irpProgram
      irsProgramId := accts.irsProgram
      tirProgramId := accts.tirProgram
      ctrProgramId := accts.ctrProgram
      complianceProgramId := accts.complianceProgram
      deploymentCount := 0 : FactoryState }

/-- The factory state at its seeds, changed by its owner. -/
def updateFactoryState (L : Ledger) (signers : List Pubkey) (owner factoryState : Pubkey)
    (f : FactoryState → Result FactoryState) : Result Ledger := do
  requireSigner signers owner
  L.modify factoryState fun (state : FactoryState) ↦ do
    requireSeeds factoryState factoryStateAddress
    require (owner = state.owner) (.factory .notOwner)
    f state

def updateProgramIds (L : Ledger) (signers : List Pubkey) (owner factoryState : Pubkey)
    (programIds : ProgramIds) : Result Ledger :=
  updateFactoryState L signers owner factoryState fun state ↦
    .ok { state with
      tokenProgramId := programIds.tokenProgramId
      fidProgramId := programIds.fidProgramId
      irpProgramId := programIds.irpProgramId
      irsProgramId := programIds.irsProgramId
      tirProgramId := programIds.tirProgramId
      ctrProgramId := programIds.ctrProgramId
      complianceProgramId := programIds.complianceProgramId }

def transferFactoryOwnership (L : Ledger) (signers : List Pubkey)
    (owner factoryState newOwner : Pubkey) : Result Ledger :=
  updateFactoryState L signers owner factoryState fun state ↦ do
    require (newOwner ≠ .default) (.factory .invalidOwner)
    .ok { state with owner := newOwner }

/-- The factory state at its seeds, read. -/
def loadFactoryState (L : Ledger) (factoryState : Pubkey) : Result FactoryState := do
  let state ← L.load FactoryState factoryState
  requireSeeds factoryState factoryStateAddress
  .ok state

/-! ## Roles -/

def approvePlatformAuthority (L : Ledger) (signers : List Pubkey)
    (admin factoryState platformAuthority authorityFid : Pubkey) (topic : ℕ) : Result Ledger := do
  requireSigner signers admin
  let state ← loadFactoryState L factoryState
  require (state.owner = admin) (.factory .notOwner)
  let (L, _) ← L.initIfNeeded PlatformAuthority admin platformAuthority
    (platformAuthorityAddress authorityFid topic) platformAuthoritySpace
  .ok (L.put platformAuthority
    { authorityFid, topic, active := true, createdAt := L.now : PlatformAuthority })

def revokePlatformAuthority (L : Ledger) (signers : List Pubkey)
    (admin factoryState platformAuthority authorityFid : Pubkey) (topic : ℕ) : Result Ledger := do
  requireSigner signers admin
  let state ← loadFactoryState L factoryState
  require (state.owner = admin) (.factory .notOwner)
  L.modify platformAuthority fun (role : PlatformAuthority) ↦ do
    requireSeeds platformAuthority (platformAuthorityAddress authorityFid topic)
    require (role.authorityFid = authorityFid) (.factory .platformAuthorityMissing)
    require (role.topic = topic) (.factory .platformAuthorityMissing)
    .ok { role with active := false }

/-! ## Mandates -/

structure CreateCustodyMandate where
  authority : Pubkey
  factoryState : Pubkey
  issuer : Pubkey
  issuerFidAccount : Pubkey
  custodianFidAccount : Pubkey
  custodianAuthority : Pubkey
  custodyMandate : Pubkey

def createCustodyMandate (L : Ledger) (signers : List Pubkey) (accts : CreateCustodyMandate)
    (assetId : ℕ) (issuerFid custodian custodianFid : Pubkey) : Result Ledger := do
  requireSigner signers accts.authority
  let state ← loadFactoryState L accts.factoryState
  let issuerFidAccount ← L.load FidAccount accts.issuerFidAccount
  requireSeeds accts.issuerFidAccount (Fid.fidAddress accts.issuer)
  let custodianFidAccount ← L.load FidAccount accts.custodianFidAccount
  requireSeeds accts.custodianFidAccount (Fid.fidAddress custodian)
  let custodianAuthority ← L.load PlatformAuthority accts.custodianAuthority
  requireSeeds accts.custodianAuthority
    (platformAuthorityAddress custodianFid topicCustodianAuthority)
  require (custodian ≠ .default) (.factory .invalidCustodian)
  require (issuerFid ≠ custodianFid) (.factory .custodianCannotEqualIssuer)
  require (accts.authority = accts.issuer ∨ accts.authority = state.owner)
    (.factory .unauthorizedCustodyMandate)
  require (accts.issuerFidAccount = issuerFid) (.factory .invalidIssuerFid)
  require (issuerFidAccount.owner = accts.issuer) (.factory .invalidIssuerFid)
  require (accts.custodianFidAccount = custodianFid) (.factory .invalidCustodianFid)
  require (custodianFidAccount.owner = custodian) (.factory .invalidCustodianFid)
  require (custodianAuthority.active = true ∧
      custodianAuthority.topic = topicCustodianAuthority ∧
      custodianAuthority.authorityFid = custodianFid) (.factory .platformAuthorityMissing)
  L.initRecord accts.authority accts.custodyMandate (custodyMandateAddress assetId)
    custodyMandateSpace
    { assetId
      issuer := accts.issuer
      issuerFid
      custodian
      custodianFid
      active := false
      accepted := false
      createdAt := L.now
      acceptedAt := 0
      releasedAt := 0
      releaseNoticeAt := 0 : CustodyMandate }

def acceptCustodyMandate (L : Ledger) (signers : List Pubkey)
    (custodian custodyMandate custodianFidAccount : Pubkey) : Result Ledger := do
  requireSigner signers custodian
  let fid ← L.load FidAccount custodianFidAccount
  requireSeeds custodianFidAccount (Fid.fidAddress custodian)
  L.modify custodyMandate fun (mandate : CustodyMandate) ↦ do
    requireSeeds custodyMandate (custodyMandateAddress mandate.assetId)
    require (custodian = mandate.custodian) (.factory .unauthorizedCustodian)
    require (custodianFidAccount = mandate.custodianFid) (.factory .invalidCustodianFid)
    require (fid.owner = mandate.custodian) (.factory .invalidCustodianFid)
    .ok { mandate with
      accepted := true
      active := true
      acceptedAt := L.now
      releasedAt := 0
      releaseNoticeAt := 0 }

def releaseCustodyMandate (L : Ledger) (signers : List Pubkey)
    (authority factoryState custodyMandate : Pubkey) : Result Ledger := do
  requireSigner signers authority
  let state ← loadFactoryState L factoryState
  L.modify custodyMandate fun (mandate : CustodyMandate) ↦ do
    requireSeeds custodyMandate (custodyMandateAddress mandate.assetId)
    require (authority = mandate.custodian ∨ authority = state.owner)
      (.factory .unauthorizedCustodyRelease)
    .ok { mandate with active := false, releasedAt := L.now }

/-! ## Attestations -/

def validateAttestationAuthority (custodian : Pubkey) (mandate : CustodyMandate) :
    Result Unit := do
  require (mandate.active = true ∧ mandate.accepted = true) (.factory .custodyMandateInactive)
  require (custodian = mandate.custodian) (.factory .unauthorizedCustodian)

def validateAttestationValidity (validitySeconds : ℤ) : Result Unit :=
  require (0 < validitySeconds ∧ validitySeconds ≤ maxAttestationValiditySeconds)
    (.factory .invalidAttestationValidity)

/-- A mandate at its seeds, read. -/
def loadCustodyMandate (L : Ledger) (custodyMandate : Pubkey) : Result CustodyMandate := do
  let mandate ← L.load CustodyMandate custodyMandate
  requireSeeds custodyMandate (custodyMandateAddress mandate.assetId)
  .ok mandate

def attestCustody (L : Ledger) (signers : List Pubkey)
    (custodian custodyMandate custodyAttestation : Pubkey) (documentHash attestationHash : ℕ)
    (validitySeconds : ℤ) : Result Ledger := do
  requireSigner signers custodian
  let mandate ← loadCustodyMandate L custodyMandate
  let (L, _) ← L.initIfNeeded CustodyAttestation custodian custodyAttestation
    (custodyAttestationAddress custodyMandate) custodyAttestationSpace
  validateAttestationAuthority custodian mandate
  validateAttestationValidity validitySeconds
  let expiresAt ← okOr (checkedAddI64 L.now validitySeconds) (.factory .arithmeticOverflow)
  .ok (L.put custodyAttestation
    { assetId := mandate.assetId
      custodyMandate
      custodian := mandate.custodian
      custodianFid := mandate.custodianFid
      documentHash
      attestationHash
      reserveRatioBps := 0
      attestedAt := L.now
      expiresAt
      active := true : CustodyAttestation })

def attestReserve (L : Ledger) (signers : List Pubkey)
    (custodian custodyMandate custodyAttestation : Pubkey) (reserveRatioBps attestationHash : ℕ)
    (validitySeconds : ℤ) : Result Ledger := do
  requireSigner signers custodian
  let mandate ← loadCustodyMandate L custodyMandate
  L.modify custodyAttestation fun (attestation : CustodyAttestation) ↦ do
    requireSeeds custodyAttestation (custodyAttestationAddress custodyMandate)
    validateAttestationAuthority custodian mandate
    validateAttestationValidity validitySeconds
    require (reserveRatioBps ≤ 10000) (.factory .invalidReserveRatio)
    require (attestation.active = true ∧ attestation.custodyMandate = custodyMandate)
      (.factory .custodyAttestationMissing)
    let expiresAt ← okOr (checkedAddI64 L.now validitySeconds) (.factory .arithmeticOverflow)
    .ok { attestation with
      reserveRatioBps
      attestationHash
      attestedAt := L.now
      expiresAt }

def validateCustodyGate (now : ℤ) (custodyMandate : Pubkey) (mandate : CustodyMandate)
    (attestation : CustodyAttestation) (assetId : ℕ) : Result Unit := do
  require (mandate.assetId = assetId) (.factory .invalidCustodyMandate)
  require (mandate.active = true ∧ mandate.accepted = true) (.factory .custodyMandateInactive)
  require (mandate.issuerFid ≠ mandate.custodianFid) (.factory .custodianCannotEqualIssuer)
  require (attestation.active = true ∧ attestation.assetId = assetId ∧
      attestation.custodyMandate = custodyMandate ∧
      attestation.custodian = mandate.custodian ∧
      attestation.custodianFid = mandate.custodianFid) (.factory .custodyAttestationMissing)
  require (now < attestation.expiresAt) (.factory .custodyAttestationExpired)

/-- The mandate of an asset and its attestation, at their seeds and past the gate. -/
def loadCustody (L : Ledger) (custodyMandate custodyAttestation : Pubkey) (assetId : ℕ) :
    Result (CustodyMandate × CustodyAttestation) := do
  let mandate ← L.load CustodyMandate custodyMandate
  requireSeeds custodyMandate (custodyMandateAddress assetId)
  let attestation ← L.load CustodyAttestation custodyAttestation
  requireSeeds custodyAttestation (custodyAttestationAddress custodyMandate)
  validateCustodyGate L.now custodyMandate mandate attestation assetId
  .ok (mandate, attestation)

/-! ## The instructions -/

inductive Instruction
  | initializeFactory (accts : InitializeFactory)
  | updateProgramIds (owner factoryState : Pubkey) (programIds : ProgramIds)
  | transferFactoryOwnership (owner factoryState newOwner : Pubkey)
  | approvePlatformAuthority (admin factoryState platformAuthority authorityFid : Pubkey)
      (topic : ℕ)
  | revokePlatformAuthority (admin factoryState platformAuthority authorityFid : Pubkey)
      (topic : ℕ)
  | createCustodyMandate (accts : CreateCustodyMandate) (assetId : ℕ)
      (issuerFid custodian custodianFid : Pubkey)
  | acceptCustodyMandate (custodian custodyMandate custodianFidAccount : Pubkey)
  | attestCustody (custodian custodyMandate custodyAttestation : Pubkey)
      (documentHash attestationHash : ℕ) (validitySeconds : ℤ)
  | attestReserve (custodian custodyMandate custodyAttestation : Pubkey)
      (reserveRatioBps attestationHash : ℕ) (validitySeconds : ℤ)
  | releaseCustodyMandate (authority factoryState custodyMandate : Pubkey)

def process (L : Ledger) (signers : List Pubkey) : Instruction → Result Ledger
  | .initializeFactory accts => Factory.initializeFactory L signers accts
  | .updateProgramIds owner factoryState programIds =>
      Factory.updateProgramIds L signers owner factoryState programIds
  | .transferFactoryOwnership owner factoryState newOwner =>
      Factory.transferFactoryOwnership L signers owner factoryState newOwner
  | .approvePlatformAuthority admin factoryState platformAuthority authorityFid topic =>
      Factory.approvePlatformAuthority L signers admin factoryState platformAuthority authorityFid
        topic
  | .revokePlatformAuthority admin factoryState platformAuthority authorityFid topic =>
      Factory.revokePlatformAuthority L signers admin factoryState platformAuthority authorityFid
        topic
  | .createCustodyMandate accts assetId issuerFid custodian custodianFid =>
      Factory.createCustodyMandate L signers accts assetId issuerFid custodian custodianFid
  | .acceptCustodyMandate custodian custodyMandate custodianFidAccount =>
      Factory.acceptCustodyMandate L signers custodian custodyMandate custodianFidAccount
  | .attestCustody custodian custodyMandate custodyAttestation documentHash attestationHash
      validitySeconds =>
      Factory.attestCustody L signers custodian custodyMandate custodyAttestation documentHash
        attestationHash validitySeconds
  | .attestReserve custodian custodyMandate custodyAttestation reserveRatioBps attestationHash
      validitySeconds =>
      Factory.attestReserve L signers custodian custodyMandate custodyAttestation reserveRatioBps
        attestationHash validitySeconds
  | .releaseCustodyMandate authority factoryState custodyMandate =>
      Factory.releaseCustodyMandate L signers authority factoryState custodyMandate

section Specification

variable {L L' : Ledger} {signers : List Pubkey}

theorem loadFactoryState_eq_ok {factoryState : Pubkey} {state : FactoryState} :
    loadFactoryState L factoryState = .ok state ↔
      L.accounts factoryState = account state ∧ factoryState = factoryStateAddress := by
  simp only [loadFactoryState, bind_eq_ok, load_eq_ok, requireSeeds_eq_ok, exists_const,
    Except.ok.injEq]
  constructor
  · rintro ⟨_, hstate, hk, rfl⟩
    exact ⟨hstate, hk⟩
  · rintro ⟨hstate, hk⟩
    exact ⟨state, hstate, hk, rfl⟩

theorem loadCustodyMandate_eq_ok {custodyMandate : Pubkey} {mandate : CustodyMandate} :
    loadCustodyMandate L custodyMandate = .ok mandate ↔
      L.accounts custodyMandate = account mandate ∧
        custodyMandate = custodyMandateAddress mandate.assetId := by
  simp only [loadCustodyMandate, bind_eq_ok, load_eq_ok, requireSeeds_eq_ok, exists_const,
    Except.ok.injEq]
  constructor
  · rintro ⟨_, hmandate, hk, rfl⟩
    exact ⟨hmandate, hk⟩
  · rintro ⟨hmandate, hk⟩
    exact ⟨mandate, hmandate, hk, rfl⟩

theorem updateFactoryState_ok {owner factoryState : Pubkey}
    {f : FactoryState → Result FactoryState}
    (h : updateFactoryState L signers owner factoryState f = .ok L') :
    ∃ state state' : FactoryState, L.accounts factoryState = account state ∧
      f state = .ok state' ∧ L' = L.put factoryState state' := by
  simp only [updateFactoryState, bind_eq_ok, requireSigner_eq_ok, requireSeeds_eq_ok,
    require_eq_ok, exists_const, modify_eq_ok] at h
  obtain ⟨-, state, state', hstate, ⟨-, -, hf⟩, rfl⟩ := h
  exact ⟨state, state', hstate, hf, rfl⟩

theorem createCustodyMandate_ok {accts : CreateCustodyMandate} {assetId : ℕ}
    {issuerFid custodian custodianFid : Pubkey}
    (h : createCustodyMandate L signers accts assetId issuerFid custodian custodianFid = .ok L') :
    issuerFid ≠ custodianFid ∧
      L.initRecord accts.authority accts.custodyMandate (custodyMandateAddress assetId)
        custodyMandateSpace
        { assetId
          issuer := accts.issuer
          issuerFid
          custodian
          custodianFid
          active := false
          accepted := false
          createdAt := L.now
          acceptedAt := 0
          releasedAt := 0
          releaseNoticeAt := 0 : CustodyMandate } = .ok L' := by
  simp only [createCustodyMandate, bind_eq_ok, requireSigner_eq_ok, load_eq_ok,
    requireSeeds_eq_ok, require_eq_ok, exists_const] at h
  obtain ⟨-, _, -, _, -, -, _, -, -, _, -, -, -, hfid, -, -, -, -, -, -, hinit⟩ := h
  exact ⟨hfid, hinit⟩

theorem acceptCustodyMandate_ok {custodian custodyMandate custodianFidAccount : Pubkey}
    (h : acceptCustodyMandate L signers custodian custodyMandate custodianFidAccount = .ok L') :
    ∃ mandate : CustodyMandate, L.accounts custodyMandate = account mandate ∧
      L' = L.put custodyMandate { mandate with
        accepted := true
        active := true
        acceptedAt := L.now
        releasedAt := 0
        releaseNoticeAt := 0 } := by
  simp only [acceptCustodyMandate, bind_eq_ok, requireSigner_eq_ok, load_eq_ok,
    requireSeeds_eq_ok, require_eq_ok, exists_const, modify_eq_ok, Except.ok.injEq] at h
  obtain ⟨-, _, -, -, mandate, _, hmandate, ⟨-, -, -, -, rfl⟩, rfl⟩ := h
  exact ⟨mandate, hmandate, rfl⟩

theorem releaseCustodyMandate_ok {authority factoryState custodyMandate : Pubkey}
    (h : releaseCustodyMandate L signers authority factoryState custodyMandate = .ok L') :
    ∃ mandate : CustodyMandate, L.accounts custodyMandate = account mandate ∧
      L' = L.put custodyMandate { mandate with active := false, releasedAt := L.now } := by
  simp only [releaseCustodyMandate, bind_eq_ok, requireSigner_eq_ok, requireSeeds_eq_ok,
    require_eq_ok, exists_const, modify_eq_ok, Except.ok.injEq] at h
  obtain ⟨-, _, -, mandate, _, hmandate, ⟨-, -, rfl⟩, rfl⟩ := h
  exact ⟨mandate, hmandate, rfl⟩

theorem validateAttestationAuthority_eq_ok {custodian : Pubkey} {mandate : CustodyMandate}
    {u : Unit} : validateAttestationAuthority custodian mandate = .ok u ↔
      (mandate.active = true ∧ mandate.accepted = true) ∧ custodian = mandate.custodian := by
  simp only [validateAttestationAuthority, bind_eq_ok, require_eq_ok, exists_const]

theorem validateAttestationValidity_eq_ok {validitySeconds : ℤ} {u : Unit} :
    validateAttestationValidity validitySeconds = .ok u ↔
      0 < validitySeconds ∧ validitySeconds ≤ maxAttestationValiditySeconds :=
  require_eq_ok

/-- The attestation carries the asset and the parties of the mandate at `k`. -/
structure Attests (k : Pubkey) (mandate : CustodyMandate) (attestation : CustodyAttestation) :
    Prop where
  active : attestation.active = true
  key : attestation.custodyMandate = k
  asset : attestation.assetId = mandate.assetId
  custodian : attestation.custodian = mandate.custodian
  custodianFid : attestation.custodianFid = mandate.custodianFid

/-- A first or renewed attestation under an active mandate, valid from now on. -/
theorem attestCustody_ok {custodian custodyMandate custodyAttestation : Pubkey}
    {documentHash attestationHash : ℕ} {validitySeconds : ℤ}
    (h : attestCustody L signers custodian custodyMandate custodyAttestation documentHash
      attestationHash validitySeconds = .ok L') :
    ∃ mandate attestation, L.accounts custodyMandate = account mandate ∧
      (mandate.active = true ∧ mandate.accepted = true) ∧
      custodyAttestation = custodyAttestationAddress custodyMandate ∧
      Attests custodyMandate mandate attestation ∧ L.now < attestation.expiresAt ∧
      L'.accounts custodyAttestation = account attestation ∧
      (∀ x, x ≠ custodyAttestation → L'.accounts x = L.accounts x) ∧ L'.now = L.now ∧
      Frame [.custodyAttestation] L L' := by
  simp only [attestCustody, bind_eq_ok, requireSigner_eq_ok, loadCustodyMandate_eq_ok,
    validateAttestationAuthority_eq_ok, validateAttestationValidity_eq_ok, okOr_eq_ok,
    checkedAddI64_eq_some, exists_const, Except.ok.injEq] at h
  obtain ⟨-, mandate, ⟨hmandate, -⟩, ⟨L₁, old⟩, hinit, ⟨hactive, -⟩, ⟨hpositive, -⟩, expiresAt,
    ⟨-, hexpires⟩, rfl⟩ := h
  obtain ⟨hk, hother, -, hframe⟩ := initIfNeeded_ok hinit
  have hnow : L₁.now = L.now := initIfNeeded_now hinit
  refine ⟨mandate, _, hmandate, hactive, hk, ⟨rfl, rfl, rfl, rfl, rfl⟩, ?_, put_accounts_self _,
    fun x hx ↦ ?_, hnow, hframe _ (by decide) _⟩
  · have hexpires : expiresAt = L₁.now + validitySeconds := hexpires
    change L.now < expiresAt
    omega
  · rw [put_accounts_of_ne _ hx, hother x hx]

/-- A renewed attestation keeps what it says of the mandate. -/
theorem attestReserve_ok {custodian custodyMandate custodyAttestation : Pubkey}
    {reserveRatioBps attestationHash : ℕ} {validitySeconds : ℤ}
    (h : attestReserve L signers custodian custodyMandate custodyAttestation reserveRatioBps
      attestationHash validitySeconds = .ok L') :
    ∃ mandate old attestation, L.accounts custodyMandate = account mandate ∧
      (mandate.active = true ∧ mandate.accepted = true) ∧
      custodyAttestation = custodyAttestationAddress custodyMandate ∧
      L.accounts custodyAttestation = account old ∧
      (Attests custodyMandate mandate old → Attests custodyMandate mandate attestation) ∧
      L.now < attestation.expiresAt ∧ L' = L.put custodyAttestation attestation := by
  simp only [attestReserve, bind_eq_ok, requireSigner_eq_ok, loadCustodyMandate_eq_ok,
    validateAttestationAuthority_eq_ok, validateAttestationValidity_eq_ok, okOr_eq_ok,
    checkedAddI64_eq_some, requireSeeds_eq_ok, require_eq_ok, modify_eq_ok, exists_const,
    Except.ok.injEq] at h
  obtain ⟨-, mandate, ⟨hmandate, -⟩, old, attestation, hold, ⟨hk, ⟨hactive, -⟩, ⟨hpositive, -⟩,
    -, -, expiresAt, ⟨-, hexpires⟩, rfl⟩, rfl⟩ := h
  refine ⟨mandate, old, _, hmandate, hactive, hk, hold, ?_, ?_, rfl⟩
  · rintro ⟨hon, hof, hasset, hcustodian, hfid⟩
    exact ⟨hon, hof, hasset, hcustodian, hfid⟩
  · change L.now < expiresAt
    omega

theorem loadCustody_eq_ok {custodyMandate custodyAttestation : Pubkey} {assetId : ℕ}
    {mandate : CustodyMandate} {attestation : CustodyAttestation} :
    loadCustody L custodyMandate custodyAttestation assetId = .ok (mandate, attestation) ↔
      L.accounts custodyMandate = account mandate ∧
        custodyMandate = custodyMandateAddress assetId ∧
        L.accounts custodyAttestation = account attestation ∧
        custodyAttestation = custodyAttestationAddress custodyMandate ∧
        mandate.assetId = assetId ∧ (mandate.active = true ∧ mandate.accepted = true) ∧
        mandate.issuerFid ≠ mandate.custodianFid ∧
        Attests custodyMandate mandate attestation ∧ L.now < attestation.expiresAt := by
  simp only [loadCustody, validateCustodyGate, bind_eq_ok, load_eq_ok, requireSeeds_eq_ok,
    require_eq_ok, exists_const, Except.ok.injEq, Prod.mk.injEq]
  constructor
  · rintro ⟨_, hmandate, hk, _, hattestation, hseeds, ⟨rfl, hactive, hfid,
      ⟨hon, hasset, hof, hcustodian, hcustodianFid⟩, hexpires⟩, rfl, rfl⟩
    exact ⟨hmandate, hk, hattestation, hseeds, rfl, hactive, hfid,
      ⟨hon, hof, hasset, hcustodian, hcustodianFid⟩, hexpires⟩
  · rintro ⟨hmandate, hk, hattestation, hseeds, rfl, hactive, hfid,
      ⟨hon, hof, hasset, hcustodian, hcustodianFid⟩, hexpires⟩
    exact ⟨mandate, hmandate, hk, attestation, hattestation, hseeds,
      ⟨rfl, hactive, hfid, ⟨hon, hasset, hof, hcustodian, hcustodianFid⟩, hexpires⟩, rfl, rfl⟩

/-! ## Footprints -/

/-- The kind of record an instruction writes. -/
def Instruction.kind : Instruction → AccountKind
  | .initializeFactory _ | .updateProgramIds .. | .transferFactoryOwnership .. => .factoryState
  | .approvePlatformAuthority .. | .revokePlatformAuthority .. => .platformAuthority
  | .createCustodyMandate .. | .acceptCustodyMandate .. | .releaseCustodyMandate .. =>
      .custodyMandate
  | .attestCustody .. | .attestReserve .. => .custodyAttestation

theorem process_frame {i : Instruction} (h : process L signers i = .ok L') :
    Frame [i.kind] L L' ∧ L'.now = L.now := by
  cases i with
  | initializeFactory accts =>
      simp only [process, initializeFactory, bind_eq_ok] at h
      obtain ⟨_, -, _, -, _, -, _, -, _, -, _, -, _, -, hinit⟩ := h
      exact ⟨.initRecord hinit (.head _), initRecord_now hinit⟩
  | updateProgramIds owner factoryState programIds =>
      obtain ⟨_, _, hstate, -, rfl⟩ := updateFactoryState_ok h
      exact ⟨.put hstate (.head _), rfl⟩
  | transferFactoryOwnership owner factoryState newOwner =>
      obtain ⟨_, _, hstate, -, rfl⟩ := updateFactoryState_ok h
      exact ⟨.put hstate (.head _), rfl⟩
  | approvePlatformAuthority admin factoryState platformAuthority authorityFid topic =>
      simp only [process, approvePlatformAuthority, bind_eq_ok, Except.ok.injEq] at h
      obtain ⟨_, -, _, -, _, -, ⟨L₁, old⟩, hinit, rfl⟩ := h
      have hnow : L₁.now = L.now := initIfNeeded_now hinit
      exact ⟨(initIfNeeded_ok hinit).2.2.2 _ (.head _) _, hnow⟩
  | revokePlatformAuthority admin factoryState platformAuthority authorityFid topic =>
      simp only [process, revokePlatformAuthority, bind_eq_ok, modify_eq_ok] at h
      obtain ⟨_, -, _, -, _, -, role, _, hrole, -, rfl⟩ := h
      exact ⟨.put hrole (.head _), rfl⟩
  | createCustodyMandate accts assetId issuerFid custodian custodianFid =>
      have hinit := (createCustodyMandate_ok h).2
      exact ⟨.initRecord hinit (.head _), initRecord_now hinit⟩
  | acceptCustodyMandate custodian custodyMandate custodianFidAccount =>
      obtain ⟨mandate, hmandate, rfl⟩ := acceptCustodyMandate_ok h
      exact ⟨.put hmandate (.head _), rfl⟩
  | attestCustody custodian custodyMandate custodyAttestation documentHash attestationHash
      validitySeconds =>
      obtain ⟨_, _, -, -, -, -, -, -, -, hnow, hframe⟩ := attestCustody_ok h
      exact ⟨hframe, hnow⟩
  | attestReserve custodian custodyMandate custodyAttestation reserveRatioBps attestationHash
      validitySeconds =>
      obtain ⟨_, old, _, -, -, -, hold, -, -, rfl⟩ := attestReserve_ok h
      exact ⟨.put hold (.head _), rfl⟩
  | releaseCustodyMandate authority factoryState custodyMandate =>
      obtain ⟨mandate, hmandate, rfl⟩ := releaseCustodyMandate_ok h
      exact ⟨.put hmandate (.head _), rfl⟩

/-- The kinds of records these instructions write. -/
def factoryKinds : List AccountKind :=
  [.factoryState, .platformAuthority, .custodyMandate, .custodyAttestation]

theorem Instruction.kind_mem (i : Instruction) : i.kind ∈ factoryKinds := by
  cases i <;> simp [Instruction.kind, factoryKinds]

theorem frame {i : Instruction} (h : process L signers i = .ok L') : Frame factoryKinds L L' :=
  (process_frame h).1.mono fun _ hkind ↦ List.mem_singleton.1 hkind ▸ i.kind_mem

end Specification

end Fracks.Factory
