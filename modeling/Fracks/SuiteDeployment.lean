import Fracks.AccountSpace
import Fracks.MetaCoverage
import Fracks.Suite

/-!
# The deployment of a suite

`deploy_token_suite` of the factory sets up the token, its four registries and
its compliance state by calls of the other programs, has the hook store the list
of extra accounts, and hands everything over to the issuer.
-/

namespace Fracks.Factory

open Checked AccountType Ledger Runs

def maxClaimTopics : ℕ := 20

def maxTrustedIssuers : ℕ := 16

def maxComplianceModules : ℕ := 15

def tokenDeploymentSpace : ℕ := 8 + 8 + 8 + 32 + 32 * 11 + 8 + 1

def deploymentAddress (issuer : Pubkey) (salt : ℕ) : Pubkey :=
  .findProgramAddress .deployment [.key issuer, .num salt] (.program .fracksFactory)

structure TrustedIssuerInput where
  issuerFid : Pubkey
  topics : List ℕ
  label : String

structure DeployTokenSuiteArgs where
  issuer : Pubkey
  assetId : ℕ
  tokenMint : Pubkey
  tokenName : String
  tokenSymbol : String
  decimals : ℕ
  isin : String
  claimTopics : List ℕ
  trustedIssuers : List TrustedIssuerInput
  complianceModules : List Pubkey
  sharedIrs : Option Pubkey
  salt : ℕ

structure DeployTokenSuite where
  admin : Pubkey
  factoryState : Pubkey
  issuer : Pubkey
  deployment : Pubkey
  custodyMandate : Pubkey
  custodyAttestation : Pubkey
  tokenState : Pubkey
  ownerState : Pubkey
  irsState : Pubkey
  tirState : Pubkey
  ctrState : Pubkey
  irpState : Pubkey
  complianceState : Pubkey
  tokenMintAccount : Pubkey
  extraAccountMetas : Pubkey
  tokenProgram : Pubkey
  token2022Program : Pubkey
  hookProgram : Pubkey
  irpProgram : Pubkey
  irsProgram : Pubkey
  tirProgram : Pubkey
  ctrProgram : Pubkey
  complianceProgram : Pubkey
  systemProgram : Pubkey
  remaining : List Pubkey

/-! ## The checks -/

def validateArgs (args : DeployTokenSuiteArgs) : Result Unit := do
  require (args.issuer ≠ .default) (.factory .invalidIssuer)
  require (0 < args.tokenName.utf8ByteSize ∧ args.tokenName.utf8ByteSize ≤ 64)
    (.factory .invalidTokenMetadata)
  require (0 < args.tokenSymbol.utf8ByteSize ∧ args.tokenSymbol.utf8ByteSize ≤ 12)
    (.factory .invalidTokenMetadata)
  require (0 < args.isin.utf8ByteSize ∧ args.isin.utf8ByteSize ≤ 24)
    (.factory .invalidTokenMetadata)
  require (args.claimTopics.length ≤ maxClaimTopics) (.factory .tooManyClaimTopics)
  require (args.trustedIssuers.length ≤ maxTrustedIssuers) (.factory .tooManyTrustedIssuers)
  require (args.complianceModules.length ≤ maxComplianceModules)
    (.factory .tooManyComplianceModules)
  args.trustedIssuers.foldlM (fun _ issuer ↦ do
    require (issuer.topics ≠ []) (.factory .trustedIssuerTopicsEmpty)
    require (0 < issuer.label.utf8ByteSize ∧ issuer.label.utf8ByteSize ≤ 64)
      (.factory .invalidTrustedIssuerLabel)) ()

def verifyProgramIds (state : FactoryState) (accts : DeployTokenSuite) : Result Unit := do
  require (state.tokenProgramId = accts.tokenProgram) (.factory .programIdMismatch)
  require (state.irpProgramId = accts.irpProgram) (.factory .programIdMismatch)
  require (state.irsProgramId = accts.irsProgram) (.factory .programIdMismatch)
  require (state.tirProgramId = accts.tirProgram) (.factory .programIdMismatch)
  require (state.ctrProgramId = accts.ctrProgram) (.factory .programIdMismatch)
  require (state.complianceProgramId = accts.complianceProgram) (.factory .programIdMismatch)

/-- The `Program` accounts. -/
def requirePrograms (accts : DeployTokenSuite) : Result Unit := do
  requireProgram accts.tokenProgram .fracksToken
  requireProgram accts.token2022Program .token2022
  requireProgram accts.hookProgram .fracksTokenHook
  requireProgram accts.irpProgram .fracksIrp
  requireProgram accts.irsProgram .fracksIrs
  requireProgram accts.tirProgram .fracksTir
  requireProgram accts.ctrProgram .fracksCtr
  requireProgram accts.complianceProgram .fracksCompliance
  requireProgram accts.systemProgram .system

/-- Every account of the suite is at the address derived from the mint. -/
def requireDerivedAccounts (accts : DeployTokenSuite) (args : DeployTokenSuiteArgs) :
    Result Unit := do
  require (accts.tokenState = Token.tokenStateAddress args.tokenMint)
    (.factory .invalidDerivedAccount)
  require (accts.ownerState = Token.ownerAddress args.tokenMint) (.factory .invalidDerivedAccount)
  require (accts.tirState = Tir.tirAddress args.tokenMint) (.factory .invalidDerivedAccount)
  require (accts.ctrState = Ctr.ctrAddress args.tokenMint) (.factory .invalidDerivedAccount)
  require (accts.irpState = Irp.irpAddress args.tokenMint) (.factory .invalidDerivedAccount)
  require (accts.complianceState = Compliance.complianceAddress args.tokenMint)
    (.factory .invalidDerivedAccount)
  require (accts.irsState = args.sharedIrs.getD (Irs.irsAddress args.tokenMint))
    (.factory .invalidDerivedAccount)
  require (accts.tokenMintAccount = args.tokenMint) (.factory .invalidDerivedAccount)

def irsAlreadyInitialized (L : Ledger) (irsState : Pubkey) : Prop :=
  (L.accounts irsState).owner = .program .fracksIrs ∧ (L.accounts irsState).data ≠ .empty

instance (L : Ledger) (irsState : Pubkey) : Decidable (irsAlreadyInitialized L irsState) :=
  inferInstanceAs (Decidable (_ ∧ _))

/-! ## The calls -/

section Calls

variable (L : Ledger) (signers : List Pubkey) (accts : DeployTokenSuite)
  (args : DeployTokenSuiteArgs)

def deployToken : Result Ledger := do
  let L ← Token.initializeToken L signers accts.admin accts.tokenState accts.ownerState
    { tokenMint := args.tokenMint
      name := args.tokenName
      symbol := args.tokenSymbol
      decimals := args.decimals
      isin := args.isin
      identityRegistry := accts.irpState
      compliance := accts.complianceState }
  Token.initializeMintMetadata L signers ⟨accts.admin, accts.tokenState, accts.ownerState⟩
    accts.tokenMintAccount accts.token2022Program args.tokenName args.tokenSymbol

def deployClaimTopics : Result Ledger := do
  let L ← Ctr.initializeCtr L signers accts.admin accts.ctrState args.tokenMint
  args.claimTopics.foldlM
    (fun L topic ↦ Ctr.addClaimTopic L signers accts.admin accts.ctrState topic) L

/-- An issuer and the remaining account at its index. -/
def deployTrustedIssuer (entry : TrustedIssuerInput × Pubkey) : Result Ledger := do
  let (issuer, issuerEntry) := entry
  require (issuerEntry = Tir.issuerEntryAddress accts.tirState issuer.issuerFid)
    (.factory .invalidDerivedAccount)
  Tir.addTrustedIssuer L signers accts.admin accts.tirState issuerEntry issuer.issuerFid
    issuer.topics issuer.label

def deployTrustedIssuers : Result Ledger := do
  let L ← Tir.initializeTir L signers accts.admin accts.tirState args.tokenMint
  (args.trustedIssuers.zip accts.remaining).foldlM
    (fun L entry ↦ deployTrustedIssuer L signers accts entry) L

def deployIdentity : Result Ledger := do
  let L ← Irs.initializeIrs L signers accts.admin accts.irsState args.tokenMint
  let L ← Irp.initializeRegistry L signers accts.admin accts.irpState args.tokenMint
    accts.irsState accts.tirState accts.ctrState
  Irs.bindRegistry L signers accts.admin accts.irsState accts.irpState

def deployCompliance : Result Ledger := do
  let L ← Compliance.initializeCompliance L signers accts.admin accts.complianceState
    args.tokenMint
  args.complianceModules.foldlM
    (fun L module ↦ Compliance.bindModule L signers accts.admin accts.complianceState module) L

/-- The remaining accounts after those of the issuers must be the modules. -/
def deployMetas : Result Ledger := do
  let moduleAccounts :=
    (accts.remaining.drop args.trustedIssuers.length).take args.complianceModules.length
  require (moduleAccounts = args.complianceModules) (.factory .invalidDerivedAccount)
  TokenHook.initializeExtraAccountMetas L signers
    { payer := accts.admin
      tokenState := accts.tokenState
      ownerState := accts.ownerState
      complianceState := accts.complianceState
      tokenMintAccount := accts.tokenMintAccount
      extraAccountMetas := accts.extraAccountMetas
      remaining := moduleAccounts }

def transferSuite : Result Ledger := do
  let L ← Token.transferOwnership L signers ⟨accts.admin, accts.tokenState, accts.ownerState⟩
    args.issuer
  let L ← Ctr.transferOwnership L signers accts.admin accts.ctrState args.issuer
  let L ← Tir.transferOwnership L signers accts.admin accts.tirState args.issuer
  let L ← Irp.transferRegistryOwnership L signers accts.admin accts.irpState args.issuer
  let L ← Irs.transferOwnership L signers accts.admin accts.irsState args.issuer
  Compliance.transferOwnership L signers accts.admin accts.complianceState args.issuer

def recordDeployment (state : FactoryState) : Result Ledger := do
  let deployment : TokenDeployment :=
    { deploymentId := state.deploymentCount
      assetId := args.assetId
      issuer := args.issuer
      salt := args.salt
      tokenMint := args.tokenMint
      tokenState := accts.tokenState
      ownerState := accts.ownerState
      irpState := accts.irpState
      irsState := accts.irsState
      tirState := accts.tirState
      ctrState := accts.ctrState
      complianceState := accts.complianceState
      custodyMandate := accts.custodyMandate
      custodyAttestation := accts.custodyAttestation
      deployedAt := L.now }
  let deploymentCount ← okOr (checkedAdd state.deploymentCount 1) (.factory .arithmeticOverflow)
  .ok ((L.put accts.deployment deployment).put accts.factoryState { state with deploymentCount })

def deployTokenSuite : Result Ledger := do
  requireSigner signers accts.admin
  let state ← loadFactoryState L accts.factoryState
  require (state.owner = accts.admin) (.factory .notOwner)
  require (accts.issuer = args.issuer) (.factory .invalidIssuer)
  let (L, deployment) ← L.initIfNeeded TokenDeployment accts.admin accts.deployment
    (deploymentAddress args.issuer args.salt) tokenDeploymentSpace
  requirePrograms accts
  validateArgs args
  verifyProgramIds state accts
  let _ ← loadCustody L accts.custodyMandate accts.custodyAttestation args.assetId
  requireDerivedAccounts accts args
  require (args.trustedIssuers.length ≤ accts.remaining.length)
    (.factory .missingTrustedIssuerAccounts)
  require (args.trustedIssuers.length + args.complianceModules.length ≤ accts.remaining.length)
    (.factory .missingComplianceModuleAccounts)
  require (deployment.elim 0 TokenDeployment.deployedAt = 0) (.factory .deploymentAlreadyExists)
  require (args.sharedIrs = none) (.factory .sharedIrsUnsupported)
  require (¬ irsAlreadyInitialized L accts.irsState) (.factory .irsAlreadyInitialized)
  let L ← deployToken L signers accts args
  let L ← deployClaimTopics L signers accts args
  let L ← deployTrustedIssuers L signers accts args
  let L ← deployIdentity L signers accts args
  let L ← deployCompliance L signers accts args
  let L ← deployMetas L signers accts args
  let L ← transferSuite L signers accts args
  recordDeployment L accts args state

end Calls

/-! ## One record -/

/-- The record at `k` becomes `a`, and no record of another type changes. -/
structure Writes {α : Type} [AccountType α] (k : Pubkey) (a : α) (L L' : Ledger) : Prop where
  record : L'.accounts k = account a
  frame : Frame [kind α] L L'

namespace Writes

variable {α : Type} [AccountType α] {k payer expected : Pubkey} {a a' : α} {space : ℕ}
  {L L' L₁ : Ledger}

theorem initRecord (h : L.initRecord payer k expected space a = .ok L') : Writes k a L L' :=
  ⟨(initRecord_ok h).2.2.1, .initRecord h (.head _)⟩

theorem put (h : L.accounts k = account a) : Writes k a' L (L.put k a') :=
  ⟨put_accounts_self a', .put h (.head _)⟩

theorem trans (h : Writes k a L L₁) (h' : Writes k a' L₁ L') : Writes k a' L L' :=
  ⟨h'.record, h.frame.trans h'.frame⟩

/-- A loop that adds the items of a list to a record one by one. -/
theorem foldlM {β : Type} {r : List β → α} {step : Ledger → β → Result Ledger} {done l : List β}
    (hstep : ∀ L L' done b, L.accounts k = account (r done) → step L b = .ok L' →
      Writes k (r (done ++ [b])) L L')
    (hdone : L.accounts k = account (r done)) (h : l.foldlM step L = .ok L') :
    Writes k (r (done ++ l)) L L' := by
  induction l generalizing L done with
  | nil =>
      obtain rfl : L = L' := Except.ok.inj h
      rw [List.append_nil]
      exact ⟨hdone, .refl _ _⟩
  | cons b l ih =>
      obtain ⟨L₁, hfirst, hrest⟩ := Fold.foldlM_cons_eq_ok.1 h
      have hadded := hstep L L₁ done b hdone hfirst
      have hall := ih hadded.record hrest
      rw [List.append_assoc, List.singleton_append] at hall
      exact hadded.trans hall

end Writes

/-! ## What the calls leave behind -/

section Records

variable (args : DeployTokenSuiteArgs) (owner : Pubkey)

def tokenRecord : TokenState where
  tokenMint := args.tokenMint
  identityRegistry := Irp.irpAddress args.tokenMint
  compliance := Compliance.complianceAddress args.tokenMint
  paused := false
  decimals := args.decimals
  name := args.tokenName
  symbol := args.tokenSymbol
  isin := args.isin

def ownerRecord : OwnerState where
  owner := owner
  tokenMint := args.tokenMint

def claimTopicsRecord (topics : List ℕ) : ClaimTopicsState where
  owner := owner
  tokenMint := args.tokenMint
  topics := topics

def trustedIssuersRecord (issuerCount : ℕ) : TrustedIssuersState where
  owner := owner
  tokenMint := args.tokenMint
  issuerCount := issuerCount

def issuerRecord (issuer : TrustedIssuerInput) : IssuerEntry where
  issuerFid := issuer.issuerFid
  tir := Tir.tirAddress args.tokenMint
  allowedTopics := issuer.topics
  isActive := true
  label := issuer.label

def storageRecord (boundRegistries : List Pubkey) : IdentityRegistryStorageState where
  owner := owner
  authoritySeed := args.tokenMint
  boundRegistries := boundRegistries
  registeredCount := 0

def registryRecord : IdentityRegistryState where
  tokenMint := args.tokenMint
  owner := owner
  irsAccount := Irs.irsAddress args.tokenMint
  tirAccount := Tir.tirAddress args.tokenMint
  ctrAccount := Ctr.ctrAddress args.tokenMint
  identityAgents := []
  registeredCount := 0

def complianceRecord (modules : List Pubkey) : ComplianceState where
  owner := owner
  tokenMint := args.tokenMint
  modules := modules
  modulesPaused := false

end Records

/-- The accounts of the suite are the derived ones. -/
structure DerivedAccounts (accts : DeployTokenSuite) (args : DeployTokenSuiteArgs) : Prop where
  tokenState : accts.tokenState = Token.tokenStateAddress args.tokenMint
  ownerState : accts.ownerState = Token.ownerAddress args.tokenMint
  tirState : accts.tirState = Tir.tirAddress args.tokenMint
  ctrState : accts.ctrState = Ctr.ctrAddress args.tokenMint
  irpState : accts.irpState = Irp.irpAddress args.tokenMint
  complianceState : accts.complianceState = Compliance.complianceAddress args.tokenMint
  irsState : accts.irsState = Irs.irsAddress args.tokenMint
  tokenMintAccount : accts.tokenMintAccount = args.tokenMint

section Calls

variable {L L' : Ledger} {signers : List Pubkey} {accts : DeployTokenSuite}
  {args : DeployTokenSuiteArgs}

theorem requireDerivedAccounts_ok (h : requireDerivedAccounts accts args = .ok ())
    (hshared : args.sharedIrs = none) : DerivedAccounts accts args := by
  simp only [requireDerivedAccounts, bind_eq_ok, require_eq_ok, exists_const, hshared,
    Option.getD_none] at h
  obtain ⟨htoken, howner, htir, hctr, hirp, hcompliance, hirs, hmint⟩ := h
  exact ⟨htoken, howner, htir, hctr, hirp, hcompliance, hirs, hmint⟩

theorem deployToken_ok (hd : DerivedAccounts accts args)
    (h : deployToken L signers accts args = .ok L') :
    L'.accounts accts.tokenState = account (tokenRecord args) ∧
      L'.accounts accts.ownerState = account (ownerRecord args accts.admin) ∧
        Token.validateTokenMintAccount L' args.tokenMint (tokenRecord args) false = .ok () ∧
          Frame [.tokenState, .ownerState] L L' := by
  obtain ⟨L₁, hinit, hmetadata⟩ := bind_eq_ok.1 h
  have hframe := Token.frame_initializeToken hinit
  simp only [Token.initializeToken, bind_eq_ok, requireSigner_eq_ok, exists_const] at hinit
  obtain ⟨-, -, -, L₂, hstate, howner⟩ := hinit
  have hstored : L₁.accounts accts.tokenState = account (tokenRecord args) := by
    have hnew := (Writes.initRecord hstate).record
    rw [hd.irpState, hd.complianceState] at hnew
    exact (Writes.initRecord howner).frame.accounts_eq (by decide) hnew
  have hunchanged := Token.initializeMintMetadata_ok hmetadata
  simp only [Token.initializeMintMetadata, bind_eq_ok, Except.ok.injEq] at hmetadata
  obtain ⟨⟨ts, os⟩, hcheck, -, -, _, hkey, -, -, _, hvalid, -⟩ := hmetadata
  obtain rfl : ts = tokenRecord args :=
    account_inj.1 ((Token.OwnerAccounts.check_ok hcheck).1.symm.trans hstored)
  rw [hunchanged]
  refine ⟨hstored, (Writes.initRecord howner).record, ?_, hframe⟩
  rw [hd.tokenMintAccount] at hvalid
  exact hvalid

theorem deployClaimTopics_ok (h : deployClaimTopics L signers accts args = .ok L') :
    Writes accts.ctrState (claimTopicsRecord args accts.admin args.claimTopics) L L' := by
  obtain ⟨L₁, hinit, hloop⟩ := bind_eq_ok.1 h
  obtain ⟨_, -, hinit⟩ := bind_eq_ok.1 hinit
  have hnew : Writes accts.ctrState (claimTopicsRecord args accts.admin []) L L₁ :=
    .initRecord hinit
  refine hnew.trans (.foldlM (r := claimTopicsRecord args accts.admin) ?_ hnew.record hloop)
  intro L L' done topic hdone hadd
  obtain ⟨state, state', hstate, hf, rfl⟩ := Ctr.mutateCtr_ok hadd
  obtain rfl := account_inj.1 (hstate.symm.trans hdone)
  simp only [bind_eq_ok, require_eq_ok, exists_const, Except.ok.injEq] at hf
  obtain ⟨-, -, rfl⟩ := hf
  exact .put hdone

/-- The loop over the issuers adds one entry for each of them. -/
theorem deployTrustedIssuer_loop {entries : List (TrustedIssuerInput × Pubkey)}
    {state : TrustedIssuersState} (hd : DerivedAccounts accts args)
    (hstate : L.accounts accts.tirState = account state)
    (h : entries.foldlM (fun L entry ↦ deployTrustedIssuer L signers accts entry) L = .ok L') :
    L'.accounts accts.tirState =
        account { state with issuerCount := state.issuerCount + entries.length } ∧
      (∀ k e, L'.view IssuerEntry k = some e ↔ L.view IssuerEntry k = some e ∨
        ∃ issuer ∈ entries.map Prod.fst,
          k = Tir.issuerEntryAddress accts.tirState issuer.issuerFid ∧
            e = issuerRecord args issuer) ∧
        Frame Tir.tirKinds L L' := by
  induction entries generalizing L state with
  | nil =>
      obtain rfl : L = L' := Except.ok.inj h
      exact ⟨hstate, fun k e ↦ by simp, .refl _ _⟩
  | cons entry entries ih =>
      obtain ⟨L₁, hfirst, hrest⟩ := Fold.foldlM_cons_eq_ok.1 h
      obtain ⟨issuer, issuerEntry⟩ := entry
      simp only [deployTrustedIssuer, bind_eq_ok, require_eq_ok, exists_const] at hfirst
      obtain ⟨rfl, hadd⟩ := hfirst
      obtain ⟨state₀, hstate₀, -, -, hnone, hstates, hentries, hframe⟩ :=
        Tir.addTrustedIssuer_ok hadd
      obtain rfl := account_inj.1 (hstate₀.symm.trans hstate)
      have hnext : L₁.accounts accts.tirState =
          account { state₀ with issuerCount := state₀.issuerCount + 1 } := by
        rw [← view_eq_some, hstates, Function.update_self]
      obtain ⟨hcount, hlisted, hframes⟩ := ih hnext hrest
      refine ⟨?_, fun k e ↦ ?_, hframe.trans hframes⟩
      · rw [hcount, List.length_cons, Nat.add_assoc, Nat.add_comm 1]
      · have hrecord : IssuerEntry.mk issuer.issuerFid accts.tirState issuer.topics true
            issuer.label = issuerRecord args issuer := by
          rw [hd.tirState]
          rfl
        rw [hlisted, hentries, hrecord, List.map_cons, List.exists_mem_cons_iff]
        by_cases hk : k = Tir.issuerEntryAddress accts.tirState issuer.issuerFid
        · rw [hk, Function.update_self, hnone]
          simp [eq_comm]
        · rw [Function.update_of_ne hk]
          simp [hk]

theorem deployTrustedIssuers_ok (hd : DerivedAccounts accts args)
    (hcount : args.trustedIssuers.length ≤ accts.remaining.length)
    (h : deployTrustedIssuers L signers accts args = .ok L') :
    L.accounts accts.tirState = .vacant ∧
      L'.accounts accts.tirState =
        account (trustedIssuersRecord args accts.admin args.trustedIssuers.length) ∧
      (∀ k e, L'.view IssuerEntry k = some e ↔ L.view IssuerEntry k = some e ∨
        ∃ issuer ∈ args.trustedIssuers,
          k = Tir.issuerEntryAddress accts.tirState issuer.issuerFid ∧
            e = issuerRecord args issuer) ∧
        Frame Tir.tirKinds L L' := by
  obtain ⟨L₁, hinit, hloop⟩ := bind_eq_ok.1 h
  obtain ⟨_, -, hinit⟩ := bind_eq_ok.1 hinit
  have hnew : Writes accts.tirState (trustedIssuersRecord args accts.admin 0) L L₁ :=
    .initRecord hinit
  obtain ⟨hstate, hlisted, hframe⟩ := deployTrustedIssuer_loop hd hnew.record hloop
  have hsame : L₁.view IssuerEntry = L.view IssuerEntry := hnew.frame.table_eq (by decide)
  have hlength : (args.trustedIssuers.zip accts.remaining).length = args.trustedIssuers.length := by
    rw [List.length_zip, min_eq_left hcount]
  rw [List.map_fst_zip hcount, hsame] at hlisted
  refine ⟨(initRecord_ok hinit).2.1, ?_, hlisted, (hnew.frame.mono (by decide)).trans hframe⟩
  rw [hstate, hlength]
  simp [trustedIssuersRecord]

theorem deployIdentity_ok (hd : DerivedAccounts accts args)
    (h : deployIdentity L signers accts args = .ok L') :
    L'.accounts accts.irsState =
        account (storageRecord args accts.admin [Irp.irpAddress args.tokenMint]) ∧
      L'.accounts accts.irpState = account (registryRecord args accts.admin) ∧
        Frame [.identityRegistryStorageState, .identityRegistryState] L L' := by
  simp only [deployIdentity, bind_eq_ok] at h
  obtain ⟨L₁, hirs, L₂, hirp, hbind⟩ := h
  obtain ⟨_, -, hirs⟩ := bind_eq_ok.1 hirs
  obtain ⟨_, -, hirp⟩ := bind_eq_ok.1 hirp
  have hstorage : Writes accts.irsState (storageRecord args accts.admin []) L L₁ :=
    .initRecord hirs
  have hregistry := Writes.initRecord hirp
  have hkept := hregistry.frame.accounts_eq (by decide) hstorage.record
  obtain ⟨old, new, hold, hf, hL'⟩ := Irs.updateIrsOwnerState_ok hbind
  obtain rfl := account_inj.1 (hold.symm.trans hkept)
  simp only [bind_eq_ok, require_eq_ok, exists_const, Except.ok.injEq] at hf
  obtain ⟨-, -, rfl⟩ := hf
  have hbound : Writes accts.irsState (storageRecord args accts.admin [accts.irpState]) L₂ L' := by
    rw [hL']
    exact .put hold
  refine ⟨?_, ?_, ?_⟩
  · rw [hbound.record, hd.irpState]
  · rw [hbound.frame.accounts_eq (by decide) hregistry.record, hd.irsState, hd.tirState,
      hd.ctrState]
    rfl
  · have hfirst : Frame [.identityRegistryStorageState, .identityRegistryState] L L₁ :=
      hstorage.frame.mono (by decide)
    exact (hfirst.trans (hregistry.frame.mono (by decide))).trans (hbound.frame.mono (by decide))

theorem updateComplianceOwner_ok {owner C : Pubkey} {f : ComplianceState → Result ComplianceState}
    (h : Compliance.updateComplianceOwner L signers owner C f = .ok L') :
    ∃ old new, L.accounts C = account old ∧ f old = .ok new ∧ L' = L.put C new := by
  simp only [Compliance.updateComplianceOwner, bind_eq_ok, requireSigner_eq_ok, modify_eq_ok,
    requireSeeds_eq_ok, require_eq_ok, exists_const] at h
  obtain ⟨-, old, new, hold, ⟨-, -, hf⟩, rfl⟩ := h
  exact ⟨old, new, hold, hf, rfl⟩

theorem deployCompliance_ok (h : deployCompliance L signers accts args = .ok L') :
    Writes accts.complianceState (complianceRecord args accts.admin args.complianceModules)
      L L' := by
  obtain ⟨L₁, hinit, hloop⟩ := bind_eq_ok.1 h
  obtain ⟨_, -, hinit⟩ := bind_eq_ok.1 hinit
  have hnew : Writes accts.complianceState (complianceRecord args accts.admin []) L L₁ :=
    .initRecord hinit
  refine hnew.trans (.foldlM (r := complianceRecord args accts.admin) ?_ hnew.record hloop)
  intro L L' done module hdone hbind
  obtain ⟨old, new, hold, hf, rfl⟩ := updateComplianceOwner_ok hbind
  obtain rfl := account_inj.1 (hold.symm.trans hdone)
  simp only [bind_eq_ok, require_eq_ok, exists_const, Except.ok.injEq] at hf
  obtain ⟨-, -, rfl⟩ := hf
  exact .put hdone

end Calls

/-! ## The linked suite -/

/-- The records of the suite: each refers to the others by their addresses, and
all of them have one owner. -/
structure LinkedSuite (L : Ledger) (args : DeployTokenSuiteArgs) (owner : Pubkey) : Prop where
  tokenState : L.accounts (Token.tokenStateAddress args.tokenMint) = account (tokenRecord args)
  ownerState : L.accounts (Token.ownerAddress args.tokenMint) = account (ownerRecord args owner)
  claimTopics : L.accounts (Ctr.ctrAddress args.tokenMint) =
    account (claimTopicsRecord args owner args.claimTopics)
  trustedIssuers : L.accounts (Tir.tirAddress args.tokenMint) =
    account (trustedIssuersRecord args owner args.trustedIssuers.length)
  registry : L.accounts (Irp.irpAddress args.tokenMint) = account (registryRecord args owner)
  storage : L.accounts (Irs.irsAddress args.tokenMint) =
    account (storageRecord args owner [Irp.irpAddress args.tokenMint])
  compliance : L.accounts (Compliance.complianceAddress args.tokenMint) =
    account (complianceRecord args owner args.complianceModules)

section Transfers

variable {L L' : Ledger} {signers : List Pubkey} {accts : DeployTokenSuite}
  {args : DeployTokenSuiteArgs}

theorem transferToken_ok {accounts : Token.OwnerAccounts} {newOwner owner : Pubkey}
    (hstored : L.accounts accounts.ownerState = account (ownerRecord args owner))
    (h : Token.transferOwnership L signers accounts newOwner = .ok L') :
    Writes accounts.ownerState (ownerRecord args newOwner) L L' := by
  simp only [Token.transferOwnership, bind_eq_ok, require_eq_ok, exists_const,
    Except.ok.injEq] at h
  obtain ⟨⟨ts, os⟩, hcheck, -, rfl⟩ := h
  obtain rfl : os = ownerRecord args owner :=
    account_inj.1 ((Token.OwnerAccounts.check_ok hcheck).2.2.symm.trans hstored)
  exact .put hstored

theorem transferClaimTopics_ok {ctrState newOwner owner admin : Pubkey} {topics : List ℕ}
    (hstored : L.accounts ctrState = account (claimTopicsRecord args owner topics))
    (h : Ctr.transferOwnership L signers admin ctrState newOwner = .ok L') :
    Writes ctrState (claimTopicsRecord args newOwner topics) L L' := by
  obtain ⟨old, new, hold, hf, rfl⟩ := Ctr.mutateCtr_ok h
  obtain rfl := account_inj.1 (hold.symm.trans hstored)
  simp only [bind_eq_ok, require_eq_ok, exists_const, Except.ok.injEq] at hf
  obtain ⟨-, rfl⟩ := hf
  exact .put hstored

theorem transferIssuers_ok {tirState newOwner owner admin : Pubkey} {n : ℕ}
    (hstored : L.accounts tirState = account (trustedIssuersRecord args owner n))
    (h : Tir.transferOwnership L signers admin tirState newOwner = .ok L') :
    Writes tirState (trustedIssuersRecord args newOwner n) L L' := by
  obtain ⟨old, hold, rfl⟩ := Tir.transferOwnership_ok h
  obtain rfl := account_inj.1 (hold.symm.trans hstored)
  exact .put hstored

theorem transferRegistry_ok {irpState newOwner owner admin : Pubkey}
    (hstored : L.accounts irpState = account (registryRecord args owner))
    (h : Irp.transferRegistryOwnership L signers admin irpState newOwner = .ok L') :
    Writes irpState (registryRecord args newOwner) L L' := by
  simp only [Irp.transferRegistryOwnership, Irp.updateRegistryOwner, bind_eq_ok,
    requireSigner_eq_ok, requireSeeds_eq_ok, require_eq_ok, exists_const, modify_eq_ok,
    Except.ok.injEq] at h
  obtain ⟨-, old, new, hold, ⟨-, -, -, rfl⟩, rfl⟩ := h
  obtain rfl := account_inj.1 (hold.symm.trans hstored)
  exact .put hstored

theorem transferStorage_ok {irsState newOwner owner admin : Pubkey} {registries : List Pubkey}
    (hstored : L.accounts irsState = account (storageRecord args owner registries))
    (h : Irs.transferOwnership L signers admin irsState newOwner = .ok L') :
    Writes irsState (storageRecord args newOwner registries) L L' := by
  obtain ⟨old, new, hold, hf, rfl⟩ := Irs.updateIrsOwnerState_ok h
  obtain rfl := account_inj.1 (hold.symm.trans hstored)
  simp only [bind_eq_ok, require_eq_ok, exists_const, Except.ok.injEq] at hf
  obtain ⟨-, rfl⟩ := hf
  exact .put hstored

theorem transferCompliance_ok {C newOwner owner admin : Pubkey} {modules : List Pubkey}
    (hstored : L.accounts C = account (complianceRecord args owner modules))
    (h : Compliance.transferOwnership L signers admin C newOwner = .ok L') :
    Writes C (complianceRecord args newOwner modules) L L' := by
  obtain ⟨old, new, hold, hf, rfl⟩ := updateComplianceOwner_ok h
  obtain rfl := account_inj.1 (hold.symm.trans hstored)
  simp only [bind_eq_ok, require_eq_ok, exists_const, Except.ok.injEq] at hf
  obtain ⟨-, rfl⟩ := hf
  exact .put hstored

/-- The kinds of the records that have an owner. -/
def ownedKinds : List AccountKind :=
  [.ownerState, .claimTopicsState, .trustedIssuersState, .identityRegistryState,
    .identityRegistryStorageState, .complianceState]

/-- The whole suite changes hands. -/
theorem transferSuite_ok (hd : DerivedAccounts accts args) (hL : LinkedSuite L args accts.admin)
    (h : transferSuite L signers accts args = .ok L') :
    LinkedSuite L' args args.issuer ∧ Frame ownedKinds L L' := by
  simp only [transferSuite, bind_eq_ok, hd.ctrState, hd.tirState, hd.irpState, hd.irsState,
    hd.complianceState, hd.ownerState] at h
  obtain ⟨L₁, h₁, L₂, h₂, L₃, h₃, L₄, h₄, L₅, h₅, h₆⟩ := h
  have howner := transferToken_ok hL.ownerState h₁
  have hbefore₁ : Frame [.ownerState] L L₁ := howner.frame
  have hctr := transferClaimTopics_ok (hbefore₁.accounts_eq (by decide) hL.claimTopics) h₂
  have hbefore₂ : Frame [.ownerState, .claimTopicsState] L L₂ :=
    (hbefore₁.mono (by decide)).trans (hctr.frame.mono (by decide))
  have htir := transferIssuers_ok (hbefore₂.accounts_eq (by decide) hL.trustedIssuers) h₃
  have hbefore₃ : Frame [.ownerState, .claimTopicsState, .trustedIssuersState] L L₃ :=
    (hbefore₂.mono (by decide)).trans (htir.frame.mono (by decide))
  have hirp := transferRegistry_ok (hbefore₃.accounts_eq (by decide) hL.registry) h₄
  have hbefore₄ : Frame [.ownerState, .claimTopicsState, .trustedIssuersState,
      .identityRegistryState] L L₄ :=
    (hbefore₃.mono (by decide)).trans (hirp.frame.mono (by decide))
  have hirs := transferStorage_ok (hbefore₄.accounts_eq (by decide) hL.storage) h₅
  have hbefore₅ : Frame [.ownerState, .claimTopicsState, .trustedIssuersState,
      .identityRegistryState, .identityRegistryStorageState] L L₅ :=
    (hbefore₄.mono (by decide)).trans (hirs.frame.mono (by decide))
  have hcompliance := transferCompliance_ok (hbefore₅.accounts_eq (by decide) hL.compliance) h₆
  have hafter₄ : Frame [.identityRegistryStorageState, .complianceState] L₄ L' :=
    (hirs.frame.mono (by decide)).trans (hcompliance.frame.mono (by decide))
  have hafter₃ : Frame [.identityRegistryState, .identityRegistryStorageState,
      .complianceState] L₃ L' :=
    (hirp.frame.mono (by decide)).trans (hafter₄.mono (by decide))
  have hafter₂ : Frame [.trustedIssuersState, .identityRegistryState,
      .identityRegistryStorageState, .complianceState] L₂ L' :=
    (htir.frame.mono (by decide)).trans (hafter₃.mono (by decide))
  have hafter₁ : Frame [.claimTopicsState, .trustedIssuersState, .identityRegistryState,
      .identityRegistryStorageState, .complianceState] L₁ L' :=
    (hctr.frame.mono (by decide)).trans (hafter₂.mono (by decide))
  have hall : Frame ownedKinds L L' :=
    (hbefore₁.mono (by decide)).trans (hafter₁.mono (by decide))
  exact ⟨{
    tokenState := hall.accounts_eq (by decide) hL.tokenState
    ownerState := hafter₁.accounts_eq (by decide) howner.record
    claimTopics := hafter₂.accounts_eq (by decide) hctr.record
    trustedIssuers := hafter₃.accounts_eq (by decide) htir.record
    registry := hafter₄.accounts_eq (by decide) hirp.record
    storage := hcompliance.frame.accounts_eq (by decide) hirs.record
    compliance := hcompliance.record }, hall⟩

end Transfers

/-! ## The deployed suite -/

/-- A deployment as other programs rely on it: the records are linked and belong to
the issuer, the registry of issuers has one entry for each given issuer and no
other, the stored list of extra accounts covers the modules, and the mint is one
that the token controller accepts. -/
structure CoherentSuite (L : Ledger) (args : DeployTokenSuiteArgs) : Prop where
  linked : LinkedSuite L args args.issuer
  issuers : ∀ k (entry : IssuerEntry),
    L.accounts k = account entry ∧ entry.tir = Tir.tirAddress args.tokenMint ↔
      ∃ issuer ∈ args.trustedIssuers,
        k = Tir.issuerEntryAddress (Tir.tirAddress args.tokenMint) issuer.issuerFid ∧
          entry = issuerRecord args issuer
  metas : TokenHook.FindsModules args.tokenMint args.complianceModules L
  mint : Token.validateTokenMintAccount L args.tokenMint (tokenRecord args) true = .ok ()

section Deployment

variable {L L' : Ledger} {signers : List Pubkey} {accts : DeployTokenSuite}
  {args : DeployTokenSuiteArgs} {k : Pubkey} {S : List AccountKind}

/-- The account of the deployment before its record is written. -/
def DeploymentOpen (L : Ledger) (deployment : Pubkey) : Prop :=
  L.accounts deployment = ⟨.program .fracksFactory, .empty⟩ ∨
    ∃ old : TokenDeployment, L.accounts deployment = account old

theorem DeploymentOpen.of_frame (h : DeploymentOpen L k) (hframe : Frame S L L')
    (hopen : AccountKind.foreign ∉ S) (hkind : AccountKind.tokenDeployment ∉ S) :
    DeploymentOpen L' k := by
  rcases h with h | ⟨old, h⟩
  · by_cases hsame : L'.accounts k = L.accounts k
    · exact .inl (hsame.trans h)
    · rcases (hframe k hsame).1 with hvacant | hmem
      · rw [hvacant] at h
        exact absurd h (by decide)
      · rw [h] at hmem
        have hkind : (⟨.program .fracksFactory, .empty⟩ : Account).kind = .foreign := rfl
        exact absurd (hkind ▸ hmem) hopen
  · exact .inr ⟨old, hframe.accounts_eq hkind h⟩

theorem DeploymentOpen.view_none {α : Type} [AccountType α] (h : DeploymentOpen L k)
    (hkind : kind α ≠ .tokenDeployment) : L.view α k = none := by
  rcases h with h | ⟨old, h⟩
  · exact view_none_of_uninitialized h
  · exact view_none_of_kind (view_eq_some.2 h) hkind

theorem DeploymentOpen.ne {α : Type} [AccountType α] {x : Pubkey} {a : α}
    (h : DeploymentOpen L k) (ha : L.accounts x = account a) (hkind : kind α ≠ .tokenDeployment) :
    x ≠ k := by
  rintro rfl
  have hnone : L.view α x = none := h.view_none hkind
  rw [view_eq_some.2 ha] at hnone
  exact nomatch hnone

theorem frame_recordDeployment {state : FactoryState} (hopen : DeploymentOpen L accts.deployment)
    (hstate : L.accounts accts.factoryState = account state)
    (h : recordDeployment L accts args state = .ok L') :
    Frame [.foreign, .factoryState, .tokenDeployment] L L' := by
  simp only [recordDeployment, bind_eq_ok, okOr_eq_ok, Except.ok.injEq] at h
  obtain ⟨n, -, rfl⟩ := h
  have hne : accts.factoryState ≠ accts.deployment := hopen.ne hstate (by decide)
  refine Frame.trans ?_ (.put ((put_accounts_of_ne _ hne).trans hstate) (by decide))
  intro x hx
  by_cases hdeployment : x = accts.deployment
  · subst hdeployment
    refine ⟨.inr ?_, .inr ?_⟩
    · rcases hopen with hopen | ⟨old, hopen⟩
      · rw [hopen]
        decide
      · rw [hopen, kind_account]
        decide
    · rw [put_accounts_self, kind_account]
      decide
  · exact absurd (put_accounts_of_ne _ hdeployment) hx

/-- A record that is no module, written over one that is none. -/
theorem routedBy_put {α : Type} [AccountType α] {a : α}
    (hkind : TokenHook.routedKind (kind α) = none)
    (hk : TokenHook.routedBy L k = none) (x : Pubkey) :
    TokenHook.routedBy (L.put k a) x = TokenHook.routedBy L x ∧
      (TokenHook.HeldByProgram L x → TokenHook.HeldByProgram (L.put k a) x) := by
  by_cases hx : x = k
  · subst hx
    have hafter : TokenHook.routedBy (L.put x a) x = none := by
      rw [TokenHook.routedBy, put_accounts_self, account_data, encode_kind, hkind]
    refine ⟨hafter.trans hk.symm, fun _ name hname ↦ ?_⟩
    cases hafter.symm.trans hname
  · simp only [TokenHook.routedBy, TokenHook.HeldByProgram, put_accounts_of_ne _ hx, imp_self,
      and_self]

theorem routedBy_recordDeployment {state : FactoryState}
    (hopen : DeploymentOpen L accts.deployment)
    (hstate : L.accounts accts.factoryState = account state)
    (h : recordDeployment L accts args state = .ok L') (x : Pubkey) :
    TokenHook.routedBy L' x = TokenHook.routedBy L x ∧
      (TokenHook.HeldByProgram L x → TokenHook.HeldByProgram L' x) := by
  simp only [recordDeployment, bind_eq_ok, okOr_eq_ok, Except.ok.injEq] at h
  obtain ⟨n, -, rfl⟩ := h
  have hne : accts.factoryState ≠ accts.deployment := hopen.ne hstate (by decide)
  have hdeployment : TokenHook.routedBy L accts.deployment = none := by
    rcases hopen with hopen | ⟨old, hopen⟩
    · rw [TokenHook.routedBy, hopen]
      rfl
    · rw [TokenHook.routedBy, hopen]
      rfl
  have hfirst := fun a : TokenDeployment ↦ routedBy_put (a := a) rfl hdeployment
  refine ⟨(routedBy_put rfl ?_ x).1.trans (hfirst _ x).1,
    fun hheld ↦ (routedBy_put rfl ?_ x).2 ((hfirst _ x).2 hheld)⟩ <;>
  · rw [TokenHook.routedBy, put_accounts_of_ne _ hne, hstate]
    rfl

theorem LinkedSuite.of_frame {owner : Pubkey} (h : LinkedSuite L args owner)
    (hframe : Frame S L L') (hS : ∀ K ∈ .tokenState :: ownedKinds, K ∉ S) :
    LinkedSuite L' args owner where
  tokenState := hframe.accounts_eq (hS _ (by decide)) h.tokenState
  ownerState := hframe.accounts_eq (hS _ (by decide)) h.ownerState
  claimTopics := hframe.accounts_eq (hS _ (by decide)) h.claimTopics
  trustedIssuers := hframe.accounts_eq (hS _ (by decide)) h.trustedIssuers
  registry := hframe.accounts_eq (hS _ (by decide)) h.registry
  storage := hframe.accounts_eq (hS _ (by decide)) h.storage
  compliance := hframe.accounts_eq (hS _ (by decide)) h.compliance

/-- The two checks of the mint, made by the token controller and by the hook, add
up to the full check. -/
theorem validateTokenMintAccount_full {mint : Pubkey} {ts : TokenState}
    (htoken : Token.validateTokenMintAccount L mint ts false = .ok ())
    (hhook : TokenHook.validateTokenMintAccount L mint (Token.tokenStateAddress ts.tokenMint) ts =
      .ok ()) : Token.validateTokenMintAccount L mint ts true = .ok () := by
  simp only [Token.validateTokenMintAccount, TokenHook.validateTokenMintAccount, bind_eq_ok,
    require_eq_ok, okOr_eq_ok, exists_const, Bool.false_eq_true, false_implies, true_and,
    forall_const] at htoken hhook ⊢
  obtain ⟨hkey, m, hm, hinit, hdecimals, hook, hhook', hprogram, hauthority⟩ := htoken
  obtain ⟨-, m', hm', -, -, -, delegate, hdelegate, rfl⟩ := hhook
  obtain rfl := Option.some.inj (hm.symm.trans hm')
  exact ⟨hkey, m, hm, hinit, hdecimals, hook, hhook', hprogram, hdelegate, hauthority⟩

theorem validateTokenMintAccount_congr {mint : Pubkey} {ts : TokenState} {b : Bool}
    (h : L'.view Mint mint = L.view Mint mint) :
    Token.validateTokenMintAccount L' mint ts b = Token.validateTokenMintAccount L mint ts b := by
  simp only [Token.validateTokenMintAccount, h]

/-- The registry of issuers did not exist, so that no entry referred to it. -/
theorem no_entries_of_vacant {tir : Pubkey} (hL : (Tir.roster L).Sound)
    (hvacant : L.accounts tir = .vacant) {entry : IssuerEntry}
    (hentry : L.accounts k = account entry) :
    entry.tir ≠ tir := by
  rintro rfl
  have hmember : (Tir.roster L).group k = some entry.tir := by
    simp [Tir.roster, view_eq_some.2 hentry]
  refine hL.opened hmember ?_
  simp [Tir.roster, view_none_of_vacant hvacant]

/-- The ledgers between the calls of a deployment. -/
structure Calls (signers : List Pubkey) (accts : DeployTokenSuite) (args : DeployTokenSuiteArgs)
    (L₁ L₂ L₃ L₄ L₅ L₆ L₇ L₈ : Ledger) : Prop where
  token : deployToken L₁ signers accts args = .ok L₂
  claimTopics : deployClaimTopics L₂ signers accts args = .ok L₃
  trustedIssuers : deployTrustedIssuers L₃ signers accts args = .ok L₄
  identity : deployIdentity L₄ signers accts args = .ok L₅
  compliance : deployCompliance L₅ signers accts args = .ok L₆
  metas : deployMetas L₆ signers accts args = .ok L₇
  transfer : transferSuite L₇ signers accts args = .ok L₈

/-- The account of the deployment is at its seeds, and the asset is past the custody
gate. -/
structure Begins (accts : DeployTokenSuite) (args : DeployTokenSuiteArgs) (L L₁ : Ledger) :
    Prop where
  opened : ∃ old, L.initIfNeeded TokenDeployment accts.admin accts.deployment
    (deploymentAddress args.issuer args.salt) tokenDeploymentSpace = .ok (L₁, old)
  custody : ∃ custody, loadCustody L₁ accts.custodyMandate accts.custodyAttestation args.assetId =
    .ok custody

theorem deployTokenSuite_ok (h : deployTokenSuite L signers accts args = .ok L') :
    ∃ (state : FactoryState) (L₁ L₂ L₃ L₄ L₅ L₆ L₇ L₈ : Ledger),
      L₁.accounts accts.factoryState = account state ∧ DeploymentOpen L₁ accts.deployment ∧
        Begins accts args L L₁ ∧ Frame [.foreign, .tokenDeployment] L L₁ ∧
          DerivedAccounts accts args ∧ args.trustedIssuers.length ≤ accts.remaining.length ∧
            Calls signers accts args L₁ L₂ L₃ L₄ L₅ L₆ L₇ L₈ ∧
              recordDeployment L₈ accts args state = .ok L' := by
  simp only [deployTokenSuite, bind_eq_ok, requireSigner_eq_ok, loadFactoryState_eq_ok,
    require_eq_ok, exists_const] at h
  obtain ⟨-, state, ⟨hstate, -⟩, -, -, ⟨L₁, old⟩, hinit, _, -, _, -, _, -, custody, hgate, ⟨⟩,
    hderived,
    hcount, -, -, hshared, -, L₂, htoken, L₃, htopics, L₄, hissuers, L₅, hidentity, L₆,
    hcompliance, L₇, hmetas, L₈, htransfer, hrecord⟩ := h
  obtain ⟨-, hother, hcase, -⟩ := initIfNeeded_ok hinit
  have hopen : DeploymentOpen L₁ accts.deployment := by
    rcases hcase with ⟨-, -, hnew⟩ | ⟨a, -, -, hold⟩
    · exact .inl hnew
    · exact .inr ⟨a, hold⟩
  have hne : accts.factoryState ≠ accts.deployment := by
    rintro heq
    rw [heq] at hstate
    rcases hcase with ⟨-, hvacant, -⟩ | ⟨a, -, hold, -⟩
    · exact account_ne_vacant state (hstate.symm.trans hvacant)
    · exact account_ne_of_kind (by decide) (hstate.symm.trans hold)
  refine ⟨state, L₁, L₂, L₃, L₄, L₅, L₆, L₇, L₈, (hother _ hne).trans hstate, hopen,
    ⟨⟨old, hinit⟩, custody, hgate⟩, ?_,
    requireDerivedAccounts_ok hderived hshared, hcount, ⟨htoken, htopics, hissuers, hidentity,
      hcompliance, hmetas, htransfer⟩, hrecord⟩
  intro x hx
  by_cases hdeployment : x = accts.deployment
  · subst hdeployment
    rcases hcase with ⟨-, hvacant, hnew⟩ | ⟨a, -, hold, hkept⟩
    · refine ⟨.inl hvacant, .inr ?_⟩
      rw [hnew]
      decide
    · exact absurd (hkept.trans hold.symm) hx
  · exact absurd (hother x hdeployment) hx

theorem frame_deployMetas (h : deployMetas L signers accts args = .ok L') :
    Frame [.extraAccountMetas] L L' := by
  obtain ⟨_, -, hinit⟩ := bind_eq_ok.1 h
  exact frame_initializeExtraAccountMetas hinit

/-- The hook stores a list for all modules, and it checks the mint. -/
theorem deployMetas_ok (hd : DerivedAccounts accts args)
    (hts : L.accounts (Token.tokenStateAddress args.tokenMint) = account (tokenRecord args))
    (h : deployMetas L signers accts args = .ok L') :
    TokenHook.ListComplete args.tokenMint args.complianceModules L' ∧
      TokenHook.validateTokenMintAccount L args.tokenMint
        (Token.tokenStateAddress args.tokenMint) (tokenRecord args) = .ok () := by
  simp only [deployMetas, bind_eq_ok, require_eq_ok, exists_const, hd.tokenMintAccount,
    hd.tokenState] at h
  obtain ⟨hmodules, hinit⟩ := h
  rw [hmodules] at hinit
  obtain ⟨ts, _, _, _, hready, -⟩ := TokenHook.initializeExtraAccountMetas_eq_ok.1 hinit
  obtain rfl : ts = tokenRecord args := account_inj.1 (hready.tokenState.symm.trans hts)
  exact ⟨TokenHook.listComplete_of_stored (.inl hinit), hready.mint⟩

section Calls

variable {L₁ L₂ L₃ L₄ L₅ L₆ L₇ L₈ : Ledger} (hd : DerivedAccounts accts args)
  (hcount : args.trustedIssuers.length ≤ accts.remaining.length)
  (h : Calls signers accts args L₁ L₂ L₃ L₄ L₅ L₆ L₇ L₈)

include hd hcount h

/-- The records before the suite changes hands. -/
theorem Calls.linked : LinkedSuite L₇ args accts.admin := by
  obtain ⟨hts, hos, -, -⟩ := deployToken_ok hd h.token
  have hctr := deployClaimTopics_ok h.claimTopics
  obtain ⟨-, htir, -, hframe₄⟩ := deployTrustedIssuers_ok hd hcount h.trustedIssuers
  obtain ⟨hirs, hirp, hframe₅⟩ := deployIdentity_ok hd h.identity
  have hstate := deployCompliance_ok h.compliance
  have hmetas := frame_deployMetas h.metas
  have hafter₅ : Frame [.complianceState, .extraAccountMetas] L₅ L₇ :=
    (hstate.frame.mono (by decide)).trans (hmetas.mono (by decide))
  have hafter₄ : Frame [.identityRegistryStorageState, .identityRegistryState, .complianceState,
      .extraAccountMetas] L₄ L₇ :=
    (hframe₅.mono (by decide)).trans (hafter₅.mono (by decide))
  have hafter₃ : Frame [.trustedIssuersState, .issuerEntry, .identityRegistryStorageState,
      .identityRegistryState, .complianceState, .extraAccountMetas] L₃ L₇ :=
    (hframe₄.mono (by decide)).trans (hafter₄.mono (by decide))
  have hafter₂ : Frame [.claimTopicsState, .trustedIssuersState, .issuerEntry,
      .identityRegistryStorageState, .identityRegistryState, .complianceState,
      .extraAccountMetas] L₂ L₇ :=
    (hctr.frame.mono (by decide)).trans (hafter₃.mono (by decide))
  rw [hd.tokenState] at hts
  rw [hd.ownerState] at hos
  rw [hd.ctrState] at hctr
  rw [hd.tirState] at htir
  rw [hd.irsState] at hirs
  rw [hd.irpState] at hirp
  rw [hd.complianceState] at hstate
  exact {
    tokenState := hafter₂.accounts_eq (by decide) hts
    ownerState := hafter₂.accounts_eq (by decide) hos
    claimTopics := hafter₃.accounts_eq (by decide) hctr.record
    trustedIssuers := hafter₄.accounts_eq (by decide) htir
    registry := hafter₅.accounts_eq (by decide) hirp
    storage := hafter₅.accounts_eq (by decide) hirs
    compliance := hmetas.accounts_eq (by decide) hstate.record }

/-- What the calls between the token and the hook change. -/
theorem Calls.frame_registries : Frame [.claimTopicsState, .trustedIssuersState, .issuerEntry,
    .identityRegistryStorageState, .identityRegistryState, .complianceState] L₂ L₆ := by
  have hctr := (deployClaimTopics_ok h.claimTopics).frame
  obtain ⟨-, -, -, htir⟩ := deployTrustedIssuers_ok hd hcount h.trustedIssuers
  obtain ⟨-, -, hidentity⟩ := deployIdentity_ok hd h.identity
  have hcompliance := (deployCompliance_ok h.compliance).frame
  exact (((hctr.mono (by decide)).trans (htir.mono (by decide))).trans
    (hidentity.mono (by decide))).trans (hcompliance.mono (by decide))

theorem Calls.frame :
    Frame (.tokenState :: .issuerEntry :: .extraAccountMetas :: ownedKinds) L₁ L₈ := by
  obtain ⟨-, -, -, htoken⟩ := deployToken_ok hd h.token
  have hregistries := h.frame_registries hd hcount
  have hmetas := frame_deployMetas h.metas
  obtain ⟨-, htransfer⟩ := transferSuite_ok hd (h.linked hd hcount) h.transfer
  exact (((htoken.mono (by decide)).trans (hregistries.mono (by decide))).trans
    (hmetas.mono (by decide))).trans (htransfer.mono (by decide))

/-- The entries of the registry of issuers are the new ones: there was no registry
before that an entry could have referred to. -/
theorem Calls.entries (hsound : (Tir.roster L₁).Sound) (k : Pubkey) (entry : IssuerEntry) :
    L₈.view IssuerEntry k = some entry ∧ entry.tir = Tir.tirAddress args.tokenMint ↔
      ∃ issuer ∈ args.trustedIssuers,
        k = Tir.issuerEntryAddress (Tir.tirAddress args.tokenMint) issuer.issuerFid ∧
          entry = issuerRecord args issuer := by
  obtain ⟨-, -, -, htoken⟩ := deployToken_ok hd h.token
  have hctr := (deployClaimTopics_ok h.claimTopics).frame
  obtain ⟨hvacant, -, hentries, -⟩ := deployTrustedIssuers_ok hd hcount h.trustedIssuers
  obtain ⟨-, -, hidentity⟩ := deployIdentity_ok hd h.identity
  have hcompliance := (deployCompliance_ok h.compliance).frame
  have hmetas := frame_deployMetas h.metas
  obtain ⟨-, htransfer⟩ := transferSuite_ok hd (h.linked hd hcount) h.transfer
  have hbefore : Frame [.tokenState, .ownerState, .claimTopicsState] L₁ L₃ :=
    (htoken.mono (by decide)).trans (hctr.mono (by decide))
  have hroster : (Tir.roster L₃).Sound := by
    rw [Tir.roster_congr (hbefore.table_eq (by decide)) (hbefore.table_eq (by decide))]
    exact hsound
  have hlater : L₈.view IssuerEntry k = L₄.view IssuerEntry k := by
    rw [htransfer.view_eq (by decide), hmetas.view_eq (by decide),
      hcompliance.view_eq (by decide), hidentity.view_eq (by decide)]
  rw [hlater, hentries, ← hd.tirState]
  constructor
  · rintro ⟨hold | hnew, htir⟩
    · exact absurd htir (no_entries_of_vacant hroster hvacant (view_eq_some.1 hold))
    · exact hnew
  · rintro ⟨issuer, hissuer, hkey, rfl⟩
    exact ⟨.inr ⟨issuer, hissuer, hkey, rfl⟩, hd.tirState.symm⟩

/-- The hook has stored a list for all modules. -/
theorem Calls.listComplete : TokenHook.ListComplete args.tokenMint args.complianceModules L₈ := by
  obtain ⟨hts, -, -, -⟩ := deployToken_ok hd h.token
  rw [hd.tokenState] at hts
  have hkept := (h.frame_registries hd hcount).accounts_eq (by decide) hts
  obtain ⟨hlist, -⟩ := deployMetas_ok hd hkept h.metas
  obtain ⟨-, htransfer⟩ := transferSuite_ok hd (h.linked hd hcount) h.transfer
  refine hlist.congr (htransfer.accounts_eq (by decide) hlist.stored) fun k hk ↦ ?_
  obtain ⟨hsame, hheld⟩ := TokenHook.routedBy_frame (k := k) htransfer (by decide) (by decide)
  exact ⟨hsame, hheld (hlist.held k hk)⟩

/-- The token controller has checked the mint without the permanent delegate, and
the hook has checked the delegate. -/
theorem Calls.mint :
    Token.validateTokenMintAccount L₈ args.tokenMint (tokenRecord args) true = .ok () := by
  obtain ⟨hts, -, hvalid, -⟩ := deployToken_ok hd h.token
  rw [hd.tokenState] at hts
  have hregistries := h.frame_registries hd hcount
  obtain ⟨-, hhook⟩ := deployMetas_ok hd (hregistries.accounts_eq (by decide) hts) h.metas
  have hmetas := frame_deployMetas h.metas
  obtain ⟨-, htransfer⟩ := transferSuite_ok hd (h.linked hd hcount) h.transfer
  have hfirst : L₆.view Mint args.tokenMint = L₂.view Mint args.tokenMint :=
    hregistries.view_eq (by decide) _
  have hlater : L₈.view Mint args.tokenMint = L₆.view Mint args.tokenMint := by
    rw [htransfer.view_eq (by decide), hmetas.view_eq (by decide)]
  have htoken := (validateTokenMintAccount_congr hfirst).trans hvalid
  rw [validateTokenMintAccount_congr hlater]
  exact validateTokenMintAccount_full htoken hhook

end Calls

/-- Every successful deployment yields a coherent suite. -/
theorem deploy_coherent [Borsh] {L₀ : Ledger} {labels : List Suite.Label} (hstart : NoLists L₀)
    (hrun : Run Suite.Step L₀ labels L) (h : deployTokenSuite L signers accts args = .ok L') :
    CoherentSuite L' args := by
  have hkept : ListsKept L := hrun.invariant (fun _ _ _ h hstep ↦ h.step hstep) hstart.kept
  obtain ⟨state, L₁, L₂, L₃, L₄, L₅, L₆, L₇, L₈, hstate, hopen, -, hbegin, hd, hcount, hcalls,
    hrecord⟩ := deployTokenSuite_ok h
  have hframe := hcalls.frame hd hcount
  have hopen₈ : DeploymentOpen L₈ accts.deployment :=
    hopen.of_frame hframe (by decide) (by decide)
  have hstate₈ : L₈.accounts accts.factoryState = account state :=
    hframe.accounts_eq (by decide) hstate
  have hend := frame_recordDeployment hopen₈ hstate₈ hrecord
  have hsound : (Tir.roster L₁).Sound := by
    rw [Tir.roster_congr (hbegin.table_eq (by decide)) (hbegin.table_eq (by decide))]
    exact hkept.sound
  have hlinked := (transferSuite_ok hd (hcalls.linked hd hcount) hcalls.transfer).1
  have hlist := hcalls.listComplete hd hcount
  refine ⟨hlinked.of_frame hend (by decide), fun k entry ↦ ?_, ?_, ?_⟩
  · rw [← view_eq_some, hend.view_eq (by decide)]
    exact hcalls.entries hd hcount hsound k entry
  · refine (hlist.congr (hend.accounts_eq (by decide) hlist.stored) fun k hk ↦ ?_).finds
    obtain ⟨hsame, hheld⟩ := routedBy_recordDeployment hopen₈ hstate₈ hrecord k
    exact ⟨hsame, hheld (hlist.held k hk)⟩
  · rw [validateTokenMintAccount_congr (hend.view_eq (by decide) _)]
    exact hcalls.mint hd hcount

end Deployment

/-! ## A deployment -/

/-- A token with one trusted issuer and an investor cap. -/
def suiteArgs : DeployTokenSuiteArgs where
  issuer := .address 2
  assetId := 7
  tokenMint := .address 0
  tokenName := "Fracks"
  tokenSymbol := "FRX"
  decimals := 6
  isin := "XS0000000001"
  claimTopics := [1, 4]
  trustedIssuers := [⟨Fid.fidAddress (.address 5), [4], "KYC"⟩]
  complianceModules := [HookedModule.moduleAddress MaxInvestorsModule (.address 0)]
  sharedIrs := none
  salt := 9

def suiteAccounts : DeployTokenSuite where
  admin := .address 1
  factoryState := factoryStateAddress
  issuer := .address 2
  deployment := deploymentAddress (.address 2) 9
  custodyMandate := custodyMandateAddress 7
  custodyAttestation := custodyAttestationAddress (custodyMandateAddress 7)
  tokenState := Token.tokenStateAddress (.address 0)
  ownerState := Token.ownerAddress (.address 0)
  irsState := Irs.irsAddress (.address 0)
  tirState := Tir.tirAddress (.address 0)
  ctrState := Ctr.ctrAddress (.address 0)
  irpState := Irp.irpAddress (.address 0)
  complianceState := Compliance.complianceAddress (.address 0)
  tokenMintAccount := .address 0
  extraAccountMetas := TokenHook.extraAccountMetasAddress (.address 0) TokenHook.hookProgram
  tokenProgram := .program .fracksToken
  token2022Program := .program .token2022
  hookProgram := .program .fracksTokenHook
  irpProgram := .program .fracksIrp
  irsProgram := .program .fracksIrs
  tirProgram := .program .fracksTir
  ctrProgram := .program .fracksCtr
  complianceProgram := .program .fracksCompliance
  systemProgram := .program .system
  remaining := [Tir.issuerEntryAddress (Tir.tirAddress (.address 0)) (Fid.fidAddress (.address 5)),
    HookedModule.moduleAddress MaxInvestorsModule (.address 0)]

/-- A platform with an accepted and attested mandate for the asset, a new mint and
the module. -/
def suiteLedger : Ledger :=
  .ofRecords [(factoryStateAddress, account
      { owner := .address 1
        tokenProgramId := .program .fracksToken
        fidProgramId := .program .fracksFid
        irpProgramId := .program .fracksIrp
        irsProgramId := .program .fracksIrs
        tirProgramId := .program .fracksTir
        ctrProgramId := .program .fracksCtr
        complianceProgramId := .program .fracksCompliance
        deploymentCount := 0 : FactoryState }),
    (custodyMandateAddress 7, account
      { assetId := 7
        issuer := .address 2
        issuerFid := Fid.fidAddress (.address 2)
        custodian := .address 3
        custodianFid := Fid.fidAddress (.address 3)
        active := true
        accepted := true
        createdAt := 0
        acceptedAt := 0
        releasedAt := 0
        releaseNoticeAt := 0 : CustodyMandate }),
    (custodyAttestationAddress (custodyMandateAddress 7), account
      { assetId := 7
        custodyMandate := custodyMandateAddress 7
        custodian := .address 3
        custodianFid := Fid.fidAddress (.address 3)
        documentHash := 0
        attestationHash := 0
        reserveRatioBps := 0
        attestedAt := 0
        expiresAt := 5000
        active := true : CustodyAttestation }),
    (.address 0, account (tokenMint (.address 1) (Token.tokenStateAddress (.address 0))
      TokenHook.hookProgram 6)),
    (HookedModule.moduleAddress MaxInvestorsModule (.address 0), account
      { owner := .address 2
        tokenMint := .address 0
        hookAuthority := Compliance.complianceAddress (.address 0)
        maxInvestors := 100
        holderCount := 0 : MaxInvestorsModule })]

/-- The kinds of records with a list. -/
def listKinds : List AccountKind :=
  [.complianceState, .identityRegistryStorageState, .identityRegistryState, .claimTopicsState,
    .trustedIssuersState, .issuerEntry]

theorem suiteLedger_noLists : NoLists suiteLedger := by
  have hkinds : ∀ k, (suiteLedger.accounts k).kind ∉ listKinds := by
    refine ofRecords_forall (P := fun _ acc ↦ acc.kind ∉ listKinds) ?_ fun _ ↦ by decide
    simp [AccountType.kind, listKinds]
  have hnone : ∀ {α : Type} [AccountType α], kind α ∈ listKinds → ∀ k,
      suiteLedger.view α k = none := by
    intro α _ hα k
    by_contra hne
    obtain ⟨a, ha⟩ := Option.ne_none_iff_exists'.1 hne
    have hkind := hkinds k
    rw [view_eq_some.1 ha, kind_account] at hkind
    exact hkind hα
  exact ⟨hnone (by decide), hnone (by decide), hnone (by decide), hnone (by decide),
    hnone (by decide), hnone (by decide)⟩

theorem suite_deployed :
    ∃ L', deployTokenSuite suiteLedger [.address 1] suiteAccounts suiteArgs = .ok L' := by
  have hsucceeds :
      (deployTokenSuite suiteLedger [.address 1] suiteAccounts suiteArgs).isOk = true := by
    decide +kernel
  cases h : deployTokenSuite suiteLedger [.address 1] suiteAccounts suiteArgs with
  | error e =>
      rw [h] at hsucceeds
      exact nomatch hsucceeds
  | ok L' => exact ⟨L', rfl⟩

theorem suite_coherent : ∃ L', deployTokenSuite suiteLedger [.address 1] suiteAccounts suiteArgs =
    .ok L' ∧ CoherentSuite L' suiteArgs := by
  obtain ⟨L', h⟩ := suite_deployed
  exact ⟨L', h, @deploy_coherent _ _ _ _ _ strictBorsh _ _ suiteLedger_noLists (.nil _) h⟩

end Fracks.Factory
