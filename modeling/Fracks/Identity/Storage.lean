import Fracks.Identity
import Fracks.Identity.Fid

/-!
# The identity storage

The instructions of `fracks_irs` besides those that a recovery calls: the
storage and its bound registries, the registration of a wallet against its FID,
the applications for it, the activation, and the removal by the wallet itself.
-/

namespace Fracks.Irs

open Checked AccountType Ledger

def maxBoundRegistries : ℕ := 32

def irsSpace : ℕ := 8 + 32 + 32 + 4 + (32 * maxBoundRegistries) + 8 + 1

def walletIdentitySpace : ℕ := 8 + 32 + 32 + 2 + 32 + 1 + 32 + 8 + 1

def onboardingApplicationSpace : ℕ := 8 + 32 + 32 + 32 + 32 + 1 + 32 + 8 + 8 + 1

def applicationStatusSubmitted : ℕ := 1

def applicationStatusApproved : ℕ := 2

def applicationStatusRejected : ℕ := 3

def applicationAddress (irs wallet : Pubkey) : Pubkey :=
  .findProgramAddress .onboardingApplication [.key irs, .key wallet] (.program .fracksIrs)

/-! ## The storage -/

def initializeIrs (L : Ledger) (signers : List Pubkey) (owner irsState authoritySeed : Pubkey) :
    Result Ledger := do
  requireSigner signers owner
  L.initRecord owner irsState (irsAddress authoritySeed) irsSpace
    { owner, authoritySeed, boundRegistries := [], registeredCount := 0 :
      IdentityRegistryStorageState }

/-- The `UpdateIrsOwnerState` accounts. -/
def updateIrsOwnerState (L : Ledger) (signers : List Pubkey) (owner irsState : Pubkey)
    (f : IdentityRegistryStorageState → Result IdentityRegistryStorageState) : Result Ledger := do
  requireSigner signers owner
  L.modify irsState fun state ↦ do
    requireSeeds irsState (irsAddress state.authoritySeed)
    require (state.owner = owner) (.irs .notOwner)
    f state

def bindRegistry (L : Ledger) (signers : List Pubkey) (owner irsState irp : Pubkey) :
    Result Ledger :=
  updateIrsOwnerState L signers owner irsState fun state ↦ do
    require (irp ∉ state.boundRegistries) (.irs .registryAlreadyBound)
    require (state.boundRegistries.length < maxBoundRegistries) (.irs .maxBoundRegistriesReached)
    .ok { state with boundRegistries := state.boundRegistries ++ [irp] }

def unbindRegistry (L : Ledger) (signers : List Pubkey) (owner irsState irp : Pubkey) :
    Result Ledger :=
  updateIrsOwnerState L signers owner irsState fun state ↦ do
    require (irp ∈ state.boundRegistries) (.irs .registryNotBound)
    .ok { state with boundRegistries := state.boundRegistries.erase irp }

def transferOwnership (L : Ledger) (signers : List Pubkey) (owner irsState newOwner : Pubkey) :
    Result Ledger :=
  updateIrsOwnerState L signers owner irsState fun state ↦ do
    require (newOwner ≠ .default) (.irs .invalidOwner)
    .ok { state with owner := newOwner }

/-- The storage of an instruction, at its own seeds. -/
def loadIrsState (L : Ledger) (irsState : Pubkey) : Result IdentityRegistryStorageState := do
  let state ← L.load IdentityRegistryStorageState irsState
  requireSeeds irsState (irsAddress state.authoritySeed)
  .ok state

/-! ## Registration -/

/-- The FID of an investor: the wallet's own, not that of an issuer, and in the
country that is registered. -/
def validateInvestorFid (record : FidAccount) (fidAccount wallet fid : Pubkey) (country : ℕ) :
    Result Unit := do
  require (fidAccount = fid) (.irs .invalidFidAccount)
  require (record.owner = wallet) (.irs .invalidFidAccount)
  require (record.isIssuer = false) (.irs .invalidInvestorFid)
  require (record.country = country) (.irs .fidCountryMismatch)

section Actors

variable [Borsh]

/-- The FID account comes on top of the accounts of the other instructions. -/
def registerIdentity (L : Ledger) (signers : List Pubkey) (accts : IdentityAccounts)
    (fidAccount wallet fid : Pubkey) (country : ℕ) : Result Ledger := do
  requireSigner signers accts.authority
  let irsState ← loadIrsState L accts.irsState
  let record ← L.load FidAccount fidAccount
  requireSeeds fidAccount (Fid.fidAddress wallet)
  let (L, old) ← L.initIfNeeded WalletIdentity accts.authority accts.walletIdentity
    (Irp.walletIdentityAddress accts.irsState wallet) walletIdentitySpace
  validateCountry country
  authorizeIdentityActor L accts.authority accts.irsState accts.registryState irsState
  require (old.elim .default WalletIdentity.wallet = .default) (.irs .walletAlreadyRegistered)
  validateInvestorFid record fidAccount wallet fid country
  let registeredCount ← okOr (checkedAdd irsState.registeredCount 1) (.irs .arithmeticOverflow)
  let L := L.put accts.walletIdentity
    { wallet, fid, country, irs := accts.irsState, isActive := false, activatedBy := .default,
      activatedAt := 0 : WalletIdentity }
  .ok (L.put accts.irsState { irsState with registeredCount })

/-! ## Applications -/

def reviewOnboardingApplication (L : Ledger) (signers : List Pubkey)
    (authority irsState registryState application : Pubkey) (approved : Bool) :
    Result Ledger := do
  requireSigner signers authority
  let state ← loadIrsState L irsState
  let record ← L.load OnboardingApplication application
  requireSeeds application (applicationAddress irsState record.wallet)
  require (record.irs = irsState) (.irs .invalidApplication)
  authorizeIdentityActor L authority irsState registryState state
  require (record.status = applicationStatusSubmitted) (.irs .applicationNotSubmitted)
  .ok (L.put application
    { record with
      status := if approved then applicationStatusApproved else applicationStatusRejected
      reviewer := authority
      reviewedAt := L.now })

end Actors

/-- A rejected application may be submitted again. -/
def submitOnboardingApplication (L : Ledger) (signers : List Pubkey)
    (applicant irsState application wallet : Pubkey) : Result Ledger := do
  requireSigner signers applicant
  let _ ← loadIrsState L irsState
  let (L, old) ← L.initIfNeeded OnboardingApplication applicant application
    (applicationAddress irsState wallet) onboardingApplicationSpace
  let status := old.elim 0 OnboardingApplication.status
  require (status = 0 ∨ status = applicationStatusRejected) (.irs .applicationAlreadyOpen)
  .ok (L.put application
    { wallet, irs := irsState, applicant, status := applicationStatusSubmitted,
      reviewer := .default, submittedAt := L.now, reviewedAt := 0 : OnboardingApplication })

def cancelOnboardingApplication (L : Ledger) (signers : List Pubkey)
    (authority irsState application : Pubkey) : Result Ledger := do
  requireSigner signers authority
  let state ← loadIrsState L irsState
  let record ← L.load OnboardingApplication application
  requireSeeds application (applicationAddress irsState record.wallet)
  require (record.irs = irsState) (.irs .invalidApplication)
  require (authority = record.applicant ∨ authority = state.owner)
    (.irs .unauthorizedApplicationCancel)
  .ok (L.close application authority)

/-! ## Activation and removal -/

def setIdentityActivation (L : Ledger) (signers : List Pubkey)
    (owner irsState walletIdentity : Pubkey) (active : Bool) : Result Ledger := do
  requireSigner signers owner
  let state ← loadIrsState L irsState
  require (state.owner = owner) (.irs .notOwner)
  let identity ← L.load WalletIdentity walletIdentity
  requireSeeds walletIdentity (Irp.walletIdentityAddress irsState identity.wallet)
  require (identity.irs = irsState) (.irs .walletNotRegistered)
  .ok (L.put walletIdentity
    { identity with isActive := active, activatedBy := owner, activatedAt := L.now })

/-- The wallet removes its own identity; the account is closed to it. -/
def removeOwnIdentity (L : Ledger) (signers : List Pubkey)
    (owner irsState walletIdentity : Pubkey) :
    Result Ledger := do
  requireSigner signers owner
  let state ← loadIrsState L irsState
  let identity ← L.load WalletIdentity walletIdentity
  requireSeeds walletIdentity (Irp.walletIdentityAddress irsState owner)
  require (identity.irs = irsState) (.irs .walletNotRegistered)
  require (identity.wallet = owner) (.irs .walletNotRegistered)
  let registeredCount ← okOr (checkedSub state.registeredCount 1) (.irs .arithmeticOverflow)
  .ok ((L.put irsState { state with registeredCount }).close walletIdentity owner)

/-! ## Instructions -/

inductive Instruction
  | initializeIrs (owner irsState authoritySeed : Pubkey)
  | bindRegistry (owner irsState irp : Pubkey)
  | unbindRegistry (owner irsState irp : Pubkey)
  | transferOwnership (owner irsState newOwner : Pubkey)
  | registerIdentity (accts : IdentityAccounts) (fidAccount wallet fid : Pubkey) (country : ℕ)
  | submitOnboardingApplication (applicant irsState application wallet : Pubkey)
  | reviewOnboardingApplication (authority irsState registryState application : Pubkey)
      (approved : Bool)
  | cancelOnboardingApplication (authority irsState application : Pubkey)
  | setIdentityActivation (owner irsState walletIdentity : Pubkey) (active : Bool)
  | updateIdentity (accts : IdentityAccounts) (newFid : Pubkey)
  | updateCountry (accts : IdentityAccounts) (newCountry : ℕ)
  | removeIdentity (accts : IdentityAccounts)
  | removeOwnIdentity (owner irsState walletIdentity : Pubkey)

def process [Borsh] (L : Ledger) (signers : List Pubkey) : Instruction → Result Ledger
  | .initializeIrs owner irsState authoritySeed =>
      initializeIrs L signers owner irsState authoritySeed
  | .bindRegistry owner irsState irp => bindRegistry L signers owner irsState irp
  | .unbindRegistry owner irsState irp => unbindRegistry L signers owner irsState irp
  | .transferOwnership owner irsState newOwner =>
      transferOwnership L signers owner irsState newOwner
  | .registerIdentity accts fidAccount wallet fid country =>
      registerIdentity L signers accts fidAccount wallet fid country
  | .submitOnboardingApplication applicant irsState application wallet =>
      submitOnboardingApplication L signers applicant irsState application wallet
  | .reviewOnboardingApplication authority irsState registryState application approved =>
      reviewOnboardingApplication L signers authority irsState registryState application approved
  | .cancelOnboardingApplication authority irsState application =>
      cancelOnboardingApplication L signers authority irsState application
  | .setIdentityActivation owner irsState walletIdentity active =>
      setIdentityActivation L signers owner irsState walletIdentity active
  | .updateIdentity accts newFid => updateIdentity L signers accts newFid
  | .updateCountry accts newCountry => updateCountry L signers accts newCountry
  | .removeIdentity accts => removeIdentity L signers accts
  | .removeOwnIdentity owner irsState walletIdentity =>
      removeOwnIdentity L signers owner irsState walletIdentity

end Fracks.Irs
