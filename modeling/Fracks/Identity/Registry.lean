import Fracks.Identity

/-!
# The identity registry

`fracks_irp`: the registry of a token with its references and agents, and the
verification of a wallet against it.
-/

namespace Fracks.Irp

open Checked AccountType Ledger

def maxIdentityAgents : ℕ := 10

def irpSpace : ℕ := 8 + 32 + 32 + 32 + 32 + 32 + 4 + (32 * maxIdentityAgents) + 8 + 1

def irpAddress (tokenMint : Pubkey) : Pubkey :=
  .findProgramAddress .irpState [.key tokenMint] (.program .fracksIrp)

/-! ## Administration -/

def initializeRegistry (L : Ledger) (signers : List Pubkey)
    (owner registryState tokenMint irs tir ctr : Pubkey) : Result Ledger := do
  requireSigner signers owner
  L.initRecord owner registryState (irpAddress tokenMint) irpSpace
    { tokenMint, owner, irsAccount := irs, tirAccount := tir, ctrAccount := ctr,
      identityAgents := [], registeredCount := 0 : IdentityRegistryState }

/-- The `UpdateRegistryOwner` accounts. -/
def updateRegistryOwner (L : Ledger) (signers : List Pubkey) (owner registryState : Pubkey)
    (f : IdentityRegistryState → Result IdentityRegistryState) : Result Ledger := do
  requireSigner signers owner
  L.modify registryState fun registry ↦ do
    requireSeeds registryState (irpAddress registry.tokenMint)
    require (registry.owner = owner) (.irp .notOwner)
    f registry

def addIdentityAgent (L : Ledger) (signers : List Pubkey) (owner registryState agent : Pubkey) :
    Result Ledger :=
  updateRegistryOwner L signers owner registryState fun registry ↦ do
    require (agent ∉ registry.identityAgents) (.irp .identityAgentAlreadyExists)
    require (registry.identityAgents.length < maxIdentityAgents) (.irp .maxIdentityAgentsReached)
    .ok { registry with identityAgents := registry.identityAgents ++ [agent] }

def removeIdentityAgent (L : Ledger) (signers : List Pubkey) (owner registryState agent : Pubkey) :
    Result Ledger :=
  updateRegistryOwner L signers owner registryState fun registry ↦ do
    require (agent ∈ registry.identityAgents) (.irp .notIdentityAgent)
    .ok { registry with identityAgents := registry.identityAgents.erase agent }

def updateIrsReference (L : Ledger) (signers : List Pubkey) (owner registryState newIrs : Pubkey) :
    Result Ledger :=
  updateRegistryOwner L signers owner registryState fun registry ↦
    .ok { registry with irsAccount := newIrs }

def updateTirReference (L : Ledger) (signers : List Pubkey) (owner registryState newTir : Pubkey) :
    Result Ledger :=
  updateRegistryOwner L signers owner registryState fun registry ↦
    .ok { registry with tirAccount := newTir }

def updateCtrReference (L : Ledger) (signers : List Pubkey) (owner registryState newCtr : Pubkey) :
    Result Ledger :=
  updateRegistryOwner L signers owner registryState fun registry ↦
    .ok { registry with ctrAccount := newCtr }

def transferRegistryOwnership (L : Ledger) (signers : List Pubkey)
    (owner registryState newOwner : Pubkey) : Result Ledger :=
  updateRegistryOwner L signers owner registryState fun registry ↦ do
    require (newOwner ≠ .default) (.irp .invalidOwner)
    .ok { registry with owner := newOwner }

/-! ## Verification -/

inductive VerificationReason
  | verified
  | missingIdentity
  | identityInactive
  | missingRequiredClaim
  deriving DecidableEq

structure VerificationStatus where
  verified : Bool
  reason : VerificationReason
  missingTopic : ℕ
  deriving DecidableEq

/-- The `IsVerified` accounts. -/
structure IsVerified where
  registryState : Pubkey
  irsState : Pubkey
  tirState : Pubkey
  ctrState : Pubkey
  walletIdentity : Pubkey
  remaining : List Pubkey

variable [Borsh]

/-- The first topic without a valid claim decides. -/
def checkTopics (L : Ledger) (holderFid tirState : Pubkey) (remaining : List Pubkey) :
    List ℕ → VerificationStatus
  | [] => ⟨true, .verified, 0⟩
  | topic :: rest =>
      if verifyClaimForTopic L holderFid topic tirState remaining L.now then
        checkTopics L holderFid tirState remaining rest
      else ⟨false, .missingRequiredClaim, topic⟩

def evaluateVerification (L : Ledger) (accts : IsVerified) (wallet : Pubkey) :
    Result VerificationStatus := do
  let registry ← L.load IdentityRegistryState accts.registryState
  requireSeeds accts.registryState (irpAddress registry.tokenMint)
  let irsState ← deserializeView IdentityRegistryStorageState L accts.irsState
  let tirState ← deserializeView TrustedIssuersState L accts.tirState
  let ctrState ← deserializeView ClaimTopicsState L accts.ctrState
  require (accts.irsState = registry.irsAccount) (.irp .invalidRegistryReference)
  require (accts.tirState = registry.tirAccount) (.irp .invalidRegistryReference)
  require (accts.ctrState = registry.ctrAccount) (.irp .invalidRegistryReference)
  require (irsState.owner = registry.owner) (.irp .invalidRegistryReference)
  require (tirState.tokenMint = registry.tokenMint) (.irp .invalidRegistryReference)
  require (ctrState.tokenMint = registry.tokenMint) (.irp .invalidRegistryReference)
  ensureBoundRegistry irsState accts.registryState
  match ← findWalletIdentity L wallet accts.irsState accts.walletIdentity with
  | none => .ok ⟨false, .missingIdentity, 0⟩
  | some identity =>
      if identity.isActive = false then .ok ⟨false, .identityInactive, 0⟩
      else .ok (checkTopics L identity.fid accts.tirState accts.remaining ctrState.topics)

/-! ## Instructions -/

inductive Instruction
  | initializeRegistry (owner registryState tokenMint irs tir ctr : Pubkey)
  | addIdentityAgent (owner registryState agent : Pubkey)
  | removeIdentityAgent (owner registryState agent : Pubkey)
  | updateIrsReference (owner registryState newIrs : Pubkey)
  | updateTirReference (owner registryState newTir : Pubkey)
  | updateCtrReference (owner registryState newCtr : Pubkey)
  | transferRegistryOwnership (owner registryState newOwner : Pubkey)

omit [Borsh] in
def process (L : Ledger) (signers : List Pubkey) : Instruction → Result Ledger
  | .initializeRegistry owner registryState tokenMint irs tir ctr =>
      initializeRegistry L signers owner registryState tokenMint irs tir ctr
  | .addIdentityAgent owner registryState agent =>
      addIdentityAgent L signers owner registryState agent
  | .removeIdentityAgent owner registryState agent =>
      removeIdentityAgent L signers owner registryState agent
  | .updateIrsReference owner registryState newIrs =>
      updateIrsReference L signers owner registryState newIrs
  | .updateTirReference owner registryState newTir =>
      updateTirReference L signers owner registryState newTir
  | .updateCtrReference owner registryState newCtr =>
      updateCtrReference L signers owner registryState newCtr
  | .transferRegistryOwnership owner registryState newOwner =>
      transferRegistryOwnership L signers owner registryState newOwner

end Fracks.Irp
