import Fracks.Constraints

/-!
# FIDs and claims

`fracks_fid`: the identity of a wallet, the claims that issuers make about it,
and for every target, issuer and topic an index of the claim that is active.
-/

namespace Fracks.Fid

open Checked AccountType Ledger

def countryMax : ℕ := 999

def fidSpace : ℕ := 8 + 32 + 32 + 32 + 4 + 1 + 2 + 1

def claimSpace : ℕ := 8 + 32 + 4 + 8 + 32 + 32 + 32 + 64 + 8 + 8 + 1 + 1

def claimTopicIndexSpace : ℕ := 8 + 32 + 32 + 8 + 32 + 4 + 1 + 1

def fidAddress (owner : Pubkey) : Pubkey :=
  .findProgramAddress .fid [.key owner] (.program .fracksFid)

def claimAddress (fid : Pubkey) (claimId : ℕ) : Pubkey :=
  .findProgramAddress .claim [.key fid, .num claimId] (.program .fracksFid)

def claimTopicIndexAddress (targetFid issuerFid : Pubkey) (topic : ℕ) : Pubkey :=
  .findProgramAddress .claimTopicIndex [.key targetFid, .key issuerFid, .num topic]
    (.program .fracksFid)

def validateCountry (isIssuer : Bool) (country : ℕ) : Result Unit :=
  if isIssuer then require (country ≤ countryMax) (.fid .invalidCountryCode)
  else require (0 < country ∧ country ≤ countryMax) (.fid .invalidCountryCode)

/-! ## FIDs -/

/-- The FID of a wallet, which the wallet creates once. -/
def createFid (L : Ledger) (signers : List Pubkey) (owner fid : Pubkey) (isIssuer : Bool)
    (country : ℕ) : Result Ledger := do
  requireSigner signers owner
  let (L, old) ← L.initIfNeeded FidAccount owner fid (fidAddress owner) fidSpace
  require ((old.elim .default FidAccount.owner) = .default) (.fid .fidAlreadyExists)
  validateCountry isIssuer country
  .ok (L.put fid
    { owner, managementKey := owner, signerKey := owner, claimCount := 0, isIssuer,
      country := if isIssuer then 0 else country : FidAccount })

def setManagementKey (L : Ledger) (signers : List Pubkey) (owner fid newKey : Pubkey) :
    Result Ledger := do
  requireSigner signers owner
  L.modify fid fun (record : FidAccount) ↦ do
    requireSeeds fid (fidAddress owner)
    require (record.owner = owner) (.fid .unauthorized)
    .ok { record with managementKey := newKey }

/-- The update of a FID by its owner or its management key. -/
def updateFid (L : Ledger) (signers : List Pubkey) (authority fid : Pubkey)
    (f : FidAccount → Result FidAccount) : Result Ledger := do
  requireSigner signers authority
  L.modify fid fun (record : FidAccount) ↦ do
    requireSeeds fid (fidAddress record.owner)
    require (authority = record.owner ∨ authority = record.managementKey) (.fid .unauthorized)
    f record

def setSignerKey (L : Ledger) (signers : List Pubkey) (authority fid newKey : Pubkey) :
    Result Ledger :=
  updateFid L signers authority fid fun record ↦ .ok { record with signerKey := newKey }

def updateFidProfile (L : Ledger) (signers : List Pubkey) (authority fid : Pubkey)
    (isIssuer : Bool) (country : ℕ) : Result Ledger :=
  updateFid L signers authority fid fun record ↦ do
    validateCountry isIssuer country
    .ok { record with isIssuer, country := if isIssuer then 0 else country }

/-! ## Claims -/

structure AddClaimAccounts where
  issuerOwner : Pubkey
  targetFid : Pubkey
  claim : Pubkey
  claimTopicIndex : Pubkey

/-- A claim gets the next number of its target; a second active claim of the same
issuer on the same topic is refused. -/
def addClaim (L : Ledger) (signers : List Pubkey) (accts : AddClaimAccounts) (topic : ℕ)
    (issuerFid : Pubkey) (expiresAt : ℤ) : Result Ledger := do
  requireSigner signers accts.issuerOwner
  let target ← L.load FidAccount accts.targetFid
  requireSeeds accts.claim (claimAddress accts.targetFid target.claimCount)
  let L ← L.createAccount accts.issuerOwner accts.claim .fracksFid claimSpace
  let (L, old) ← L.initIfNeeded ClaimTopicIndex accts.issuerOwner accts.claimTopicIndex
    (claimTopicIndexAddress accts.targetFid issuerFid topic) claimTopicIndexSpace
  require (issuerFid = fidAddress accts.issuerOwner) (.fid .invalidIssuerFid)
  require (old.elim false ClaimTopicIndex.isActive = false) (.fid .duplicateClaimTopicIssuer)
  let claimCount ← okOr (checkedU32 (target.claimCount + 1)) (.fid .arithmeticOverflow)
  let L := L.put accts.claim
    { fid := accts.targetFid, claimId := target.claimCount, topic, issuerFid,
      signerKey := accts.issuerOwner, issuedAt := L.now, expiresAt,
      revoked := false : ClaimAccount }
  let L := L.put accts.claimTopicIndex
    { targetFid := accts.targetFid, issuerFid, topic, activeClaim := accts.claim,
      activeClaimId := target.claimCount, isActive := true : ClaimTopicIndex }
  .ok (L.put accts.targetFid { target with claimCount })

/-- The claim and the index of its target, issuer and topic. -/
def loadClaim (L : Ledger) (claim claimTopicIndex : Pubkey) :
    Result (ClaimAccount × ClaimTopicIndex) := do
  let record ← L.load ClaimAccount claim
  let index ← L.load ClaimTopicIndex claimTopicIndex
  requireSeeds claim (claimAddress record.fid record.claimId)
  requireSeeds claimTopicIndex (claimTopicIndexAddress record.fid record.issuerFid record.topic)
  require (index.targetFid = record.fid) (.fid .invalidClaimTopicIndex)
  require (index.issuerFid = record.issuerFid) (.fid .invalidClaimTopicIndex)
  require (index.topic = record.topic) (.fid .invalidClaimTopicIndex)
  .ok (record, index)

/-- The index without the claim, when that is the active one. -/
def withoutClaim (index : ClaimTopicIndex) (claim : Pubkey) : ClaimTopicIndex :=
  if index.activeClaim = claim then { index with isActive := false, activeClaim := .default }
  else index

def revokeClaim (L : Ledger) (signers : List Pubkey) (issuerOwner claim claimTopicIndex : Pubkey) :
    Result Ledger := do
  requireSigner signers issuerOwner
  let (record, index) ← loadClaim L claim claimTopicIndex
  require (issuerOwner = record.signerKey) (.fid .invalidIssuerFid)
  .ok ((L.put claim { record with revoked := true }).put claimTopicIndex (withoutClaim index claim))

/-- The holder removes a claim; its account is closed to the authority. -/
def removeClaim (L : Ledger) (signers : List Pubkey)
    (authority fid claim claimTopicIndex : Pubkey) : Result Ledger := do
  requireSigner signers authority
  let holder ← L.load FidAccount fid
  let (record, index) ← loadClaim L claim claimTopicIndex
  require (record.fid = fid) (.fid .claimFidMismatch)
  require (authority = holder.owner ∨ authority = holder.managementKey) (.fid .unauthorized)
  .ok ((L.put claimTopicIndex (withoutClaim index claim)).close claim authority)

/-! ## Instructions -/

inductive Instruction
  | createFid (owner fid : Pubkey) (isIssuer : Bool) (country : ℕ)
  | setManagementKey (owner fid newKey : Pubkey)
  | setSignerKey (authority fid newKey : Pubkey)
  | updateFidProfile (authority fid : Pubkey) (isIssuer : Bool) (country : ℕ)
  | addClaim (accts : AddClaimAccounts) (topic : ℕ) (issuerFid : Pubkey) (expiresAt : ℤ)
  | revokeClaim (issuerOwner claim claimTopicIndex : Pubkey)
  | removeClaim (authority fid claim claimTopicIndex : Pubkey)

def process (L : Ledger) (signers : List Pubkey) : Instruction → Result Ledger
  | .createFid owner fid isIssuer country => createFid L signers owner fid isIssuer country
  | .setManagementKey owner fid newKey => setManagementKey L signers owner fid newKey
  | .setSignerKey authority fid newKey => setSignerKey L signers authority fid newKey
  | .updateFidProfile authority fid isIssuer country =>
      updateFidProfile L signers authority fid isIssuer country
  | .addClaim accts topic issuerFid expiresAt =>
      addClaim L signers accts topic issuerFid expiresAt
  | .revokeClaim issuerOwner claim claimTopicIndex =>
      revokeClaim L signers issuerOwner claim claimTopicIndex
  | .removeClaim authority fid claim claimTopicIndex =>
      removeClaim L signers authority fid claim claimTopicIndex

/-- The kinds of accounts of the program. -/
def fidKinds : List AccountKind := [.fidAccount, .claimAccount, .claimTopicIndex]

end Fracks.Fid
