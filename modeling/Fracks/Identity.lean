import Fracks.Constraints

/-!
# Identity

The part of the identity programs that the token controller relies on: the
verification of a wallet against the registry of a token, with its identity,
claims and trusted issuers, and the three instructions of `fracks_irs` that a
recovery calls.
-/

namespace Fracks

open Checked AccountType Ledger

/-! ## Verification helpers of the registry program -/

namespace Irp

variable [Borsh]

def deserializeView (α : Type) [AccountType α] (L : Ledger) (k : Pubkey) : Result α :=
  okOr (Borsh.decodeView α (L.accounts k).data) (.irp .invalidRegistryReference)

def walletIdentityAddress (irs wallet : Pubkey) : Pubkey :=
  .findProgramAddress .walletIdentity [.key irs, .key wallet] (.program .fracksIrs)

/-- The identity of a wallet, when the account given for it is the right one. -/
def findWalletIdentity (L : Ledger) (wallet irs walletIdentity : Pubkey) :
    Result (Option WalletIdentity) :=
  if (L.accounts walletIdentity).owner = .default then .ok none
  else if walletIdentity ≠ walletIdentityAddress irs wallet then .ok none
  else do
    let identity ← deserializeView WalletIdentity L walletIdentity
    if identity.wallet ≠ wallet ∨ identity.irs ≠ irs then .ok none else .ok (some identity)

/-- The issuer entry at `k`, when it is the entry of the issuer. -/
def issuerEntryAt (L : Ledger) (tirState issuerFid k : Pubkey) : Option IssuerEntry :=
  match L.view IssuerEntry k with
  | some entry =>
      if k = .findProgramAddress .issuerEntry [.key tirState, .key issuerFid]
            (.program .fracksTir) ∧ entry.tir = tirState ∧ entry.issuerFid = issuerFid then
        some entry
      else none
  | none => none

def findIssuerEntry (L : Ledger) (accounts : List Pubkey) (tirState issuerFid : Pubkey) :
    Result IssuerEntry :=
  okOr (accounts.findSome? (issuerEntryAt L tirState issuerFid)) (.irp .trustedIssuerNotFound)

/-- The claim account at `k` proves the topic for the holder. -/
def claimProves (L : Ledger) (holderFid : Pubkey) (topic : ℕ) (tirState : Pubkey)
    (accounts : List Pubkey) (now : ℤ) (k : Pubkey) : Bool :=
  match L.view ClaimAccount k with
  | some claim =>
      if k ≠ .findProgramAddress .claim [.key claim.fid, .num claim.claimId]
          (.program .fracksFid) then false
      else if claim.fid ≠ holderFid ∨ claim.topic ≠ topic ∨ claim.revoked = true ∨
          (claim.expiresAt ≠ 0 ∧ claim.expiresAt < now) then false
      else
        match findIssuerEntry L accounts tirState claim.issuerFid with
        | .ok entry =>
            entry.isActive ∧ topic ∈ entry.allowedTopics ∧
              claim.issuerFid =
                .findProgramAddress .fid [.key claim.signerKey] (.program .fracksFid)
        | .error _ => false
  | none => false

def verifyClaimForTopic (L : Ledger) (holderFid : Pubkey) (topic : ℕ) (tirState : Pubkey)
    (accounts : List Pubkey) (now : ℤ) : Bool :=
  accounts.any (claimProves L holderFid topic tirState accounts now)

def ensureBoundRegistry (irsState : IdentityRegistryStorageState) (irp : Pubkey) : Result Unit :=
  require (irp ∈ irsState.boundRegistries) (.irp .invalidRegistryReference)

end Irp

/-! ## Instructions of the identity storage -/

namespace Irs

def countryMin : ℕ := 1

def countryMax : ℕ := 999

def irsAddress (authoritySeed : Pubkey) : Pubkey :=
  .findProgramAddress .irsState [.key authoritySeed] (.program .fracksIrs)

def validateCountry (country : ℕ) : Result Unit :=
  require (countryMin ≤ country ∧ country ≤ countryMax) (.irs .invalidCountryCode)

section Actors

variable [Borsh]

def authorizeIdentityActor (L : Ledger) (authority irsKey registryState : Pubkey)
    (irsState : IdentityRegistryStorageState) : Result Unit :=
  if authority = irsState.owner then .ok ()
  else do
    require (registryState ∈ irsState.boundRegistries) (.irs .invalidRegistryReference)
    let registry ← okOr
      (Borsh.decodeView IdentityRegistryState (L.accounts registryState).data)
      (.irs .invalidRegistryReference)
    require (registry.irsAccount = irsKey) (.irs .invalidRegistryReference)
    require (authority ∈ registry.identityAgents) (.irs .notIdentityAgent)

/-- The accounts of `MutateWalletIdentity` and of `RemoveIdentity`. -/
structure IdentityAccounts where
  authority : Pubkey
  irsState : Pubkey
  registryState : Pubkey
  walletIdentity : Pubkey

/-- The constraints of these accounts, with the two loaded records. -/
def IdentityAccounts.check (accts : IdentityAccounts) (L : Ledger) (signers : List Pubkey) :
    Result (IdentityRegistryStorageState × WalletIdentity) := do
  requireSigner signers accts.authority
  let irsState ← L.load IdentityRegistryStorageState accts.irsState
  let identity ← L.load WalletIdentity accts.walletIdentity
  requireSeeds accts.irsState (irsAddress irsState.authoritySeed)
  requireSeeds accts.walletIdentity (Irp.walletIdentityAddress accts.irsState identity.wallet)
  require (identity.irs = accts.irsState) (.irs .walletNotRegistered)
  .ok (irsState, identity)

def updateIdentity (L : Ledger) (signers : List Pubkey) (accts : IdentityAccounts)
    (newFid : Pubkey) : Result Ledger := do
  let (irsState, identity) ← accts.check L signers
  authorizeIdentityActor L accts.authority accts.irsState accts.registryState irsState
  .ok (L.put accts.walletIdentity { identity with fid := newFid })

def updateCountry (L : Ledger) (signers : List Pubkey) (accts : IdentityAccounts)
    (newCountry : ℕ) : Result Ledger := do
  let (irsState, identity) ← accts.check L signers
  validateCountry newCountry
  authorizeIdentityActor L accts.authority accts.irsState accts.registryState irsState
  .ok (L.put accts.walletIdentity { identity with country := newCountry })

/-- The identity account is closed to the authority. -/
def removeIdentity (L : Ledger) (signers : List Pubkey) (accts : IdentityAccounts) :
    Result Ledger := do
  let (irsState, _) ← accts.check L signers
  authorizeIdentityActor L accts.authority accts.irsState accts.registryState irsState
  let registeredCount ← okOr (checkedSub irsState.registeredCount 1) (.irs .arithmeticOverflow)
  let L := L.put accts.irsState { irsState with registeredCount }
  .ok (L.close accts.walletIdentity accts.authority)

/-- The kinds of accounts these instructions write. -/
def identityKinds : List AccountKind := [.identityRegistryStorageState, .walletIdentity]

omit [Borsh] in
theorem IdentityAccounts.check_ok {accts : IdentityAccounts} {L : Ledger}
    {signers : List Pubkey} {r : IdentityRegistryStorageState × WalletIdentity}
    (h : accts.check L signers = .ok r) :
    L.accounts accts.irsState = account r.1 ∧ L.accounts accts.walletIdentity = account r.2 := by
  simp only [IdentityAccounts.check, bind_eq_ok, requireSigner_eq_ok, load_eq_ok,
    requireSeeds_eq_ok, require_eq_ok, exists_const, Except.ok.injEq] at h
  obtain ⟨-, irsState, hirs, identity, hidentity, -, -, -, rfl⟩ := h
  exact ⟨hirs, hidentity⟩

variable {L L' : Ledger} {signers : List Pubkey} {accts : IdentityAccounts}

theorem frame_updateIdentity {newFid : Pubkey}
    (h : updateIdentity L signers accts newFid = .ok L') : Frame identityKinds L L' := by
  simp only [updateIdentity, bind_eq_ok, Except.ok.injEq] at h
  obtain ⟨r, hr, _, -, rfl⟩ := h
  exact .put (IdentityAccounts.check_ok hr).2 (by decide)

theorem frame_updateCountry {newCountry : ℕ}
    (h : updateCountry L signers accts newCountry = .ok L') : Frame identityKinds L L' := by
  simp only [updateCountry, bind_eq_ok, Except.ok.injEq] at h
  obtain ⟨r, hr, _, -, _, -, rfl⟩ := h
  exact .put (IdentityAccounts.check_ok hr).2 (by decide)

theorem frame_removeIdentity (h : removeIdentity L signers accts = .ok L') :
    Frame identityKinds L L' := by
  simp only [removeIdentity, bind_eq_ok, Except.ok.injEq] at h
  obtain ⟨⟨irsState, identity⟩, hr, _, -, n, -, rfl⟩ := h
  obtain ⟨hirs, hidentity⟩ := IdentityAccounts.check_ok hr
  have hne : accts.walletIdentity ≠ accts.irsState := by
    intro heq
    rw [heq, hirs] at hidentity
    have hkind := congrArg Account.kind hidentity
    simp [kind] at hkind
  have hput : Frame identityKinds L
      (L.put accts.irsState { irsState with registeredCount := n }) := .put hirs (by decide)
  refine hput.trans (.close (a := identity) ?_ (by decide))
  rw [put_accounts_of_ne _ hne, hidentity]

end Actors

end Irs

end Fracks
