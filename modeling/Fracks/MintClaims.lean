import Fracks.Identity.ClaimSearch
import Fracks.Identity.OwnAddresses
import Fracks.TransferClient

/-!
# The claims of a recipient

Before a mint the frontend looks for the claims of the recipient on its own.  It asks of a claim
what the chain asks, and also that the FID of the issuer is still that of an issuer and still
has the key that signed the claim as its signer.
-/

namespace Fracks.TokenService

open Checked AccountType Ledger Runs TransferService

/-! ## Parsers -/

structure ParsedClaim where
  fid : Pubkey
  claimId : ℕ
  topic : ℕ
  issuerFid : Pubkey
  signerKey : Pubkey
  revoked : Bool
  expiresAt : ℤ
  deriving DecidableEq

/-- Only the data of a claim has its discriminator. -/
def parseClaimAccount (data : AccountData) : Option ParsedClaim :=
  (decode (α := ClaimAccount) data).map fun claim ↦
    { fid := claim.fid, claimId := claim.claimId, topic := claim.topic,
      issuerFid := claim.issuerFid, signerKey := claim.signerKey, revoked := claim.revoked,
      expiresAt := claim.expiresAt }

section Parsers

variable [Borsh]

/-- The other parsers do not look at the discriminator. -/
def parseCtrTopics (data : AccountData) : List ℕ :=
  ((Borsh.decodeView ClaimTopicsState data).map ClaimTopicsState.topics).getD []

def parseIssuerEntryForTopic (data : AccountData) (topic : ℕ) : Bool :=
  match Borsh.decodeView IssuerEntry data with
  | some entry => entry.isActive && decide (topic ∈ entry.allowedTopics)
  | none => false

def parseFidIsIssuerAndSigner (data : AccountData) (expectedSigner : Pubkey) : Bool :=
  match Borsh.decodeView FidAccount data with
  | some fid => fid.isIssuer && decide (fid.signerKey = expectedSigner)
  | none => false

/-- The owner of a registry of issuers, for messages. -/
def parseTirOwner (data : AccountData) : Pubkey :=
  ((Borsh.decodeView TrustedIssuersState data).map TrustedIssuersState.owner).getD .default

end Parsers

/-! ## What the check returns -/

structure AccountCheck where
  role : String
  pubkey : Pubkey
  present : Bool
  ownerProgram : Option Pubkey
  accountType : String
  isSigner : Bool
  isWritable : Bool

structure ClaimValidationDetail where
  claim : Pubkey
  topic : ℕ
  issuerFid : Pubkey
  issuerEntry : Pubkey
  expectedClaim : Pubkey
  claimPdaValid : Bool
  revoked : Bool
  expired : Bool
  trusted : Bool
  signerValid : Bool
  accountOrder : List String
  accountChecks : List AccountCheck

/-- There is a reason exactly when the claims do not pass. -/
structure ClaimValidationResult where
  reason : Option String
  requiredTopics : List ℕ
  checkedClaims : List ClaimValidationDetail
  remainingAccounts : List AccountMeta

def ClaimValidationResult.ok (r : ClaimValidationResult) : Bool := r.reason.isNone

structure SuiteProgramIds where
  fid : Pubkey
  tir : Pubkey

/-- The part of the registry context that the check of the claims reads. -/
structure MintRegistryContext where
  ids : SuiteProgramIds
  tirState : Pubkey
  walletIdentityData : Option WalletIdentity
  requiredTopics : List ℕ

def detailRole : ℕ → String
  | 0 => "claim"
  | 1 => "claimTopicIndex"
  | 2 => "trustedIssuerEntry"
  | 3 => "issuerFid"
  | _ => "unknown"

def accountTypeFromRole (role : String) : String :=
  if role = "claim" then "ClaimAccount"
  else if role = "claimTopicIndex" then "ClaimTopicIndex"
  else if role = "trustedIssuerEntry" then "IssuerEntry"
  else if role = "issuerFid" then "FidAccount"
  else "Unknown"

def accountCheck (L : Ledger) (index : ℕ) (account : AccountMeta) : AccountCheck where
  role := detailRole index
  pubkey := account.pubkey
  present := (getAccountInfo L account.pubkey).isSome
  ownerProgram := (getAccountInfo L account.pubkey).map Account.owner
  accountType := accountTypeFromRole (detailRole index)
  isSigner := account.isSigner
  isWritable := account.isWritable

/-! ## One claim -/

/-- A claim that the node has found, with its address. -/
structure FoundClaim extends ParsedClaim where
  pubkey : Pubkey
  deriving DecidableEq

/-- What is wrong with a claim: some reasons only count when there is none before. -/
inductive Failure
  | first (reason : String)
  | latest (reason : String)

def Failure.record (failureReason : String) : Failure → String
  | .first reason => if failureReason = "" then reason else failureReason
  | .latest reason => reason

section Check

variable [Borsh] (L : Ledger) (toBase58 : Pubkey → String) (ids : SuiteProgramIds)
  (holderFid tirState : Pubkey) (now : ℤ)

def tirOwner : String :=
  match getAccountInfo L tirState with
  | some tirInfo => toBase58 (parseTirOwner tirInfo.data)
  | none => "unknown"

def expectedClaim (claim : FoundClaim) : Pubkey :=
  .findProgramAddress .claim [.key holderFid, .num claim.claimId] ids.fid

def issuerEntry (claim : FoundClaim) : Pubkey :=
  .findProgramAddress .issuerEntry [.key tirState, .key claim.issuerFid] ids.tir

def claimTopicIndex (topic : ℕ) (claim : FoundClaim) : Pubkey :=
  .findProgramAddress .claimTopicIndex [.key holderFid, .key claim.issuerFid, .num topic] ids.fid

def accountMetas (topic : ℕ) (claim : FoundClaim) : List AccountMeta :=
  [claim.pubkey, claimTopicIndex ids holderFid topic claim, issuerEntry ids tirState claim,
    claim.issuerFid].map fun pubkey ↦ ⟨pubkey, false, false⟩

def untrusted (topic : ℕ) (claim : FoundClaim) : Failure :=
  let issuer := toBase58 claim.issuerFid
  let owner := tirOwner L toBase58 tirState
  .latest (s!"Claim exists for topic {topic}, but claim issuer FID {issuer} is not trusted " ++
    s!"in this token's TIR. Ask TIR owner {owner} to add it.")

/-- The examination of one claim, with what is wrong with it. -/
def examineClaim (topic : ℕ) (claim : FoundClaim) : ClaimValidationDetail × Option Failure :=
  let expired := decide (claim.expiresAt ≠ 0 ∧ claim.expiresAt < now)
  let claimPdaValid := decide (claim.pubkey = expectedClaim ids holderFid claim)
  let detail : ClaimValidationDetail :=
    { claim := claim.pubkey, topic, issuerFid := claim.issuerFid,
      issuerEntry := issuerEntry ids tirState claim,
      expectedClaim := expectedClaim ids holderFid claim, claimPdaValid,
      revoked := claim.revoked, expired, trusted := false, signerValid := false,
      accountOrder := ["claim", "claimTopicIndex", "trustedIssuerEntry", "issuerFid"],
      accountChecks := (accountMetas ids holderFid tirState topic claim).mapIdx (accountCheck L) }
  if claimPdaValid = false then
    (detail, some (.first (s!"Claim for required topic {topic} is not at the canonical claim " ++
      "PDA expected by the token program.")))
  else if claim.revoked = true then
    (detail, some (.first s!"Claim for required topic {topic} is revoked."))
  else if expired = true then
    (detail, some (.first s!"Claim for required topic {topic} has expired."))
  else
    match getAccountInfo L (issuerEntry ids tirState claim), getAccountInfo L claim.issuerFid with
    | some issuerEntryInfo, some issuerFidInfo =>
        let trusted := parseIssuerEntryForTopic issuerEntryInfo.data claim.topic
        let detail := { detail with trusted }
        if trusted = false then (detail, some (untrusted L toBase58 tirState topic claim))
        else
          let signerValid := parseFidIsIssuerAndSigner issuerFidInfo.data claim.signerKey
          let detail := { detail with signerValid }
          if signerValid = false then
            (detail, some (.latest (s!"Claim for required topic {topic} has an invalid issuer " ++
              "FID profile or signer key mismatch.")))
          else (detail, none)
    | _, _ => (detail, some (untrusted L toBase58 tirState topic claim))

/-- The claims on a topic up to the first with which nothing is wrong. -/
def examineClaims (topic : ℕ) :
    List FoundClaim → List ClaimValidationDetail → String →
      List ClaimValidationDetail × (String ⊕ FoundClaim)
  | [], checkedClaims, failureReason => (checkedClaims, .inl failureReason)
  | claim :: claims, checkedClaims, failureReason =>
      let (detail, failure) := examineClaim L toBase58 ids holderFid tirState now topic claim
      match failure with
      | none => (checkedClaims ++ [detail], .inr claim)
      | some failure =>
          examineClaims topic claims (checkedClaims ++ [detail]) (failure.record failureReason)

/-! ## All topics -/

/-- An account is added unless its key is there already. -/
def pushAccount (remainingAccounts : List AccountMeta) (account : AccountMeta) :
    List AccountMeta :=
  if account.pubkey ∈ remainingAccounts.map AccountMeta.pubkey then remainingAccounts
  else remainingAccounts ++ [account]

/-- The required topics up to the first without a valid claim. -/
def validateTopics (requiredTopics : List ℕ) (claims : List FoundClaim) :
    List ℕ → List ClaimValidationDetail → List AccountMeta → ClaimValidationResult
  | [], checkedClaims, remainingAccounts =>
      { reason := none, requiredTopics, checkedClaims, remainingAccounts }
  | topic :: topics, checkedClaims, remainingAccounts =>
      let topicClaims := claims.filter fun claim ↦ claim.topic = topic
      if topicClaims = [] then
        { reason := some s!"Investor is missing claim for required topic {topic}.",
          requiredTopics, checkedClaims, remainingAccounts }
      else
        match examineClaims L toBase58 ids holderFid tirState now topic topicClaims checkedClaims
          "" with
        | (checkedClaims, .inr claim) =>
            validateTopics requiredTopics claims topics checkedClaims
              ((accountMetas ids holderFid tirState topic claim).foldl pushAccount
                remainingAccounts)
        | (checkedClaims, .inl failureReason) =>
            { reason := some (if failureReason = "" then
                s!"Investor has no valid claim for required topic {topic}." else failureReason),
              requiredTopics, checkedClaims, remainingAccounts }

end Check

/-- The accounts that the node finds for a FID, as claims. -/
def foundClaims (L : Ledger) (claimAccounts : List Pubkey) : List FoundClaim :=
  claimAccounts.filterMap fun pubkey ↦
    (parseClaimAccount (L.accounts pubkey).data).map fun claim ↦ { claim with pubkey }

/-- The check of the claims of a recipient; `getProgramAccounts` gives the accounts of the FID
program that have the size of a claim and the FID at the place of its holder. -/
def validateRecipientClaimsForMint [Borsh] (L : Ledger) (toBase58 : Pubkey → String)
    (getProgramAccounts : Pubkey → List Pubkey) (now : ℤ) (registry : MintRegistryContext) :
    ClaimValidationResult :=
  let requiredTopics := registry.requiredTopics
  if requiredTopics = [] then
    { reason := none, requiredTopics, checkedClaims := [], remainingAccounts := [] }
  else
    match registry.walletIdentityData with
    | none =>
        { reason := some ("Investor identity is not registered in this token's Identity " ++
            "Registry Storage (IRS). The investor must register their FID identity before " ++
            "minting."),
          requiredTopics, checkedClaims := [], remainingAccounts := [] }
    | some identity =>
        let holderFid := identity.fid
        match getAccountInfo L holderFid with
        | none =>
            let fid := toBase58 holderFid
            { reason := some (s!"Investor wallet identity points to missing FID account {fid}. " ++
                "Ask the investor to register FID before minting."),
              requiredTopics, checkedClaims := [], remainingAccounts := [] }
        | some _ =>
            validateTopics L toBase58 registry.ids holderFid registry.tirState now requiredTopics
              (foundClaims L (getProgramAccounts holderFid)) requiredTopics [] []

/-! ## What the check accepts -/

section Accepts

variable [Borsh] {L : Ledger} {toBase58 : Pubkey → String} {ids : SuiteProgramIds}
  {holderFid tirState : Pubkey} {now : ℤ} {topic : ℕ} {claim : FoundClaim}

/-- Nothing is wrong with a claim. -/
structure Passes (L : Ledger) (ids : SuiteProgramIds) (holderFid tirState : Pubkey) (now : ℤ)
    (claim : FoundClaim) : Prop where
  canonical : claim.pubkey = expectedClaim ids holderFid claim
  standing : claim.revoked = false
  unexpired : claim.expiresAt = 0 ∨ now ≤ claim.expiresAt
  trusted : ∃ info, getAccountInfo L (issuerEntry ids tirState claim) = some info ∧
    parseIssuerEntryForTopic info.data claim.topic = true
  signerValid : ∃ info, getAccountInfo L claim.issuerFid = some info ∧
    parseFidIsIssuerAndSigner info.data claim.signerKey = true

/-- The branches of the examination, from the first check to the last. -/
theorem examineClaim_passes :
    (examineClaim L toBase58 ids holderFid tirState now topic claim).2 = none ↔
      Passes L ids holderFid tirState now claim := by
  unfold examineClaim
  dsimp only
  split
  case isTrue hcanonical =>
    have hnot : ¬ Passes L ids holderFid tirState now claim := by
      intro hpasses
      exact absurd hpasses.canonical (of_decide_eq_false hcanonical)
    simp [hnot]
  case isFalse hcanonical =>
    have hcanonical := of_decide_eq_true (Bool.not_eq_false _ ▸ hcanonical)
    split
    case isTrue hrevoked =>
      have hnot : ¬ Passes L ids holderFid tirState now claim := by
        intro hpasses
        rw [hpasses.standing] at hrevoked
        cases hrevoked
      simp [hnot]
    case isFalse hrevoked =>
      have hstanding := Bool.eq_false_iff.2 hrevoked
      split
      case isTrue hexpired =>
        have hnot : ¬ Passes L ids holderFid tirState now claim := by
          intro hpasses
          obtain ⟨hset, hlate⟩ := of_decide_eq_true hexpired
          have hnow := hpasses.unexpired.resolve_left hset
          omega
        simp [hnot]
      case isFalse hexpired =>
        have hunexpired : claim.expiresAt = 0 ∨ now ≤ claim.expiresAt := by
          have hdecided := of_decide_eq_false (Bool.eq_false_iff.2 hexpired)
          omega
        split
        case h_1 entryInfo fidInfo hentry hfid =>
          split
          case isTrue htrusted =>
            have hnot : ¬ Passes L ids holderFid tirState now claim := by
              intro hpasses
              obtain ⟨info, hinfo, hparsed⟩ := hpasses.trusted
              rw [hentry] at hinfo
              cases hinfo
              rw [hparsed] at htrusted
              cases htrusted
            simp [hnot]
          case isFalse htrusted =>
            split
            case isTrue hsigner =>
              have hnot : ¬ Passes L ids holderFid tirState now claim := by
                intro hpasses
                obtain ⟨info, hinfo, hparsed⟩ := hpasses.signerValid
                rw [hfid] at hinfo
                cases hinfo
                rw [hparsed] at hsigner
                cases hsigner
              simp [hnot]
            case isFalse hsigner =>
              have hpasses : Passes L ids holderFid tirState now claim :=
                ⟨hcanonical, hstanding, hunexpired, ⟨entryInfo, hentry, by simpa using htrusted⟩,
                  ⟨fidInfo, hfid, by simpa using hsigner⟩⟩
              simp [hpasses]
        case h_2 hmissing =>
          have hnot : ¬ Passes L ids holderFid tirState now claim := by
            intro hpasses
            obtain ⟨entryInfo, hentry, -⟩ := hpasses.trusted
            obtain ⟨fidInfo, hfid, -⟩ := hpasses.signerValid
            exact hmissing entryInfo fidInfo hentry hfid
          simp [hnot]

/-- The loop over the claims on a topic stops at a claim that passes. -/
theorem examineClaims_finds (claims : List FoundClaim)
    (checkedClaims : List ClaimValidationDetail) (failureReason : String) :
    (∃ checked claim, examineClaims L toBase58 ids holderFid tirState now topic claims checkedClaims
        failureReason = (checked, .inr claim)) ↔
      ∃ claim ∈ claims, Passes L ids holderFid tirState now claim := by
  induction claims generalizing checkedClaims failureReason with
  | nil => simp [examineClaims]
  | cons claim claims ih =>
      rw [examineClaims]
      cases hexamined : examineClaim L toBase58 ids holderFid tirState now topic claim with
      | mk detail failure =>
          have hpasses : failure = none ↔ Passes L ids holderFid tirState now claim := by
            rw [← examineClaim_passes, hexamined]
          cases failure with
          | none =>
              have hclaim := hpasses.1 rfl
              constructor
              · intro
                exact ⟨claim, List.mem_cons_self, hclaim⟩
              · intro
                exact ⟨_, claim, rfl⟩
          | some failure =>
              have hnot : ¬ Passes L ids holderFid tirState now claim := by
                intro hclaim
                cases hpasses.2 hclaim
              rw [ih]
              constructor
              · rintro ⟨found, hfound, hpass⟩
                exact ⟨found, List.mem_cons_of_mem _ hfound, hpass⟩
              · rintro ⟨found, hfound, hpass⟩
                cases hfound with
                | head => exact absurd hpass hnot
                | tail _ hfound => exact ⟨found, hfound, hpass⟩

/-- Every topic needs a claim on it that passes. -/
theorem validateTopics_ok (requiredTopics : List ℕ) (claims : List FoundClaim) (topics : List ℕ)
    (checkedClaims : List ClaimValidationDetail) (remainingAccounts : List AccountMeta) :
    (validateTopics L toBase58 ids holderFid tirState now requiredTopics claims topics checkedClaims
        remainingAccounts).ok = true ↔
      ∀ topic ∈ topics, ∃ claim ∈ claims, claim.topic = topic ∧
        Passes L ids holderFid tirState now claim := by
  induction topics generalizing checkedClaims remainingAccounts with
  | nil => simp [validateTopics, ClaimValidationResult.ok]
  | cons topic topics ih =>
      have hfirst : (∃ claim ∈ claims.filter fun claim ↦ claim.topic = topic,
          Passes L ids holderFid tirState now claim) ↔
            ∃ claim ∈ claims, claim.topic = topic ∧ Passes L ids holderFid tirState now claim := by
        simp only [List.mem_filter, decide_eq_true_eq, and_assoc]
      rw [List.forall_mem_cons, ← hfirst, ← examineClaims_finds _ checkedClaims "", validateTopics]
      split
      case isTrue hnone =>
        simp [hnone, examineClaims, ClaimValidationResult.ok]
      case isFalse hsome =>
        split
        case h_1 checked claim hexamined =>
          rw [ih]
          constructor
          · intro hall
            exact ⟨⟨checked, claim, hexamined⟩, hall⟩
          · exact And.right
        case h_2 checked reason hexamined =>
          rw [hexamined]
          simp [ClaimValidationResult.ok]

end Accepts

/-! ## What the chain accepts -/

section Agreement

/-- The programs of the suite. -/
def suitePrograms : SuiteProgramIds where
  fid := .program .fracksFid
  tir := .program .fracksTir

/-- A live claim on a topic whose issuer is trusted with it. -/
structure Backed (L : Ledger) (holderFid tirState : Pubkey) (topic : ℕ) (now : ℤ) (k : Pubkey)
    (claim : ClaimAccount) : Prop where
  live : Irp.LiveClaim L holderFid topic now k claim
  trusted : ∃ entry, Irp.TrustedEntry L tirState claim.issuerFid topic
    (Tir.issuerEntryAddress tirState claim.issuerFid) entry

/-- The FID of the issuer is still that of an issuer, with the key of the claim as its signer. -/
def IssuerIntact (L : Ledger) (claim : ClaimAccount) : Prop :=
  ∃ issuer : FidAccount, L.view FidAccount claim.issuerFid = some issuer ∧
    issuer.isIssuer = true ∧ issuer.signerKey = claim.signerKey

/-- Only a program opens accounts at the addresses derived from it: here the FID program and the
registry of issuers. -/
structure OnlyOwnRecords (L : Ledger) : Prop where
  fids : ∀ k : Pubkey, k.derivedFrom = some (.program .fracksFid) → L.accounts k = .vacant ∨
    (∃ a : FidAccount, L.accounts k = account a) ∨ (∃ a : ClaimAccount, L.accounts k = account a) ∨
      ∃ a : ClaimTopicIndex, L.accounts k = account a
  issuers : ∀ k : Pubkey, k.derivedFrom = some (.program .fracksTir) → L.accounts k = .vacant ∨
    (∃ a : TrustedIssuersState, L.accounts k = account a) ∨
      ∃ a : IssuerEntry, L.accounts k = account a

/-- What the node finds for a FID: all of its claims, and otherwise only accounts that are not
claims of another FID. -/
structure FindsClaims (L : Ledger) (fid : Pubkey) (found : List Pubkey) : Prop where
  complete : ∀ k claim, L.view ClaimAccount k = some claim → claim.fid = fid → k ∈ found
  owned : ∀ k ∈ found, (L.accounts k).owner = .program .fracksFid
  matching : ∀ k ∈ found, ∀ claim : ClaimAccount, L.view ClaimAccount k = some claim →
    claim.fid = fid

variable {L : Ledger} {holderFid tirState k : Pubkey} {now : ℤ} {claim : ClaimAccount}

/-- A claim as the check has it. -/
def found (k : Pubkey) (claim : ClaimAccount) : FoundClaim where
  fid := claim.fid
  claimId := claim.claimId
  topic := claim.topic
  issuerFid := claim.issuerFid
  signerKey := claim.signerKey
  revoked := claim.revoked
  expiresAt := claim.expiresAt
  pubkey := k

theorem mem_foundClaims {claimAccounts : List Pubkey} (h : FindsClaims L holderFid claimAccounts)
    {c : FoundClaim} :
    c ∈ foundClaims L claimAccounts ↔
      ∃ k claim, L.view ClaimAccount k = some claim ∧ claim.fid = holderFid ∧
        c = found k claim := by
  simp only [foundClaims, List.mem_filterMap, parseClaimAccount, Option.map_eq_some_iff]
  constructor
  · rintro ⟨k, hk, _, ⟨claim, hclaim, rfl⟩, rfl⟩
    have hview : L.view ClaimAccount k = some claim := by
      rw [view_eq_some]
      have hdata := decode_eq_some.1 hclaim
      have howner := h.owned k hk
      cases haccount : L.accounts k with
      | mk owner data =>
          rw [haccount] at hdata howner
          dsimp only at hdata howner
          rw [hdata, howner]
          rfl
    exact ⟨k, claim, hview, h.matching k hk claim hview, rfl⟩
  · rintro ⟨k, claim, hview, hfid, rfl⟩
    refine ⟨k, h.complete k claim hview hfid, _, ⟨claim, ?_, rfl⟩, rfl⟩
    rw [view_eq_some.1 hview, account_data]
    exact decode_encode claim

/-- The node answers for a record. -/
theorem getAccountInfo_account {α : Type} [AccountType α] {a : α} (h : L.accounts k = account a) :
    getAccountInfo L k = some (account a) := by
  rw [getAccountInfo, if_neg, h]
  rintro ⟨hvacant, -⟩
  exact account_ne_vacant a (h.symm.trans hvacant)

theorem getAccountInfo_vacant {info : Account} (h : L.accounts k = .vacant)
    (hinfo : getAccountInfo L k = some info) : info = .vacant := by
  rw [getAccountInfo] at hinfo
  split at hinfo
  · cases hinfo
  · rw [h] at hinfo
    exact (Option.some.inj hinfo).symm

section Addresses

variable (hown : OnlyOwnRecords L) (hfiled : IdentityFiled L)

include hown hfiled

/-- Where a FID belongs there is one or nothing. -/
theorem fid_or_vacant (owner : Pubkey) :
    L.accounts (Fid.fidAddress owner) = .vacant ∨
      ∃ a : FidAccount, L.accounts (Fid.fidAddress owner) = account a := by
  rcases hown.fids (Fid.fidAddress owner) (Pubkey.derivedFrom_findProgramAddress ..) with
    hvacant | hfid | ⟨claim, hclaim⟩ | ⟨index, hindex⟩
  · exact .inl hvacant
  · exact .inr hfid
  · have haddress := hfiled.filed.claims _ claim (view_eq_some.2 hclaim)
    simp [Fid.fidAddress, Fid.claimAddress, Pubkey.findProgramAddress, Pubkey.addSeed] at haddress
  · have haddress := (hfiled.filed.indexes _ index (view_eq_some.2 hindex)).1
    simp [Fid.fidAddress, Fid.claimTopicIndexAddress, Pubkey.findProgramAddress,
      Pubkey.addSeed] at haddress

theorem entry_or_vacant (tirState issuerFid : Pubkey) :
    L.accounts (Tir.issuerEntryAddress tirState issuerFid) = .vacant ∨
      ∃ entry : IssuerEntry, L.accounts (Tir.issuerEntryAddress tirState issuerFid) =
        account entry ∧ entry.tir = tirState ∧ entry.issuerFid = issuerFid := by
  rcases hown.issuers (Tir.issuerEntryAddress tirState issuerFid)
    (Pubkey.derivedFrom_findProgramAddress ..) with hvacant | ⟨state, hstate⟩ | ⟨entry, hentry⟩
  · exact .inl hvacant
  · have haddress : Tir.issuerEntryAddress tirState issuerFid = Tir.tirAddress state.tokenMint :=
      hfiled.homes.registries _ state (view_eq_some.2 hstate)
    simp [Tir.issuerEntryAddress, Tir.tirAddress, Pubkey.findProgramAddress,
      Pubkey.addSeed] at haddress
  · have haddress : Tir.issuerEntryAddress tirState issuerFid =
        Tir.issuerEntryAddress entry.tir entry.issuerFid :=
      hfiled.homes.entries _ entry (view_eq_some.2 hentry)
    simp only [Tir.issuerEntryAddress, Pubkey.findProgramAddress, Pubkey.addSeed, List.foldl_cons,
      List.foldl_nil, Pubkey.seedKey.injEq, true_and] at haddress
    exact .inr ⟨entry, hentry, haddress.1.symm, haddress.2.symm⟩

end Addresses

section Parsed

variable [Borsh] {topic : ℕ} {entry : IssuerEntry} {fid : FidAccount} {signer : Pubkey}

theorem parseIssuerEntry_account : parseIssuerEntryForTopic (account entry).data topic = true ↔
    entry.isActive = true ∧ topic ∈ entry.allowedTopics := by
  rw [account_data, parseIssuerEntryForTopic, Borsh.decodeView_encode]
  simp

theorem parseIssuerEntry_vacant : parseIssuerEntryForTopic Account.vacant.data topic = false := by
  have hempty : Account.vacant.data = .empty := rfl
  rw [hempty, parseIssuerEntryForTopic, Borsh.decodeView_empty]

theorem parseFid_account : parseFidIsIssuerAndSigner (account fid).data signer = true ↔
    fid.isIssuer = true ∧ fid.signerKey = signer := by
  rw [account_data, parseFidIsIssuerAndSigner, Borsh.decodeView_encode]
  simp

theorem parseFid_vacant : parseFidIsIssuerAndSigner Account.vacant.data signer = false := by
  have hempty : Account.vacant.data = .empty := rfl
  rw [hempty, parseFidIsIssuerAndSigner, Borsh.decodeView_empty]

end Parsed

variable [Borsh]

/-- The entry that the check reads is the one that the chain looks for. -/
theorem entry_passes_iff (hown : OnlyOwnRecords L) (hfiled : IdentityFiled L) {topic : ℕ}
    {issuerFid : Pubkey} :
    (∃ info, getAccountInfo L (Tir.issuerEntryAddress tirState issuerFid) = some info ∧
        parseIssuerEntryForTopic info.data topic = true) ↔
      ∃ entry, Irp.TrustedEntry L tirState issuerFid topic
        (Tir.issuerEntryAddress tirState issuerFid) entry := by
  constructor
  · rintro ⟨info, hinfo, hparsed⟩
    cases entry_or_vacant hown hfiled tirState issuerFid with
    | inl hvacant =>
        rw [getAccountInfo_vacant hvacant hinfo, parseIssuerEntry_vacant] at hparsed
        cases hparsed
    | inr hentry =>
        obtain ⟨entry, hentry, htir, hissuer⟩ := hentry
        rw [getAccountInfo_account hentry] at hinfo
        obtain rfl := Option.some.inj hinfo
        obtain ⟨hactive, hallowed⟩ := parseIssuerEntry_account.1 hparsed
        exact ⟨entry, view_eq_some.2 hentry, rfl, htir, hissuer, hactive, hallowed⟩
  · rintro ⟨entry, htrusted⟩
    exact ⟨account entry, getAccountInfo_account (view_eq_some.1 htrusted.entryAt),
      parseIssuerEntry_account.2 ⟨htrusted.active, htrusted.allowed⟩⟩

/-- The profile that the check reads is that of the issuer's FID. -/
theorem profile_passes_iff (hown : OnlyOwnRecords L) (hfiled : IdentityFiled L)
    (hsigned : claim.issuerFid = Fid.fidAddress claim.signerKey) :
    (∃ info, getAccountInfo L claim.issuerFid = some info ∧
        parseFidIsIssuerAndSigner info.data claim.signerKey = true) ↔ IssuerIntact L claim := by
  constructor
  · rintro ⟨info, hinfo, hparsed⟩
    have hcases := fid_or_vacant hown hfiled claim.signerKey
    rw [← hsigned] at hcases
    cases hcases with
    | inl hvacant =>
        rw [getAccountInfo_vacant hvacant hinfo, parseFid_vacant] at hparsed
        cases hparsed
    | inr hfid =>
        obtain ⟨fid, hfid⟩ := hfid
        rw [getAccountInfo_account hfid] at hinfo
        obtain rfl := Option.some.inj hinfo
        exact ⟨fid, view_eq_some.2 hfid, parseFid_account.1 hparsed⟩
  · rintro ⟨fid, hfid, hprofile⟩
    exact ⟨account fid, getAccountInfo_account (view_eq_some.1 hfid),
      parseFid_account.2 hprofile⟩

/-- A claim passes the check exactly when the chain takes it and its issuer is intact. -/
theorem passes_iff (hown : OnlyOwnRecords L) (hfiled : IdentityFiled L)
    (hclaim : L.view ClaimAccount k = some claim) (hfid : claim.fid = holderFid) :
    Passes L suitePrograms holderFid tirState now (found k claim) ↔
      Backed L holderFid tirState claim.topic now k claim ∧ IssuerIntact L claim := by
  have hcanonical : k = Fid.claimAddress claim.fid claim.claimId :=
    hfiled.filed.claims k claim hclaim
  have hsigned : claim.issuerFid = Fid.fidAddress claim.signerKey := hfiled.signed k claim hclaim
  constructor
  · intro hpasses
    have hlive : Irp.LiveClaim L holderFid claim.topic now k claim :=
      ⟨hclaim, hcanonical, hfid, rfl, hpasses.standing, hpasses.unexpired, hsigned⟩
    exact ⟨⟨hlive, (entry_passes_iff hown hfiled).1 hpasses.trusted⟩,
      (profile_passes_iff hown hfiled hsigned).1 hpasses.signerValid⟩
  · rintro ⟨hbacked, hintact⟩
    refine ⟨?_, hbacked.live.standing, hbacked.live.unexpired,
      (entry_passes_iff hown hfiled).2 hbacked.trusted,
      (profile_passes_iff hown hfiled hsigned).2 hintact⟩
    rw [hfid] at hcanonical
    exact hcanonical

/-- The list has every claim and every entry of an issuer. -/
structure HoldsAll (L : Ledger) (accounts : List Pubkey) : Prop where
  claims : ∀ k claim, L.view ClaimAccount k = some claim → k ∈ accounts
  entries : ∀ k entry, L.view IssuerEntry k = some entry → k ∈ accounts

omit [Borsh] in
/-- Given all accounts, the chain finds the claims that are backed. -/
theorem verifyClaimForTopic_all {accounts : List Pubkey} (hall : HoldsAll L accounts) {topic : ℕ} :
    Irp.verifyClaimForTopic L holderFid topic tirState accounts now = true ↔
      ∃ k claim, Backed L holderFid tirState topic now k claim := by
  rw [Irp.verifyClaimForTopic_iff]
  constructor
  · rintro ⟨k, -, claim, hlive, x, -, entry, htrusted⟩
    obtain rfl := htrusted.canonical
    exact ⟨k, claim, hlive, entry, htrusted⟩
  · rintro ⟨k, claim, hlive, entry, htrusted⟩
    exact ⟨k, hall.claims k claim hlive.claimAt, claim, hlive, _,
      hall.entries _ entry htrusted.entryAt, entry, htrusted⟩

/-- What the frontend has read of the registries for an active wallet. -/
structure ReadsRegistry (L : Ledger) (registry : MintRegistryContext) (irs wallet : Pubkey)
    (identity : WalletIdentity) (ctrState : Pubkey) (ctr : ClaimTopicsState) : Prop where
  programs : registry.ids = suitePrograms
  registered : L.view WalletIdentity (Irp.walletIdentityAddress irs wallet) = some identity
  active : identity.isActive = true
  identityRead : registry.walletIdentityData = some identity
  topics : L.view ClaimTopicsState ctrState = some ctr
  topicsRead : registry.requiredTopics = parseCtrTopics (L.accounts ctrState).data

variable {L₀ : Ledger} {labels : List Suite.Label} {toBase58 : Pubkey → String}
  {getProgramAccounts : Pubkey → List Pubkey} {registry : MintRegistryContext}
  {irs wallet ctrState : Pubkey} {identity : WalletIdentity} {ctr : ClaimTopicsState}
  {accounts : List Pubkey}

/-- What the check accepts: for every required topic a claim that is backed, of an issuer that
is intact. -/
theorem validate_ok_iff (hown : OnlyOwnRecords L) (hfiled : IdentityFiled L)
    (hread : ReadsRegistry L registry irs wallet identity ctrState ctr)
    (hfinds : FindsClaims L identity.fid (getProgramAccounts identity.fid)) :
    (validateRecipientClaimsForMint L toBase58 getProgramAccounts now registry).ok = true ↔
      ∀ topic ∈ ctr.topics, ∃ k claim,
        Backed L identity.fid registry.tirState topic now k claim ∧ IssuerIntact L claim := by
  have htopics : registry.requiredTopics = ctr.topics := by
    rw [hread.topicsRead, view_eq_some.1 hread.topics, account_data, parseCtrTopics,
      Borsh.decodeView_encode]
    rfl
  have hone : ∀ topic, (∃ c ∈ foundClaims L (getProgramAccounts identity.fid), c.topic = topic ∧
      Passes L registry.ids identity.fid registry.tirState now c) ↔ ∃ k claim,
        Backed L identity.fid registry.tirState topic now k claim ∧ IssuerIntact L claim := by
    intro topic
    rw [hread.programs]
    constructor
    · rintro ⟨c, hc, htopic, hpasses⟩
      obtain ⟨k, claim, hclaim, hfid, rfl⟩ := (mem_foundClaims hfinds).1 hc
      obtain rfl : claim.topic = topic := htopic
      exact ⟨k, claim, (passes_iff hown hfiled hclaim hfid).1 hpasses⟩
    · rintro ⟨k, claim, hbacked, hintact⟩
      have hclaim := hbacked.live.claimAt
      have hfid := hbacked.live.holder
      obtain rfl := hbacked.live.onTopic
      exact ⟨found k claim, (mem_foundClaims hfinds).2 ⟨k, claim, hclaim, hfid, rfl⟩, rfl,
        (passes_iff hown hfiled hclaim hfid).2 ⟨hbacked, hintact⟩⟩
  rw [validateRecipientClaimsForMint, htopics]
  dsimp only
  split
  case isTrue hnone =>
    rw [hnone]
    simp [ClaimValidationResult.ok]
  case isFalse hsome =>
    rw [hread.identityRead]
    dsimp only
    split
    case h_1 hmissing =>
      have hreason : ∀ r : ClaimValidationResult, r.reason.isSome = true → ¬ r.ok = true := by
        intro r hr
        simp [ClaimValidationResult.ok, Option.isSome_iff_ne_none.1 hr]
      refine iff_of_false (hreason _ rfl) ?_
      -- a claim has a holder whose FID exists
      intro hall
      obtain ⟨topic, htopic⟩ := List.exists_mem_of_ne_nil _ hsome
      obtain ⟨k, claim, hbacked, -⟩ := hall topic htopic
      obtain ⟨holder, hholder⟩ := hfiled.filed.holder hfiled.sound hbacked.live.claimAt
      rw [hbacked.live.holder, view_eq_some] at hholder
      rw [getAccountInfo_account hholder] at hmissing
      cases hmissing
    case h_2 =>
      rw [validateTopics_ok]
      simp only [hone]

/-- In every state that a history of the suite reaches, the check agrees with the chain exactly
when an issuer that is intact is behind one of the backed claims on each topic, if a claim on
each topic is backed at all. -/
theorem mint_claims_agree_iff (hstart : NothingFiled L₀) (hrun : Run Suite.Step L₀ labels L)
    (hown : OnlyOwnRecords L) (hread : ReadsRegistry L registry irs wallet identity ctrState ctr)
    (hfinds : FindsClaims L identity.fid (getProgramAccounts identity.fid))
    (hall : HoldsAll L accounts) :
    ((validateRecipientClaimsForMint L toBase58 getProgramAccounts now registry).ok = true ↔
        ∀ topic ∈ ctr.topics,
          Irp.verifyClaimForTopic L identity.fid topic registry.tirState accounts now = true) ↔
      ((∀ topic ∈ ctr.topics, ∃ k claim,
          Backed L identity.fid registry.tirState topic now k claim) →
        ∀ topic ∈ ctr.topics, ∃ k claim,
          Backed L identity.fid registry.tirState topic now k claim ∧ IssuerIntact L claim) := by
  have hfiled : IdentityFiled L := .of_run hrun hstart.identityFiled
  rw [validate_ok_iff hown hfiled hread hfinds]
  simp only [verifyClaimForTopic_all hall]
  constructor
  · exact Iff.mpr
  · intro hagree
    refine ⟨fun hboth topic htopic ↦ ?_, hagree⟩
    obtain ⟨k, claim, hbacked, -⟩ := hboth topic htopic
    exact ⟨k, claim, hbacked⟩

end Agreement

/-! ## An issuer that changes its signer -/

def registryOwner : Pubkey := .address 3

def mintedToken : Pubkey := .address 5

def rotationHolderFid : Pubkey := Fid.fidAddress Fid.claimHolder

def rotationIssuerFid : Pubkey := Fid.fidAddress Fid.claimIssuer

def rotationIrs : Pubkey := Irs.irsAddress registryOwner

def rotationIdentity : Pubkey := Irp.walletIdentityAddress rotationIrs Fid.claimHolder

def rotationTir : Pubkey := Tir.tirAddress mintedToken

def rotationEntry : Pubkey := Tir.issuerEntryAddress rotationTir rotationIssuerFid

def rotationCtr : Pubkey := Ctr.ctrAddress mintedToken

def rotationClaim : Pubkey := Fid.claimAddress rotationHolderFid 0

def rotationIndex : Pubkey := Fid.claimTopicIndexAddress rotationHolderFid rotationIssuerFid 7

/-- The holder is registered and activated, and the token asks for a claim on one topic. -/
def registration : List (Pubkey × Suite.Instruction) :=
  [(Fid.claimHolder, .platform (.fid (.createFid Fid.claimHolder rotationHolderFid false 276))),
    (Fid.claimIssuer, .platform (.fid (.createFid Fid.claimIssuer rotationIssuerFid true 0))),
    (registryOwner, .platform (.irs (.initializeIrs registryOwner rotationIrs registryOwner))),
    (registryOwner, .platform (.irs (.registerIdentity
      ⟨registryOwner, rotationIrs, registryOwner, rotationIdentity⟩ rotationHolderFid
      Fid.claimHolder rotationHolderFid 276))),
    (registryOwner, .platform (.irs (.setIdentityActivation registryOwner rotationIrs
      rotationIdentity true))),
    (registryOwner, .ctr (.initializeCtr registryOwner rotationCtr mintedToken)),
    (registryOwner, .ctr (.addClaimTopic registryOwner rotationCtr 7)),
    (registryOwner, .tir (.initializeTir registryOwner rotationTir mintedToken))]

/-- The issuer makes the claim, and then takes another key as its signer. -/
def rotation : List (Pubkey × Suite.Instruction) :=
  [(Fid.claimIssuer, .platform (.fid (.addClaim ⟨Fid.claimIssuer, rotationHolderFid, rotationClaim,
      rotationIndex⟩ 7 rotationIssuerFid 0))),
    (Fid.claimIssuer, .platform (.fid (.setSignerKey Fid.claimIssuer rotationIssuerFid
      (.address 4))))]

def rotationSteps : List (Pubkey × Suite.Instruction) :=
  registration ++ (registryOwner, .tir (.addTrustedIssuer registryOwner rotationTir rotationEntry
    rotationIssuerFid [7] "")) :: rotation

def rotationTopics : ClaimTopicsState := ⟨registryOwner, mintedToken, [7]⟩

def rotationHolder : WalletIdentity :=
  ⟨Fid.claimHolder, rotationHolderFid, 276, rotationIrs, true, registryOwner, 1000⟩

def rotationClaimRecord : ClaimAccount :=
  ⟨rotationHolderFid, 0, 7, rotationIssuerFid, Fid.claimIssuer, 1000, 0, false⟩

/-- The accounts of the registered holder with its claim, when the issuer has this signer. -/
def claimedRecords (signerKey : Pubkey) : List (Pubkey × Account) :=
  [(rotationHolderFid, account (⟨Fid.claimHolder, Fid.claimHolder, Fid.claimHolder, 1, false, 276⟩ :
      FidAccount)),
    (rotationIssuerFid, account (⟨Fid.claimIssuer, Fid.claimIssuer, signerKey, 0, true, 0⟩ :
      FidAccount)),
    (rotationIrs, account (⟨registryOwner, registryOwner, [], 1⟩ : IdentityRegistryStorageState)),
    (rotationIdentity, account rotationHolder),
    (rotationCtr, account rotationTopics),
    (rotationTir, account (⟨registryOwner, mintedToken, 1⟩ : TrustedIssuersState)),
    (rotationEntry, account (⟨rotationIssuerFid, rotationTir, [7], true, ""⟩ : IssuerEntry)),
    (rotationClaim, account rotationClaimRecord),
    (rotationIndex, account (⟨rotationHolderFid, rotationIssuerFid, 7, rotationClaim, 0, true⟩ :
      ClaimTopicIndex))]

def rotationContext : MintRegistryContext :=
  ⟨suitePrograms, rotationTir, some rotationHolder, [7]⟩

def rotationHistory : List Suite.Label :=
  rotationSteps.map fun step ↦ .instruction [step.1] step.2

section KnownAccounts

variable {L : Ledger} {records : List (Pubkey × Account)} {k : Pubkey}

theorem update_vacant {f : Pubkey → Account} {x k : Pubkey} {a : Account} (hx : k ≠ x)
    (hf : f k = .vacant) : Function.update f x a k = .vacant := by
  rw [Function.update_of_ne hx, hf]

/-- Where the accounts of a ledger are known, what holds of them holds of every account. -/
theorem accounts_forall {P : Pubkey → Account → Prop}
    (hrecords : ∀ r ∈ records, L.accounts r.1 = r.2)
    (hvacant : ∀ k ∉ records.map Prod.fst, L.accounts k = .vacant)
    (hP : ∀ r ∈ records, P r.1 r.2) (hnone : ∀ k, P k .vacant) (k : Pubkey) :
    P k (L.accounts k) := by
  by_cases hk : k ∈ records.map Prod.fst
  · obtain ⟨r, hr, rfl⟩ := List.mem_map.1 hk
    rw [hrecords r hr]
    exact hP r hr
  · rw [hvacant k hk]
    exact hnone k

/-- The records of a type are those listed. -/
theorem view_listed {α : Type} [AccountType α] {listed : List (Pubkey × α)} {a : α}
    (hrecords : ∀ r ∈ records, L.accounts r.1 = r.2)
    (hvacant : ∀ k ∉ records.map Prod.fst, L.accounts k = .vacant)
    (hlisted : records.filter (fun r ↦ r.2.kind = kind α) =
      listed.map fun r ↦ (r.1, account r.2))
    (h : L.view α k = some a) : (k, a) ∈ listed := by
  have haccount := view_eq_some.1 h
  have hk : k ∈ records.map Prod.fst := by
    by_contra hk
    exact account_ne_vacant a (haccount.symm.trans (hvacant k hk))
  obtain ⟨r, hr, rfl⟩ := List.mem_map.1 hk
  rw [hrecords r hr] at haccount
  have hmem : r ∈ records.filter (fun r ↦ r.2.kind = kind α) := by
    rw [List.mem_filter, haccount, kind_account]
    exact ⟨hr, decide_eq_true rfl⟩
  rw [hlisted] at hmem
  obtain ⟨⟨k₀, a₀⟩, hentry, rfl⟩ := List.mem_map.1 hmem
  rw [← account_inj.1 haccount]
  exact hentry

/-- The one record of its type. -/
theorem view_unique {α : Type} [AccountType α] {k₀ : Pubkey} {a a₀ : α}
    (hrecords : ∀ r ∈ records, L.accounts r.1 = r.2)
    (hvacant : ∀ k ∉ records.map Prod.fst, L.accounts k = .vacant)
    (hone : records.filter (fun r ↦ r.2.kind = kind α) = [(k₀, account a₀)])
    (h : L.view α k = some a) : k = k₀ ∧ a = a₀ := by
  have hlisted : (k, a) ∈ [(k₀, a₀)] := view_listed hrecords hvacant hone h
  exact Prod.mk.inj (List.mem_singleton.1 hlisted)

theorem account_of_decode {α : Type} [AccountType α] {a : Account}
    (howner : a.owner = .program (kind α).program)
    (h : (decode (α := α) a.data).isSome = true) : ∃ r : α, a = account r := by
  obtain ⟨r, hr⟩ := Option.isSome_iff_exists.1 h
  refine ⟨r, ?_⟩
  rw [account, ← howner, ← decode_eq_some.1 hr]

/-- The records at the addresses of the two programs are theirs. -/
theorem onlyOwnRecords_of_records (hrecords : ∀ r ∈ records, L.accounts r.1 = r.2)
    (hvacant : ∀ k ∉ records.map Prod.fst, L.accounts k = .vacant)
    (hfids : ∀ r ∈ records, r.1.derivedFrom = some (.program .fracksFid) →
      r.2.owner = .program .fracksFid ∧ ((decode (α := FidAccount) r.2.data).isSome = true ∨
        (decode (α := ClaimAccount) r.2.data).isSome = true ∨
          (decode (α := ClaimTopicIndex) r.2.data).isSome = true))
    (hissuers : ∀ r ∈ records, r.1.derivedFrom = some (.program .fracksTir) →
      r.2.owner = .program .fracksTir ∧
        ((decode (α := TrustedIssuersState) r.2.data).isSome = true ∨
          (decode (α := IssuerEntry) r.2.data).isSome = true)) : OnlyOwnRecords L := by
  constructor
  · refine accounts_forall (P := fun k a ↦ k.derivedFrom = some (.program .fracksFid) →
      a = .vacant ∨ (∃ r : FidAccount, a = account r) ∨ (∃ r : ClaimAccount, a = account r) ∨
        ∃ r : ClaimTopicIndex, a = account r) hrecords hvacant ?_ fun _ _ ↦ .inl rfl
    intro r hr hderived
    obtain ⟨howner, hdecodes⟩ := hfids r hr hderived
    refine .inr (hdecodes.imp (account_of_decode howner) fun hother ↦ ?_)
    exact hother.imp (account_of_decode howner) (account_of_decode howner)
  · refine accounts_forall (P := fun k a ↦ k.derivedFrom = some (.program .fracksTir) →
      a = .vacant ∨ (∃ r : TrustedIssuersState, a = account r) ∨ ∃ r : IssuerEntry, a = account r)
      hrecords hvacant ?_ fun _ _ ↦ .inl rfl
    intro r hr hderived
    obtain ⟨howner, hdecodes⟩ := hissuers r hr hderived
    exact .inr (hdecodes.imp (account_of_decode howner) (account_of_decode howner))

end KnownAccounts

/-- What follows the registration and the entry of the issuer. -/
theorem registered_run {rest : List (Pubkey × Suite.Instruction)} {L₁ L₂ L : Ledger}
    (hsigners : ∀ step ∈ rest, ∃ n, step.1 = .address n)
    (hregistered : registration.foldlM
      (fun L step ↦ @Suite.process strictBorsh L [step.1] step.2) Fid.emptyLedger = .ok L₁)
    (htrusted : Tir.addTrustedIssuer L₁ [registryOwner] registryOwner rotationTir rotationEntry
      rotationIssuerFid [7] "" = .ok L₂)
    (hrest : rest.foldlM (fun L step ↦ @Suite.process strictBorsh L [step.1] step.2) L₂ = .ok L) :
    Run (@Suite.Step strictBorsh) Fid.emptyLedger
      ((registration ++ (registryOwner, .tir (.addTrustedIssuer registryOwner rotationTir
        rotationEntry rotationIssuerFid [7] "")) :: rest).map
          fun step ↦ .instruction [step.1] step.2) L := by
  have hregistration : ∀ step ∈ registration, ∃ n, step.1 = .address n := by
    simp [registration, Fid.claimHolder, Fid.claimIssuer, registryOwner]
  refine @Suite.run_of_steps strictBorsh _ _ _ (fun step hstep ↦ ?_) ?_
  · have hkey : ∃ n, step.1 = .address n := by
      cases List.mem_append.1 hstep with
      | inl hstep => exact hregistration step hstep
      | inr hstep =>
          cases hstep with
          | head => exact ⟨3, rfl⟩
          | tail _ hstep => exact hsigners step hstep
    obtain ⟨n, hn⟩ := hkey
    rw [hn]
    exact Pubkey.external_address n
  · rw [List.foldlM_append, hregistered, ok_bind, List.foldlM_cons]
    exact bind_eq_ok.2 ⟨L₂, htrusted, hrest⟩

theorem rotation_run : ∃ L, Run (@Suite.Step strictBorsh) Fid.emptyLedger rotationHistory L ∧
    (∀ r ∈ claimedRecords (.address 4), L.accounts r.1 = r.2) ∧
      ∀ k ∉ (claimedRecords (.address 4)).map Prod.fst, L.accounts k = .vacant := by
  have hlisted : Capacity.Listed Tir.maxTopicsPerIssuer [7] := ⟨by decide, by decide⟩
  have hsigners : ∀ step ∈ rotation, ∃ n, step.1 = .address n := by
    simp [rotation, Fid.claimIssuer]
  refine ⟨_, registered_run hsigners rfl
    (Tir.addTrustedIssuer_eq rfl hlisted (by decide) rfl (by decide)) rfl, ?_, ?_⟩
  · simp only [claimedRecords, List.forall_mem_cons, List.not_mem_nil, false_implies,
      implies_true, and_true]
    exact ⟨rfl, rfl, rfl, rfl, rfl, rfl, rfl, rfl, rfl⟩
  · intro k hk
    simp only [claimedRecords, List.map_cons, List.map_nil, List.mem_cons, List.not_mem_nil,
      or_false, not_or] at hk
    obtain ⟨h₁, h₂, h₃, h₄, h₅, h₆, h₇, h₈, h₉⟩ := hk
    repeat refine update_vacant (by assumption) ?_
    rfl

theorem emptyLedger_nothingFiled : NothingFiled Fid.emptyLedger :=
  ⟨Fid.emptyLedger_unopened, fun _ ↦ rfl, fun _ ↦ rfl⟩

section Claimed

variable {L : Ledger} {signerKey : Pubkey}
  (hrecords : ∀ r ∈ claimedRecords signerKey, L.accounts r.1 = r.2)

include hrecords

theorem claimed_view {α : Type} [AccountType α] {k : Pubkey} {a : α}
    (h : (k, account a) ∈ claimedRecords signerKey) : L.view α k = some a :=
  view_eq_some.2 (hrecords (k, account a) h)

theorem claimed_reads : @ReadsRegistry strictBorsh L rotationContext rotationIrs Fid.claimHolder
    rotationHolder rotationCtr rotationTopics := by
  have hctr : L.accounts rotationCtr = account rotationTopics :=
    hrecords (rotationCtr, account rotationTopics) (by simp [claimedRecords])
  refine @ReadsRegistry.mk strictBorsh _ _ _ _ _ _ _ rfl ?_ rfl rfl (view_eq_some.2 hctr) ?_
  · exact claimed_view hrecords (by simp [claimedRecords, rotationIdentity])
  · rw [hctr]
    rfl

theorem claimed_backed :
    Backed L rotationHolder.fid rotationTir 7 L.now rotationClaim rotationClaimRecord := by
  have hclaim : L.view ClaimAccount rotationClaim = some rotationClaimRecord :=
    claimed_view hrecords (by simp [claimedRecords])
  have hentry : L.view IssuerEntry rotationEntry =
      some ⟨rotationIssuerFid, rotationTir, [7], true, ""⟩ :=
    claimed_view hrecords (by simp [claimedRecords])
  exact ⟨⟨hclaim, rfl, rfl, rfl, rfl, .inl rfl, rfl⟩,
    ⟨rotationIssuerFid, rotationTir, [7], true, ""⟩, hentry, rfl, rfl, rfl, rfl,
    List.mem_cons_self⟩

/-- Once its signer is another, the issuer no longer stands behind the claim. -/
theorem claimed_not_intact (hsigner : signerKey ≠ Fid.claimIssuer) :
    ¬ IssuerIntact L rotationClaimRecord := by
  rintro ⟨issuer, hissuer, -, hkey⟩
  have hrotated : L.view FidAccount rotationIssuerFid =
      some ⟨Fid.claimIssuer, Fid.claimIssuer, signerKey, 0, true, 0⟩ :=
    claimed_view hrecords (by simp [claimedRecords])
  have hsame := Option.some.inj (hrotated.symm.trans hissuer)
  rw [← hsame] at hkey
  exact hsigner hkey

variable (hvacant : ∀ k ∉ (claimedRecords signerKey).map Prod.fst, L.accounts k = .vacant)

include hvacant

theorem claimed_claim {k : Pubkey} {claim : ClaimAccount}
    (h : L.view ClaimAccount k = some claim) : k = rotationClaim ∧ claim = rotationClaimRecord :=
  view_unique hrecords hvacant rfl h

theorem claimed_finds : FindsClaims L rotationHolder.fid [rotationClaim] := by
  have hclaim : L.accounts rotationClaim = account rotationClaimRecord :=
    hrecords (rotationClaim, account rotationClaimRecord) (by simp [claimedRecords])
  refine ⟨fun k claim h _ ↦ ?_, ?_, fun k _ claim h ↦ ?_⟩
  · rw [(claimed_claim hrecords hvacant h).1]
    exact List.mem_cons_self
  · intro k hk
    rw [List.mem_singleton.1 hk, hclaim]
    rfl
  · rw [(claimed_claim hrecords hvacant h).2]
    rfl

theorem claimed_all : HoldsAll L [rotationClaim, rotationEntry] := by
  constructor
  · intro k claim h
    rw [(claimed_claim hrecords hvacant h).1]
    exact List.mem_cons_self
  · intro k entry h
    rw [(view_unique hrecords hvacant rfl h).1]
    exact List.mem_cons_of_mem _ List.mem_cons_self

/-- The chain takes the claim whatever the signer of its issuer is. -/
theorem claimed_verified : ∀ topic ∈ rotationTopics.topics, Irp.verifyClaimForTopic L
    rotationHolder.fid topic rotationTir [rotationClaim, rotationEntry] L.now = true := by
  intro topic htopic
  obtain rfl : topic = 7 := List.mem_singleton.1 htopic
  exact (verifyClaimForTopic_all (claimed_all hrecords hvacant)).2
    ⟨rotationClaim, rotationClaimRecord, claimed_backed hrecords⟩

end Claimed

theorem rotation_onlyOwnRecords {L : Ledger}
    (hrecords : ∀ r ∈ claimedRecords (.address 4), L.accounts r.1 = r.2)
    (hvacant : ∀ k ∉ (claimedRecords (.address 4)).map Prod.fst, L.accounts k = .vacant) :
    OnlyOwnRecords L :=
  onlyOwnRecords_of_records hrecords hvacant (by decide) (by decide)

/-- After the issuer has changed its signer the chain still takes the claim, but the check
refuses it. -/
theorem rotated_signer_disagrees : ∃ L, Run (@Suite.Step strictBorsh) Fid.emptyLedger
      rotationHistory L ∧
    (∀ topic ∈ rotationTopics.topics, Irp.verifyClaimForTopic L rotationHolder.fid topic rotationTir
      [rotationClaim, rotationEntry] L.now = true) ∧
    ¬ (@validateRecipientClaimsForMint strictBorsh L (fun _ ↦ "") (fun _ ↦ [rotationClaim]) L.now
      rotationContext).ok = true := by
  obtain ⟨L, hrun, hrecords, hvacant⟩ := rotation_run
  have hchain := claimed_verified hrecords hvacant
  refine ⟨L, hrun, hchain, fun hok ↦ ?_⟩
  have hagree := (@mint_claims_agree_iff L L.now strictBorsh Fid.emptyLedger rotationHistory
    (fun _ ↦ "") (fun _ ↦ [rotationClaim]) rotationContext rotationIrs Fid.claimHolder rotationCtr
    rotationHolder rotationTopics [rotationClaim, rotationEntry] emptyLedger_nothingFiled hrun
    (rotation_onlyOwnRecords hrecords hvacant) (claimed_reads hrecords)
    (claimed_finds hrecords hvacant) (claimed_all hrecords hvacant)).1 (iff_of_true hok hchain)
  obtain ⟨k, claim, hclaim, hintact⟩ := hagree (fun topic htopic ↦ by
    obtain rfl : topic = 7 := List.mem_singleton.1 htopic
    exact ⟨_, _, claimed_backed hrecords⟩) 7 List.mem_cons_self
  obtain ⟨-, rfl⟩ := claimed_claim hrecords hvacant hclaim.live.claimAt
  exact claimed_not_intact hrecords (by decide) hintact

end Fracks.TokenService
