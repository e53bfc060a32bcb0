import Fracks.Identity
import Fracks.Identity.Fid
import Fracks.Identity.Issuers

/-!
# The search for a claim

The verification of a topic scans the accounts of the caller for a claim, and for each of its
claims for the entry of its issuer.  An address is the address of one account only, so a scan
that stops at the first match finds what any scan finds: the verdict depends on which accounts
are in the list, not on where or how often.
-/

namespace Fracks.Irp

open Checked AccountType Ledger

variable {L : Ledger} {holderFid tirState issuerFid k : Pubkey} {topic : ℕ} {now : ℤ}
  {accounts : List Pubkey} {entry : IssuerEntry}

/-- The account at `k` is a claim on the topic, in force, whose issuer is its signer. -/
structure LiveClaim (L : Ledger) (holderFid : Pubkey) (topic : ℕ) (now : ℤ) (k : Pubkey)
    (claim : ClaimAccount) : Prop where
  claimAt : L.view ClaimAccount k = some claim
  canonical : k = Fid.claimAddress claim.fid claim.claimId
  holder : claim.fid = holderFid
  onTopic : claim.topic = topic
  standing : claim.revoked = false
  unexpired : claim.expiresAt = 0 ∨ now ≤ claim.expiresAt
  signed : claim.issuerFid = Fid.fidAddress claim.signerKey

/-- The account at `k` is the active entry of the issuer, trusted with the topic. -/
structure TrustedEntry (L : Ledger) (tirState issuerFid : Pubkey) (topic : ℕ) (k : Pubkey)
    (entry : IssuerEntry) : Prop where
  entryAt : L.view IssuerEntry k = some entry
  canonical : k = Tir.issuerEntryAddress tirState issuerFid
  registry : entry.tir = tirState
  issuer : entry.issuerFid = issuerFid
  active : entry.isActive = true
  allowed : topic ∈ entry.allowedTopics

theorem issuerEntryAt_eq_some :
    issuerEntryAt L tirState issuerFid k = some entry ↔
      L.view IssuerEntry k = some entry ∧ k = Tir.issuerEntryAddress tirState issuerFid ∧
        entry.tir = tirState ∧ entry.issuerFid = issuerFid := by
  unfold issuerEntryAt
  cases hview : L.view IssuerEntry k with
  | none => simp
  | some e =>
      simp only [Option.ite_none_right_eq_some, Option.some.injEq]
      constructor
      · rintro ⟨hmatch, rfl⟩
        exact ⟨rfl, hmatch⟩
      · rintro ⟨rfl, hmatch⟩
        exact ⟨hmatch, rfl⟩

/-- All matches are at one address, so the first match is any. -/
theorem findIssuerEntry_eq_ok :
    findIssuerEntry L accounts tirState issuerFid = .ok entry ↔
      ∃ k ∈ accounts, issuerEntryAt L tirState issuerFid k = some entry := by
  rw [findIssuerEntry, okOr_eq_ok]
  constructor
  · exact List.exists_of_findSome?_eq_some
  · rintro ⟨k, hk, hentry⟩
    have hsome : (accounts.findSome? (issuerEntryAt L tirState issuerFid)).isSome = true :=
      List.findSome?_isSome_iff.2 ⟨k, hk, by rw [hentry]; rfl⟩
    obtain ⟨first, hfirst⟩ := Option.isSome_iff_exists.1 hsome
    obtain ⟨x, -, hx⟩ := List.exists_of_findSome?_eq_some hfirst
    obtain ⟨hviewAt, hkey, -⟩ := issuerEntryAt_eq_some.1 hentry
    obtain ⟨hviewAt', hkey', -⟩ := issuerEntryAt_eq_some.1 hx
    rw [hkey', ← hkey, hviewAt] at hviewAt'
    rw [hfirst, Option.some.inj hviewAt']

theorem claimProves_iff :
    claimProves L holderFid topic tirState accounts now k = true ↔
      ∃ claim, LiveClaim L holderFid topic now k claim ∧
        ∃ x ∈ accounts, ∃ entry, TrustedEntry L tirState claim.issuerFid topic x entry := by
  unfold claimProves
  cases hview : L.view ClaimAccount k with
  | none =>
      constructor
      · intro h
        cases h
      · rintro ⟨claim, hlive, -⟩
        rw [hlive.claimAt] at hview
        cases hview
  | some claim =>
      dsimp only
      constructor
      · intro h
        split at h
        case isTrue => cases h
        case isFalse hkey =>
          split at h
          case isTrue => cases h
          case isFalse hstands =>
            split at h
            case h_2 => cases h
            case h_1 entry hentry =>
              push Not at hkey hstands
              obtain ⟨hfid, htopic, hrevoked, hexpired⟩ := hstands
              obtain ⟨x, hx, hat⟩ := findIssuerEntry_eq_ok.1 hentry
              obtain ⟨hentryAt, hentryKey, htir, hissuer⟩ := issuerEntryAt_eq_some.1 hat
              obtain ⟨hactive, hallowed, hsigned⟩ := of_decide_eq_true h
              have hunexpired : claim.expiresAt = 0 ∨ now ≤ claim.expiresAt :=
                or_iff_not_imp_left.2 hexpired
              exact ⟨claim, ⟨hview, hkey, hfid, htopic, Bool.eq_false_iff.2 hrevoked, hunexpired,
                hsigned⟩, x, hx, entry, hentryAt, hentryKey, htir, hissuer, hactive, hallowed⟩
      · rintro ⟨claim', hlive, x, hx, entry, htrusted⟩
        obtain rfl := Option.some.inj (hview.symm.trans hlive.claimAt)
        have hentry : findIssuerEntry L accounts tirState claim.issuerFid = .ok entry :=
          findIssuerEntry_eq_ok.2 ⟨x, hx, issuerEntryAt_eq_some.2 ⟨htrusted.entryAt,
            htrusted.canonical, htrusted.registry, htrusted.issuer⟩⟩
        have hstands : ¬ (claim.fid ≠ holderFid ∨ claim.topic ≠ topic ∨ claim.revoked = true ∨
            (claim.expiresAt ≠ 0 ∧ claim.expiresAt < now)) := by
          push Not
          exact ⟨hlive.holder, hlive.onTopic, Bool.eq_false_iff.1 hlive.standing,
            or_iff_not_imp_left.1 hlive.unexpired⟩
        have hkey : ¬ k ≠ .findProgramAddress .claim [.key claim.fid, .num claim.claimId]
            (.program .fracksFid) := not_not.2 hlive.canonical
        rw [if_neg hkey, if_neg hstands, hentry]
        exact decide_eq_true ⟨htrusted.active, htrusted.allowed, hlive.signed⟩

/-- The account at `k` can bear on the verdict: a claim of the holder on the topic, or an entry
of the registry, each at its own address. -/
def Bears (L : Ledger) (holderFid : Pubkey) (topic : ℕ) (tirState k : Pubkey) : Prop :=
  (∃ claim, L.view ClaimAccount k = some claim ∧ k = Fid.claimAddress claim.fid claim.claimId ∧
    claim.fid = holderFid ∧ claim.topic = topic) ∨
  ∃ entry, L.view IssuerEntry k = some entry ∧
    k = Tir.issuerEntryAddress tirState entry.issuerFid ∧ entry.tir = tirState

theorem LiveClaim.bears {claim : ClaimAccount} (h : LiveClaim L holderFid topic now k claim) :
    Bears L holderFid topic tirState k :=
  .inl ⟨claim, h.claimAt, h.canonical, h.holder, h.onTopic⟩

theorem TrustedEntry.bears (h : TrustedEntry L tirState issuerFid topic k entry) :
    Bears L holderFid topic tirState k :=
  .inr ⟨entry, h.entryAt, h.issuer ▸ h.canonical, h.registry⟩

theorem verifyClaimForTopic_iff :
    verifyClaimForTopic L holderFid topic tirState accounts now = true ↔
      ∃ k ∈ accounts, ∃ claim, LiveClaim L holderFid topic now k claim ∧
        ∃ x ∈ accounts, ∃ entry, TrustedEntry L tirState claim.issuerFid topic x entry := by
  rw [verifyClaimForTopic, List.any_eq_true]
  simp only [claimProves_iff]

/-- What proves a topic in one list proves it in a list with the accounts that bear on it. -/
theorem verifyClaimForTopic_mono {accounts' : List Pubkey}
    (h : verifyClaimForTopic L holderFid topic tirState accounts now = true)
    (hsub : ∀ k, Bears L holderFid topic tirState k → k ∈ accounts → k ∈ accounts') :
    verifyClaimForTopic L holderFid topic tirState accounts' now = true := by
  obtain ⟨k, hk, claim, hlive, x, hx, entry, htrusted⟩ := verifyClaimForTopic_iff.1 h
  exact verifyClaimForTopic_iff.2 ⟨k, hsub k hlive.bears hk, claim, hlive, x,
    hsub x htrusted.bears hx, entry, htrusted⟩

theorem verifyClaimForTopic_congr {accounts' : List Pubkey}
    (hsame : ∀ k, Bears L holderFid topic tirState k → (k ∈ accounts' ↔ k ∈ accounts)) :
    verifyClaimForTopic L holderFid topic tirState accounts' now =
      verifyClaimForTopic L holderFid topic tirState accounts now := by
  rw [Bool.eq_iff_iff]
  constructor
  · intro h
    exact verifyClaimForTopic_mono h fun k hbears hk ↦ (hsame k hbears).1 hk
  · intro h
    exact verifyClaimForTopic_mono h fun k hbears hk ↦ (hsame k hbears).2 hk

/-- A topic is proved exactly by a live claim and the entry of its issuer in the list; lists with
the same accounts that bear on it have the same verdict, so neither the order nor repeated,
unrelated or malformed accounts matter. -/
theorem claim_search_exact (L : Ledger) (holderFid : Pubkey) (topic : ℕ) (tirState : Pubkey)
    (accounts : List Pubkey) (now : ℤ) :
    (verifyClaimForTopic L holderFid topic tirState accounts now = true ↔
      ∃ k ∈ accounts, ∃ claim, LiveClaim L holderFid topic now k claim ∧
        ∃ x ∈ accounts, ∃ entry, TrustedEntry L tirState claim.issuerFid topic x entry) ∧
    (∀ accounts', (∀ k, Bears L holderFid topic tirState k → (k ∈ accounts' ↔ k ∈ accounts)) →
      verifyClaimForTopic L holderFid topic tirState accounts' now =
        verifyClaimForTopic L holderFid topic tirState accounts now) ∧
    ∀ accounts' added, accounts'.Perm (accounts ++ added) →
      (∀ k ∈ added, k ∈ accounts ∨ ¬ Bears L holderFid topic tirState k) →
        verifyClaimForTopic L holderFid topic tirState accounts' now =
          verifyClaimForTopic L holderFid topic tirState accounts now := by
  refine ⟨verifyClaimForTopic_iff, fun accounts' hsame ↦ verifyClaimForTopic_congr hsame, ?_⟩
  intro accounts' added hperm hadded
  apply verifyClaimForTopic_congr
  intro k hbears
  rw [hperm.mem_iff, List.mem_append]
  constructor
  · rintro (hk | hk)
    · exact hk
    · exact (hadded k hk).resolve_right fun hunrelated ↦ hunrelated hbears
  · exact Or.inl

end Fracks.Irp
