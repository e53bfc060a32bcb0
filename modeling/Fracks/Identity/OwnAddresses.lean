import Fracks.Identity.ClaimIndex
import Fracks.Suite

/-!
# The addresses of identity records

In every history of the suite a claim is at its own address, its holder has a FID, and its
issuer is the FID of the key that signed it; a registry of trusted issuers and its entries
are at the addresses derived for them.
-/

namespace Fracks

open Checked AccountType Ledger Runs

/-! ## The issuer of a claim -/

namespace Fid

variable {L L' : Ledger} {signers : List Pubkey}

/-- The issuer of a claim is the FID of the key that signed it. -/
def Signed (_ : Pubkey) (claim : ClaimAccount) : Prop :=
  claim.issuerFid = fidAddress claim.signerKey

theorem addClaim_signed {accts : AddClaimAccounts} {topic : ℕ} {issuerFid : Pubkey} {expiresAt : ℤ}
    (h : addClaim L signers accts topic issuerFid expiresAt = .ok L')
    (hL : Everywhere Signed (L.view ClaimAccount)) : Everywhere Signed (L'.view ClaimAccount) := by
  simp only [addClaim, bind_eq_ok, requireSigner_eq_ok, requireSeeds_eq_ok, require_eq_ok,
    okOr_eq_ok, exists_const, Except.ok.injEq] at h
  obtain ⟨-, target, -, -, L₁, hcreate, ⟨L₂, old⟩, hinit, hissuer, -, n, -, rfl⟩ := h
  have hview : L₂.view ClaimAccount = L.view ClaimAccount := by
    rw [(view_initIfNeeded hinit).2.2, view_createAccount hcreate]
  have hkept : Everywhere Signed (L₂.view ClaimAccount) := by
    rw [hview]
    exact hL
  have hclaim : Everywhere Signed ((L₂.put accts.claim
      { fid := accts.targetFid, claimId := target.claimCount, topic, issuerFid,
        signerKey := accts.issuerOwner, issuedAt := L₂.now, expiresAt,
        revoked := false : ClaimAccount }).view ClaimAccount) := hkept.put hissuer
  exact (hclaim.put_other (by decide)).put_other (by decide)

/-- A claim that changes keeps its issuer and the key that signed it. -/
theorem process_signed {i : Instruction} (h : process L signers i = .ok L') (hfiled : Filed L)
    (hL : Everywhere Signed (L.view ClaimAccount)) : Everywhere Signed (L'.view ClaimAccount) := by
  cases i with
  | createFid owner fid isIssuer country =>
      obtain ⟨-, -, -, -, hwritten⟩ := createFid_ok hfiled.owned h
      rw [hwritten.claims]
      exact hL
  | setManagementKey owner fid newKey =>
      obtain ⟨_, -, hwritten⟩ := setManagementKey_ok h
      rw [hwritten.claims]
      exact hL
  | setSignerKey authority fid newKey =>
      obtain ⟨_, -, hwritten⟩ := setSignerKey_ok h
      rw [hwritten.claims]
      exact hL
  | updateFidProfile authority fid isIssuer country =>
      obtain ⟨_, -, -, hwritten⟩ := updateFidProfile_ok h
      rw [hwritten.claims]
      exact hL
  | addClaim accts topic issuerFid expiresAt => exact addClaim_signed h hL
  | revokeClaim issuerOwner claim claimTopicIndex =>
      obtain ⟨record, index, hload, -, hclaims, -⟩ := revokeClaim_ok h
      obtain ⟨hrecord, -, -, -⟩ := loadClaim_ok hload
      rw [hclaims]
      refine hL.update fun a ha ↦ ?_
      obtain rfl := Option.some.inj ha
      exact hL claim record (view_eq_some.2 hrecord)
  | removeClaim authority fid claim claimTopicIndex =>
      obtain ⟨_, _, -, -, hclaims, -⟩ := removeClaim_ok h
      rw [hclaims]
      refine hL.update fun _ hnone ↦ ?_
      cases hnone

/-- A claim has a holder with a FID. -/
theorem Filed.holder (hfiled : Filed L) (hsound : (register L).Sound) {k : Pubkey}
    {claim : ClaimAccount} (h : L.view ClaimAccount k = some claim) :
    ∃ holder : FidAccount, L.view FidAccount claim.fid = some holder := by
  obtain ⟨n, hn, -⟩ := hsound.numbered (hfiled.entry_eq h)
  obtain ⟨holder, hholder, -⟩ := Option.map_eq_some_iff.1 hn
  exact ⟨holder, hholder⟩

end Fid

/-! ## Registries of issuers and their entries -/

namespace Tir

variable {L L' : Ledger} {signers : List Pubkey}

/-- The registry is at the address derived for its token. -/
def AtHome (k : Pubkey) (state : TrustedIssuersState) : Prop := k = tirAddress state.tokenMint

/-- The entry is at the address derived for its registry and its issuer. -/
def EntryAtHome (k : Pubkey) (entry : IssuerEntry) : Prop :=
  k = issuerEntryAddress entry.tir entry.issuerFid

structure AtHomes (L : Ledger) : Prop where
  registries : Everywhere AtHome (L.view TrustedIssuersState)
  entries : Everywhere EntryAtHome (L.view IssuerEntry)

theorem addTrustedIssuer_address {owner tirState issuerEntry issuerFid : Pubkey}
    {topics : List ℕ} {label : String}
    (h : addTrustedIssuer L signers owner tirState issuerEntry issuerFid topics label = .ok L') :
    issuerEntry = issuerEntryAddress tirState issuerFid := by
  simp only [addTrustedIssuer, bind_eq_ok] at h
  obtain ⟨_, -, _, -, _, -, _, hinit, -⟩ := h
  exact (view_initRecord hinit).1

theorem AtHomes.put_entry (hL : AtHomes L) {k : Pubkey} {entry entry' : IssuerEntry}
    (hentry : L.accounts k = account entry) (htir : entry'.tir = entry.tir)
    (hissuer : entry'.issuerFid = entry.issuerFid) : AtHomes (L.put k entry') := by
  have hhome : EntryAtHome k entry := hL.entries k entry (view_eq_some.2 hentry)
  have hhome' : EntryAtHome k entry' := by
    rw [EntryAtHome, htir, hissuer]
    exact hhome
  exact ⟨hL.registries.put_other (by decide), hL.entries.put hhome'⟩

theorem process_atHomes {i : Instruction} (h : process L signers i = .ok L') (hL : AtHomes L) :
    AtHomes L' := by
  cases i with
  | initializeTir owner tirState tokenMint =>
      obtain ⟨_, -, hinit⟩ := bind_eq_ok.1 h
      have hframe : Frame [.trustedIssuersState] L L' := .initRecord hinit (by decide)
      have haddress : tirState = tirAddress tokenMint := (view_initRecord hinit).1
      exact ⟨hL.registries.initRecord hinit haddress, hL.entries.of_frame hframe (by decide)⟩
  | addTrustedIssuer owner tirState issuerEntry issuerFid topics label =>
      have haddress := addTrustedIssuer_address h
      obtain ⟨state, hstate, -, -, -, hstates, hentries, -⟩ := addTrustedIssuer_ok h
      constructor
      · rw [hstates]
        refine hL.registries.update fun s hs ↦ ?_
        obtain rfl := Option.some.inj hs
        exact hL.registries tirState state (view_eq_some.2 hstate)
      · rw [hentries]
        refine hL.entries.update fun e he ↦ ?_
        obtain rfl := Option.some.inj he
        exact haddress
  | updateIssuerTopics owner tirState issuerEntry newTopics =>
      obtain ⟨entry, entry', hentry, hf, rfl⟩ := mutateIssuerEntry_ok h
      obtain ⟨_, -, hf⟩ := bind_eq_ok.1 hf
      obtain rfl := Except.ok.inj hf
      exact hL.put_entry hentry rfl rfl
  | deactivateIssuer owner tirState issuerEntry =>
      obtain ⟨entry, entry', hentry, hf, rfl⟩ := mutateIssuerEntry_ok h
      obtain rfl := Except.ok.inj hf
      exact hL.put_entry hentry rfl rfl
  | reactivateIssuer owner tirState issuerEntry =>
      obtain ⟨entry, entry', hentry, hf, rfl⟩ := mutateIssuerEntry_ok h
      obtain rfl := Except.ok.inj hf
      exact hL.put_entry hentry rfl rfl
  | removeTrustedIssuer owner tirState issuerEntry =>
      obtain ⟨state, _, hstate, -, -, hstates, hentries, -⟩ := removeTrustedIssuer_ok h
      constructor
      · rw [hstates]
        refine hL.registries.update fun s hs ↦ ?_
        obtain rfl := Option.some.inj hs
        exact hL.registries tirState state (view_eq_some.2 hstate)
      · rw [hentries]
        refine hL.entries.update fun _ hnone ↦ ?_
        cases hnone
  | transferOwnership owner tirState newOwner =>
      obtain ⟨state, hstate, rfl⟩ := transferOwnership_ok h
      have hhome : AtHome tirState state := hL.registries tirState state (view_eq_some.2 hstate)
      exact ⟨hL.registries.put hhome, hL.entries.put_other (by decide)⟩

theorem AtHomes.of_frame {S : List AccountKind} (hL : AtHomes L) (hframe : Frame S L L')
    (hS : ∀ kind ∈ tirKinds, kind ∉ S) : AtHomes L' :=
  ⟨hL.registries.of_frame hframe (hS _ (by decide)), hL.entries.of_frame hframe (hS _ (by decide))⟩

end Tir

/-! ## Histories of the suite -/

/-- What the records of the FID program and of the registries of issuers keep to. -/
structure IdentityFiled (L : Ledger) : Prop where
  filed : Fid.Filed L
  sound : (Fid.register L).Sound
  signed : Everywhere Fid.Signed (L.view ClaimAccount)
  homes : Tir.AtHomes L

/-- Neither program has an account yet. -/
structure NothingFiled (L : Ledger) : Prop extends Fid.Unopened L where
  registries : ∀ k, L.view TrustedIssuersState k = none
  entries : ∀ k, L.view IssuerEntry k = none

section Histories

variable {L L' : Ledger} {labels : List Suite.Label} {l : Suite.Label}

theorem NothingFiled.identityFiled (h : NothingFiled L) : IdentityFiled L where
  filed := h.toUnopened.filed
  sound := h.toUnopened.sound
  signed := everywhere_of_none h.claims
  homes := ⟨everywhere_of_none h.registries, everywhere_of_none h.entries⟩

theorem Fid.Moves.sound (h : Fid.Moves L L') (hsound : (Fid.register L).Sound) :
    (Fid.register L').Sound := by
  cases h with
  | inl hsame =>
      rw [hsame]
      exact hsound
  | inr hmove =>
      obtain ⟨_, hstep⟩ := hmove
      exact hstep.sound hsound

variable [Borsh]

theorem IdentityFiled.step (hL : IdentityFiled L) (hstep : Suite.Step L l L') :
    IdentityFiled L' := by
  obtain ⟨hfiled, hmoves⟩ := hL.filed.step hstep.seen
  refine ⟨hfiled, hmoves.sound hL.sound, ?_, ?_⟩
  · cases hstep with
    | instruction signers i hexternal h =>
        cases i with
        | platform i =>
            cases i with
            | core i => exact hL.signed.of_frame (frame_core h) (by decide)
            | fid i => exact Fid.process_signed h hL.filed hL.signed
            | irs i => exact hL.signed.of_frame (Irs.frame h) (by decide)
            | irp i => exact hL.signed.of_frame (Irp.frame h) (by decide)
        | tir i => exact hL.signed.of_frame (Tir.frame h) (by decide)
        | ctr i => exact hL.signed.of_frame (Ctr.frame h) (by decide)
        | factory i => exact hL.signed.of_frame (Factory.frame h) (by decide)
    | environment hframe => exact hL.signed.of_frame hframe (by decide)
  · cases hstep with
    | instruction signers i hexternal h =>
        cases i with
        | platform i =>
            cases i with
            | core i => exact hL.homes.of_frame (frame_core h) (by decide)
            | fid i => exact hL.homes.of_frame (Fid.frame h) (by decide)
            | irs i => exact hL.homes.of_frame (Irs.frame h) (by decide)
            | irp i => exact hL.homes.of_frame (Irp.frame h) (by decide)
        | tir i => exact Tir.process_atHomes h hL.homes
        | ctr i => exact hL.homes.of_frame (Ctr.frame h) (by decide)
        | factory i => exact hL.homes.of_frame (Factory.frame h) (by decide)
    | environment hframe => exact hL.homes.of_frame hframe (by decide)

theorem IdentityFiled.of_run (hrun : Run Suite.Step L labels L') (hL : IdentityFiled L) :
    IdentityFiled L' :=
  hrun.invariant (fun _ _ _ hfiled hstep ↦ hfiled.step hstep) hL

end Histories

end Fracks
