import Fracks.Identity.OwnAddresses
import Fracks.Identity.RegisteredCount

/-!
# Whose signature a change takes

What the identity programs store about a wallet changes only with the signature of a key that
has a say in it.  For each program there is one lemma of one shape: where none of these keys
signs, an instruction leaves the record as it is.
-/

namespace Fracks

open Checked AccountType Ledger Runs

/-! ## FIDs and claims -/

namespace Fid

variable {L L' : Ledger} {signers : List Pubkey} {k fid : Pubkey}

/-- The owner of the FID or its management key signs. -/
def Speaks (signers : List Pubkey) (record : FidAccount) : Prop :=
  record.owner ∈ signers ∨ record.managementKey ∈ signers

theorem setManagementKey_signed {owner newKey : Pubkey}
    (h : setManagementKey L signers owner fid newKey = .ok L') :
    ∃ old : FidAccount, L.accounts fid = account old ∧ Speaks signers old := by
  simp only [setManagementKey, bind_eq_ok, requireSigner_eq_ok, requireSeeds_eq_ok, require_eq_ok,
    exists_const, modify_eq_ok] at h
  obtain ⟨hsigner, old, -, hold, ⟨-, howner, -⟩, -⟩ := h
  refine ⟨old, hold, .inl ?_⟩
  rw [howner]
  exact hsigner

theorem updateFid_signed {authority : Pubkey} {f : FidAccount → Result FidAccount}
    (h : updateFid L signers authority fid f = .ok L') :
    ∃ old : FidAccount, L.accounts fid = account old ∧ Speaks signers old := by
  simp only [updateFid, bind_eq_ok, requireSigner_eq_ok, requireSeeds_eq_ok, require_eq_ok,
    exists_const, modify_eq_ok] at h
  obtain ⟨hsigner, old, -, hold, ⟨-, hauthority, -⟩, -⟩ := h
  refine ⟨old, hold, ?_⟩
  cases hauthority with
  | inl howner =>
      left
      rw [← howner]
      exact hsigner
  | inr hmanager =>
      right
      rw [← hmanager]
      exact hsigner

theorem FidWritten.elsewhere {record : FidAccount} (h : FidWritten L L' fid record) (hk : k ≠ fid) :
    L'.view FidAccount k = L.view FidAccount k := by
  rw [h.fids, Function.update_of_ne hk]

/-- The record is as before but for the number of claims about it, which may have grown. -/
def ProfileKept (k : Pubkey) (record : FidAccount) (L' : Ledger) : Prop :=
  ∃ n, record.claimCount ≤ n ∧ L'.view FidAccount k = some { record with claimCount := n }

theorem profileKept_of_view {record : FidAccount} (h : L'.view FidAccount k = some record) :
    ProfileKept k record L' :=
  ⟨record.claimCount, le_rfl, h⟩

theorem ProfileKept.trans {record record' : FidAccount} (h : ProfileKept k record' L')
    {n : ℕ} (hn : record.claimCount ≤ n) (hrecord : record' = { record with claimCount := n }) :
    ProfileKept k record L' := by
  obtain ⟨m, hm, hview⟩ := h
  subst hrecord
  exact ⟨m, hn.trans hm, hview⟩

/-- A written record is that of a holder who speaks, or another one. -/
theorem FidWritten.profileKept {record old new : FidAccount} (h : FidWritten L L' fid new)
    (hold : L.accounts fid = account old) (hsaid : Speaks signers old)
    (hrecord : L.view FidAccount k = some record) (hsilent : ¬ Speaks signers record) :
    ProfileKept k record L' := by
  apply profileKept_of_view
  rw [h.elsewhere ?_, hrecord]
  rintro rfl
  obtain rfl := account_inj.1 ((view_eq_some.1 hrecord).symm.trans hold)
  exact hsilent hsaid

theorem process_profileKept {i : Instruction} {record : FidAccount}
    (h : process L signers i = .ok L') (hL : Filed L)
    (hrecord : L.view FidAccount k = some record) (hsilent : ¬ Speaks signers record) :
    ProfileKept k record L' := by
  cases i with
  | createFid owner fid isIssuer country =>
      obtain ⟨-, -, hnone, -, hwritten⟩ := createFid_ok hL.owned h
      apply profileKept_of_view
      rw [hwritten.elsewhere (view_ne hrecord hnone), hrecord]
  | setManagementKey owner fid newKey =>
      obtain ⟨old, hold, hsaid⟩ := setManagementKey_signed h
      obtain ⟨_, -, hwritten⟩ := setManagementKey_ok h
      exact hwritten.profileKept hold hsaid hrecord hsilent
  | setSignerKey authority fid newKey =>
      obtain ⟨old, hold, hsaid⟩ := updateFid_signed h
      obtain ⟨_, -, hwritten⟩ := setSignerKey_ok h
      exact hwritten.profileKept hold hsaid hrecord hsilent
  | updateFidProfile authority fid isIssuer country =>
      obtain ⟨old, hold, hsaid⟩ := updateFid_signed h
      obtain ⟨_, -, -, hwritten⟩ := updateFidProfile_ok h
      exact hwritten.profileKept hold hsaid hrecord hsilent
  | addClaim accts topic issuerFid expiresAt =>
      obtain ⟨target, _, _, htarget, -, -, -, -, -, hfids, -, -⟩ := addClaim_ok h
      by_cases hk : k = accts.targetFid
      · subst hk
        obtain rfl := account_inj.1 ((view_eq_some.1 hrecord).symm.trans htarget)
        refine ⟨record.claimCount + 1, Nat.le_succ _, ?_⟩
        rw [hfids, Function.update_self]
      · apply profileKept_of_view
        rw [hfids, Function.update_of_ne hk, hrecord]
  | revokeClaim issuerOwner claim claimTopicIndex =>
      obtain ⟨_, _, -, hfids, -⟩ := revokeClaim_ok h
      apply profileKept_of_view
      rw [hfids, hrecord]
  | removeClaim authority fid claim claimTopicIndex =>
      obtain ⟨_, _, -, hfids, -⟩ := removeClaim_ok h
      apply profileKept_of_view
      rw [hfids, hrecord]

theorem revokeClaim_signed {issuerOwner claim claimTopicIndex : Pubkey}
    (h : revokeClaim L signers issuerOwner claim claimTopicIndex = .ok L') :
    ∃ record : ClaimAccount, L.accounts claim = account record ∧ record.signerKey ∈ signers ∧
      L'.view ClaimAccount =
        Function.update (L.view ClaimAccount) claim (some { record with revoked := true }) := by
  obtain ⟨record, _, hload, -, hclaims, -⟩ := revokeClaim_ok h
  simp only [revokeClaim, bind_eq_ok, requireSigner_eq_ok, require_eq_ok, exists_const] at h
  obtain ⟨hsigner, ⟨_, _⟩, hload', hissuer, -⟩ := h
  rw [hload] at hload'
  cases hload'
  refine ⟨record, (loadClaim_ok hload).1, ?_, hclaims⟩
  rw [← hissuer]
  exact hsigner

theorem removeClaim_signed {authority claim claimTopicIndex : Pubkey}
    (h : removeClaim L signers authority fid claim claimTopicIndex = .ok L') :
    ∃ (record : ClaimAccount) (holder : FidAccount), L.accounts claim = account record ∧
      L.accounts record.fid = account holder ∧ Speaks signers holder ∧
      L'.view ClaimAccount = Function.update (L.view ClaimAccount) claim none := by
  obtain ⟨record, _, hload, -, hclaims, -⟩ := removeClaim_ok h
  simp only [removeClaim, bind_eq_ok, requireSigner_eq_ok, load_eq_ok, require_eq_ok,
    exists_const] at h
  obtain ⟨hsigner, holder, hholder, ⟨_, _⟩, hload', hfid, hauthority, -⟩ := h
  rw [hload] at hload'
  cases hload'
  refine ⟨record, holder, (loadClaim_ok hload).1, ?_, ?_, hclaims⟩
  · rw [hfid]
    exact hholder
  · cases hauthority with
    | inl howner => exact .inl (howner ▸ hsigner)
    | inr hmanager => exact .inr (hmanager ▸ hsigner)

/-- A claim is added in a new account, and its signer signs. -/
theorem addClaim_new {accts : AddClaimAccounts} {topic : ℕ} {issuerFid : Pubkey} {expiresAt : ℤ}
    (h : addClaim L signers accts topic issuerFid expiresAt = .ok L') :
    ∃ claim : ClaimAccount, L.view ClaimAccount accts.claim = none ∧ claim.signerKey ∈ signers ∧
      L'.view ClaimAccount = Function.update (L.view ClaimAccount) accts.claim (some claim) := by
  obtain ⟨_, claim, _, -, -, -, -, -, -, -, hclaims, -⟩ := addClaim_ok h
  simp only [addClaim, bind_eq_ok, requireSigner_eq_ok, requireSeeds_eq_ok, require_eq_ok,
    okOr_eq_ok, exists_const, Except.ok.injEq] at h
  obtain ⟨hsigner, target, -, -, L₁, hcreate, ⟨L₂, old⟩, hinit, -, -, n, -, rfl⟩ := h
  have hvacant : L.view ClaimAccount accts.claim = none :=
    view_none_of_vacant (createAccount_ok hcreate).1
  have hview : L₂.view ClaimAccount = L.view ClaimAccount := by
    rw [(view_initIfNeeded hinit).2.2, view_createAccount hcreate]
  have hnone : Everywhere (fun k claim ↦ k = accts.claim → claim.signerKey ∈ signers)
      (L₂.view ClaimAccount) := by
    intro k a ha hk
    rw [hview, hk, hvacant] at ha
    cases ha
  have hwritten : Everywhere (fun k claim ↦ k = accts.claim → claim.signerKey ∈ signers)
      ((L₂.put accts.claim
        { fid := accts.targetFid, claimId := target.claimCount, topic, issuerFid,
          signerKey := accts.issuerOwner, issuedAt := L₂.now, expiresAt,
          revoked := false : ClaimAccount }).view ClaimAccount) := by
    apply hnone.put
    intro
    exact hsigner
  have hall := (hwritten.put_other (b := ClaimTopicIndex.mk accts.targetFid issuerFid topic
    accts.claim target.claimCount true) (k := accts.claimTopicIndex) (by decide)).put_other
      (b := { target with claimCount := n }) (k := accts.targetFid) (by decide)
  refine ⟨claim, hvacant, hall accts.claim claim ?_ rfl, hclaims⟩
  rw [hclaims, Function.update_self]

/-- A claim stays as it is unless its signer or its holder speaks. -/
theorem process_claimKept {i : Instruction} {claim : ClaimAccount}
    (h : process L signers i = .ok L') (hL : Filed L)
    (hclaim : L.view ClaimAccount k = some claim) (hsigner : claim.signerKey ∉ signers)
    (hholder : ∀ holder : FidAccount, L.view FidAccount claim.fid = some holder →
      ¬ Speaks signers holder) : L'.view ClaimAccount k = some claim := by
  cases i with
  | createFid owner fid isIssuer country =>
      obtain ⟨-, -, -, -, hwritten⟩ := createFid_ok hL.owned h
      rw [hwritten.claims, hclaim]
  | setManagementKey owner fid newKey =>
      obtain ⟨_, -, hwritten⟩ := setManagementKey_ok h
      rw [hwritten.claims, hclaim]
  | setSignerKey authority fid newKey =>
      obtain ⟨_, -, hwritten⟩ := setSignerKey_ok h
      rw [hwritten.claims, hclaim]
  | updateFidProfile authority fid isIssuer country =>
      obtain ⟨_, -, -, hwritten⟩ := updateFidProfile_ok h
      rw [hwritten.claims, hclaim]
  | addClaim accts topic issuerFid expiresAt =>
      obtain ⟨_, hnone, -, hclaims⟩ := addClaim_new h
      rw [hclaims, Function.update_of_ne (view_ne hclaim hnone), hclaim]
  | revokeClaim issuerOwner key claimTopicIndex =>
      obtain ⟨record, hrecord, hsigned, hclaims⟩ := revokeClaim_signed h
      have hk : k ≠ key := by
        rintro rfl
        obtain rfl := account_inj.1 ((view_eq_some.1 hclaim).symm.trans hrecord)
        exact hsigner hsigned
      rw [hclaims, Function.update_of_ne hk, hclaim]
  | removeClaim authority fid key claimTopicIndex =>
      obtain ⟨record, holder, hrecord, hfid, hsaid, hclaims⟩ := removeClaim_signed h
      have hk : k ≠ key := by
        rintro rfl
        obtain rfl := account_inj.1 ((view_eq_some.1 hclaim).symm.trans hrecord)
        exact hholder holder (view_eq_some.2 hfid) hsaid
      rw [hclaims, Function.update_of_ne hk, hclaim]

/-- A claim that was not there before in the same state has the signature of its signer. -/
theorem process_claims_signed {i : Instruction} {claim : ClaimAccount}
    (h : process L signers i = .ok L') (hL : Filed L)
    (hclaim : L'.view ClaimAccount k = some claim) :
    L.view ClaimAccount k = some claim ∨ claim.signerKey ∈ signers := by
  cases i with
  | createFid owner fid isIssuer country =>
      obtain ⟨-, -, -, -, hwritten⟩ := createFid_ok hL.owned h
      left
      rw [← hwritten.claims, hclaim]
  | setManagementKey owner fid newKey =>
      obtain ⟨_, -, hwritten⟩ := setManagementKey_ok h
      left
      rw [← hwritten.claims, hclaim]
  | setSignerKey authority fid newKey =>
      obtain ⟨_, -, hwritten⟩ := setSignerKey_ok h
      left
      rw [← hwritten.claims, hclaim]
  | updateFidProfile authority fid isIssuer country =>
      obtain ⟨_, -, -, hwritten⟩ := updateFidProfile_ok h
      left
      rw [← hwritten.claims, hclaim]
  | addClaim accts topic issuerFid expiresAt =>
      obtain ⟨new, -, hsigned, hclaims⟩ := addClaim_new h
      rw [hclaims] at hclaim
      by_cases hk : k = accts.claim
      · right
        rw [hk, Function.update_self] at hclaim
        rw [← Option.some.inj hclaim]
        exact hsigned
      · left
        rwa [Function.update_of_ne hk] at hclaim
  | revokeClaim issuerOwner key claimTopicIndex =>
      obtain ⟨record, -, hsigned, hclaims⟩ := revokeClaim_signed h
      rw [hclaims] at hclaim
      by_cases hk : k = key
      · right
        rw [hk, Function.update_self] at hclaim
        rw [← Option.some.inj hclaim]
        exact hsigned
      · left
        rwa [Function.update_of_ne hk] at hclaim
  | removeClaim authority fid key claimTopicIndex =>
      obtain ⟨_, _, -, -, -, hclaims⟩ := removeClaim_signed h
      rw [hclaims] at hclaim
      left
      by_cases hk : k = key
      · rw [hk, Function.update_self] at hclaim
        cases hclaim
      · rwa [Function.update_of_ne hk] at hclaim

end Fid

/-! ## Registries of issuers -/

namespace Tir

variable {L L' : Ledger} {signers : List Pubkey} {k tir : Pubkey}

theorem loadTirState_signed {owner tirState : Pubkey} {state : TrustedIssuersState}
    (h : loadTirState L signers owner tirState = .ok state) :
    L.accounts tirState = account state ∧ state.owner ∈ signers := by
  simp only [loadTirState, bind_eq_ok, requireSigner_eq_ok, load_eq_ok, requireSeeds_eq_ok,
    require_eq_ok, exists_const, Except.ok.injEq] at h
  obtain ⟨hsigner, state', hstate, -, howner, rfl⟩ := h
  refine ⟨hstate, ?_⟩
  rw [howner]
  exact hsigner

/-- The registry and its entries are as before. -/
structure Kept (L L' : Ledger) (tir : Pubkey) : Prop where
  state : L'.view TrustedIssuersState tir = L.view TrustedIssuersState tir
  entries : ∀ k (entry : IssuerEntry), entry.tir = tir →
    (L'.view IssuerEntry k = some entry ↔ L.view IssuerEntry k = some entry)

section Silent

variable {state : TrustedIssuersState} (hstate : L.view TrustedIssuersState tir = some state)
  (hsilent : state.owner ∉ signers)

include hstate hsilent

/-- The registry of an instruction of its owner is another one. -/
theorem ne_of_loadTirState {owner tirState : Pubkey} {s : TrustedIssuersState}
    (h : loadTirState L signers owner tirState = .ok s) : tir ≠ tirState := by
  obtain ⟨hs, hsigned⟩ := loadTirState_signed h
  rintro rfl
  obtain rfl := account_inj.1 ((view_eq_some.1 hstate).symm.trans hs)
  exact hsilent hsigned

omit hstate hsilent in
/-- An entry that is written belongs to another registry before and after. -/
theorem entries_update {key : Pubkey} {o : Option IssuerEntry}
    (hview : L'.view IssuerEntry = Function.update (L.view IssuerEntry) key o)
    (hnew : ∀ e, o = some e → e.tir ≠ tir)
    (hold : ∀ e, L.view IssuerEntry key = some e → e.tir ≠ tir) (k : Pubkey)
    (entry : IssuerEntry) (htir : entry.tir = tir) :
    L'.view IssuerEntry k = some entry ↔ L.view IssuerEntry k = some entry := by
  rw [hview]
  by_cases hk : k = key
  · rw [hk, Function.update_self]
    constructor
    · intro ho
      exact absurd htir (hnew entry ho)
    · intro he
      exact absurd htir (hold entry he)
  · rw [Function.update_of_ne hk]

theorem mutateIssuerEntry_kept {owner tirState issuerEntry : Pubkey}
    {f : IssuerEntry → Result IssuerEntry} (hf : ∀ e e', f e = .ok e' → e'.tir = e.tir)
    (h : mutateIssuerEntry L signers owner tirState issuerEntry f = .ok L') : Kept L L' tir := by
  simp only [mutateIssuerEntry, bind_eq_ok, modify_eq_ok, requireSeeds_eq_ok, require_eq_ok,
    exists_const] at h
  obtain ⟨_, hload, entry, entry', hentry, ⟨-, htir, hwritten⟩, rfl⟩ := h
  have hne : entry.tir ≠ tir := by
    rw [htir]
    exact (ne_of_loadTirState hstate hsilent hload).symm
  constructor
  · rw [view_overwrite hentry (by decide)]
  · apply entries_update (view_put entry')
    · intro e he
      obtain rfl := Option.some.inj he
      rw [hf entry entry' hwritten]
      exact hne
    · intro e he
      obtain rfl := account_inj.1 ((view_eq_some.1 he).symm.trans hentry)
      exact hne

/-- Registries and entries are written with the signature of the owner of the registry. -/
theorem process_kept {i : Instruction} (h : process L signers i = .ok L') : Kept L L' tir := by
  cases i with
  | initializeTir owner tirState tokenMint =>
      obtain ⟨_, -, hinit⟩ := bind_eq_ok.1 h
      obtain ⟨-, hnone, hstates⟩ := view_initRecord hinit
      have hframe : Frame [.trustedIssuersState] L L' := .initRecord hinit (by decide)
      constructor
      · rw [hstates, Function.update_of_ne (view_ne hstate hnone)]
      · intro k entry _
        rw [hframe.view_eq (by decide)]
  | addTrustedIssuer owner tirState issuerEntry issuerFid topics label =>
      obtain ⟨s, hload, -⟩ := bind_eq_ok.1 h
      obtain ⟨_, -, -, -, hnone, hstates, hview, -⟩ := addTrustedIssuer_ok h
      have hne : tir ≠ tirState := ne_of_loadTirState hstate hsilent hload
      constructor
      · rw [hstates, Function.update_of_ne hne]
      · apply entries_update hview
        · intro e he
          obtain rfl := Option.some.inj he
          exact hne.symm
        · intro e he
          rw [hnone] at he
          cases he
  | updateIssuerTopics owner tirState issuerEntry newTopics =>
      apply mutateIssuerEntry_kept hstate hsilent _ h
      intro e e' he
      obtain ⟨_, -, he⟩ := bind_eq_ok.1 he
      obtain rfl := Except.ok.inj he
      rfl
  | deactivateIssuer owner tirState issuerEntry =>
      apply mutateIssuerEntry_kept hstate hsilent _ h
      intro e e' he
      obtain rfl := Except.ok.inj he
      rfl
  | reactivateIssuer owner tirState issuerEntry =>
      apply mutateIssuerEntry_kept hstate hsilent _ h
      intro e e' he
      obtain rfl := Except.ok.inj he
      rfl
  | removeTrustedIssuer owner tirState issuerEntry =>
      obtain ⟨s, hload, -⟩ := bind_eq_ok.1 h
      obtain ⟨_, entry, -, hentry, htir, hstates, hview, -⟩ := removeTrustedIssuer_ok h
      have hne : tir ≠ tirState := ne_of_loadTirState hstate hsilent hload
      constructor
      · rw [hstates, Function.update_of_ne hne]
      · apply entries_update hview
        · intro e he
          cases he
        · intro e he
          obtain rfl := account_inj.1 ((view_eq_some.1 he).symm.trans hentry)
          rw [htir]
          exact hne.symm
  | transferOwnership owner tirState newOwner =>
      obtain ⟨s, hload, -⟩ := bind_eq_ok.1 h
      obtain ⟨state', hstate', rfl⟩ := transferOwnership_ok h
      have hne : tir ≠ tirState := ne_of_loadTirState hstate hsilent hload
      constructor
      · rw [view_put_of_ne _ hne]
      · intro k entry _
        rw [view_overwrite hstate' (by decide)]

end Silent

end Tir

/-! ## Registries of topics -/

namespace Ctr

variable {L L' : Ledger} {signers : List Pubkey} {ctr : Pubkey} {state : ClaimTopicsState}

theorem mutateCtr_kept {owner ctrState : Pubkey} {f : ClaimTopicsState → Result ClaimTopicsState}
    (h : mutateCtr L signers owner ctrState f = .ok L')
    (hstate : L.view ClaimTopicsState ctr = some state) (hsilent : state.owner ∉ signers) :
    L'.view ClaimTopicsState ctr = some state := by
  simp only [mutateCtr, bind_eq_ok, requireSigner_eq_ok, modify_eq_ok, requireSeeds_eq_ok,
    require_eq_ok, exists_const] at h
  obtain ⟨hsigner, old, new, hold, ⟨-, howner, -⟩, rfl⟩ := h
  have hne : ctr ≠ ctrState := by
    rintro rfl
    obtain rfl := account_inj.1 ((view_eq_some.1 hstate).symm.trans hold)
    rw [howner] at hsilent
    exact hsilent hsigner
  rw [view_put_of_ne _ hne, hstate]

/-- The topics are written with the signature of their owner. -/
theorem process_kept {i : Instruction} (h : process L signers i = .ok L')
    (hstate : L.view ClaimTopicsState ctr = some state) (hsilent : state.owner ∉ signers) :
    L'.view ClaimTopicsState ctr = some state := by
  cases i with
  | initializeCtr owner ctrState tokenMint =>
      obtain ⟨_, -, hinit⟩ := bind_eq_ok.1 h
      obtain ⟨-, hnone, hstates⟩ := view_initRecord hinit
      rw [hstates, Function.update_of_ne (view_ne hstate hnone), hstate]
  | addClaimTopic owner ctrState topicId => exact mutateCtr_kept h hstate hsilent
  | removeClaimTopic owner ctrState topicId => exact mutateCtr_kept h hstate hsilent
  | transferOwnership owner ctrState newOwner => exact mutateCtr_kept h hstate hsilent

end Ctr

/-! ## Identity registries -/

namespace Irp

variable {L L' : Ledger} {signers : List Pubkey} {irp : Pubkey} {registry : IdentityRegistryState}

theorem updateRegistryOwner_kept {owner registryState : Pubkey}
    {f : IdentityRegistryState → Result IdentityRegistryState}
    (h : updateRegistryOwner L signers owner registryState f = .ok L')
    (hregistry : L.view IdentityRegistryState irp = some registry)
    (hsilent : registry.owner ∉ signers) :
    L'.view IdentityRegistryState irp = some registry := by
  simp only [updateRegistryOwner, bind_eq_ok, requireSigner_eq_ok, modify_eq_ok,
    requireSeeds_eq_ok, require_eq_ok, exists_const] at h
  obtain ⟨hsigner, old, new, hold, ⟨-, howner, -⟩, rfl⟩ := h
  have hne : irp ≠ registryState := by
    rintro rfl
    obtain rfl := account_inj.1 ((view_eq_some.1 hregistry).symm.trans hold)
    rw [howner] at hsilent
    exact hsilent hsigner
  rw [view_put_of_ne _ hne, hregistry]

/-- A registry is written with the signature of its owner. -/
theorem process_kept {i : Instruction} (h : process L signers i = .ok L')
    (hregistry : L.view IdentityRegistryState irp = some registry)
    (hsilent : registry.owner ∉ signers) :
    L'.view IdentityRegistryState irp = some registry := by
  cases i with
  | initializeRegistry owner registryState tokenMint irs tir ctr =>
      obtain ⟨_, -, hinit⟩ := bind_eq_ok.1 h
      obtain ⟨-, hnone, hstates⟩ := view_initRecord hinit
      rw [hstates, Function.update_of_ne (view_ne hregistry hnone), hregistry]
  | _ => exact updateRegistryOwner_kept h hregistry hsilent

end Irp

/-! ## The identity storage -/

namespace Irs

/-- A storage with the registries it is bound to. -/
structure Office where
  irs : Pubkey
  storage : IdentityRegistryStorageState
  registries : Pubkey → IdentityRegistryState

/-- The keys that act for the storage: its owner, and the owners and the agents of its
registries. -/
inductive Office.Acts (office : Office) : Pubkey → Prop
  | owner : Acts office office.storage.owner
  | registryOwner {irp : Pubkey} : irp ∈ office.storage.boundRegistries →
      Acts office (office.registries irp).owner
  | agent {irp agent : Pubkey} : irp ∈ office.storage.boundRegistries →
      agent ∈ (office.registries irp).identityAgents → Acts office agent

/-- The storage is as given but for the number of its identities, and its registries are as
given; so each address it is bound to holds a registry. -/
structure Office.In (office : Office) (L : Ledger) : Prop where
  storage : ∃ n, L.view IdentityRegistryStorageState office.irs =
    some { office.storage with registeredCount := n }
  registries : ∀ irp ∈ office.storage.boundRegistries,
    L.view IdentityRegistryState irp = some (office.registries irp)

/-- The storage and its registries are as given, no identity is registered or written, and an
identity is removed by its wallet only. -/
structure Office.Undisturbed (office : Office) (signers : List Pubkey) (L L' : Ledger) : Prop where
  stands : office.In L'
  written : ∀ k (identity : WalletIdentity), identity.irs = office.irs →
    L'.view WalletIdentity k = some identity → L.view WalletIdentity k = some identity
  kept : ∀ k (identity : WalletIdentity), identity.irs = office.irs → identity.wallet ∉ signers →
    L.view WalletIdentity k = some identity → L'.view WalletIdentity k = some identity

variable {L L' L'' : Ledger} {signers : List Pubkey} {office : Office}

theorem Office.Undisturbed.trans (h : office.Undisturbed signers L L')
    (h' : office.Undisturbed signers L' L'') : office.Undisturbed signers L L'' := by
  constructor
  · exact h'.stands
  · intro k identity hirs hview
    exact h.written k identity hirs (h'.written k identity hirs hview)
  · intro k identity hirs hwallet hview
    exact h'.kept k identity hirs hwallet (h.kept k identity hirs hwallet hview)

/-- The identities are as before. -/
theorem Office.In.undisturbed (h : office.In L')
    (hidentities : L'.view WalletIdentity = L.view WalletIdentity) :
    office.Undisturbed signers L L' := by
  constructor
  · exact h
  · intro k identity _ hview
    rwa [hidentities] at hview
  · intro k identity _ _ hview
    rwa [hidentities]

theorem Office.In.of_frame {S : List AccountKind} (h : office.In L) (hframe : Frame S L L')
    (hstorage : AccountKind.identityRegistryStorageState ∉ S)
    (hregistry : AccountKind.identityRegistryState ∉ S) : office.In L' := by
  obtain ⟨n, hn⟩ := h.storage
  constructor
  · refine ⟨n, ?_⟩
    rw [hframe.view_eq hstorage, hn]
  · intro irp hirp
    rw [hframe.view_eq hregistry, h.registries irp hirp]

/-- Another number of identities in a storage. -/
theorem Office.In.recounted {irsState : Pubkey} {state : IdentityRegistryStorageState} {n : ℕ}
    (h : office.In L) (hstate : L.accounts irsState = account state)
    (hview : L'.view IdentityRegistryStorageState = Function.update
      (L.view IdentityRegistryStorageState) irsState (some { state with registeredCount := n }))
    (hregistries : L'.view IdentityRegistryState = L.view IdentityRegistryState) :
    office.In L' := by
  obtain ⟨m, hm⟩ := h.storage
  constructor
  · rw [hview]
    by_cases hirs : office.irs = irsState
    · refine ⟨n, ?_⟩
      rw [hirs, view_eq_some.2 hstate] at hm
      rw [hirs, Function.update_self, Option.some.inj hm]
    · refine ⟨m, ?_⟩
      rw [Function.update_of_ne hirs, hm]
  · rw [hregistries]
    exact h.registries

/-- Who acts on a storage is one of its actors. -/
theorem Office.In.acts [Borsh] {authority irsKey registryState : Pubkey}
    {state : IdentityRegistryStorageState} {u : Unit} (hoffice : office.In L)
    (h : authorizeIdentityActor L authority irsKey registryState state = .ok u)
    (hstate : L.accounts irsKey = account state) (hirs : irsKey = office.irs) :
    office.Acts authority := by
  obtain ⟨n, hn⟩ := hoffice.storage
  rw [← hirs, view_eq_some.2 hstate] at hn
  obtain rfl := Option.some.inj hn
  unfold authorizeIdentityActor at h
  split at h
  case isTrue howner =>
    rw [howner]
    exact .owner
  case isFalse =>
    simp only [bind_eq_ok, require_eq_ok, okOr_eq_ok, exists_const] at h
    obtain ⟨hbound, registry, hdecoded, -, hagent⟩ := h
    have hregistry := hoffice.registries registryState hbound
    rw [view_eq_some.1 hregistry, account_data, Borsh.decodeView_encode] at hdecoded
    obtain rfl := Option.some.inj hdecoded
    exact .agent hbound hagent

/-- An identity of another storage is written. -/
theorem IdentityWritten.undisturbed {key : Pubkey} {old new : WalletIdentity}
    (h : IdentityWritten L L' key new)
    (hregistries : L'.view IdentityRegistryState = L.view IdentityRegistryState)
    (hoffice : office.In L) (hold : L.accounts key = account old) (hirs : new.irs = old.irs)
    (hother : old.irs ≠ office.irs) : office.Undisturbed signers L L' := by
  obtain ⟨n, hn⟩ := hoffice.storage
  constructor
  · constructor
    · refine ⟨n, ?_⟩
      rw [h.storages, hn]
    · rw [hregistries]
      exact hoffice.registries
  · intro k identity hidentity hview
    rw [h.identities] at hview
    by_cases hk : k = key
    · rw [hk, Function.update_self] at hview
      rw [← Option.some.inj hview, hirs] at hidentity
      exact absurd hidentity hother
    · rwa [Function.update_of_ne hk] at hview
  · intro k identity hidentity _ hview
    have hk : k ≠ key := by
      rintro rfl
      obtain rfl := account_inj.1 ((view_eq_some.1 hview).symm.trans hold)
      exact hother hidentity
    rw [h.identities, Function.update_of_ne hk, hview]

/-- An identity of another storage is removed, or one whose wallet signs. -/
theorem IdentityRemoved.undisturbed {irsState key : Pubkey} {old : WalletIdentity}
    (h : IdentityRemoved L L' irsState key)
    (hregistries : L'.view IdentityRegistryState = L.view IdentityRegistryState)
    (hoffice : office.In L) (hold : L.accounts key = account old)
    (hother : old.irs ≠ office.irs ∨ old.wallet ∈ signers) : office.Undisturbed signers L L' := by
  obtain ⟨state, _, hstate, -, -, hstorages⟩ := h.removed
  constructor
  · exact hoffice.recounted hstate hstorages hregistries
  · intro k identity _ hview
    rw [h.identities] at hview
    by_cases hk : k = key
    · rw [hk, Function.update_self] at hview
      cases hview
    · rwa [Function.update_of_ne hk] at hview
  · intro k identity hidentity hwallet hview
    have hk : k ≠ key := by
      rintro rfl
      obtain rfl := account_inj.1 ((view_eq_some.1 hview).symm.trans hold)
      cases hother with
      | inl hirs => exact hirs hidentity
      | inr hsigned => exact hwallet hsigned
    rw [h.identities, Function.update_of_ne hk, hview]

theorem updateIrsOwnerState_undisturbed {owner irsState : Pubkey}
    {f : IdentityRegistryStorageState → Result IdentityRegistryStorageState}
    (h : updateIrsOwnerState L signers owner irsState f = .ok L') (hoffice : office.In L)
    (hsilent : ∀ a ∈ signers, ¬ office.Acts a) : office.Undisturbed signers L L' := by
  simp only [updateIrsOwnerState, bind_eq_ok, requireSigner_eq_ok, modify_eq_ok,
    requireSeeds_eq_ok, require_eq_ok, exists_const] at h
  obtain ⟨hsigner, old, new, hold, ⟨-, howner, -⟩, rfl⟩ := h
  obtain ⟨n, hn⟩ := hoffice.storage
  have hne : office.irs ≠ irsState := by
    rintro rfl
    obtain rfl := account_inj.1 ((view_eq_some.1 hn).symm.trans hold)
    rw [← howner] at hsigner
    exact hsilent _ hsigner .owner
  have hkept : office.In (L.put irsState new) := by
    constructor
    · refine ⟨n, ?_⟩
      rw [view_put_of_ne _ hne, hn]
    · rw [view_overwrite hold (by decide)]
      exact hoffice.registries
  exact hkept.undisturbed (view_overwrite hold (by decide))

section Actors

variable [Borsh] {accts : IdentityAccounts}

/-- The identities that an actor writes are those of another storage. -/
theorem IdentityAccounts.other_of_silent {r : IdentityRegistryStorageState × WalletIdentity}
    {u : Unit} (hcheck : accts.check L signers = .ok r)
    (hactor : authorizeIdentityActor L accts.authority accts.irsState accts.registryState r.1 =
      .ok u)
    (hoffice : office.In L) (hsilent : ∀ a ∈ signers, ¬ office.Acts a) :
    L.accounts accts.walletIdentity = account r.2 ∧ r.2.irs ≠ office.irs := by
  obtain ⟨hstate, hidentity, hirs⟩ := IdentityAccounts.check_eq_ok hcheck
  have hsigner : accts.authority ∈ signers := by
    simp only [IdentityAccounts.check, bind_eq_ok, requireSigner_eq_ok, exists_const] at hcheck
    exact hcheck.1
  refine ⟨hidentity, ?_⟩
  rw [hirs]
  intro hoffices
  exact hsilent _ hsigner (hoffice.acts hactor hstate hoffices)

/-- Without a signature of its actors an instruction leaves a storage undisturbed. -/
theorem process_undisturbed {i : Instruction} (h : process L signers i = .ok L')
    (hL : Enrolled L) (hoffice : office.In L) (hsilent : ∀ a ∈ signers, ¬ office.Acts a) :
    office.Undisturbed signers L L' := by
  have hwallets : Everywhere (fun _ identity ↦ identity.wallet ≠ .default)
      (L.view WalletIdentity) := by
    intro k identity hview
    exact (hL.identities k identity hview).2
  have hregistries : L'.view IdentityRegistryState = L.view IdentityRegistryState :=
    (Irs.frame h).table_eq (by decide)
  have happlication : ∀ {L'}, Frame [.onboardingApplication] L L' →
      office.Undisturbed signers L L' := by
    intro L' hframe
    apply (hoffice.of_frame hframe (by decide) (by decide)).undisturbed
    exact hframe.table_eq (by decide)
  cases i with
  | initializeIrs owner irsState authoritySeed =>
      simp only [process, initializeIrs, bind_eq_ok] at h
      obtain ⟨_, -, hinit⟩ := h
      obtain ⟨-, hnone, hstorages⟩ := view_initRecord hinit
      have hframe : Frame [.identityRegistryStorageState] L L' := .initRecord hinit (by decide)
      obtain ⟨n, hn⟩ := hoffice.storage
      have hkept : office.In L' := by
        constructor
        · refine ⟨n, ?_⟩
          rw [hstorages, Function.update_of_ne (view_ne hn hnone), hn]
        · rw [hregistries]
          exact hoffice.registries
      exact hkept.undisturbed (hframe.table_eq (by decide))
  | bindRegistry owner irsState irp => exact updateIrsOwnerState_undisturbed h hoffice hsilent
  | unbindRegistry owner irsState irp => exact updateIrsOwnerState_undisturbed h hoffice hsilent
  | transferOwnership owner irsState newOwner =>
      exact updateIrsOwnerState_undisturbed h hoffice hsilent
  | registerIdentity accts fidAccount wallet fid country =>
      obtain ⟨state, _, new, hstate, -, -, -, -, -, -, hnone, ⟨-, -, -, hnewIrs⟩, hstorages,
        hidentities⟩ := registerIdentity_ok hwallets h
      simp only [process, registerIdentity, bind_eq_ok, requireSigner_eq_ok, exists_const] at h
      obtain ⟨hsigner, state', hload, _, -, _, -, ⟨L₁, old⟩, hinit, _, -, _, hactor, -⟩ := h
      obtain ⟨hstate', -⟩ := loadIrsState_ok hload
      have hkept : L₁.accounts accts.irsState = account state' := by
        rw [← view_eq_some, (view_initIfNeeded hinit).2.2, view_eq_some, hstate']
      have hoffice₁ : office.In L₁ := by
        obtain ⟨n, hn⟩ := hoffice.storage
        constructor
        · refine ⟨n, ?_⟩
          rw [(view_initIfNeeded hinit).2.2, hn]
        · rw [(view_initIfNeeded hinit).2.2]
          exact hoffice.registries
      have hother : new.irs ≠ office.irs := by
        rw [hnewIrs]
        intro hirs
        exact hsilent _ hsigner (hoffice₁.acts hactor hkept hirs)
      constructor
      · exact hoffice.recounted hstate hstorages hregistries
      · intro k identity hirs hview
        rw [hidentities] at hview
        by_cases hk : k = accts.walletIdentity
        · rw [hk, Function.update_self] at hview
          rw [← Option.some.inj hview] at hirs
          exact absurd hirs hother
        · rwa [Function.update_of_ne hk] at hview
      · intro k identity _ _ hview
        rw [hidentities, Function.update_of_ne (view_ne hview hnone), hview]
  | submitOnboardingApplication applicant irsState application wallet =>
      exact happlication (Irs.frame_submitOnboardingApplication h)
  | reviewOnboardingApplication authority irsState registryState application approved =>
      exact happlication (Irs.frame_reviewOnboardingApplication h)
  | cancelOnboardingApplication authority irsState application =>
      exact happlication (Irs.frame_cancelOnboardingApplication h)
  | setIdentityActivation owner irsState walletIdentity active =>
      obtain ⟨old, hold, hwritten⟩ := setIdentityActivation_ok h
      apply hwritten.undisturbed hregistries hoffice hold rfl
      simp only [process, setIdentityActivation, bind_eq_ok, requireSigner_eq_ok, load_eq_ok,
        requireSeeds_eq_ok, require_eq_ok, exists_const] at h
      obtain ⟨hsigner, state, hload, howner, old', hold', -, holdIrs, -⟩ := h
      obtain rfl := account_inj.1 (hold.symm.trans hold')
      obtain ⟨hstate, -⟩ := loadIrsState_ok hload
      rw [holdIrs]
      rintro rfl
      obtain ⟨n, hn⟩ := hoffice.storage
      rw [view_eq_some.2 hstate] at hn
      obtain rfl := Option.some.inj hn
      rw [← howner] at hsigner
      exact hsilent _ hsigner .owner
  | updateIdentity accts newFid =>
      obtain ⟨old, hold, hwritten⟩ := updateIdentity_ok h
      apply hwritten.undisturbed hregistries hoffice hold rfl
      simp only [process, updateIdentity, bind_eq_ok] at h
      obtain ⟨r, hcheck, _, hactor, -⟩ := h
      obtain ⟨hold', hother⟩ := IdentityAccounts.other_of_silent hcheck hactor hoffice hsilent
      obtain rfl := account_inj.1 (hold.symm.trans hold')
      exact hother
  | updateCountry accts newCountry =>
      obtain ⟨old, hold, hwritten⟩ := updateCountry_ok h
      apply hwritten.undisturbed hregistries hoffice hold rfl
      simp only [process, updateCountry, bind_eq_ok] at h
      obtain ⟨r, hcheck, _, -, _, hactor, -⟩ := h
      obtain ⟨hold', hother⟩ := IdentityAccounts.other_of_silent hcheck hactor hoffice hsilent
      obtain rfl := account_inj.1 (hold.symm.trans hold')
      exact hother
  | removeIdentity accts =>
      have hremoved := removeIdentity_ok h
      simp only [process, removeIdentity, bind_eq_ok] at h
      obtain ⟨r, hcheck, _, hactor, -⟩ := h
      obtain ⟨hold, hother⟩ := IdentityAccounts.other_of_silent hcheck hactor hoffice hsilent
      exact hremoved.undisturbed hregistries hoffice hold (.inl hother)
  | removeOwnIdentity owner irsState walletIdentity =>
      have hremoved := removeOwnIdentity_ok h
      simp only [process, removeOwnIdentity, bind_eq_ok, requireSigner_eq_ok, load_eq_ok,
        requireSeeds_eq_ok, require_eq_ok, exists_const] at h
      obtain ⟨hsigner, _, -, old, hold, -, -, hown, -⟩ := h
      apply hremoved.undisturbed hregistries hoffice hold
      right
      rw [hown]
      exact hsigner

/-- A recovery is finalized with the signature of an actor of the storage. -/
theorem finalizeCalls_undisturbed {operator : Token.OperatorAccounts}
    {accts : Token.FinalizeAccounts} {lost : WalletIdentity} {L₁ L₂ : Ledger}
    (h : Token.FinalizeCalls L L' signers operator accts lost L₁ L₂) (hL : Enrolled L)
    (hoffice : office.In L) (hsilent : ∀ a ∈ signers, ¬ office.Acts a) :
    office.Undisturbed signers L L' := by
  obtain ⟨hL₁, -⟩ := process_moves (i := .updateIdentity _ _) h.identity hL
  obtain ⟨hL₂, -⟩ := process_moves (i := .updateCountry _ _) h.country hL₁
  have hfirst := process_undisturbed (i := .updateIdentity _ _) h.identity hL hoffice hsilent
  have hsecond := process_undisturbed (i := .updateCountry _ _) h.country hL₁ hfirst.stands hsilent
  have hthird := process_undisturbed (i := .removeIdentity _) h.removed hL₂ hsecond.stands hsilent
  exact (hfirst.trans hsecond).trans hthird

end Actors

end Irs

end Fracks
