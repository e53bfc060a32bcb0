import Fracks.Platform
import Fracks.Deployment
import Fracks.Lib.Register

/-!
# The index of claims

The FIDs, claims and indexes of a ledger are a register: a FID numbers the
claims about it, and a claim is filed under its issuer and topic and live until
it is revoked or removed.  Every instruction of the program is a move of the
register or leaves it alone, so that in every state that a history reaches the
index of a target, issuer and topic is active exactly when a claim that is not
revoked exists, and names that claim.
-/

namespace Fracks.Fid

open Checked AccountType Ledger Runs

theorem claimAddress_inj {fid fid' : Pubkey} {n n' : ℕ} :
    claimAddress fid n = claimAddress fid' n' ↔ fid = fid' ∧ n = n' := by
  simp [claimAddress, Pubkey.findProgramAddress, Pubkey.addSeed]

theorem claimTopicIndexAddress_inj {fid fid' issuer issuer' : Pubkey} {topic topic' : ℕ} :
    claimTopicIndexAddress fid issuer topic = claimTopicIndexAddress fid' issuer' topic' ↔
      fid = fid' ∧ issuer = issuer' ∧ topic = topic' := by
  simp [claimTopicIndexAddress, Pubkey.findProgramAddress, Pubkey.addSeed, and_assoc]

/-! ## The register of a ledger -/

def register (L : Ledger) : Register Pubkey (Pubkey × ℕ) where
  next fid := (L.view FidAccount fid).map FidAccount.claimCount
  entry e := (L.view ClaimAccount (claimAddress e.1 e.2)).map fun claim ↦
    ((claim.issuerFid, claim.topic), !claim.revoked)
  active e := (L.view ClaimTopicIndex (claimTopicIndexAddress e.1 e.2.1 e.2.2)).bind fun index ↦
    if index.isActive then some index.activeClaimId else none

variable {L L' : Ledger} {signers : List Pubkey}

theorem register_next {fid : Pubkey} {record : FidAccount}
    (h : L'.view FidAccount = Function.update (L.view FidAccount) fid (some record)) :
    (register L').next = Function.update (register L).next fid (some record.claimCount) := by
  funext x
  simp only [register, h]
  by_cases hx : x = fid
  · simp [hx]
  · simp [hx]

theorem register_entry {fid : Pubkey} {n : ℕ} {o : Option ClaimAccount}
    (h : L'.view ClaimAccount = Function.update (L.view ClaimAccount) (claimAddress fid n) o) :
    (register L').entry = Function.update (register L).entry (fid, n)
      (o.map fun claim ↦ ((claim.issuerFid, claim.topic), !claim.revoked)) := by
  funext ⟨x, m⟩
  simp only [register, h]
  by_cases hx : (x, m) = (fid, n)
  · obtain ⟨rfl, rfl⟩ := Prod.mk.inj hx
    simp
  · have hne : claimAddress x m ≠ claimAddress fid n := by
      rw [Ne, claimAddress_inj]
      exact fun heq ↦ hx (Prod.ext heq.1 heq.2)
    simp [Function.update_of_ne hx, Function.update_of_ne hne]

theorem register_active {fid issuer : Pubkey} {topic : ℕ} {index : ClaimTopicIndex}
    (h : L'.view ClaimTopicIndex = Function.update (L.view ClaimTopicIndex)
      (claimTopicIndexAddress fid issuer topic) (some index)) :
    (register L').active = Function.update (register L).active (fid, (issuer, topic))
      (if index.isActive then some index.activeClaimId else none) := by
  funext ⟨x, i, t⟩
  simp only [register, h]
  by_cases hx : (x, (i, t)) = (fid, (issuer, topic))
  · obtain ⟨rfl, rfl, rfl⟩ : x = fid ∧ i = issuer ∧ t = topic := by simpa using hx
    simp
  · have hne : claimTopicIndexAddress x i t ≠ claimTopicIndexAddress fid issuer topic := by
      rw [Ne, claimTopicIndexAddress_inj]
      rintro ⟨rfl, rfl, rfl⟩
      exact hx rfl
    simp [Function.update_of_ne hx, Function.update_of_ne hne]

/-- The program files its records at their own addresses. -/
structure Filed (L : Ledger) : Prop where
  owned : Everywhere (fun _ fid ↦ fid.owner ≠ .default) (L.view FidAccount)
  claims : Everywhere (fun k claim ↦ k = claimAddress claim.fid claim.claimId)
    (L.view ClaimAccount)
  indexes : Everywhere (fun k index ↦
      k = claimTopicIndexAddress index.targetFid index.issuerFid index.topic ∧
        (index.isActive = true →
          index.activeClaim = claimAddress index.targetFid index.activeClaimId))
    (L.view ClaimTopicIndex)

/-! ## The instructions on the tables -/

/-- A FID is created or its profile is changed; the claims and indexes stay. -/
structure FidWritten (L L' : Ledger) (fid : Pubkey) (record : FidAccount) : Prop where
  fids : L'.view FidAccount = Function.update (L.view FidAccount) fid (some record)
  claims : L'.view ClaimAccount = L.view ClaimAccount
  indexes : L'.view ClaimTopicIndex = L.view ClaimTopicIndex

theorem FidWritten.overwrite {fid : Pubkey} {old record : FidAccount}
    (h : L.accounts fid = account old) : FidWritten L (L.put fid record) fid record :=
  ⟨view_put record, view_overwrite h (by decide), view_overwrite h (by decide)⟩

theorem createFid_ok {owner fid : Pubkey} {isIssuer : Bool} {country : ℕ}
    (hL : Everywhere (fun _ fid ↦ fid.owner ≠ .default) (L.view FidAccount))
    (h : createFid L signers owner fid isIssuer country = .ok L') :
    owner ∈ signers ∧ fid = fidAddress owner ∧ L.view FidAccount fid = none ∧
      validateCountry isIssuer country = .ok () ∧
        FidWritten L L' fid
          { owner, managementKey := owner, signerKey := owner, claimCount := 0, isIssuer,
            country := if isIssuer then 0 else country } := by
  simp only [createFid, bind_eq_ok, requireSigner_eq_ok, require_eq_ok, exists_const,
    Except.ok.injEq] at h
  obtain ⟨hsigner, ⟨L₁, old⟩, hinit, hunowned, ⟨⟩, hcountry, rfl⟩ := h
  obtain ⟨hfid, hold, -⟩ := view_initIfNeeded (β := FidAccount) hinit
  have hnone : old = none := by
    cases old with
    | none => rfl
    | some a => exact absurd hunowned (hL fid a hold)
  subst hnone
  refine ⟨hsigner, hfid, hold, hcountry, ?_, ?_, ?_⟩
  · rw [view_put, (view_initIfNeeded hinit).2.2]
  · rw [view_put_other (view_initIfNeeded_other hinit (by decide)) (by decide),
      (view_initIfNeeded hinit).2.2]
  · rw [view_put_other (view_initIfNeeded_other hinit (by decide)) (by decide),
      (view_initIfNeeded hinit).2.2]

theorem setManagementKey_ok {owner fid newKey : Pubkey}
    (h : setManagementKey L signers owner fid newKey = .ok L') :
    ∃ old : FidAccount, L.accounts fid = account old ∧
      FidWritten L L' fid { old with managementKey := newKey } := by
  simp only [setManagementKey, bind_eq_ok, requireSigner_eq_ok, requireSeeds_eq_ok, require_eq_ok,
    exists_const, modify_eq_ok, Except.ok.injEq] at h
  obtain ⟨-, old, _, hold, ⟨-, -, rfl⟩, rfl⟩ := h
  exact ⟨old, hold, .overwrite hold⟩

theorem setSignerKey_ok {authority fid newKey : Pubkey}
    (h : setSignerKey L signers authority fid newKey = .ok L') :
    ∃ old : FidAccount, L.accounts fid = account old ∧
      FidWritten L L' fid { old with signerKey := newKey } := by
  obtain ⟨old, new, hold, hnew, rfl⟩ := updateFid_ok h
  cases hnew
  exact ⟨old, hold, .overwrite hold⟩

theorem updateFidProfile_ok {authority fid : Pubkey} {isIssuer : Bool} {country : ℕ}
    (h : updateFidProfile L signers authority fid isIssuer country = .ok L') :
    ∃ old : FidAccount, L.accounts fid = account old ∧
      validateCountry isIssuer country = .ok () ∧
      FidWritten L L' fid { old with isIssuer, country := if isIssuer then 0 else country } := by
  obtain ⟨old, new, hold, hnew, rfl⟩ := updateFid_ok h
  simp only [bind_eq_ok, Except.ok.injEq] at hnew
  obtain ⟨⟨⟩, hcountry, rfl⟩ := hnew
  exact ⟨old, hold, hcountry, .overwrite hold⟩

theorem addClaim_ok {accts : AddClaimAccounts} {topic : ℕ} {issuerFid : Pubkey} {expiresAt : ℤ}
    (h : addClaim L signers accts topic issuerFid expiresAt = .ok L') :
    ∃ (target : FidAccount) (claim : ClaimAccount) (index : ClaimTopicIndex),
      L.accounts accts.targetFid = account target ∧
      accts.claim = claimAddress accts.targetFid target.claimCount ∧
      accts.claimTopicIndex = claimTopicIndexAddress accts.targetFid issuerFid topic ∧
      (∀ old, L.view ClaimTopicIndex accts.claimTopicIndex = some old → old.isActive = false) ∧
      (claim.fid = accts.targetFid ∧ claim.claimId = target.claimCount ∧
        claim.issuerFid = issuerFid ∧ claim.topic = topic ∧ claim.revoked = false) ∧
      (index.targetFid = accts.targetFid ∧ index.issuerFid = issuerFid ∧ index.topic = topic ∧
        index.activeClaim = accts.claim ∧ index.activeClaimId = target.claimCount ∧
          index.isActive = true) ∧
      L'.view FidAccount = Function.update (L.view FidAccount) accts.targetFid
        (some { target with claimCount := target.claimCount + 1 }) ∧
      L'.view ClaimAccount = Function.update (L.view ClaimAccount) accts.claim (some claim) ∧
      L'.view ClaimTopicIndex =
        Function.update (L.view ClaimTopicIndex) accts.claimTopicIndex (some index) := by
  simp only [addClaim, bind_eq_ok, requireSigner_eq_ok, requireSeeds_eq_ok, require_eq_ok,
    load_eq_ok, okOr_eq_ok, checkedU32_eq_some, exists_const, Except.ok.injEq] at h
  obtain ⟨-, target, htarget, hclaim, L₁, hcreate, ⟨L₂, old⟩, hinit, -, hfree, n, ⟨-, rfl⟩,
    rfl⟩ := h
  obtain ⟨hindex, hold, -⟩ := view_initIfNeeded (β := FidAccount) hinit
  have hview : ∀ {β : Type} [AccountType β], L₂.view β = L.view β := by
    intro β _
    rw [(view_initIfNeeded hinit).2.2, view_createAccount hcreate]
  have htarget' : L.view FidAccount accts.targetFid = some target := view_eq_some.2 htarget
  -- the new claim and the index are in accounts of their own
  have hnew : ∀ {β : Type} [AccountType β], L.view β accts.claim = none :=
    view_none_of_vacant (createAccount_ok hcreate).1
  have hfresh : ∀ {β : Type} [AccountType β], kind β ≠ kind ClaimTopicIndex →
      L.view β accts.claimTopicIndex = none := by
    intro β _ hkind
    rw [← hview]
    exact view_initIfNeeded_other hinit hkind
  have hne : accts.claimTopicIndex ≠ accts.claim := by
    rw [hindex, hclaim]
    simp [claimAddress, claimTopicIndexAddress, Pubkey.findProgramAddress, Pubkey.addSeed]
  have hneClaim : accts.targetFid ≠ accts.claim := view_ne htarget' hnew
  have hneIndex : accts.targetFid ≠ accts.claimTopicIndex := view_ne htarget' (hfresh (by decide))
  refine ⟨target,
    { fid := accts.targetFid, claimId := target.claimCount, topic, issuerFid,
      signerKey := accts.issuerOwner, issuedAt := L₂.now, expiresAt, revoked := false },
    { targetFid := accts.targetFid, issuerFid, topic, activeClaim := accts.claim,
      activeClaimId := target.claimCount, isActive := true },
    htarget, hclaim, hindex, ?_, ⟨rfl, rfl, rfl, rfl, rfl⟩, ⟨rfl, rfl, rfl, rfl, rfl, rfl⟩,
    ?_, ?_, ?_⟩
  · intro a ha
    rw [← view_createAccount hcreate, hold] at ha
    subst ha
    exact hfree
  · rw [view_put, view_put_other _ (by decide), view_put_other _ (by decide), hview]
    · rw [hview, hnew]
    · rw [view_put_of_ne _ hne, hview, hfresh (by decide)]
  · rw [view_put_other _ (by decide), view_put_other _ (by decide), view_put, hview]
    · rw [view_put_of_ne _ hne, hview, hfresh (by decide)]
    · rw [view_put_of_ne _ hneIndex, view_put_of_ne _ hneClaim, hview]
      exact view_none_of_kind htarget' (by decide)
  · rw [view_put_other _ (by decide), view_put, view_put_other _ (by decide), hview]
    · rw [hview, hnew]
    · rw [view_put_of_ne _ hneIndex, view_put_of_ne _ hneClaim, hview]
      exact view_none_of_kind htarget' (by decide)

theorem revokeClaim_ok {issuerOwner claim claimTopicIndex : Pubkey}
    (h : revokeClaim L signers issuerOwner claim claimTopicIndex = .ok L') :
    ∃ record index, loadClaim L claim claimTopicIndex = .ok (record, index) ∧
      L'.view FidAccount = L.view FidAccount ∧
      L'.view ClaimAccount =
        Function.update (L.view ClaimAccount) claim (some { record with revoked := true }) ∧
      L'.view ClaimTopicIndex = Function.update (L.view ClaimTopicIndex) claimTopicIndex
        (some (withoutClaim index claim)) := by
  simp only [revokeClaim, bind_eq_ok, Except.ok.injEq] at h
  obtain ⟨_, -, ⟨record, index⟩, hload, _, -, rfl⟩ := h
  obtain ⟨hrecord, hindex, -⟩ := loadClaim_ok hload
  have hne : claimTopicIndex ≠ claim := ne_of_kind hindex hrecord (by decide)
  have hindex' : (L.put claim { record with revoked := true }).accounts claimTopicIndex =
      account index := by rw [put_accounts_of_ne _ hne, hindex]
  refine ⟨record, index, hload, ?_, ?_, ?_⟩
  · rw [view_overwrite hindex' (by decide), view_overwrite hrecord (by decide)]
  · rw [view_overwrite hindex' (by decide), view_put]
  · rw [view_put, view_overwrite hrecord (by decide)]

theorem removeClaim_ok {authority fid claim claimTopicIndex : Pubkey}
    (h : removeClaim L signers authority fid claim claimTopicIndex = .ok L') :
    ∃ record index, loadClaim L claim claimTopicIndex = .ok (record, index) ∧
      L'.view FidAccount = L.view FidAccount ∧
      L'.view ClaimAccount = Function.update (L.view ClaimAccount) claim none ∧
      L'.view ClaimTopicIndex = Function.update (L.view ClaimTopicIndex) claimTopicIndex
        (some (withoutClaim index claim)) := by
  simp only [removeClaim, bind_eq_ok, Except.ok.injEq] at h
  obtain ⟨_, -, _, -, ⟨record, index⟩, hload, _, -, _, -, rfl⟩ := h
  obtain ⟨hrecord, hindex, -⟩ := loadClaim_ok hload
  have hne : claim ≠ claimTopicIndex := ne_of_kind hrecord hindex (by decide)
  have hrecord' : (L.put claimTopicIndex (withoutClaim index claim)).accounts claim =
      account record := by rw [put_accounts_of_ne _ hne, hrecord]
  refine ⟨record, index, hload, ?_, ?_, ?_⟩
  · rw [view_close_other hrecord' (by decide), view_overwrite hindex (by decide)]
  · rw [view_close, view_overwrite hindex (by decide)]
  · rw [view_close_other hrecord' (by decide), view_put]

/-! ## The instructions on the register -/

/-- The instruction is a move of the register or leaves it alone. -/
def Moves (L L' : Ledger) : Prop :=
  register L' = register L ∨ ∃ move, Register.Step (register L) move (register L')

theorem register_entry_eq (h : L'.view ClaimAccount = L.view ClaimAccount) :
    (register L').entry = (register L).entry := by
  simp only [register, h]

theorem register_active_eq (h : L'.view ClaimTopicIndex = L.view ClaimTopicIndex) :
    (register L').active = (register L).active := by
  simp only [register, h]

theorem register_next_eq (h : L'.view FidAccount = L.view FidAccount) :
    (register L').next = (register L).next := by
  simp only [register, h]

/-- A change that keeps the owner and the claim count of a FID. -/
theorem FidWritten.moves {fid : Pubkey} {old record : FidAccount} (h : FidWritten L L' fid record)
    (hold : L.accounts fid = account old) (howner : record.owner = old.owner)
    (hcount : record.claimCount = old.claimCount) (hL : Filed L) : Filed L' ∧ Moves L L' := by
  have hview : L.view FidAccount fid = some old := view_eq_some.2 hold
  constructor
  · refine ⟨?_, by rw [h.claims]; exact hL.claims, by rw [h.indexes]; exact hL.indexes⟩
    rw [h.fids]
    refine hL.owned.update fun a ha ↦ ?_
    obtain rfl := Option.some.inj ha
    rw [howner]
    exact hL.owned fid old hview
  · left
    apply Register.ext
    · rw [register_next h.fids, hcount, Function.update_eq_self_iff]
      simp [register, hview]
    · exact register_entry_eq h.claims
    · exact register_active_eq h.indexes

/-- The active claims after the claim has been taken out of its index. -/
theorem register_withoutClaim {claim claimTopicIndex : Pubkey} {record : ClaimAccount}
    {index : ClaimTopicIndex} (hL : Filed L)
    (hload : loadClaim L claim claimTopicIndex = .ok (record, index))
    (h : L'.view ClaimTopicIndex = Function.update (L.view ClaimTopicIndex) claimTopicIndex
      (some (withoutClaim index claim))) :
    (register L').active =
      (register L).withdraw record.fid (record.issuerFid, record.topic) record.claimId := by
  obtain ⟨hrecord, hindex, hclaim, hseeds⟩ := loadClaim_ok hload
  have hview : L.view ClaimTopicIndex claimTopicIndex = some index := view_eq_some.2 hindex
  obtain ⟨haddress, hnames⟩ := hL.indexes _ _ hview
  obtain ⟨htarget, -, -⟩ := claimTopicIndexAddress_inj.1 (hseeds.symm.trans haddress)
  dsimp only at hclaim hseeds htarget
  have hactive : (register L).active (record.fid, (record.issuerFid, record.topic)) =
      if index.isActive then some index.activeClaimId else none := by
    simp [register, ← hseeds, hview]
  rw [hseeds] at h
  rw [register_active h, Register.withdraw, hactive]
  cases hisActive : index.isActive with
  | false =>
      have hstill : (withoutClaim index claim).isActive = false := by
        unfold withoutClaim
        split <;> simp [hisActive]
      simp [hstill, Function.update_eq_self_iff, hactive, hisActive]
  | true =>
      have hname := hnames hisActive
      rw [← htarget] at hname
      by_cases hid : index.activeClaimId = record.claimId
      · have hsame : index.activeClaim = claim := by rw [hname, hid, hclaim]
        simp [withoutClaim, hsame, hid]
      · have hother : index.activeClaim ≠ claim := by
          rw [hname, hclaim, Ne, claimAddress_inj]
          exact fun heq ↦ hid heq.2
        simp [withoutClaim, hother, hid, hisActive, Function.update_eq_self_iff, hactive]

theorem filed_withoutClaim {claim claimTopicIndex : Pubkey} {record : ClaimAccount}
    {index : ClaimTopicIndex} (hL : Filed L)
    (hload : loadClaim L claim claimTopicIndex = .ok (record, index)) {o : Option ClaimAccount}
    (ho : ∀ a, o = some a → a.fid = record.fid ∧ a.claimId = record.claimId)
    (hfids : L'.view FidAccount = L.view FidAccount)
    (hclaims : L'.view ClaimAccount = Function.update (L.view ClaimAccount) claim o)
    (hindexes : L'.view ClaimTopicIndex = Function.update (L.view ClaimTopicIndex) claimTopicIndex
      (some (withoutClaim index claim))) : Filed L' := by
  obtain ⟨hrecord, hindex, hclaim, hseeds⟩ := loadClaim_ok hload
  obtain ⟨haddress, hnames⟩ := hL.indexes _ _ (view_eq_some.2 hindex)
  dsimp only at hclaim haddress hnames
  constructor
  · rw [hfids]
    exact hL.owned
  · rw [hclaims]
    refine hL.claims.update fun a ha ↦ ?_
    obtain ⟨hfid, hid⟩ := ho a ha
    rw [hfid, hid, ← hclaim]
  · rw [hindexes]
    refine hL.indexes.update fun a ha ↦ ?_
    obtain rfl := Option.some.inj ha
    unfold withoutClaim
    split
    case isTrue => exact ⟨haddress, fun hactive ↦ nomatch hactive⟩
    case isFalse => exact ⟨haddress, hnames⟩

/-- Every instruction of the program is a move of the register or leaves it alone. -/
theorem process_moves {i : Instruction} (h : process L signers i = .ok L')
    (hexternal : ∀ k ∈ signers, k.External) (hL : Filed L) : Filed L' ∧ Moves L L' := by
  cases i with
  | createFid owner fid isIssuer country =>
      obtain ⟨hsigner, -, hnone, -, hwritten⟩ := createFid_ok hL.owned h
      have howner : owner ≠ .default := by
        rintro rfl
        exact hexternal _ hsigner
      constructor
      · refine ⟨?_, by rw [hwritten.claims]; exact hL.claims,
          by rw [hwritten.indexes]; exact hL.indexes⟩
        rw [hwritten.fids]
        refine hL.owned.update fun a ha ↦ ?_
        obtain rfl := Option.some.inj ha
        exact howner
      · exact .inr ⟨_, .opened (by simp [register, hnone]) (register_next hwritten.fids)
          (register_entry_eq hwritten.claims) (register_active_eq hwritten.indexes)⟩
  | setManagementKey owner fid newKey =>
      obtain ⟨old, hold, hwritten⟩ := setManagementKey_ok h
      exact hwritten.moves hold rfl rfl hL
  | setSignerKey authority fid newKey =>
      obtain ⟨old, hold, hwritten⟩ := setSignerKey_ok h
      exact hwritten.moves hold rfl rfl hL
  | updateFidProfile authority fid isIssuer country =>
      obtain ⟨old, hold, -, hwritten⟩ := updateFidProfile_ok h
      exact hwritten.moves hold rfl rfl hL
  | addClaim accts topic issuerFid expiresAt =>
      obtain ⟨target, claim, index, htarget, hclaim, hindex, hfree, ⟨hfid, hid, hissuer, htopic,
        hrevoked⟩, ⟨hiTarget, hiIssuer, hiTopic, hiClaim, hiId, hiActive⟩, hfids, hclaims,
        hindexes⟩ := addClaim_ok h
      have hview : L.view FidAccount accts.targetFid = some target := view_eq_some.2 htarget
      constructor
      · constructor
        · rw [hfids]
          refine hL.owned.update fun a ha ↦ ?_
          obtain rfl := Option.some.inj ha
          exact hL.owned _ target hview
        · rw [hclaims]
          refine hL.claims.update fun a ha ↦ ?_
          obtain rfl := Option.some.inj ha
          rw [hfid, hid, hclaim]
        · rw [hindexes]
          refine hL.indexes.update fun a ha ↦ ?_
          obtain rfl := Option.some.inj ha
          exact ⟨by rw [hiTarget, hiIssuer, hiTopic, hindex],
            fun _ ↦ by rw [hiClaim, hiTarget, hiId, hclaim]⟩
      · rw [hclaim] at hclaims
        rw [hindex] at hindexes
        refine .inr ⟨.filed accts.targetFid (issuerFid, topic), .filed (n := target.claimCount)
          (by simp [register, hview]) ?_ (register_next hfids) ?_ ?_⟩
        · simp only [register]
          rw [← hindex]
          cases hold : L.view ClaimTopicIndex accts.claimTopicIndex with
          | none => rfl
          | some old => simp [hfree old hold]
        · rw [register_entry hclaims]
          simp [hissuer, htopic, hrevoked]
        · rw [register_active hindexes, hiActive, hiId, if_pos rfl]
  | revokeClaim issuerOwner claim claimTopicIndex =>
      obtain ⟨record, index, hload, hfids, hclaims, hindexes⟩ := revokeClaim_ok h
      obtain ⟨hrecord, -, hclaim, -⟩ := loadClaim_ok hload
      dsimp only at hclaim
      refine ⟨filed_withoutClaim hL hload (fun a ha ↦ ?_) hfids hclaims hindexes, ?_⟩
      · obtain rfl := Option.some.inj ha
        exact ⟨rfl, rfl⟩
      · have hentry : (register L).entry (record.fid, record.claimId) =
            some ((record.issuerFid, record.topic), !record.revoked) := by
          simp [register, ← hclaim, view_eq_some.2 hrecord]
        rw [hclaim] at hclaims
        exact .inr ⟨_, .retired hentry (register_next_eq hfids) (register_entry hclaims)
          (register_withoutClaim hL hload hindexes)⟩
  | removeClaim authority fid claim claimTopicIndex =>
      obtain ⟨record, index, hload, hfids, hclaims, hindexes⟩ := removeClaim_ok h
      obtain ⟨hrecord, -, hclaim, -⟩ := loadClaim_ok hload
      dsimp only at hclaim
      refine ⟨filed_withoutClaim hL hload (by simp) hfids hclaims hindexes, ?_⟩
      have hentry : (register L).entry (record.fid, record.claimId) =
          some ((record.issuerFid, record.topic), !record.revoked) := by
        simp [register, ← hclaim, view_eq_some.2 hrecord]
      rw [hclaim] at hclaims
      exact .inr ⟨_, .dropped hentry (register_next_eq hfids) (register_entry hclaims)
        (register_withoutClaim hL hload hindexes)⟩

theorem Filed.of_tables (hL : Filed L) (hfids : L'.view FidAccount = L.view FidAccount)
    (hclaims : L'.view ClaimAccount = L.view ClaimAccount)
    (hindexes : L'.view ClaimTopicIndex = L.view ClaimTopicIndex) : Filed L' ∧ Moves L L' := by
  constructor
  · exact ⟨by rw [hfids]; exact hL.owned, by rw [hclaims]; exact hL.claims,
      by rw [hindexes]; exact hL.indexes⟩
  · exact .inl (Register.ext (register_next_eq hfids) (register_entry_eq hclaims)
      (register_active_eq hindexes))

theorem Filed.of_frame {S : List AccountKind} (hL : Filed L) (hframe : Frame S L L')
    (hS : ∀ kind ∈ fidKinds, kind ∉ S) : Filed L' ∧ Moves L L' :=
  hL.of_tables (hframe.table_eq (hS _ (by decide))) (hframe.table_eq (hS _ (by decide)))
    (hframe.table_eq (hS _ (by decide)))

section Histories

variable [Borsh] {labels : List Platform.Label} {l : Platform.Label}

/-- Only the program itself moves its register. -/
theorem Filed.step (hL : Filed L) (h : Platform.Step L l L') : Filed L' ∧ Moves L L' := by
  cases h with
  | instruction signers i hexternal h =>
      cases i with
      | core i => exact hL.of_frame (frame_core h) (by decide)
      | fid i => exact process_moves h hexternal hL
      | irs i => exact hL.of_frame (Irs.frame h) (by decide)
      | irp i => exact hL.of_frame (Irp.frame h) (by decide)
  | environment hframe => exact hL.of_frame hframe (by decide)

/-- A history of the platform is a run of the register. -/
theorem register_run (hrun : Run Platform.Step L labels L') (hL : Filed L) :
    Filed L' ∧ ∃ moves, Run Register.Step (register L) moves (register L') :=
  hrun.simulate_stuttering (fun _ _ _ hfiled hstep ↦ hfiled.step hstep) hL

/-! ## Claims and their indexes -/

/-- The program has no accounts yet. -/
structure Unopened (L : Ledger) : Prop where
  fids : ∀ k, L.view FidAccount k = none
  claims : ∀ k, L.view ClaimAccount k = none
  indexes : ∀ k, L.view ClaimTopicIndex k = none

/-- A claim that exists and is not revoked, about a FID, by an issuer, on a topic. -/
def InForce (L : Ledger) (target issuer : Pubkey) (topic : ℕ) (k : Pubkey)
    (claim : ClaimAccount) : Prop :=
  L.view ClaimAccount k = some claim ∧ claim.fid = target ∧ claim.issuerFid = issuer ∧
    claim.topic = topic ∧ claim.revoked = false

/-- The indexes and the claims of a ledger agree. -/
structure Indexed (L : Ledger) : Prop where
  single : ∀ target issuer topic k k' claim claim', InForce L target issuer topic k claim →
    InForce L target issuer topic k' claim' → k = k'
  active_iff : ∀ target issuer topic,
    (∃ index, L.view ClaimTopicIndex (claimTopicIndexAddress target issuer topic) = some index ∧
      index.isActive = true) ↔ ∃ k claim, InForce L target issuer topic k claim
  names : ∀ target issuer topic index k claim,
    L.view ClaimTopicIndex (claimTopicIndexAddress target issuer topic) = some index →
      InForce L target issuer topic k claim → index.activeClaim = k ∧
        index.activeClaimId = claim.claimId
  numbered : ∀ k k' claim claim', L.view ClaimAccount k = some claim →
    L.view ClaimAccount k' = some claim' → claim.fid = claim'.fid →
      claim.claimId = claim'.claimId → k = k'

/-- The step from `L` to `L'` brings in the claim at `k`. -/
def Issues (L L' : Ledger) (k : Pubkey) (claim : ClaimAccount) : Prop :=
  L.view ClaimAccount k = none ∧ L'.view ClaimAccount k = some claim

omit [Borsh] in
theorem Unopened.filed (h : Unopened L) : Filed L where
  owned k a ha := by
    rw [h.fids] at ha
    exact nomatch ha
  claims k a ha := by
    rw [h.claims] at ha
    exact nomatch ha
  indexes k a ha := by
    rw [h.indexes] at ha
    exact nomatch ha

omit [Borsh] in
theorem Unopened.sound (h : Unopened L) : (register L).Sound where
  numbered he := by simp [register, h.claims] at he
  active_iff := by simp [register, h.claims, h.indexes]

omit [Borsh] in
theorem Filed.entry_eq (hL : Filed L) {k : Pubkey} {claim : ClaimAccount}
    (h : L.view ClaimAccount k = some claim) :
    (register L).entry (claim.fid, claim.claimId) =
      some ((claim.issuerFid, claim.topic), !claim.revoked) := by
  simp [register, ← hL.claims k claim h, h]

omit [Borsh] in
/-- In a sound register the indexes agree with the claims. -/
theorem Filed.indexed (hL : Filed L) (hsound : (register L).Sound) : Indexed L := by
  have hentry : ∀ {target issuer topic k claim}, InForce L target issuer topic k claim →
      k = claimAddress target claim.claimId ∧
        (register L).active (target, (issuer, topic)) = some claim.claimId := by
    rintro target issuer topic k claim ⟨hclaim, rfl, rfl, rfl, hrevoked⟩
    have hfiled := hL.entry_eq hclaim
    rw [hrevoked] at hfiled
    exact ⟨hL.claims k claim hclaim, hsound.active_iff.2 hfiled⟩
  constructor
  · intro target issuer topic k k' claim claim' hforce hforce'
    obtain ⟨hk, hactive⟩ := hentry hforce
    obtain ⟨hk', hactive'⟩ := hentry hforce'
    rw [hactive, Option.some.injEq] at hactive'
    rw [hk, hk', hactive']
  · intro target issuer topic
    constructor
    · rintro ⟨index, hindex, hisActive⟩
      have hactive : (register L).active (target, (issuer, topic)) = some index.activeClaimId := by
        simp [register, hindex, hisActive]
      have hfiled := hsound.active_iff.1 hactive
      simp only [register, Option.map_eq_some_iff, Prod.mk.injEq, Bool.not_eq_true'] at hfiled
      obtain ⟨claim, hclaim, ⟨hissuer, htopic⟩, hrevoked⟩ := hfiled
      refine ⟨_, claim, hclaim, ?_, hissuer, htopic, hrevoked⟩
      have haddress := hL.claims _ claim hclaim
      exact (claimAddress_inj.1 haddress).1.symm
    · rintro ⟨k, claim, hforce⟩
      have hactive := (hentry hforce).2
      simp only [register, Option.bind_eq_some_iff] at hactive
      obtain ⟨index, hindex, hid⟩ := hactive
      refine ⟨index, hindex, ?_⟩
      by_contra hne
      rw [if_neg hne] at hid
      exact nomatch hid
  · intro target issuer topic index k claim hindex hforce
    obtain ⟨hk, hactive⟩ := hentry hforce
    obtain ⟨haddress, hnames⟩ := hL.indexes _ index hindex
    simp only [register, hindex, Option.bind_some, Option.ite_none_right_eq_some,
      Option.some.injEq] at hactive
    obtain ⟨hisActive, hid⟩ := hactive
    refine ⟨?_, hid⟩
    rw [hnames hisActive, hid, hk, ← (claimTopicIndexAddress_inj.1 haddress).1]
  · intro k k' claim claim' hclaim hclaim' hfid hid
    rw [hL.claims k claim hclaim, hL.claims k' claim' hclaim', hfid, hid]

omit [Borsh] in
theorem Issues.files {k : Pubkey} {claim : ClaimAccount} (h : Issues L L' k claim)
    (hL' : Filed L') :
    Register.Files (register L) (register L') claim.fid claim.claimId := by
  have hk := hL'.claims k claim h.2
  constructor
  · simp [register, ← hk, h.1]
  · simp [hL'.entry_eq h.2]

/-- A step that brings in a claim is a move of the register. -/
theorem Issues.move {k : Pubkey} {claim : ClaimAccount} (h : Issues L L' k claim)
    (hL : Filed L) (hstep : Platform.Step L l L') :
    ∃ move, Register.Step (register L) move (register L') := by
  obtain ⟨hL', hsame | hmove⟩ := hL.step hstep
  · have hfiles := h.files hL'
    rw [hsame] at hfiles
    exact absurd hfiles.1 hfiles.2
  · exact hmove

/-- In every history that starts without claims the indexes agree with the claims,
and no number of a FID is given to two claims. -/
theorem claims_indexed (hstart : Unopened L) :
    (∀ labels L', Run Platform.Step L labels L' → Indexed L') ∧
      ∀ pre mid l l' M M' N N', Run Platform.Step L pre M → Platform.Step M l M' →
        Run Platform.Step M' mid N → Platform.Step N l' N' →
          ∀ k k' claim claim', Issues M M' k claim → Issues N N' k' claim' →
            claim.fid = claim'.fid → claim.claimId ≠ claim'.claimId := by
  constructor
  · intro labels L' hrun
    obtain ⟨hfiled, moves, hmoves⟩ := register_run hrun hstart.filed
    exact hfiled.indexed (Register.sound_of_run hmoves hstart.sound)
  · intro pre mid l l' M M' N N' hpre hfirst hmid hsecond k k' claim claim' hissues hissues' hfid
    obtain ⟨hM, -⟩ := register_run hpre hstart.filed
    obtain ⟨hM', -⟩ := hM.step hfirst
    obtain ⟨hN, moves, hmoves⟩ := register_run hmid hM'
    obtain ⟨hN', -⟩ := hN.step hsecond
    obtain ⟨move, hmove⟩ := hissues.move hM hfirst
    obtain ⟨move', hmove'⟩ := hissues'.move hN hsecond
    have hfiles := hissues.files hM'
    have hfiles' := hissues'.files hN'
    rw [← hfid] at hfiles'
    have hlt := Register.numbers_increase hmove hmoves hmove' hfiles hfiles'
    exact Nat.ne_of_lt hlt

end Histories

/-! ## A claim that is issued again -/

/-- The ledger before any account has been created. -/
def emptyLedger : Ledger := .ofRecords []

theorem emptyLedger_unopened : Unopened emptyLedger :=
  ⟨fun _ ↦ rfl, fun _ ↦ rfl, fun _ ↦ rfl⟩

def claimIssuer : Pubkey := .address 1

def claimHolder : Pubkey := .address 2

def claimIssue (n : ℕ) : Platform.Instruction :=
  .fid (.addClaim
    { issuerOwner := claimIssuer
      targetFid := fidAddress claimHolder
      claim := claimAddress (fidAddress claimHolder) n
      claimTopicIndex :=
        claimTopicIndexAddress (fidAddress claimHolder) (fidAddress claimIssuer) 7 }
    7 (fidAddress claimIssuer) 0)

/-- The holder opens a FID; the issuer claims, revokes and claims again. -/
def reissueHistory : List Platform.Label :=
  [.instruction [claimHolder] (.fid (.createFid claimHolder (fidAddress claimHolder) false 276)),
    .instruction [claimIssuer] (claimIssue 0),
    .instruction [claimIssuer] (.fid (.revokeClaim claimIssuer
      (claimAddress (fidAddress claimHolder) 0)
      (claimTopicIndexAddress (fidAddress claimHolder) (fidAddress claimIssuer) 7))),
    .instruction [claimIssuer] (claimIssue 1)]

theorem reissueHistory_run : ∃ L, Run (@Platform.Step strictBorsh) emptyLedger reissueHistory L ∧
    ((L.view ClaimAccount (claimAddress (fidAddress claimHolder) 0)).map
      ClaimAccount.revoked = some true) ∧
    (L.view ClaimAccount (claimAddress (fidAddress claimHolder) 1)).map
      ClaimAccount.revoked = some false := by
  obtain ⟨L₁, L₂, L₃, L₄, h₁, h₂, h₃, h₄, hold, hnew⟩ : ∃ L₁ L₂ L₃ L₄,
      @Platform.process strictBorsh emptyLedger [claimHolder]
        (.fid (.createFid claimHolder (fidAddress claimHolder) false 276)) = .ok L₁ ∧
      @Platform.process strictBorsh L₁ [claimIssuer] (claimIssue 0) = .ok L₂ ∧
      @Platform.process strictBorsh L₂ [claimIssuer] (.fid (.revokeClaim claimIssuer
        (claimAddress (fidAddress claimHolder) 0)
        (claimTopicIndexAddress (fidAddress claimHolder) (fidAddress claimIssuer) 7))) = .ok L₃ ∧
      @Platform.process strictBorsh L₃ [claimIssuer] (claimIssue 1) = .ok L₄ ∧
      ((L₄.view ClaimAccount (claimAddress (fidAddress claimHolder) 0)).map
        ClaimAccount.revoked = some true) ∧
      (L₄.view ClaimAccount (claimAddress (fidAddress claimHolder) 1)).map
        ClaimAccount.revoked = some false := ⟨_, _, _, _, rfl, rfl, rfl, rfl, rfl, rfl⟩
  have hsigner : ∀ n, ∀ k ∈ [Pubkey.address n], k.External := fun n ↦
    List.forall_mem_singleton.2 (Pubkey.external_address n)
  refine ⟨L₄, .cons (@Platform.Step.instruction strictBorsh _ _ _ _ (hsigner 2) h₁)
    (.cons (@Platform.Step.instruction strictBorsh _ _ _ _ (hsigner 1) h₂)
      (.cons (@Platform.Step.instruction strictBorsh _ _ _ _ (hsigner 1) h₃)
        (.single (@Platform.Step.instruction strictBorsh _ _ _ _ (hsigner 1) h₄)))), hold, hnew⟩

theorem reissued_claim_indexed : ∃ L,
    Run (@Platform.Step strictBorsh) emptyLedger reissueHistory L ∧
      (∃ claim, L.view ClaimAccount (claimAddress (fidAddress claimHolder) 1) = some claim ∧
        claim.revoked = false) ∧ Indexed L := by
  obtain ⟨L, hrun, -, hnew⟩ := reissueHistory_run
  exact ⟨L, hrun, Option.map_eq_some_iff.1 hnew,
    (@claims_indexed emptyLedger strictBorsh emptyLedger_unopened).1 _ L hrun⟩

end Fracks.Fid
