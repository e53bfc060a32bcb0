import Fracks.Identity.RegisteredCount

/-!
# Identities and FIDs

A registered identity is consistent when it points to the FID of its own wallet,
which is not an issuer's, and both are in the same country.  Registration checks
this; the later updates of either program write what they are given, so that a
state after an update is consistent exactly when the value written agrees with
the other side.
-/

namespace Fracks.Irs

open Checked AccountType Ledger Runs

variable {L L' : Ledger} {signers : List Pubkey}

/-- The identity points to the FID of its wallet, of a holder in its country. -/
def Matches (L : Ledger) (identity : WalletIdentity) : Prop :=
  identity.fid = Fid.fidAddress identity.wallet ∧
    ∃ record : FidAccount, L.view FidAccount identity.fid = some record ∧
      record.isIssuer = false ∧ identity.country = record.country

/-- Every registered identity matches its FID. -/
def Consistent (L : Ledger) : Prop :=
  Everywhere (fun _ identity ↦ Matches L identity) (L.view WalletIdentity)

/-- What an update writes agrees with the other side. -/
def Agrees (L : Ledger) : Platform.Instruction → Prop
  | .irs (.updateIdentity accts newFid) => ∀ identity : WalletIdentity,
      L.view WalletIdentity accts.walletIdentity = some identity →
        newFid = Fid.fidAddress identity.wallet
  | .irs (.updateCountry accts newCountry) => ∀ (identity : WalletIdentity) (record : FidAccount),
      L.view WalletIdentity accts.walletIdentity = some identity →
        L.view FidAccount (Fid.fidAddress identity.wallet) = some record →
          newCountry = record.country
  | .fid (.updateFidProfile _ fid isIssuer country) => ∀ (k : Pubkey) (identity : WalletIdentity),
      L.view WalletIdentity k = some identity → Fid.fidAddress identity.wallet = fid →
        isIssuer = false ∧ country = identity.country
  | .core i => ¬ i.Finalizes
  | _ => True

def LabelAgrees (L : Ledger) : Platform.Label → Prop
  | .instruction _ i => Agrees L i
  | .environment => True

/-- The step finalizes a recovery. -/
def LabelFinalizes : Platform.Label → Prop
  | .instruction _ (.core i) => i.Finalizes
  | _ => False

/-! ## Writes on either side -/

theorem Consistent.of_tables (hL : Consistent L) (hfids : L'.view FidAccount = L.view FidAccount)
    (hidentities : L'.view WalletIdentity = L.view WalletIdentity) : Consistent L' := by
  unfold Consistent Matches
  rw [hfids, hidentities]
  exact hL

/-- After a write to a FID, the identities of its owner decide. -/
theorem Consistent.fid_written (hL : Consistent L) {fid : Pubkey} {record : FidAccount}
    (hfids : L'.view FidAccount = Function.update (L.view FidAccount) fid (some record))
    (hidentities : L'.view WalletIdentity = L.view WalletIdentity) :
    Consistent L' ↔ ∀ k identity, L.view WalletIdentity k = some identity →
      Fid.fidAddress identity.wallet = fid →
        record.isIssuer = false ∧ identity.country = record.country := by
  unfold Consistent
  rw [hidentities]
  constructor
  · intro hall k identity hk hfid
    obtain ⟨haddress, a, ha, hissuer, hcountry⟩ := hall k identity hk
    rw [haddress, hfid, hfids, Function.update_self, Option.some.injEq] at ha
    subst ha
    exact ⟨hissuer, hcountry⟩
  · intro hall k identity hk
    obtain ⟨haddress, a, ha, hissuer, hcountry⟩ := hL k identity hk
    refine ⟨haddress, ?_⟩
    rw [hfids]
    by_cases hfid : Fid.fidAddress identity.wallet = fid
    · rw [haddress, hfid, Function.update_self]
      exact ⟨record, rfl, hall k identity hk hfid⟩
    · rw [haddress, Function.update_of_ne hfid, ← haddress]
      exact ⟨a, ha, hissuer, hcountry⟩

/-- A write that keeps the issuer flag and the country of a FID. -/
theorem Consistent.fid_kept (hL : Consistent L) {fid : Pubkey} {old record : FidAccount}
    (hold : L.view FidAccount fid = some old)
    (hfids : L'.view FidAccount = Function.update (L.view FidAccount) fid (some record))
    (hidentities : L'.view WalletIdentity = L.view WalletIdentity)
    (hissuer : record.isIssuer = old.isIssuer) (hcountry : record.country = old.country) :
    Consistent L' := by
  rw [hL.fid_written hfids hidentities]
  intro k identity hk hfid
  obtain ⟨haddress, a, ha, hholder, hsame⟩ := hL k identity hk
  rw [haddress, hfid, hold, Option.some.injEq] at ha
  subst ha
  rw [hissuer, hcountry]
  exact ⟨hholder, hsame⟩

/-- After a write to an identity, that identity decides. -/
theorem Consistent.identity_written (hL : Consistent L) {k : Pubkey} {o : Option WalletIdentity}
    (hfids : L'.view FidAccount = L.view FidAccount)
    (hidentities : L'.view WalletIdentity = Function.update (L.view WalletIdentity) k o) :
    Consistent L' ↔ ∀ identity, o = some identity → Matches L identity := by
  have hmatches : ∀ identity, Matches L' identity ↔ Matches L identity := fun identity ↦ by
    rw [Matches, Matches, hfids]
  unfold Consistent
  rw [hidentities]
  simp only [hmatches]
  exact Everywhere.update_iff hL

/-! ## The instructions -/

theorem fid_consistent {i : Fid.Instruction} (h : Fid.process L signers i = .ok L')
    (hfiled : Fid.Filed L) (hL : Consistent L) : Consistent L' ↔ Agrees L (.fid i) := by
  have hidentities : L'.view WalletIdentity = L.view WalletIdentity :=
    (Fid.frame h).table_eq (by decide)
  cases i with
  | createFid owner fid isIssuer country =>
      obtain ⟨-, hfid, hnone, -, hwritten⟩ := Fid.createFid_ok hfiled.owned h
      rw [hL.fid_written hwritten.fids hidentities]
      refine iff_of_true (fun k identity hk heq ↦ ?_) trivial
      obtain ⟨haddress, a, ha, -⟩ := hL k identity hk
      rw [haddress, heq, hnone] at ha
      exact nomatch ha
  | setManagementKey owner fid newKey =>
      obtain ⟨old, hold, hwritten⟩ := Fid.setManagementKey_ok h
      exact iff_of_true
        (hL.fid_kept (view_eq_some.2 hold) hwritten.fids hidentities rfl rfl) trivial
  | setSignerKey authority fid newKey =>
      obtain ⟨old, hold, hwritten⟩ := Fid.setSignerKey_ok h
      exact iff_of_true
        (hL.fid_kept (view_eq_some.2 hold) hwritten.fids hidentities rfl rfl) trivial
  | updateFidProfile authority fid isIssuer country =>
      obtain ⟨old, hold, -, hwritten⟩ := Fid.updateFidProfile_ok h
      rw [hL.fid_written hwritten.fids hidentities]
      refine forall_congr' fun k ↦ forall_congr' fun identity ↦ forall_congr' fun hk ↦
        forall_congr' fun hfid ↦ ?_
      cases isIssuer with
      | true => simp
      | false => simp [eq_comm]
  | addClaim accts topic issuerFid expiresAt =>
      obtain ⟨target, _, _, htarget, -, -, -, -, -, hfids, -⟩ := Fid.addClaim_ok h
      exact iff_of_true (hL.fid_kept (view_eq_some.2 htarget) hfids hidentities rfl rfl) trivial
  | revokeClaim issuerOwner claim claimTopicIndex =>
      obtain ⟨_, _, -, hfids, -⟩ := Fid.revokeClaim_ok h
      exact iff_of_true (hL.of_tables hfids hidentities) trivial
  | removeClaim authority fid claim claimTopicIndex =>
      obtain ⟨_, _, -, hfids, -⟩ := Fid.removeClaim_ok h
      exact iff_of_true (hL.of_tables hfids hidentities) trivial

theorem irs_consistent [Borsh] {i : Instruction} (h : process L signers i = .ok L')
    (henrolled : Enrolled L) (hL : Consistent L) : Consistent L' ↔ Agrees L (.irs i) := by
  have hfids : L'.view FidAccount = L.view FidAccount := (Irs.frame h).table_eq (by decide)
  cases i with
  | initializeIrs owner irsState authoritySeed =>
      simp only [process, initializeIrs, bind_eq_ok] at h
      obtain ⟨_, -, hinit⟩ := h
      have hframe : Frame [.identityRegistryStorageState] L L' := .initRecord hinit (by decide)
      exact iff_of_true (hL.of_tables hfids (hframe.table_eq (by decide))) trivial
  | bindRegistry owner irsState irp =>
      obtain ⟨old, new, hold, -, rfl⟩ := updateIrsOwnerState_ok h
      exact iff_of_true (hL.of_tables hfids (view_overwrite hold (by decide))) trivial
  | unbindRegistry owner irsState irp =>
      obtain ⟨old, new, hold, -, rfl⟩ := updateIrsOwnerState_ok h
      exact iff_of_true (hL.of_tables hfids (view_overwrite hold (by decide))) trivial
  | transferOwnership owner irsState newOwner =>
      obtain ⟨old, new, hold, -, rfl⟩ := updateIrsOwnerState_ok h
      exact iff_of_true (hL.of_tables hfids (view_overwrite hold (by decide))) trivial
  | registerIdentity accts fidAccount wallet fid country =>
      obtain ⟨state, record, identity, -, hrecord, haddress, -, hissuer, hcountry, -, -,
        ⟨hwallet, hfid, hsame, -⟩, -, hidentities⟩ :=
        registerIdentity_ok (fun k a ha ↦ (henrolled.identities k a ha).2) h
      rw [hL.identity_written hfids hidentities]
      refine iff_of_true (fun a ha ↦ ?_) trivial
      obtain rfl := Option.some.inj ha
      refine ⟨by rw [hfid, hwallet, haddress], record, ?_, hissuer, by rw [hsame, hcountry]⟩
      rw [hfid, view_eq_some, hrecord]
  | submitOnboardingApplication applicant irsState application wallet =>
      have hframe := Irs.frame_submitOnboardingApplication h
      exact iff_of_true (hL.of_tables hfids (hframe.table_eq (by decide))) trivial
  | reviewOnboardingApplication authority irsState registryState application approved =>
      have hframe := Irs.frame_reviewOnboardingApplication h
      exact iff_of_true (hL.of_tables hfids (hframe.table_eq (by decide))) trivial
  | cancelOnboardingApplication authority irsState application =>
      have hframe := Irs.frame_cancelOnboardingApplication h
      exact iff_of_true (hL.of_tables hfids (hframe.table_eq (by decide))) trivial
  | setIdentityActivation owner irsState walletIdentity active =>
      obtain ⟨identity, hidentity, hwritten⟩ := setIdentityActivation_ok h
      rw [hL.identity_written hfids hwritten.identities]
      refine iff_of_true (fun a ha ↦ ?_) trivial
      obtain rfl := Option.some.inj ha
      exact hL _ identity (view_eq_some.2 hidentity)
  | updateIdentity accts newFid =>
      obtain ⟨identity, hidentity, hwritten⟩ := updateIdentity_ok h
      have hview : L.view WalletIdentity accts.walletIdentity = some identity :=
        view_eq_some.2 hidentity
      rw [hL.identity_written hfids hwritten.identities]
      obtain ⟨haddress, record, hrecord, hissuer, hcountry⟩ := hL _ identity hview
      constructor
      · intro hall a ha
        rw [hview, Option.some.injEq] at ha
        subst ha
        exact (hall _ rfl).1
      · intro hagrees a ha
        obtain rfl := Option.some.inj ha
        have hnew : newFid = identity.fid := (hagrees identity hview).trans haddress.symm
        subst hnew
        exact ⟨haddress, record, hrecord, hissuer, hcountry⟩
  | updateCountry accts newCountry =>
      obtain ⟨identity, hidentity, hwritten⟩ := updateCountry_ok h
      have hview : L.view WalletIdentity accts.walletIdentity = some identity :=
        view_eq_some.2 hidentity
      rw [hL.identity_written hfids hwritten.identities]
      obtain ⟨haddress, record, hrecord, hissuer, hcountry⟩ := hL _ identity hview
      constructor
      · intro hall a fid ha hfid
        rw [hview, Option.some.injEq] at ha
        subst ha
        obtain ⟨-, b, hb, -, hnew⟩ := hall _ rfl
        dsimp only at hb hnew
        rw [haddress, hfid, Option.some.injEq] at hb
        rw [hnew, hb]
      · intro hagrees a ha
        obtain rfl := Option.some.inj ha
        exact ⟨haddress, record, hrecord, hissuer,
          hagrees identity record hview (haddress ▸ hrecord)⟩
  | removeIdentity accts =>
      rw [hL.identity_written hfids (removeIdentity_ok h).identities]
      exact iff_of_true (by simp) trivial
  | removeOwnIdentity owner irsState walletIdentity =>
      rw [hL.identity_written hfids (removeOwnIdentity_ok h).identities]
      exact iff_of_true (by simp) trivial

/-! ## Histories -/

section Histories

variable [Borsh] {labels : List Platform.Label} {l : Platform.Label}

/-- After a step from a consistent state that finalizes no recovery, the state is
consistent exactly when the value written agrees. -/
theorem step_consistent (h : Platform.Step L l L') (hl : ¬ LabelFinalizes l)
    (henrolled : Enrolled L) (hL : Consistent L) : Consistent L' ↔ LabelAgrees L l := by
  have hframe : ∀ S, Frame S L L' → kind FidAccount ∉ S → kind WalletIdentity ∉ S →
      Consistent L' := fun S hS hfid hidentity ↦
    hL.of_tables (hS.table_eq hfid) (hS.table_eq hidentity)
  cases h with
  | instruction signers i hexternal h =>
      cases i with
      | core i =>
          have hkept := hframe _ (frame_core_of_not_finalizes hl h) (by decide) (by decide)
          exact iff_of_true hkept hl
      | fid i => exact fid_consistent h henrolled.filed hL
      | irs i => exact irs_consistent h henrolled hL
      | irp i => exact iff_of_true (hframe _ (Irp.frame h) (by decide) (by decide)) trivial
  | environment h => exact iff_of_true (hframe _ h (by decide) (by decide)) trivial

omit [Borsh] in
theorem LabelAgrees.not_finalizes (h : LabelAgrees L l) : ¬ LabelFinalizes l := by
  cases l with
  | instruction signers i =>
      cases i with
      | core i => exact h
      | fid i => exact not_false
      | irs i => exact not_false
      | irp i => exact not_false
  | environment => exact not_false

omit [Borsh] in
theorem Unenrolled.consistent (h : Unenrolled L) : Consistent L := by
  intro k a ha
  rw [h.identities] at ha
  exact nomatch ha

/-- Where every update writes a value that agrees with the other side, every state
is consistent, and the first one that does not agree breaks it. -/
theorem identities_consistent (hstart : Unenrolled L)
    (hrun : Run (restrict Platform.Step fun L l _ ↦ LabelAgrees L l) L labels L') :
    Consistent L' ∧ ∀ l L'', Platform.Step L' l L'' → ¬ LabelFinalizes l →
      (Consistent L'' ↔ LabelAgrees L' l) := by
  have hinvariant := hrun.invariant (P := fun L ↦ Enrolled L ∧ Consistent L) ?_
    ⟨hstart.enrolled, hstart.consistent⟩
  · obtain ⟨henrolled, hL'⟩ := hinvariant
    exact ⟨hL', fun l L'' hstep hl ↦ step_consistent hstep hl henrolled hL'⟩
  · rintro L l L' ⟨henrolled, hL⟩ ⟨hstep, hagrees⟩
    exact ⟨(henrolled.step hstep).1,
      (step_consistent hstep hagrees.not_finalizes henrolled hL).2 hagrees⟩

end Histories

/-! ## A country that is changed on one side -/

/-- The instructions that register wallets and keep their records. -/
def Registers : Platform.Label → Prop
  | .instruction _ (.irs (.initializeIrs ..)) => True
  | .instruction _ (.irs (.registerIdentity ..)) => True
  | .instruction _ (.irs (.updateIdentity ..)) => True
  | .instruction _ (.irs (.updateCountry ..)) => True
  | .instruction _ (.irs (.setIdentityActivation ..)) => True
  | .instruction _ (.fid (.createFid ..)) => True
  | .instruction _ (.fid (.setSignerKey ..)) => True
  | .instruction _ (.fid (.updateFidProfile ..)) => True
  | _ => False

def registerHistory : List Platform.Label :=
  [.instruction [investor] (.fid (.createFid investor (Fid.fidAddress investor) false 276)),
    .instruction [storageOwner] (.irs (.initializeIrs storageOwner storage storageOwner)),
    .instruction [storageOwner] (.irs registration)]

/-- The owner of the storage moves the investor to another country. -/
def moveCountry (country : ℕ) : Platform.Label :=
  .instruction [storageOwner] (.irs (.updateCountry ownerAccounts country))

theorem registerHistory_run {P : Ledger → Platform.Label → Ledger → Prop}
    (hP : ∀ L l L', l ∈ registerHistory → P L l L') : ∃ L,
      Run (restrict (@Platform.Step strictBorsh) P) Fid.emptyLedger registerHistory L ∧
        (L.view WalletIdentity investorIdentity).map (fun a ↦ (a.wallet, a.country)) =
          some (investor, 276) ∧
        (L.view FidAccount (Fid.fidAddress investor)).map FidAccount.country = some 276 ∧
        ∃ L', @Platform.Step strictBorsh L (moveCountry 840) L' ∧
          (L'.view WalletIdentity investorIdentity).map (fun a ↦ (a.fid, a.country)) =
            some (Fid.fidAddress investor, 840) ∧
          (L'.view FidAccount (Fid.fidAddress investor)).map FidAccount.country = some 276 := by
  obtain ⟨L₁, L₂, L₃, L₄, h₁, h₂, h₃, hidentity, hfid, h₄, hmoved, hstill⟩ : ∃ L₁ L₂ L₃ L₄,
      @Platform.process strictBorsh Fid.emptyLedger [investor]
        (.fid (.createFid investor (Fid.fidAddress investor) false 276)) = .ok L₁ ∧
      @Platform.process strictBorsh L₁ [storageOwner]
        (.irs (.initializeIrs storageOwner storage storageOwner)) = .ok L₂ ∧
      @Platform.process strictBorsh L₂ [storageOwner] (.irs registration) = .ok L₃ ∧
      (L₃.view WalletIdentity investorIdentity).map (fun a ↦ (a.wallet, a.country)) =
        some (investor, 276) ∧
      (L₃.view FidAccount (Fid.fidAddress investor)).map FidAccount.country = some 276 ∧
      @Platform.process strictBorsh L₃ [storageOwner]
        (.irs (.updateCountry ownerAccounts 840)) = .ok L₄ ∧
      (L₄.view WalletIdentity investorIdentity).map (fun a ↦ (a.fid, a.country)) =
        some (Fid.fidAddress investor, 840) ∧
      (L₄.view FidAccount (Fid.fidAddress investor)).map FidAccount.country = some 276 :=
    ⟨_, _, _, _, rfl, rfl, rfl, rfl, rfl, rfl, rfl, rfl⟩
  have hsigner : ∀ n, ∀ k ∈ [Pubkey.address n], k.External := fun n ↦
    List.forall_mem_singleton.2 (Pubkey.external_address n)
  exact ⟨L₃, .cons ⟨@Platform.Step.instruction strictBorsh _ _ _ _ (hsigner 2) h₁,
      hP _ _ _ (.head _)⟩
    (.cons ⟨@Platform.Step.instruction strictBorsh _ _ _ _ (hsigner 1) h₂,
        hP _ _ _ (.tail _ (.head _))⟩
      (.single ⟨@Platform.Step.instruction strictBorsh _ _ _ _ (hsigner 1) h₃,
        hP _ _ _ (.tail _ (.tail _ (.head _)))⟩)), hidentity, hfid, L₄,
    @Platform.Step.instruction strictBorsh _ _ _ _ (hsigner 1) h₄, hmoved, hstill⟩

/-- The identity is moved to country 840 while its FID stays in country 276. -/
theorem moved_identity_inconsistent : ¬ ∀ (L L' : Ledger) (labels : List Platform.Label),
    Unenrolled L → Run (restrict (@Platform.Step strictBorsh) fun _ l _ ↦ Registers l)
      L labels L' → Consistent L' := by
  intro hall
  have hregisters : ∀ (L : Ledger) l (L' : Ledger), l ∈ registerHistory → Registers l := by
    intro _ l _ hl
    simp only [registerHistory, List.mem_cons, List.not_mem_nil, or_false] at hl
    rcases hl with rfl | rfl | rfl <;> trivial
  obtain ⟨L, hrun, -, -, L', hstep, hidentity, hfid⟩ := registerHistory_run hregisters
  have hconsistent := hall _ _ _ emptyLedger_unenrolled (hrun.snoc ⟨hstep, trivial⟩)
  obtain ⟨identity, hview, hmoved⟩ := Option.map_eq_some_iff.1 hidentity
  obtain ⟨-, record, hrecord, -, hcountry⟩ := hconsistent _ identity hview
  obtain ⟨haddress, h840⟩ := Prod.mk.inj hmoved
  rw [haddress] at hrecord
  rw [hrecord, Option.map_some, Option.some.injEq] at hfid
  rw [h840, hfid] at hcountry
  exact absurd hcountry (by decide)

theorem registerHistory_consistent : ∃ L, Run (@Platform.Step strictBorsh) Fid.emptyLedger
    registerHistory L ∧ (∃ identity, L.view WalletIdentity investorIdentity = some identity ∧
      identity.wallet = investor) ∧ Consistent L ∧ ∀ l L'', @Platform.Step strictBorsh L l L'' →
        ¬ LabelFinalizes l → (Consistent L'' ↔ LabelAgrees L l) := by
  have hagrees : ∀ (L : Ledger) l (L' : Ledger), l ∈ registerHistory → LabelAgrees L l := by
    intro _ l _ hl
    simp only [registerHistory, List.mem_cons, List.not_mem_nil, or_false] at hl
    rcases hl with rfl | rfl | rfl <;> trivial
  obtain ⟨L, hrun, hidentity, -⟩ := registerHistory_run hagrees
  obtain ⟨identity, hview, hsame⟩ := Option.map_eq_some_iff.1 hidentity
  exact ⟨L, hrun.mono fun _ _ _ h ↦ h.1, ⟨identity, hview, (Prod.mk.inj hsame).1⟩,
    @identities_consistent _ _ strictBorsh _ emptyLedger_unenrolled hrun⟩

end Fracks.Irs
