import Fracks.Identity.ClaimIndex
import Fracks.Lib.Roster

/-!
# The number of registered wallets

The storages and wallet identities of a ledger are a roster: an identity is a
member of the storage that it is registered under, and the storage keeps the
counter.  Registration and the two removals are its moves, also when a recovery
makes them, so that in every state that a history reaches the counter of a
storage is the number of its identities and no removal takes it below zero.
-/

namespace Fracks.Irs

open Checked AccountType Ledger Runs

/-! ## The instructions on the tables -/

section Tables

variable {L L' : Ledger} {signers : List Pubkey}

/-- An identity is written; the storages stay. -/
structure IdentityWritten (L L' : Ledger) (k : Pubkey) (identity : WalletIdentity) : Prop where
  identities : L'.view WalletIdentity = Function.update (L.view WalletIdentity) k (some identity)
  storages : L'.view IdentityRegistryStorageState = L.view IdentityRegistryStorageState

theorem IdentityWritten.overwrite {k : Pubkey} {old identity : WalletIdentity}
    (h : L.accounts k = account old) : IdentityWritten L (L.put k identity) k identity :=
  ⟨view_put identity, view_overwrite h (by decide)⟩

/-- An identity is closed, and the counter of its storage is stepped down. -/
structure IdentityRemoved (L L' : Ledger) (irsState k : Pubkey) : Prop where
  removed : ∃ (state : IdentityRegistryStorageState) (identity : WalletIdentity),
    L.accounts irsState = account state ∧ L.accounts k = account identity ∧
      identity.irs = irsState ∧
      L'.view IdentityRegistryStorageState = Function.update
        (L.view IdentityRegistryStorageState) irsState
        (some { state with registeredCount := state.registeredCount - 1 })
  identities : L'.view WalletIdentity = Function.update (L.view WalletIdentity) k none

theorem IdentityRemoved.of_close {irsState k destination : Pubkey}
    {state : IdentityRegistryStorageState} {identity : WalletIdentity}
    (hstate : L.accounts irsState = account state) (hidentity : L.accounts k = account identity)
    (hirs : identity.irs = irsState) :
    IdentityRemoved L ((L.put irsState { state with
      registeredCount := state.registeredCount - 1 }).close k destination) irsState k := by
  have hidentity' : (L.put irsState { state with
      registeredCount := state.registeredCount - 1 }).accounts k = account identity := by
    rw [put_accounts_of_ne _ (ne_of_kind hidentity hstate (by decide)), hidentity]
  refine ⟨⟨state, identity, hstate, hidentity, hirs, ?_⟩, ?_⟩
  · rw [view_close_other hidentity' (by decide), view_put]
  · rw [view_close, view_overwrite hstate (by decide)]

section Actors

variable [Borsh] {accts : IdentityAccounts}

omit [Borsh] in
theorem IdentityAccounts.check_eq_ok {r : IdentityRegistryStorageState × WalletIdentity}
    (h : accts.check L signers = .ok r) :
    L.accounts accts.irsState = account r.1 ∧ L.accounts accts.walletIdentity = account r.2 ∧
      r.2.irs = accts.irsState := by
  obtain ⟨hstate, hidentity⟩ := IdentityAccounts.check_ok h
  refine ⟨hstate, hidentity, ?_⟩
  simp only [IdentityAccounts.check, bind_eq_ok, require_eq_ok, exists_const,
    Except.ok.injEq] at h
  obtain ⟨_, -, _, -, _, -, _, -, _, -, hirs, rfl⟩ := h
  exact hirs

theorem updateIdentity_ok {newFid : Pubkey} (h : updateIdentity L signers accts newFid = .ok L') :
    ∃ identity : WalletIdentity, L.accounts accts.walletIdentity = account identity ∧
      IdentityWritten L L' accts.walletIdentity { identity with fid := newFid } := by
  simp only [updateIdentity, bind_eq_ok, Except.ok.injEq] at h
  obtain ⟨r, hr, _, -, rfl⟩ := h
  obtain ⟨-, hidentity, -⟩ := IdentityAccounts.check_eq_ok hr
  exact ⟨r.2, hidentity, .overwrite hidentity⟩

theorem updateCountry_ok {newCountry : ℕ}
    (h : updateCountry L signers accts newCountry = .ok L') :
    ∃ identity : WalletIdentity, L.accounts accts.walletIdentity = account identity ∧
      IdentityWritten L L' accts.walletIdentity { identity with country := newCountry } := by
  simp only [updateCountry, bind_eq_ok, Except.ok.injEq] at h
  obtain ⟨r, hr, _, -, _, -, rfl⟩ := h
  obtain ⟨-, hidentity, -⟩ := IdentityAccounts.check_eq_ok hr
  exact ⟨r.2, hidentity, .overwrite hidentity⟩

theorem removeIdentity_ok (h : removeIdentity L signers accts = .ok L') :
    IdentityRemoved L L' accts.irsState accts.walletIdentity := by
  simp only [removeIdentity, bind_eq_ok, okOr_eq_ok, checkedSub_eq_some, Except.ok.injEq] at h
  obtain ⟨r, hr, _, -, n, ⟨-, rfl⟩, rfl⟩ := h
  obtain ⟨hstate, hidentity, hirs⟩ := IdentityAccounts.check_eq_ok hr
  exact .of_close hstate hidentity hirs

theorem registerIdentity_ok {fidAccount wallet fid : Pubkey} {country : ℕ}
    (hL : Everywhere (fun _ identity ↦ identity.wallet ≠ .default) (L.view WalletIdentity))
    (h : registerIdentity L signers accts fidAccount wallet fid country = .ok L') :
    ∃ (state : IdentityRegistryStorageState) (record : FidAccount) (identity : WalletIdentity),
      L.accounts accts.irsState = account state ∧ L.accounts fid = account record ∧
      fid = Fid.fidAddress wallet ∧ record.owner = wallet ∧ record.isIssuer = false ∧
      record.country = country ∧
      accts.walletIdentity = Irp.walletIdentityAddress accts.irsState wallet ∧
      L.view WalletIdentity accts.walletIdentity = none ∧
      (identity.wallet = wallet ∧ identity.fid = fid ∧ identity.country = country ∧
        identity.irs = accts.irsState) ∧
      L'.view IdentityRegistryStorageState = Function.update
        (L.view IdentityRegistryStorageState) accts.irsState
        (some { state with registeredCount := state.registeredCount + 1 }) ∧
      L'.view WalletIdentity =
        Function.update (L.view WalletIdentity) accts.walletIdentity (some identity) := by
  simp only [registerIdentity, validateInvestorFid, bind_eq_ok, load_eq_ok, requireSeeds_eq_ok,
    require_eq_ok, okOr_eq_ok, checkedAdd_eq_some, exists_const, Except.ok.injEq] at h
  obtain ⟨_, -, state, hstate, record, hrecord, hfid, ⟨L₁, old⟩, hinit, _, -, _, -, hnew,
    ⟨rfl, howner, hissuer, hcountry⟩, n, ⟨-, rfl⟩, rfl⟩ := h
  obtain ⟨hstate, -⟩ := loadIrsState_ok hstate
  obtain ⟨haddress, hold, -⟩ := view_initIfNeeded (β := WalletIdentity) hinit
  have hnone : old = none := by
    cases old with
    | none => rfl
    | some a => exact absurd hnew (hL _ a hold)
  subst hnone
  have hkept : L₁.accounts accts.irsState = account state := by
    rw [← view_eq_some, (view_initIfNeeded hinit).2.2, view_eq_some, hstate]
  have hfree : L₁.view IdentityRegistryStorageState accts.walletIdentity = none :=
    view_initIfNeeded_other hinit (by decide)
  have hne : accts.irsState ≠ accts.walletIdentity := view_ne (view_eq_some.2 hkept) hfree
  refine ⟨state, record,
    { wallet, fid := fidAccount, country, irs := accts.irsState, isActive := false,
      activatedBy := .default, activatedAt := 0 },
    hstate, hrecord, hfid, howner, hissuer, hcountry, haddress, hold, ⟨rfl, rfl, rfl, rfl⟩, ?_, ?_⟩
  · rw [view_put, view_put_other hfree (by decide), (view_initIfNeeded hinit).2.2]
  · rw [view_put_other _ (by decide), view_put, (view_initIfNeeded hinit).2.2]
    rw [view_put_of_ne _ hne]
    exact view_none_of_kind (view_eq_some.2 hkept) (by decide)

end Actors

theorem setIdentityActivation_ok {owner irsState walletIdentity : Pubkey} {active : Bool}
    (h : setIdentityActivation L signers owner irsState walletIdentity active = .ok L') :
    ∃ identity : WalletIdentity, L.accounts walletIdentity = account identity ∧
      IdentityWritten L L' walletIdentity
        { identity with isActive := active, activatedBy := owner, activatedAt := L.now } := by
  simp only [setIdentityActivation, bind_eq_ok, load_eq_ok, Except.ok.injEq] at h
  obtain ⟨_, -, _, -, _, -, identity, hidentity, _, -, _, -, rfl⟩ := h
  exact ⟨identity, hidentity, .overwrite hidentity⟩

theorem removeOwnIdentity_ok {owner irsState walletIdentity : Pubkey}
    (h : removeOwnIdentity L signers owner irsState walletIdentity = .ok L') :
    IdentityRemoved L L' irsState walletIdentity := by
  simp only [removeOwnIdentity, bind_eq_ok, load_eq_ok, require_eq_ok, okOr_eq_ok,
    checkedSub_eq_some, exists_const, Except.ok.injEq] at h
  obtain ⟨_, -, state, hstate, identity, hidentity, _, -, hirs, -, n, ⟨-, rfl⟩, rfl⟩ := h
  exact .of_close (loadIrsState_ok hstate).1 hidentity hirs

end Tables

/-! ## The roster of a ledger -/

def roster (L : Ledger) : Roster Pubkey Pubkey where
  count irs := (L.view IdentityRegistryStorageState irs).map
    IdentityRegistryStorageState.registeredCount
  group k := (L.view WalletIdentity k).map WalletIdentity.irs

/-- Identities are at their own addresses and of real wallets. -/
structure Enrolled (L : Ledger) : Prop where
  filed : Fid.Filed L
  identities : Everywhere (fun k identity ↦
    k = Irp.walletIdentityAddress identity.irs identity.wallet ∧ identity.wallet ≠ .default)
    (L.view WalletIdentity)

/-- What happens to the roster is a sequence of moves. -/
def Moves (L L' : Ledger) : Prop :=
  ∃ moves, Run Roster.Step (roster L) moves (roster L')

section Moves

variable {L L' L'' : Ledger} {signers : List Pubkey}

theorem roster_count {irs : Pubkey} {state : IdentityRegistryStorageState}
    (h : L'.view IdentityRegistryStorageState =
      Function.update (L.view IdentityRegistryStorageState) irs (some state)) :
    (roster L').count = Function.update (roster L).count irs (some state.registeredCount) := by
  funext x
  simp only [roster, h]
  by_cases hx : x = irs
  · simp [hx]
  · simp [hx]

theorem roster_group {k : Pubkey} {o : Option WalletIdentity}
    (h : L'.view WalletIdentity = Function.update (L.view WalletIdentity) k o) :
    (roster L').group = Function.update (roster L).group k (o.map WalletIdentity.irs) := by
  funext x
  simp only [roster, h]
  by_cases hx : x = k
  · simp [hx]
  · simp [hx]

theorem roster_eq (hstorages : L'.view IdentityRegistryStorageState =
      L.view IdentityRegistryStorageState)
    (hidentities : L'.view WalletIdentity = L.view WalletIdentity) : roster L' = roster L := by
  simp only [roster, hstorages, hidentities]

theorem Moves.of_eq (h : roster L' = roster L) : Moves L L' := ⟨[], h ▸ .nil _⟩

theorem Moves.trans (h : Moves L L') (h' : Moves L' L'') : Moves L L'' := by
  obtain ⟨moves, hrun⟩ := h
  obtain ⟨moves', hrun'⟩ := h'
  exact ⟨moves ++ moves', hrun.append hrun'⟩

theorem Enrolled.of_tables (hL : Enrolled L) (hfiled : Fid.Filed L')
    (hstorages : L'.view IdentityRegistryStorageState = L.view IdentityRegistryStorageState)
    (hidentities : L'.view WalletIdentity = L.view WalletIdentity) :
    Enrolled L' ∧ Moves L L' :=
  ⟨⟨hfiled, by rw [hidentities]; exact hL.identities⟩, .of_eq (roster_eq hstorages hidentities)⟩

theorem IdentityWritten.moves {k : Pubkey} {old identity : WalletIdentity}
    (h : IdentityWritten L L' k identity) (hold : L.accounts k = account old)
    (hwallet : identity.wallet = old.wallet) (hirs : identity.irs = old.irs) (hL : Enrolled L)
    (hfiled : Fid.Filed L') : Enrolled L' ∧ Moves L L' := by
  have hview : L.view WalletIdentity k = some old := view_eq_some.2 hold
  constructor
  · refine ⟨hfiled, ?_⟩
    rw [h.identities]
    refine hL.identities.update fun a ha ↦ ?_
    obtain rfl := Option.some.inj ha
    rw [hwallet, hirs]
    exact hL.identities k old hview
  · apply Moves.of_eq
    apply Roster.ext
    · simp only [roster, h.storages]
    · rw [roster_group h.identities, Option.map_some, hirs, Function.update_eq_self_iff]
      simp [roster, hview]

theorem IdentityRemoved.moves {irsState k : Pubkey} (h : IdentityRemoved L L' irsState k)
    (hL : Enrolled L) (hfiled : Fid.Filed L') : Enrolled L' ∧ Moves L L' := by
  obtain ⟨state, identity, hstate, hidentity, hirs, hstorages⟩ := h.removed
  constructor
  · refine ⟨hfiled, ?_⟩
    rw [h.identities]
    exact hL.identities.update (by simp)
  · refine ⟨[.left irsState k], .single (.left (n := state.registeredCount) ?_ ?_
      (roster_count hstorages) (roster_group h.identities))⟩
    · simp [roster, view_eq_some.2 hstate]
    · simp [roster, view_eq_some.2 hidentity, hirs]

theorem updateIrsOwnerState_moves {owner irsState : Pubkey}
    {f : IdentityRegistryStorageState → Result IdentityRegistryStorageState}
    (h : updateIrsOwnerState L signers owner irsState f = .ok L')
    (hf : ∀ old new, f old = .ok new → new.registeredCount = old.registeredCount)
    (hL : Enrolled L) (hfiled : Fid.Filed L') : Enrolled L' ∧ Moves L L' := by
  obtain ⟨old, new, hold, hnew, rfl⟩ := updateIrsOwnerState_ok h
  have hidentities : (L.put irsState new).view WalletIdentity = L.view WalletIdentity :=
    view_overwrite hold (by decide)
  refine ⟨⟨hfiled, by rw [hidentities]; exact hL.identities⟩, .of_eq (Roster.ext ?_ ?_)⟩
  · rw [roster_count (view_put new), hf old new hnew, Function.update_eq_self_iff]
    simp [roster, view_eq_some.2 hold]
  · simp only [roster, hidentities]

/-- Every instruction of the program moves the roster or leaves it alone. -/
theorem process_moves [Borsh] {i : Instruction} (h : process L signers i = .ok L')
    (hL : Enrolled L) : Enrolled L' ∧ Moves L L' := by
  have hfiled : Fid.Filed L' := (hL.filed.of_frame (Irs.frame h) (by decide)).1
  cases i with
  | initializeIrs owner irsState authoritySeed =>
      simp only [process, initializeIrs, bind_eq_ok] at h
      obtain ⟨_, -, hinit⟩ := h
      obtain ⟨-, hnone, hstorages⟩ := view_initRecord hinit
      have hframe : Frame [.identityRegistryStorageState] L L' := .initRecord hinit (by decide)
      have hidentities : L'.view WalletIdentity = L.view WalletIdentity :=
        hframe.table_eq (by decide)
      refine ⟨⟨hfiled, by rw [hidentities]; exact hL.identities⟩, [.opened irsState], .single
        (.opened ?_ (roster_count hstorages) ?_)⟩
      · simp [roster, hnone]
      · simp only [roster, hidentities]
  | bindRegistry owner irsState irp =>
      refine updateIrsOwnerState_moves h (fun old new hnew ↦ ?_) hL hfiled
      simp only [bind_eq_ok, Except.ok.injEq] at hnew
      obtain ⟨_, -, _, -, rfl⟩ := hnew
      rfl
  | unbindRegistry owner irsState irp =>
      refine updateIrsOwnerState_moves h (fun old new hnew ↦ ?_) hL hfiled
      simp only [bind_eq_ok, Except.ok.injEq] at hnew
      obtain ⟨_, -, rfl⟩ := hnew
      rfl
  | transferOwnership owner irsState newOwner =>
      refine updateIrsOwnerState_moves h (fun old new hnew ↦ ?_) hL hfiled
      simp only [bind_eq_ok, Except.ok.injEq] at hnew
      obtain ⟨_, -, rfl⟩ := hnew
      rfl
  | registerIdentity accts fidAccount wallet fid country =>
      obtain ⟨state, record, identity, hstate, hrecord, -, howner, -, -, haddress, hnone,
        ⟨hwallet, -, -, hirs⟩, hstorages, hidentities⟩ :=
        registerIdentity_ok (fun k a ha ↦ (hL.identities k a ha).2) h
      constructor
      · refine ⟨hfiled, ?_⟩
        rw [hidentities]
        refine hL.identities.update fun a ha ↦ ?_
        obtain rfl := Option.some.inj ha
        refine ⟨by rw [haddress, hirs, hwallet], ?_⟩
        rw [hwallet, ← howner]
        exact hL.filed.owned _ record (view_eq_some.2 hrecord)
      · refine ⟨[.enrolled accts.irsState accts.walletIdentity], .single
          (.enrolled (n := state.registeredCount) ?_ ?_ (roster_count hstorages) ?_)⟩
        · simp [roster, view_eq_some.2 hstate]
        · simp [roster, hnone]
        · rw [roster_group hidentities, Option.map_some, hirs]
  | submitOnboardingApplication applicant irsState application wallet =>
      have hframe := Irs.frame_submitOnboardingApplication h
      exact hL.of_tables hfiled (hframe.table_eq (by decide)) (hframe.table_eq (by decide))
  | reviewOnboardingApplication authority irsState registryState application approved =>
      have hframe := Irs.frame_reviewOnboardingApplication h
      exact hL.of_tables hfiled (hframe.table_eq (by decide)) (hframe.table_eq (by decide))
  | cancelOnboardingApplication authority irsState application =>
      have hframe := Irs.frame_cancelOnboardingApplication h
      exact hL.of_tables hfiled (hframe.table_eq (by decide)) (hframe.table_eq (by decide))
  | setIdentityActivation owner irsState walletIdentity active =>
      obtain ⟨identity, hidentity, hwritten⟩ := setIdentityActivation_ok h
      exact hwritten.moves hidentity rfl rfl hL hfiled
  | updateIdentity accts newFid =>
      obtain ⟨identity, hidentity, hwritten⟩ := updateIdentity_ok h
      exact hwritten.moves hidentity rfl rfl hL hfiled
  | updateCountry accts newCountry =>
      obtain ⟨identity, hidentity, hwritten⟩ := updateCountry_ok h
      exact hwritten.moves hidentity rfl rfl hL hfiled
  | removeIdentity accts => exact (removeIdentity_ok h).moves hL hfiled
  | removeOwnIdentity owner irsState walletIdentity =>
      exact (removeOwnIdentity_ok h).moves hL hfiled

/-- A recovery moves the roster through the calls that finalize it. -/
theorem finalizeCalls_moves [Borsh] {operator : Token.OperatorAccounts}
    {accts : Token.FinalizeAccounts} {lost : WalletIdentity} {L₁ L₂ : Ledger}
    (h : Token.FinalizeCalls L L' signers operator accts lost L₁ L₂) (hL : Enrolled L) :
    Enrolled L' ∧ Moves L L' := by
  obtain ⟨hL₁, hmoves₁⟩ := process_moves (i := .updateIdentity _ _) h.identity hL
  obtain ⟨hL₂, hmoves₂⟩ := process_moves (i := .updateCountry _ _) h.country hL₁
  obtain ⟨hL', hmoves⟩ := process_moves (i := .removeIdentity _) h.removed hL₂
  exact ⟨hL', (hmoves₁.trans hmoves₂).trans hmoves⟩

theorem Enrolled.step [Borsh] {l : Platform.Label} (hL : Enrolled L) (h : Platform.Step L l L') :
    Enrolled L' ∧ Moves L L' := by
  have hfiled : Fid.Filed L' := (hL.filed.step h).1
  have hframe : ∀ S, Frame S L L' → kind IdentityRegistryStorageState ∉ S →
      kind WalletIdentity ∉ S → Enrolled L' ∧ Moves L L' := fun S hS hstorage hidentity ↦
    hL.of_tables hfiled (hS.table_eq hstorage) (hS.table_eq hidentity)
  cases h with
  | instruction signers i hexternal h =>
      cases i with
      | core i =>
          by_cases hi : i.Finalizes
          · obtain ⟨operator, accts, lostWallet, newWallet, amount, hcore⟩ := hi
            have hrun := process_core h
            rw [hcore] at hrun
            obtain ⟨_, lost, L₁, L₂, -, -, -, -, -, -, -, hcalls⟩ := Token.finalizeRecovery_ok hrun
            exact finalizeCalls_moves hcalls hL
          · exact hframe _ (frame_core_of_not_finalizes hi h) (by decide) (by decide)
      | fid i => exact hframe _ (Fid.frame h) (by decide) (by decide)
      | irs i => exact process_moves h hL
      | irp i => exact hframe _ (Irp.frame h) (by decide) (by decide)
  | environment h => exact hframe _ h (by decide) (by decide)

end Moves

/-! ## Counters -/

/-- Neither the FID program nor the identity storage has accounts yet. -/
structure Unenrolled (L : Ledger) : Prop where
  unopened : Fid.Unopened L
  storages : ∀ k, L.view IdentityRegistryStorageState k = none
  identities : ∀ k, L.view WalletIdentity k = none

/-- The identities that are registered under a storage. -/
def registered (L : Ledger) (irs : Pubkey) : Set Pubkey :=
  {k | ∃ identity, L.view WalletIdentity k = some identity ∧ identity.irs = irs}

/-- The counters are right, and no removal takes one below zero. -/
structure Counted [Borsh] (L : Ledger) : Prop where
  count : ∀ irs state, L.view IdentityRegistryStorageState irs = some state →
    (registered L irs).Finite ∧ state.registeredCount = (registered L irs).ncard
  remove : ∀ signers accts, removeIdentity L signers accts ≠ .error (.irs .arithmeticOverflow)
  removeOwn : ∀ signers owner irsState walletIdentity,
    removeOwnIdentity L signers owner irsState walletIdentity ≠ .error (.irs .arithmeticOverflow)

variable {L L' : Ledger}

theorem Unenrolled.enrolled (h : Unenrolled L) : Enrolled L := by
  refine ⟨h.unopened.filed, fun k a ha ↦ ?_⟩
  rw [h.identities] at ha
  exact nomatch ha

theorem Unenrolled.sound (h : Unenrolled L) : (roster L).Sound where
  opened hm := by simp [roster, h.identities] at hm
  counted hn := by simp [roster, h.storages] at hn

theorem members_roster (L : Ledger) (irs : Pubkey) :
    (roster L).members irs = registered L irs := by
  ext k
  simp [Roster.members, roster, registered, Option.map_eq_some_iff]

/-- The storage of an identity counts it. -/
theorem registeredCount_pos (hsound : (roster L).Sound) {irsState k : Pubkey}
    {state : IdentityRegistryStorageState} {identity : WalletIdentity}
    (hstate : L.accounts irsState = account state) (hidentity : L.accounts k = account identity)
    (hirs : identity.irs = irsState) : 1 ≤ state.registeredCount := by
  refine hsound.pos (g := irsState) (m := k) ?_ ?_
  · simp [roster, view_eq_some.2 hidentity, hirs]
  · simp [roster, view_eq_some.2 hstate]

theorem load_ne_irs {α : Type} [AccountType α] {k : Pubkey} {e : FracksIrsError} :
    L.load α k ≠ .error (.irs e) := by
  simp [load, bind_eq_error, require_eq_error, okOr_eq_error]

theorem loadIrsState_ne {irsState : Pubkey} {e : FracksIrsError} :
    loadIrsState L irsState ≠ .error (.irs e) := by
  simp [loadIrsState, bind_eq_error, requireSeeds, require_eq_error, load_ne_irs]

theorem authorizeIdentityActor_ne [Borsh] {authority irsKey registryState : Pubkey}
    {state : IdentityRegistryStorageState} :
    authorizeIdentityActor L authority irsKey registryState state ≠
      .error (.irs .arithmeticOverflow) := by
  intro h
  unfold authorizeIdentityActor at h
  split at h
  · cases h
  · simp [bind_eq_error, require_eq_error, okOr_eq_error] at h

theorem counted_of_sound [Borsh] (hsound : (roster L).Sound) : Counted L where
  count irs state hstate := by
    have hcount : (roster L).count irs = some state.registeredCount := by simp [roster, hstate]
    obtain ⟨hfinite, hcard⟩ := hsound.counted hcount
    rw [members_roster] at hfinite hcard
    exact ⟨hfinite, hcard.symm⟩
  remove signers accts h := by
    rw [removeIdentity, bind_eq_error] at h
    rcases h with h | ⟨r, hr, h⟩
    · simp [IdentityAccounts.check, bind_eq_error, requireSigner, requireSeeds, require_eq_error,
        load_ne_irs] at h
    · obtain ⟨hstate, hidentity, hirs⟩ := IdentityAccounts.check_eq_ok hr
      have hpos := registeredCount_pos hsound hstate hidentity hirs
      rw [bind_eq_error] at h
      rcases h with h | ⟨_, -, h⟩
      · exact authorizeIdentityActor_ne h
      · simp [bind_eq_error, okOr_eq_error, checkedSub, hpos] at h
  removeOwn signers owner irsState walletIdentity h := by
    simp only [removeOwnIdentity, requireSigner, requireSeeds, bind_eq_error, require_eq_error,
      loadIrsState_ne, load_ne_irs, okOr_eq_error, reduceCtorEq, and_false, and_true, false_or,
      or_false, exists_false, load_eq_ok, require_eq_ok, ProgramError.irs.injEq,
      exists_const] at h
    obtain ⟨-, state, hstate, identity, hidentity, -, hirs, -, hnone⟩ := h
    have hpos := registeredCount_pos hsound (loadIrsState_ok hstate).1 hidentity hirs
    simp [checkedSub, hpos] at hnone

/-- In every history that starts without identities the counter of a storage is
the number of the identities under it, and no removal takes it below zero. -/
theorem registered_counted [Borsh] {labels : List Platform.Label} (hstart : Unenrolled L)
    (hrun : Run Platform.Step L labels L') : Counted L' := by
  have hinvariant := hrun.invariant (P := fun L ↦ Enrolled L ∧ (roster L).Sound) ?_
    ⟨hstart.enrolled, hstart.sound⟩
  · exact counted_of_sound hinvariant.2
  · rintro L l L' ⟨hL, hsound⟩ hstep
    obtain ⟨hL', moves, hmoves⟩ := hL.step hstep
    exact ⟨hL', Roster.sound_of_run hmoves hsound⟩

/-! ## A wallet that is registered again -/

theorem emptyLedger_unenrolled : Unenrolled Fid.emptyLedger :=
  ⟨Fid.emptyLedger_unopened, fun _ ↦ rfl, fun _ ↦ rfl⟩

def storageOwner : Pubkey := .address 1

def storage : Pubkey := irsAddress storageOwner

def investor : Pubkey := .address 2

def investorIdentity : Pubkey := Irp.walletIdentityAddress storage investor

/-- The owner of the storage acts; the registry account is not looked at. -/
def ownerAccounts : IdentityAccounts where
  authority := storageOwner
  irsState := storage
  registryState := .default
  walletIdentity := investorIdentity

def registration : Instruction :=
  .registerIdentity ownerAccounts (Fid.fidAddress investor) investor (Fid.fidAddress investor) 276

/-- The investor is registered, leaves and is registered again. -/
def enrolmentHistory : List Platform.Label :=
  [.instruction [investor] (.fid (.createFid investor (Fid.fidAddress investor) false 276)),
    .instruction [storageOwner] (.irs (.initializeIrs storageOwner storage storageOwner)),
    .instruction [storageOwner] (.irs registration),
    .instruction [investor] (.irs (.removeOwnIdentity investor storage investorIdentity)),
    .instruction [storageOwner] (.irs registration)]

theorem enrolmentHistory_run : ∃ L,
    Run (@Platform.Step strictBorsh) Fid.emptyLedger enrolmentHistory L ∧
      (L.view WalletIdentity investorIdentity).map WalletIdentity.country = some 276 := by
  obtain ⟨L₁, L₂, L₃, L₄, L₅, h₁, h₂, h₃, h₄, h₅, hlast⟩ : ∃ L₁ L₂ L₃ L₄ L₅,
      @Platform.process strictBorsh Fid.emptyLedger [investor]
        (.fid (.createFid investor (Fid.fidAddress investor) false 276)) = .ok L₁ ∧
      @Platform.process strictBorsh L₁ [storageOwner]
        (.irs (.initializeIrs storageOwner storage storageOwner)) = .ok L₂ ∧
      @Platform.process strictBorsh L₂ [storageOwner] (.irs registration) = .ok L₃ ∧
      @Platform.process strictBorsh L₃ [investor]
        (.irs (.removeOwnIdentity investor storage investorIdentity)) = .ok L₄ ∧
      @Platform.process strictBorsh L₄ [storageOwner] (.irs registration) = .ok L₅ ∧
      (L₅.view WalletIdentity investorIdentity).map WalletIdentity.country = some 276 :=
    ⟨_, _, _, _, _, rfl, rfl, rfl, rfl, rfl, rfl⟩
  have hsigner : ∀ n, ∀ k ∈ [Pubkey.address n], k.External := fun n ↦
    List.forall_mem_singleton.2 (Pubkey.external_address n)
  exact ⟨L₅, .cons (@Platform.Step.instruction strictBorsh _ _ _ _ (hsigner 2) h₁)
    (.cons (@Platform.Step.instruction strictBorsh _ _ _ _ (hsigner 1) h₂)
      (.cons (@Platform.Step.instruction strictBorsh _ _ _ _ (hsigner 1) h₃)
        (.cons (@Platform.Step.instruction strictBorsh _ _ _ _ (hsigner 2) h₄)
          (.single (@Platform.Step.instruction strictBorsh _ _ _ _ (hsigner 1) h₅))))), hlast⟩

theorem enrolmentHistory_counted : ∃ L,
    Run (@Platform.Step strictBorsh) Fid.emptyLedger enrolmentHistory L ∧
      (L.view WalletIdentity investorIdentity).map WalletIdentity.country = some 276 ∧
        @Counted strictBorsh L := by
  obtain ⟨L, hrun, hlast⟩ := enrolmentHistory_run
  exact ⟨L, hrun, hlast, @registered_counted _ _ strictBorsh _ emptyLedger_unenrolled hrun⟩

end Fracks.Irs
