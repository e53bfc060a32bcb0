import Fracks.Lib.Capacity
import Fracks.Lib.Roster
import Fracks.Tables

/-!
# The registry of trusted issuers

`fracks_tir`: for every token the issuers whose claims count, each with the
topics it is trusted for.  The state of the registry counts its entries, so its
entries and counters form a roster.
-/

namespace Fracks.Tir

open Checked AccountType Ledger Runs Capacity

def maxTopicsPerIssuer : ℕ := 20

def maxLabelLength : ℕ := 64

def tirSpace : ℕ := 8 + 32 + 32 + 4 + 1

def issuerEntrySpace : ℕ := 8 + 32 + 32 + 4 + (8 * maxTopicsPerIssuer) + 1 + 4 + maxLabelLength + 1

def tirAddress (tokenMint : Pubkey) : Pubkey :=
  .findProgramAddress .tirState [.key tokenMint] (.program .fracksTir)

def issuerEntryAddress (tirState issuerFid : Pubkey) : Pubkey :=
  .findProgramAddress .issuerEntry [.key tirState, .key issuerFid] (.program .fracksTir)

def validateTopics (topics : List ℕ) : Result Unit := do
  require (topics.length ≤ maxTopicsPerIssuer) (.tir .tooManyTopics)
  require ((sortDedup topics).length = topics.length) (.tir .duplicateTopic)

def validateLabel (label : String) : Result Unit :=
  require (label.utf8ByteSize ≤ maxLabelLength) (.tir .labelTooLong)

def initializeTir (L : Ledger) (signers : List Pubkey) (owner tirState tokenMint : Pubkey) :
    Result Ledger := do
  requireSigner signers owner
  L.initRecord owner tirState (tirAddress tokenMint) tirSpace
    { owner, tokenMint, issuerCount := 0 : TrustedIssuersState }

/-- The registry at its seeds, of the owner who signs. -/
def loadTirState (L : Ledger) (signers : List Pubkey) (owner tirState : Pubkey) :
    Result TrustedIssuersState := do
  requireSigner signers owner
  let state ← L.load TrustedIssuersState tirState
  requireSeeds tirState (tirAddress state.tokenMint)
  require (state.owner = owner) (.tir .notOwner)
  .ok state

def addTrustedIssuer (L : Ledger) (signers : List Pubkey)
    (owner tirState issuerEntry issuerFid : Pubkey) (topics : List ℕ) (label : String) :
    Result Ledger := do
  let state ← loadTirState L signers owner tirState
  validateTopics topics
  validateLabel label
  let L ← L.initRecord owner issuerEntry (issuerEntryAddress tirState issuerFid) issuerEntrySpace
    { issuerFid, tir := tirState, allowedTopics := topics, isActive := true, label : IssuerEntry }
  let issuerCount ← okOr (checkedU32 (state.issuerCount + 1)) (.tir .arithmeticOverflow)
  .ok (L.put tirState { state with issuerCount })

/-- The `MutateIssuerEntry` accounts. -/
def mutateIssuerEntry (L : Ledger) (signers : List Pubkey) (owner tirState issuerEntry : Pubkey)
    (f : IssuerEntry → Result IssuerEntry) : Result Ledger := do
  let _ ← loadTirState L signers owner tirState
  L.modify issuerEntry fun entry ↦ do
    requireSeeds issuerEntry (issuerEntryAddress tirState entry.issuerFid)
    require (entry.tir = tirState) (.tir .issuerNotTrusted)
    f entry

def updateIssuerTopics (L : Ledger) (signers : List Pubkey) (owner tirState issuerEntry : Pubkey)
    (newTopics : List ℕ) : Result Ledger :=
  mutateIssuerEntry L signers owner tirState issuerEntry fun entry ↦ do
    validateTopics newTopics
    .ok { entry with allowedTopics := newTopics }

def deactivateIssuer (L : Ledger) (signers : List Pubkey) (owner tirState issuerEntry : Pubkey) :
    Result Ledger :=
  mutateIssuerEntry L signers owner tirState issuerEntry fun entry ↦
    .ok { entry with isActive := false }

def reactivateIssuer (L : Ledger) (signers : List Pubkey) (owner tirState issuerEntry : Pubkey) :
    Result Ledger :=
  mutateIssuerEntry L signers owner tirState issuerEntry fun entry ↦
    .ok { entry with isActive := true }

/-- The entry is closed to the owner. -/
def removeTrustedIssuer (L : Ledger) (signers : List Pubkey)
    (owner tirState issuerEntry : Pubkey) : Result Ledger := do
  let state ← loadTirState L signers owner tirState
  let entry ← L.load IssuerEntry issuerEntry
  requireSeeds issuerEntry (issuerEntryAddress tirState entry.issuerFid)
  require (entry.tir = tirState) (.tir .issuerNotTrusted)
  let issuerCount ← okOr (checkedSub state.issuerCount 1) (.tir .arithmeticOverflow)
  .ok ((L.put tirState { state with issuerCount }).close issuerEntry owner)

def transferOwnership (L : Ledger) (signers : List Pubkey) (owner tirState newOwner : Pubkey) :
    Result Ledger := do
  let state ← loadTirState L signers owner tirState
  require (newOwner ≠ .default) (.tir .invalidOwner)
  .ok (L.put tirState { state with owner := newOwner })

inductive Instruction
  | initializeTir (owner tirState tokenMint : Pubkey)
  | addTrustedIssuer (owner tirState issuerEntry issuerFid : Pubkey) (topics : List ℕ)
      (label : String)
  | updateIssuerTopics (owner tirState issuerEntry : Pubkey) (newTopics : List ℕ)
  | deactivateIssuer (owner tirState issuerEntry : Pubkey)
  | reactivateIssuer (owner tirState issuerEntry : Pubkey)
  | removeTrustedIssuer (owner tirState issuerEntry : Pubkey)
  | transferOwnership (owner tirState newOwner : Pubkey)

def process (L : Ledger) (signers : List Pubkey) : Instruction → Result Ledger
  | .initializeTir owner tirState tokenMint => initializeTir L signers owner tirState tokenMint
  | .addTrustedIssuer owner tirState issuerEntry issuerFid topics label =>
      addTrustedIssuer L signers owner tirState issuerEntry issuerFid topics label
  | .updateIssuerTopics owner tirState issuerEntry newTopics =>
      updateIssuerTopics L signers owner tirState issuerEntry newTopics
  | .deactivateIssuer owner tirState issuerEntry =>
      deactivateIssuer L signers owner tirState issuerEntry
  | .reactivateIssuer owner tirState issuerEntry =>
      reactivateIssuer L signers owner tirState issuerEntry
  | .removeTrustedIssuer owner tirState issuerEntry =>
      removeTrustedIssuer L signers owner tirState issuerEntry
  | .transferOwnership owner tirState newOwner =>
      transferOwnership L signers owner tirState newOwner

def tirKinds : List AccountKind := [.trustedIssuersState, .issuerEntry]

/-! ## The instructions on the tables -/

section Tables

variable {L L' : Ledger} {signers : List Pubkey} {owner tirState issuerEntry : Pubkey}

theorem validateTopics_eq_ok {topics : List ℕ} {u : Unit} :
    validateTopics topics = .ok u ↔ Listed maxTopicsPerIssuer topics := by
  simp only [validateTopics, bind_eq_ok, require_eq_ok, exists_const, length_sortDedup_iff]
  exact ⟨fun h ↦ ⟨h.2, h.1⟩, fun h ↦ ⟨h.length_le, h.nodup⟩⟩

theorem loadTirState_ok {state : TrustedIssuersState}
    (h : loadTirState L signers owner tirState = .ok state) :
    L.accounts tirState = account state := by
  simp only [loadTirState, bind_eq_ok, load_eq_ok, Except.ok.injEq] at h
  obtain ⟨_, -, state, hstate, _, -, _, -, rfl⟩ := h
  exact hstate

/-- A new entry; the counter of its registry is stepped up. -/
theorem addTrustedIssuer_ok {issuerFid : Pubkey} {topics : List ℕ} {label : String}
    (h : addTrustedIssuer L signers owner tirState issuerEntry issuerFid topics label = .ok L') :
    ∃ state : TrustedIssuersState, L.accounts tirState = account state ∧
      Listed maxTopicsPerIssuer topics ∧ label.utf8ByteSize ≤ maxLabelLength ∧
      L.view IssuerEntry issuerEntry = none ∧
      L'.view TrustedIssuersState = Function.update (L.view TrustedIssuersState) tirState
        (some { state with issuerCount := state.issuerCount + 1 }) ∧
      L'.view IssuerEntry = Function.update (L.view IssuerEntry) issuerEntry
        (some { issuerFid, tir := tirState, allowedTopics := topics, isActive := true, label }) ∧
      Frame tirKinds L L' := by
  simp only [addTrustedIssuer, validateLabel, bind_eq_ok, validateTopics_eq_ok, require_eq_ok,
    okOr_eq_ok, checkedU32_eq_some, exists_const, Except.ok.injEq] at h
  obtain ⟨state, hload, htopics, hlabel, L₁, hinit, n, ⟨-, rfl⟩, rfl⟩ := h
  have hstate := loadTirState_ok hload
  obtain ⟨-, hnone, hentries⟩ := view_initRecord hinit
  have hframe : Frame [.issuerEntry] L L₁ := .initRecord hinit (by decide)
  have hkept : L₁.accounts tirState = account state := hframe.accounts_eq (by decide) hstate
  refine ⟨state, hstate, htopics, hlabel, hnone, ?_, ?_, ?_⟩
  · rw [view_put, hframe.table_eq (by decide)]
  · rw [view_overwrite hkept (by decide), hentries]
  · exact (hframe.mono (by decide)).trans (.put hkept (by decide))

theorem addTrustedIssuer_eq {L₁ : Ledger} {issuerFid : Pubkey} {topics : List ℕ} {label : String}
    {state : TrustedIssuersState} (hload : loadTirState L signers owner tirState = .ok state)
    (htopics : Listed maxTopicsPerIssuer topics) (hlabel : label.utf8ByteSize ≤ maxLabelLength)
    (hinit : L.initRecord owner issuerEntry (issuerEntryAddress tirState issuerFid)
      issuerEntrySpace (⟨issuerFid, tirState, topics, true, label⟩ : IssuerEntry) = .ok L₁)
    (hcount : state.issuerCount + 1 ≤ u32Max) :
    addTrustedIssuer L signers owner tirState issuerEntry issuerFid topics label =
      .ok (L₁.put tirState { state with issuerCount := state.issuerCount + 1 }) := by
  simp only [addTrustedIssuer, validateLabel, bind_eq_ok, validateTopics_eq_ok, require_eq_ok,
    okOr_eq_ok, checkedU32_eq_some, exists_const]
  exact ⟨state, hload, htopics, hlabel, L₁, hinit, _, ⟨hcount, rfl⟩, rfl⟩

theorem removeTrustedIssuer_ok
    (h : removeTrustedIssuer L signers owner tirState issuerEntry = .ok L') :
    ∃ (state : TrustedIssuersState) (entry : IssuerEntry), L.accounts tirState = account state ∧
      L.accounts issuerEntry = account entry ∧ entry.tir = tirState ∧
      L'.view TrustedIssuersState = Function.update (L.view TrustedIssuersState) tirState
        (some { state with issuerCount := state.issuerCount - 1 }) ∧
      L'.view IssuerEntry = Function.update (L.view IssuerEntry) issuerEntry none ∧
      Frame tirKinds L L' := by
  simp only [removeTrustedIssuer, bind_eq_ok, load_eq_ok, requireSeeds_eq_ok, require_eq_ok,
    okOr_eq_ok, checkedSub_eq_some, exists_const, Except.ok.injEq] at h
  obtain ⟨state, hload, entry, hentry, -, htir, n, ⟨-, rfl⟩, rfl⟩ := h
  have hstate := loadTirState_ok hload
  have hput : Frame tirKinds L (L.put tirState { state with
      issuerCount := state.issuerCount - 1 }) := .put hstate (by decide)
  have hkept : (L.put tirState { state with issuerCount := state.issuerCount - 1 }).accounts
      issuerEntry = account entry := by
    rw [put_accounts_of_ne _ (ne_of_kind hentry hstate (by decide)), hentry]
  refine ⟨state, entry, hstate, hentry, htir, ?_, ?_, hput.trans (.close hkept (by decide))⟩
  · rw [view_close_other hkept (by decide), view_put]
  · rw [view_close, view_overwrite hstate (by decide)]

theorem mutateIssuerEntry_ok {f : IssuerEntry → Result IssuerEntry}
    (h : mutateIssuerEntry L signers owner tirState issuerEntry f = .ok L') :
    ∃ entry entry' : IssuerEntry, L.accounts issuerEntry = account entry ∧
      f entry = .ok entry' ∧ L' = L.put issuerEntry entry' := by
  simp only [mutateIssuerEntry, bind_eq_ok, modify_eq_ok, requireSeeds_eq_ok, require_eq_ok,
    exists_const] at h
  obtain ⟨_, -, entry, entry', hentry, ⟨-, -, hf⟩, rfl⟩ := h
  exact ⟨entry, entry', hentry, hf, rfl⟩

theorem transferOwnership_ok {newOwner : Pubkey}
    (h : transferOwnership L signers owner tirState newOwner = .ok L') :
    ∃ state : TrustedIssuersState, L.accounts tirState = account state ∧
      L' = L.put tirState { state with owner := newOwner } := by
  simp only [transferOwnership, bind_eq_ok, require_eq_ok, exists_const, Except.ok.injEq] at h
  obtain ⟨state, hload, -, rfl⟩ := h
  exact ⟨state, loadTirState_ok hload, rfl⟩

theorem frame {i : Instruction} (h : process L signers i = .ok L') : Frame tirKinds L L' := by
  cases i with
  | initializeTir owner tirState tokenMint =>
      obtain ⟨_, -, hinit⟩ := bind_eq_ok.1 h
      exact .initRecord hinit (by decide)
  | addTrustedIssuer owner tirState issuerEntry issuerFid topics label =>
      obtain ⟨_, -, -, -, -, -, -, hframe⟩ := addTrustedIssuer_ok h
      exact hframe
  | updateIssuerTopics owner tirState issuerEntry newTopics =>
      obtain ⟨_, _, hentry, -, rfl⟩ := mutateIssuerEntry_ok h
      exact .put hentry (by decide)
  | deactivateIssuer owner tirState issuerEntry =>
      obtain ⟨_, _, hentry, -, rfl⟩ := mutateIssuerEntry_ok h
      exact .put hentry (by decide)
  | reactivateIssuer owner tirState issuerEntry =>
      obtain ⟨_, _, hentry, -, rfl⟩ := mutateIssuerEntry_ok h
      exact .put hentry (by decide)
  | removeTrustedIssuer owner tirState issuerEntry =>
      obtain ⟨_, _, -, -, -, -, -, hframe⟩ := removeTrustedIssuer_ok h
      exact hframe
  | transferOwnership owner tirState newOwner =>
      obtain ⟨_, hstate, rfl⟩ := transferOwnership_ok h
      exact .put hstate (by decide)

end Tables

/-! ## The roster of a ledger -/

/-- Registries with their counters, and the entries they count. -/
def roster (L : Ledger) : Roster Pubkey Pubkey where
  count tir := (L.view TrustedIssuersState tir).map TrustedIssuersState.issuerCount
  group k := (L.view IssuerEntry k).map IssuerEntry.tir

section Roster

variable {L L' : Ledger} {signers : List Pubkey} {k : Pubkey}

theorem roster_congr (hstates : L'.view TrustedIssuersState = L.view TrustedIssuersState)
    (hentries : L'.view IssuerEntry = L.view IssuerEntry) : roster L' = roster L := by
  simp only [roster, hstates, hentries]

theorem roster_count {state : TrustedIssuersState}
    (h : L'.view TrustedIssuersState =
      Function.update (L.view TrustedIssuersState) k (some state)) :
    (roster L').count = Function.update (roster L).count k (some state.issuerCount) := by
  funext x
  simp only [roster, h]
  by_cases hx : x = k
  · simp [hx]
  · simp [hx]

theorem roster_group {o : Option IssuerEntry}
    (h : L'.view IssuerEntry = Function.update (L.view IssuerEntry) k o) :
    (roster L').group = Function.update (roster L).group k (o.map IssuerEntry.tir) := by
  funext x
  simp only [roster, h]
  by_cases hx : x = k
  · simp [hx]
  · simp [hx]

/-- An entry that changes stays in its registry. -/
theorem roster_put_entry {entry entry' : IssuerEntry} (h : L.accounts k = account entry)
    (htir : entry'.tir = entry.tir) : roster (L.put k entry') = roster L := by
  have hstates : (L.put k entry').view TrustedIssuersState = L.view TrustedIssuersState :=
    view_overwrite h (by decide)
  refine Roster.ext ?_ ?_
  · simp only [roster, hstates]
  · rw [roster_group (view_put entry'), Option.map_some, htir, Function.update_eq_self_iff]
    simp [roster, view_eq_some.2 h]

/-- Every instruction is a move of the roster or leaves it alone. -/
theorem process_roster {i : Instruction} (h : process L signers i = .ok L') :
    roster L' = roster L ∨ ∃ move, Roster.Step (roster L) move (roster L') := by
  cases i with
  | initializeTir owner tirState tokenMint =>
      obtain ⟨_, -, hinit⟩ := bind_eq_ok.1 h
      obtain ⟨-, hnone, hstates⟩ := view_initRecord hinit
      have hframe : Frame [.trustedIssuersState] L L' := .initRecord hinit (by decide)
      have hentries : L'.view IssuerEntry = L.view IssuerEntry := hframe.table_eq (by decide)
      refine .inr ⟨.opened tirState, .opened ?_ (roster_count hstates) ?_⟩
      · simp [roster, hnone]
      · simp only [roster, hentries]
  | addTrustedIssuer owner tirState issuerEntry issuerFid topics label =>
      obtain ⟨state, hstate, -, -, hnone, hstates, hentries, -⟩ := addTrustedIssuer_ok h
      refine .inr ⟨.enrolled tirState issuerEntry, .enrolled (n := state.issuerCount) ?_ ?_
        (roster_count hstates) (roster_group hentries)⟩
      · simp [roster, view_eq_some.2 hstate]
      · simp [roster, hnone]
  | updateIssuerTopics owner tirState issuerEntry newTopics =>
      obtain ⟨entry, entry', hentry, hf, rfl⟩ := mutateIssuerEntry_ok h
      obtain ⟨_, -, hf⟩ := bind_eq_ok.1 hf
      obtain rfl := Except.ok.inj hf
      exact .inl (roster_put_entry hentry rfl)
  | deactivateIssuer owner tirState issuerEntry =>
      obtain ⟨entry, entry', hentry, hf, rfl⟩ := mutateIssuerEntry_ok h
      obtain rfl := Except.ok.inj hf
      exact .inl (roster_put_entry hentry rfl)
  | reactivateIssuer owner tirState issuerEntry =>
      obtain ⟨entry, entry', hentry, hf, rfl⟩ := mutateIssuerEntry_ok h
      obtain rfl := Except.ok.inj hf
      exact .inl (roster_put_entry hentry rfl)
  | removeTrustedIssuer owner tirState issuerEntry =>
      obtain ⟨state, entry, hstate, hentry, htir, hstates, hentries, -⟩ := removeTrustedIssuer_ok h
      refine .inr ⟨.left tirState issuerEntry, .left (n := state.issuerCount) ?_ ?_
        (roster_count hstates) (roster_group hentries)⟩
      · simp [roster, view_eq_some.2 hstate]
      · simp [roster, view_eq_some.2 hentry, htir]
  | transferOwnership owner tirState newOwner =>
      obtain ⟨state, hstate, rfl⟩ := transferOwnership_ok h
      have hentries : (L.put tirState { state with owner := newOwner }).view IssuerEntry =
          L.view IssuerEntry := view_overwrite hstate (by decide)
      refine .inl (Roster.ext ?_ ?_)
      · rw [roster_count (view_put _), Function.update_eq_self_iff]
        simp [roster, view_eq_some.2 hstate]
      · simp only [roster, hentries]

theorem process_sound {i : Instruction} (h : process L signers i = .ok L')
    (hsound : (roster L).Sound) : (roster L').Sound := by
  rcases process_roster h with hsame | ⟨move, hstep⟩
  · rwa [hsame]
  · exact hstep.sound hsound

/-- The entries of a registry. -/
def issuerEntries (L : Ledger) (tir : Pubkey) : Set Pubkey :=
  {k | ∃ entry, L.view IssuerEntry k = some entry ∧ entry.tir = tir}

theorem members_roster (L : Ledger) (tir : Pubkey) :
    (roster L).members tir = issuerEntries L tir := by
  ext k
  simp [Roster.members, roster, issuerEntries, Option.map_eq_some_iff]

end Roster

end Fracks.Tir
