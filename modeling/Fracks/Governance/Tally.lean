import Fracks.Deployment
import Fracks.Governance.Books

/-!
# The tally of a vote

Every instruction of the program is a move of the books, so the books are sound
in every reachable ledger, and a proposal that is closed stays as it was.
-/

namespace Fracks.Governance

open Checked AccountType Ledger Runs Function

variable {L L' : Ledger} {signers : List Pubkey}

/-- The books that a ledger holds. -/
def books (L : Ledger) : Books where
  governance := L.view GovernanceState
  proposals := L.view Proposal
  records := L.view VoteRecord

theorem initializeGovernance_move {owner governanceState tokenMint : Pubkey}
    {quorumBps defaultThresholdBps : ℕ}
    (h : initializeGovernance L signers owner governanceState tokenMint quorumBps
      defaultThresholdBps = .ok L') :
    (books L).Move L.slot (books L') ∧ L'.slot = L.slot := by
  simp only [initializeGovernance, bind_eq_ok] at h
  obtain ⟨_, -, _, -, _, -, hinit⟩ := h
  obtain ⟨-, hnone, hgov⟩ := view_initRecord hinit
  have hframe : Frame [.governanceState] L L' := .initRecord hinit (.head _)
  have hmove : (books L).Move L.slot { books L with
      governance := Function.update (L.view GovernanceState) governanceState
        (some ⟨tokenMint, owner, quorumBps, defaultThresholdBps, 0, L.now⟩) } :=
    .initialized hnone rfl
  refine ⟨?_, initRecord_slot hinit⟩
  convert hmove using 1
  simp only [books, hgov, hframe.table_eq (α := Proposal) (by decide),
    hframe.table_eq (α := VoteRecord) (by decide)]

theorem createProposal_move {creator governanceState proposal : Pubkey}
    {args : CreateProposalArgs}
    (h : createProposal L signers creator governanceState proposal args = .ok L') :
    (books L).Move L.slot (books L') ∧ L'.slot = L.slot := by
  simp only [createProposal, bind_eq_ok, load_eq_ok, requireSigner_eq_ok, require_eq_ok, okOr_eq_ok,
    checkedAdd_eq_some, exists_const, Except.ok.injEq] at h
  obtain ⟨-, state, hstate, _, ⟨-, rfl⟩, -, _, -, _, -, _, ⟨-, rfl⟩, L₁, hinit, rfl⟩ := h
  obtain ⟨hkey, hnone, hproposals⟩ := view_initRecord hinit
  have hframe : Frame [.proposal] L L₁ := .initRecord hinit (.head _)
  have hstate₁ : L₁.accounts governanceState = account state :=
    hframe.accounts_eq (by decide) hstate
  have hmove : (books L).Move L.slot { books L with
      governance := Function.update (L.view GovernanceState) governanceState
        (some { state with proposalCount := state.proposalCount + 1 })
      proposals := Function.update (L.view Proposal) proposal
        (some ⟨governanceState, state.proposalCount + 1, creator, args.descriptionHash,
          args.proposalType, args.thresholdBps.getD state.defaultThresholdBps,
          args.quorumBps.getD state.quorumBps, args.snapshotSlot, L.slot, args.endSlot, 0, 0, 0,
          .active, L.now, 0⟩) } :=
    .proposed (view_eq_some.2 hstate) hnone hkey rfl rfl (fun c ↦ by cases c <;> rfl)
  have hslot : L₁.slot = L.slot := initRecord_slot hinit
  refine ⟨?_, hslot⟩
  convert hmove using 1
  simp only [books, view_put, view_overwrite hstate₁ (α := Proposal) (by decide),
    view_overwrite hstate₁ (α := VoteRecord) (by decide), hproposals,
    hframe.table_eq (α := GovernanceState) (by decide),
    hframe.table_eq (α := VoteRecord) (by decide)]

theorem castVote_move {voter proposal voteRecord : Pubkey} {choice : VoteChoice} {weight : ℕ}
    (h : castVote L signers voter proposal voteRecord choice weight = .ok L') :
    (books L).Move L.slot (books L') ∧ L'.slot = L.slot := by
  simp only [castVote, bind_eq_ok, load_eq_ok, requireSigner_eq_ok, require_eq_ok, okOr_eq_ok,
    checkedAdd_eq_some, exists_const, Except.ok.injEq] at h
  obtain ⟨-, p, hp, -, hactive, hopen, _, ⟨-, rfl⟩, L₁, hinit, rfl⟩ := h
  obtain ⟨hkey, hnone, hrecords⟩ := view_initRecord hinit
  have hframe : Frame [.voteRecord] L L₁ := .initRecord hinit (.head _)
  have hp₁ : L₁.accounts proposal = account p := hframe.accounts_eq (by decide) hp
  have hmove := @Books.Move.voted L.slot (books L) proposal voteRecord p
    ⟨proposal, voter, choice, weight, L.slot⟩ (view_eq_some.2 hp) hactive hopen hnone hkey rfl
  have hslot : L₁.slot = L.slot := initRecord_slot hinit
  refine ⟨?_, hslot⟩
  convert hmove using 1
  simp only [books, view_put, view_overwrite hp₁ (α := GovernanceState) (by decide),
    view_overwrite hp₁ (α := VoteRecord) (by decide), hrecords,
    hframe.table_eq (α := GovernanceState) (by decide), hframe.table_eq (α := Proposal) (by decide)]

/-- The two ways out of the active state. -/
theorem closed_move {proposal : Pubkey} {p : Proposal} (hp : L.accounts proposal = account p)
    (hactive : p.status = .active) (status : ProposalStatus) (executedAt : ℤ) :
    (books L).Move L.slot (books (L.put proposal { p with status, executedAt })) := by
  have hmove : (books L).Move L.slot { books L with
      proposals := Function.update (L.view Proposal) proposal
        (some { p with status, executedAt }) } :=
    .closed (view_eq_some.2 hp) hactive
  convert hmove using 1
  simp only [books, view_put, view_overwrite hp (α := GovernanceState) (by decide),
    view_overwrite hp (α := VoteRecord) (by decide)]

theorem executeProposal_ok {executor governanceState proposal : Pubkey}
    {totalSnapshotWeight : ℕ}
    (h : executeProposal L signers executor governanceState proposal totalSnapshotWeight =
      .ok L') :
    ∃ p : Proposal, L.accounts proposal = account p ∧ p.status = .active ∧
      L' = L.put proposal { p with status := .executed, executedAt := L.now } := by
  simp only [executeProposal, bind_eq_ok, requireSigner_eq_ok, load_eq_ok, exists_const,
    modify_eq_ok, require_eq_ok, Except.ok.injEq] at h
  obtain ⟨-, _, -, p, _, hp, ⟨-, -, hactive, -, _, -, _, -, _, -, -, _, -, -, _, -, -, rfl⟩,
    rfl⟩ := h
  exact ⟨p, hp, hactive, rfl⟩

theorem cancelProposal_ok {authority governanceState proposal : Pubkey}
    (h : cancelProposal L signers authority governanceState proposal = .ok L') :
    ∃ p : Proposal, L.accounts proposal = account p ∧ p.status = .active ∧
      L' = L.put proposal { p with status := .cancelled } := by
  simp only [cancelProposal, bind_eq_ok, requireSigner_eq_ok, load_eq_ok, exists_const,
    modify_eq_ok, require_eq_ok, Except.ok.injEq] at h
  obtain ⟨-, _, -, p, _, hp, ⟨-, hactive, -, rfl⟩, rfl⟩ := h
  exact ⟨p, hp, hactive, rfl⟩

/-- Every instruction is a move of the books and takes no time. -/
theorem process_move {i : Instruction} (h : process L signers i = .ok L') :
    (books L).Move L.slot (books L') ∧ L'.slot = L.slot := by
  cases i with
  | initializeGovernance => exact initializeGovernance_move h
  | createProposal => exact createProposal_move h
  | castVote => exact castVote_move h
  | executeProposal =>
      obtain ⟨p, hp, hactive, rfl⟩ := executeProposal_ok h
      exact ⟨closed_move hp hactive .executed L.now, rfl⟩
  | cancelProposal =>
      obtain ⟨p, hp, hactive, rfl⟩ := cancelProposal_ok h
      exact ⟨closed_move hp hactive .cancelled p.executedAt, rfl⟩

/-- A step moves the books or leaves them, and never goes back in time. -/
theorem Step.books {l : Label} (h : Step L l L') :
    (Governance.books L' = Governance.books L ∨
      (Governance.books L).Move L.slot (Governance.books L')) ∧ L.slot ≤ L'.slot := by
  cases h with
  | instruction signers i h =>
      obtain ⟨hmove, hslot⟩ := process_move h
      exact ⟨.inr hmove, hslot.ge⟩
  | environment S hframe hS hslot =>
      have hbooks : Governance.books L' = Governance.books L := by
        simp only [Governance.books, hframe.table_eq (α := GovernanceState) (hS _ (by decide)),
          hframe.table_eq (α := Proposal) (hS _ (by decide)),
          hframe.table_eq (α := VoteRecord) (hS _ (by decide))]
      exact ⟨.inl hbooks, hslot⟩

theorem Step.sound {l : Label} (hL : (Governance.books L).Sound) (h : Step L l L') :
    (Governance.books L').Sound := by
  rcases h.books.1 with hsame | hmove
  · rwa [hsame]
  · exact hL.move hmove

theorem Step.later {l : Label} (h : Step L l L') {k : Pubkey} {p : Proposal}
    (hp : L.view Proposal k = some p) :
    ∃ q, L'.view Proposal k = some q ∧ Books.Later L.slot p q := by
  rcases h.books.1 with hsame | hmove
  · exact ⟨p, (congrFun (congrArg Books.proposals hsame) k).trans hp, .refl _ p⟩
  · exact hmove.later hp

theorem run_later {labels : List Label} (h : Run Step L labels L') {k : Pubkey} {p : Proposal}
    (hp : L.view Proposal k = some p) :
    ∃ q, L'.view Proposal k = some q ∧ Books.Later L.slot p q := by
  induction h generalizing p with
  | nil L => exact ⟨p, hp, .refl _ p⟩
  | cons hstep _ ih =>
      obtain ⟨q, hq, hlater⟩ := hstep.later hp
      obtain ⟨r, hr, hrest⟩ := ih hq
      exact ⟨r, hr, hlater.trans hstep.books.2 hrest⟩

/-! ## The tally of every reachable ledger -/

/-- The ledger has no accounts of the program. -/
structure NoGovernance (L : Ledger) : Prop where
  states : ∀ k, L.view GovernanceState k = none
  proposals : ∀ k, L.view Proposal k = none
  records : ∀ k, L.view VoteRecord k = none

theorem NoGovernance.sound (hL : NoGovernance L) : (books L).Sound := by
  have hbooks : books L = ⟨fun _ ↦ none, fun _ ↦ none, fun _ ↦ none⟩ := by
    simp only [books, funext hL.states, funext hL.proposals, funext hL.records]
  rw [hbooks]
  exact .empty

/-- The weights of the vote records for a choice on a proposal. -/
def recordWeights (L : Ledger) (proposal : Pubkey) (choice : VoteChoice) (x : Pubkey) : ℕ :=
  match L.view VoteRecord x with
  | some v => if v.proposal = proposal ∧ v.choice = choice then v.weight else 0
  | none => 0

theorem ballots_books (k : Pubkey) (c : VoteChoice) :
    (books L).ballots k c = recordWeights L k c := by
  funext x
  simp only [Books.ballots, books, recordWeights]
  cases L.view VoteRecord x <;> rfl

/-- The tally of the votes and the numbers of the proposals. -/
structure Tallied (L : Ledger) : Prop where
  counted : ∀ k p, L.view Proposal k = some p → ∀ choice,
    Tally.Finite (recordWeights L k choice) ∧
      votes p choice = Tally.total (recordWeights L k choice)
  oneRecord : ∀ x y v w, L.view VoteRecord x = some v → L.view VoteRecord y = some w →
    v.proposal = w.proposal → v.voter = w.voter → x = y
  inRange : ∀ g state k p, L.view GovernanceState g = some state → L.view Proposal k = some p →
    p.governanceState = g → 1 ≤ p.proposalId ∧ p.proposalId ≤ state.proposalCount
  consecutive : ∀ g state n, L.view GovernanceState g = some state → 1 ≤ n →
    n ≤ state.proposalCount →
      ∃! k, ∃ p, L.view Proposal k = some p ∧ p.governanceState = g ∧ p.proposalId = n

theorem tallied_of_sound (hL : (books L).Sound) : Tallied L where
  counted k p hp choice := by
    rw [← ballots_books]
    exact ⟨hL.finite k choice, hL.totals k p hp choice⟩
  oneRecord x y v w hv hw hproposal hvoter := by
    rw [hL.recordKey x v hv, hL.recordKey y w hw, hproposal, hvoter]
  inRange g state k p hg hp hof := by
    obtain ⟨s, hs, hid⟩ := hL.numbered k p hp
    rw [hof] at hs
    obtain rfl := Option.some.inj (hs.symm.trans hg)
    exact hid
  consecutive g state n hg hn hle := by
    obtain ⟨p, hp, hof, hid⟩ := hL.taken g state n hg hn hle
    refine ⟨proposalAddress g n, ⟨p, hp, hof, hid⟩, ?_⟩
    rintro k ⟨q, hq, hqof, hqid⟩
    rw [hL.proposalKey k q hq, hqof, hqid]

/-- In every reachable ledger the totals are those of the vote records, one for
each voter, and the proposals are numbered without a gap; from there on a closed
proposal keeps its totals and a proposal that left the active state its status. -/
theorem governance_tally {L₀ : Ledger} {labels : List Label} (hL₀ : NoGovernance L₀)
    (hrun : Run Step L₀ labels L) :
    Tallied L ∧ ∀ labels' L', Run Step L labels' L' → ∀ k p, L.view Proposal k = some p →
      ∃ q, L'.view Proposal k = some q ∧
        ((p.endSlot < L.slot ∨ p.status ≠ .active) → ∀ choice, votes q choice = votes p choice) ∧
        (p.status = .executed → q.status = .executed) ∧
        (p.status = .cancelled → q.status = .cancelled) := by
  have hsound : (books L).Sound :=
    hrun.invariant (P := fun L ↦ (books L).Sound) (fun _ _ _ hL hstep ↦ hstep.sound hL) hL₀.sound
  refine ⟨tallied_of_sound hsound, fun labels' L' hrun' k p hp ↦ ?_⟩
  obtain ⟨q, hq, hlater⟩ := run_later hrun' hp
  refine ⟨q, hq, hlater.votes, fun hexecuted ↦ ?_, fun hcancelled ↦ ?_⟩
  · rw [hlater.status (by rw [hexecuted]; decide), hexecuted]
  · rw [hlater.status (by rw [hcancelled]; decide), hcancelled]

/-! ## A first ballot -/

def governor : Pubkey := .address 1

def voter : Pubkey := .address 2

def firstState : Pubkey := governanceAddress (.address 10)

def firstProposal : Pubkey := proposalAddress firstState 1

def opening : Instruction :=
  .initializeGovernance governor firstState (.address 10) 5000 6000

def proposing : Instruction :=
  .createProposal governor firstState firstProposal
    { descriptionHash := 1, proposalType := .ordinary, thresholdBps := none, quorumBps := none
      endSlot := 100, snapshotSlot := 0 }

def ballot (weight : ℕ) : Instruction :=
  .castVote voter firstProposal (voteAddress firstProposal voter) .yes weight

theorem first_ballot : ∃ L₁ L₂ L₃, process (.ofRecords []) [governor] opening = .ok L₁ ∧
    process L₁ [governor] proposing = .ok L₂ ∧ process L₂ [voter] (ballot 7) = .ok L₃ ∧
      (L₃.view Proposal firstProposal).map (votes · .yes) = some 7 :=
  ⟨_, _, _, rfl, rfl, rfl, rfl⟩

theorem emptyLedger_noGovernance : NoGovernance (.ofRecords []) :=
  ⟨fun _ ↦ rfl, fun _ ↦ rfl, fun _ ↦ rfl⟩

theorem first_ballot_tallied : ∃ L, (L.view Proposal firstProposal).map (votes · .yes) = some 7 ∧
    Tallied L := by
  obtain ⟨L₁, L₂, L₃, hopening, hproposing, hballot, hvotes⟩ := first_ballot
  have hrun : Run Step (.ofRecords []) [.instruction [governor] opening,
      .instruction [governor] proposing, .instruction [voter] (ballot 7)] L₃ :=
    .cons (.instruction _ _ hopening) (.cons (.instruction _ _ hproposing)
      (.single (.instruction _ _ hballot)))
  exact ⟨L₃, hvotes, (governance_tally emptyLedger_noGovernance hrun).1⟩

end Fracks.Governance
