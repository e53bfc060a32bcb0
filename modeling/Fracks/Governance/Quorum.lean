import Fracks.Governance.Tally

/-!
# The quorum of an execution

The executor states the snapshot weight, and it enters the checks by the quorum
alone: two executions with different weights come apart exactly on a proposal
that passes all other checks and meets the quorum of one weight only.
-/

namespace Fracks.Governance

open Checked AccountType Ledger

variable {L L' : Ledger} {signers : List Pubkey} {executor governanceState proposal : Pubkey}
  {p : Proposal} {w w' : ℕ}

/-- All votes on a proposal. -/
def votesCast (p : Proposal) : ℕ := p.yesVotes + p.noVotes + p.abstainVotes

/-- The votes cast are the quorum share of a snapshot weight. -/
def MeetsQuorum (p : Proposal) (w : ℕ) : Prop :=
  0 < w ∧ ∃ quorumVotes, bpsAmount w p.quorumBps = .ok quorumVotes ∧ quorumVotes ≤ votesCast p

/-- The checks of an execution that do not look at the snapshot weight. -/
structure Executable (L : Ledger) (signers : List Pubkey) (executor governanceState : Pubkey)
    (p : Proposal) : Prop where
  signed : executor ∈ signers
  stateAt : ∃ state : GovernanceState, L.accounts governanceState = account state
  reference : p.governanceState = governanceState
  active : p.status = .active
  ended : p.endSlot < L.slot
  counted : votesCast p ≤ u64Max
  decisive : 0 < p.yesVotes + p.noVotes
  threshold : ∃ requiredYes, bpsAmount (p.yesVotes + p.noVotes) p.thresholdBps = .ok requiredYes ∧
    requiredYes ≤ p.yesVotes

theorem executeProposal_eq_ok (hp : L.accounts proposal = account p) :
    executeProposal L signers executor governanceState proposal w = .ok L' ↔
      Executable L signers executor governanceState p ∧ MeetsQuorum p w ∧
        L' = L.put proposal { p with status := .executed, executedAt := L.now } := by
  simp only [executeProposal, bind_eq_ok, requireSigner_eq_ok, load_eq_ok, exists_const,
    modify_eq_ok, require_eq_ok, okOr_eq_ok, checkedAdd_eq_some, Except.ok.injEq]
  constructor
  · rintro ⟨hsigned, state, hstate, q, _, hq, ⟨hreference, hpositive, hactive, hended, _,
      ⟨-, rfl⟩, _, ⟨hcounted, rfl⟩, quorumVotes, hquorum, hmet, _, ⟨-, rfl⟩, hdecisive,
      requiredYes, hrequired, hthreshold, rfl⟩, rfl⟩
    obtain rfl := account_inj.1 (hp.symm.trans hq)
    exact ⟨⟨hsigned, ⟨state, hstate⟩, hreference, hactive, hended, hcounted, hdecisive,
      requiredYes, hrequired, hthreshold⟩, ⟨hpositive, quorumVotes, hquorum, hmet⟩, rfl⟩
  · rintro ⟨hexecutable, ⟨hpositive, quorumVotes, hquorum, hmet⟩, rfl⟩
    obtain ⟨state, hstate⟩ := hexecutable.stateAt
    obtain ⟨requiredYes, hrequired, hthreshold⟩ := hexecutable.threshold
    have hcounted : p.yesVotes + p.noVotes + p.abstainVotes ≤ u64Max := hexecutable.counted
    have hdecisive : p.yesVotes + p.noVotes ≤ u64Max := by omega
    exact ⟨hexecutable.signed, state, hstate, p, _, hp, ⟨hexecutable.reference, hpositive,
      hexecutable.active, hexecutable.ended, _, ⟨hdecisive, rfl⟩, _, ⟨hcounted, rfl⟩, quorumVotes,
      hquorum, hmet, _, ⟨hdecisive, rfl⟩, hexecutable.decisive, requiredYes, hrequired, hthreshold,
      rfl⟩, rfl⟩

/-- Two executions that differ in the snapshot weight agree exactly if a check that
does not look at the weight fails or the votes meet the quorum of both weights or
of neither; below the quorum share of the weight stated nobody executes. -/
theorem execution_agrees_iff (hp : L.accounts proposal = account p) :
    ((∀ L', executeProposal L signers executor governanceState proposal w = .ok L' ↔
        executeProposal L signers executor governanceState proposal w' = .ok L') ↔
      (Executable L signers executor governanceState p → (MeetsQuorum p w ↔ MeetsQuorum p w'))) ∧
      ∀ quorumVotes, bpsAmount w p.quorumBps = .ok quorumVotes → votesCast p < quorumVotes →
        ∀ L', executeProposal L signers executor governanceState proposal w ≠ .ok L' := by
  constructor
  · simp only [executeProposal_eq_ok hp]
    constructor
    · intro hagree hexecutable
      have hsame := hagree (L.put proposal { p with status := .executed, executedAt := L.now })
      constructor
      · exact fun hmet ↦ (hsame.1 ⟨hexecutable, hmet, rfl⟩).2.1
      · exact fun hmet ↦ (hsame.2 ⟨hexecutable, hmet, rfl⟩).2.1
    · intro hagree L'
      constructor
      · rintro ⟨hexecutable, hmet, rfl⟩
        exact ⟨hexecutable, (hagree hexecutable).1 hmet, rfl⟩
      · rintro ⟨hexecutable, hmet, rfl⟩
        exact ⟨hexecutable, (hagree hexecutable).2 hmet, rfl⟩
  · intro quorumVotes hquorum hbelow L' h
    obtain ⟨-, ⟨-, quorumVotes', hquorum', hmet⟩, -⟩ := (executeProposal_eq_ok hp).1 h
    obtain rfl := Except.ok.inj (hquorum.symm.trans hquorum')
    omega

/-! ## An executor with a small snapshot -/

/-- The ledger once the vote is over. -/
def afterVote (L : Ledger) : Ledger := { L with slot := 101 }

theorem small_snapshot : ∃ L₁ L₂ L₃, process (.ofRecords []) [governor] opening = .ok L₁ ∧
    process L₁ [governor] proposing = .ok L₂ ∧ process L₂ [voter] (ballot 7) = .ok L₃ ∧
      (∃ L₄, executeProposal (afterVote L₃) [voter] voter firstState firstProposal 14 = .ok L₄) ∧
      executeProposal (afterVote L₃) [voter] voter firstState firstProposal 100 =
        .error (.governance .quorumNotMet) ∧
      ∃ p, (afterVote L₃).accounts firstProposal = account p ∧ votesCast p = 7 ∧
        p.quorumBps = 5000 :=
  ⟨_, _, _, rfl, rfl, rfl, ⟨_, rfl⟩, rfl, _, rfl, rfl, rfl⟩

/-- Seven votes are the quorum when the executor says that there are fourteen. -/
theorem executor_chooses_quorum : ¬ ∀ (L : Ledger) (signers : List Pubkey)
    (executor governanceState proposal : Pubkey) (w w' : ℕ),
    (∃ L', executeProposal L signers executor governanceState proposal w = .ok L') ↔
      ∃ L', executeProposal L signers executor governanceState proposal w' = .ok L' := by
  intro hclaim
  obtain ⟨L₁, L₂, L₃, -, -, -, hsmall, hlarge, -⟩ := small_snapshot
  obtain ⟨L', h⟩ := (hclaim (afterVote L₃) [voter] voter firstState firstProposal 14 100).1 hsmall
  rw [hlarge] at h
  exact nomatch h

theorem hundred_below_quorum : ∃ (L : Ledger) (p : Proposal),
    L.accounts firstProposal = account p ∧ votesCast p = 7 ∧
      ∀ L', executeProposal L [voter] voter firstState firstProposal 100 ≠ .ok L' := by
  obtain ⟨L₁, L₂, L₃, -, -, -, -, -, p, hp, hvotes, hquorumBps⟩ := small_snapshot
  refine ⟨afterVote L₃, p, hp, hvotes, ?_⟩
  have hbelow := (@execution_agrees_iff (afterVote L₃) [voter] voter firstState firstProposal p
    100 14 hp).2
  refine hbelow 50 ?_ (by omega)
  rw [hquorumBps]
  rfl

end Fracks.Governance
