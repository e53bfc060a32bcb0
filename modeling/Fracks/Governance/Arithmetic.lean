import Fracks.Governance.Quorum
import Fracks.Lib.Ceil

/-!
# Basis points in words

A share in basis points never exceeds the value it is taken of, but the product before the
division has to fit a word: the exact shares that the words compute, and the exact executions
that fail from arithmetic.
-/

namespace Fracks.Governance

open Checked AccountType Ledger Ceil

variable {L : Ledger} {signers : List Pubkey} {executor governanceState proposal : Pubkey}
  {p : Proposal} {w value bps n : ℕ}

theorem bpsAmount_eq_ok :
    bpsAmount value bps = .ok n ↔ value * bps + 9999 ≤ u64Max ∧ n = share (value * bps) 10000 := by
  have hshare : (value * bps + 9999) / 10000 = share (value * bps) 10000 :=
    div_eq_share (m := 10000) (by decide)
  simp only [bpsAmount, bind_eq_ok, okOr_eq_ok, checkedMul_eq_some, checkedAdd_eq_some,
    Except.ok.injEq]
  constructor
  · rintro ⟨_, ⟨-, rfl⟩, _, ⟨hsum, rfl⟩, rfl⟩
    exact ⟨hsum, hshare⟩
  · rintro ⟨hsum, rfl⟩
    have hproduct : value * bps ≤ u64Max := by omega
    exact ⟨_, ⟨hproduct, rfl⟩, _, ⟨hsum, rfl⟩, hshare⟩

theorem bpsAmount_eq_overflow :
    bpsAmount value bps = .error (.governance .arithmeticOverflow) ↔
      u64Max < value * bps + 9999 := by
  simp only [bpsAmount, bind_eq_error, okOr_eq_error, okOr_eq_ok, checkedMul, checkedAdd,
    reduceCtorEq, and_false, exists_false, or_false, and_true, ite_eq_right_iff, imp_false,
    Option.ite_none_right_eq_some, Option.some.injEq]
  constructor
  · rintro (hproduct | ⟨_, ⟨-, rfl⟩, hsum⟩)
    · omega
    · omega
  · intro hlarge
    by_cases hproduct : value * bps ≤ u64Max
    · exact .inr ⟨_, ⟨hproduct, rfl⟩, by omega⟩
    · exact .inl hproduct

/-- An execution that comes to its arithmetic. -/
structure Votable (L : Ledger) (signers : List Pubkey) (executor governanceState : Pubkey)
    (p : Proposal) (w : ℕ) : Prop where
  signed : executor ∈ signers
  stateAt : ∃ state : GovernanceState, L.accounts governanceState = account state
  reference : p.governanceState = governanceState
  positive : 0 < w
  active : p.status = .active
  ended : p.endSlot < L.slot

/-- Only Anchor reports an account that cannot be loaded. -/
theorem load_ne_governance {α : Type} [AccountType α] {k : Pubkey}
    {e : FracksGovernanceError} : L.load α k ≠ .error (.governance e) := by
  simp [load, bind_eq_error, require_eq_error, okOr_eq_error]

theorem executeProposal_eq_overflow (hp : L.accounts proposal = account p)
    (hcounted : votesCast p ≤ u64Max) :
    executeProposal L signers executor governanceState proposal w =
        .error (.governance .arithmeticOverflow) ↔
      Votable L signers executor governanceState p w ∧
        (u64Max < w * p.quorumBps + 9999 ∨
          share (w * p.quorumBps) 10000 ≤ votesCast p ∧ 0 < p.yesVotes + p.noVotes ∧
            u64Max < (p.yesVotes + p.noVotes) * p.thresholdBps + 9999) := by
  have hdecisive : p.yesVotes + p.noVotes ≤ u64Max :=
    (Nat.le_add_right _ p.abstainVotes).trans hcounted
  have hyesAndNo : checkedAdd p.yesVotes p.noVotes = some (p.yesVotes + p.noVotes) :=
    checkedAdd_eq_some.2 ⟨hdecisive, rfl⟩
  have hall : checkedAdd (p.yesVotes + p.noVotes) p.abstainVotes = some (votesCast p) :=
    checkedAdd_eq_some.2 ⟨hcounted, rfl⟩
  simp only [executeProposal, requireSigner, Ledger.modify, bind_eq_error, require_eq_error,
    require_eq_ok, load_ne_governance, load_eq_ok, hyesAndNo, hall, okOr,
    bpsAmount_eq_overflow, bpsAmount_eq_ok, reduceCtorEq, and_false, false_or, or_false,
    exists_const, exists_false, ProgramError.governance.injEq, Except.ok.injEq, hp, account_inj,
    exists_eq_left']
  constructor
  · rintro ⟨hsigned, state, hstate, hreference, hpositive, hactive, hended, hcase⟩
    refine ⟨⟨hsigned, ⟨state, hstate⟩, hreference, hpositive, hactive, hended⟩, ?_⟩
    rcases hcase with hquorum | ⟨_, ⟨-, rfl⟩, hmet, hvotes, hthreshold⟩
    · exact .inl hquorum
    · exact .inr ⟨hmet, hvotes, hthreshold⟩
  · rintro ⟨⟨hsigned, ⟨state, hstate⟩, hreference, hpositive, hactive, hended⟩, hcase⟩
    refine ⟨hsigned, state, hstate, hreference, hpositive, hactive, hended, ?_⟩
    by_cases hquorum : u64Max < w * p.quorumBps + 9999
    · exact .inl hquorum
    · obtain ⟨hmet, hvotes, hthreshold⟩ := hcase.resolve_left hquorum
      exact .inr ⟨_, ⟨by omega, rfl⟩, hmet, hvotes, hthreshold⟩

/-- The words compute a share exactly when the product less than one short of it fits, and an
execution of a countable tally fails from arithmetic exactly when it comes to a product that
does not. -/
theorem bps_arithmetic_iff (value bps : ℕ) (L : Ledger) (signers : List Pubkey)
    (executor governanceState proposal : Pubkey) (p : Proposal) (w : ℕ) :
    (bpsAmount value bps = .ok ⌈(value * bps : ℚ) / 10000⌉₊ ↔ value * bps + 9999 ≤ u64Max) ∧
    (L.accounts proposal = account p → votesCast p ≤ u64Max →
      (executeProposal L signers executor governanceState proposal w ≠
          .error (.governance .arithmeticOverflow) ↔
        (Votable L signers executor governanceState p w →
          w * p.quorumBps + 9999 ≤ u64Max ∧
            (share (w * p.quorumBps) 10000 ≤ votesCast p → 0 < p.yesVotes + p.noVotes →
              (p.yesVotes + p.noVotes) * p.thresholdBps + 9999 ≤ u64Max)))) := by
  constructor
  · have hshare : ⌈(value * bps : ℚ) / 10000⌉₊ = share (value * bps) 10000 := by
      rw [share]
      push_cast
      rfl
    rw [bpsAmount_eq_ok, hshare, and_iff_left rfl]
  · intro hp hcounted
    rw [ne_eq, executeProposal_eq_overflow hp hcounted]
    push Not
    rfl

theorem large_snapshot : ∃ L₁ L₂ L₃, process (.ofRecords []) [governor] opening = .ok L₁ ∧
    process L₁ [governor] proposing = .ok L₂ ∧ process L₂ [voter] (ballot 7) = .ok L₃ ∧
      executeProposal (afterVote L₃) [voter] voter firstState firstProposal (4 * 10 ^ 15) =
        .error (.governance .arithmeticOverflow) ∧
      ∃ p, (afterVote L₃).accounts firstProposal = account p ∧ votesCast p ≤ u64Max ∧
        p.quorumBps ≤ 10000 ∧ p.thresholdBps ≤ 10000 :=
  ⟨_, _, _, rfl, rfl, rfl, rfl, _, rfl, by decide, by decide, by decide⟩

/-- Two quadrillion votes have no share of all basis points, and a vote against a snapshot of
four quadrillion cannot be executed. -/
theorem large_weights_overflow :
    (¬ ∀ value bps, value ≤ u64Max → bps ≤ 10000 →
      bpsAmount value bps = .ok ⌈(value * bps : ℚ) / 10000⌉₊) ∧
    ¬ ∀ (L : Ledger) (signers : List Pubkey) (executor governanceState proposal : Pubkey)
      (p : Proposal) (w : ℕ), L.accounts proposal = account p → votesCast p ≤ u64Max →
        w ≤ u64Max → p.quorumBps ≤ 10000 → p.thresholdBps ≤ 10000 →
          executeProposal L signers executor governanceState proposal w ≠
            .error (.governance .arithmeticOverflow) := by
  constructor
  · intro hclaim
    have hok := hclaim (2 * 10 ^ 15) 10000 (by decide) (by decide)
    have hoverflow : bpsAmount (2 * 10 ^ 15) 10000 =
        .error (.governance .arithmeticOverflow) := rfl
    rw [hoverflow] at hok
    cases hok
  · intro hclaim
    obtain ⟨L₁, L₂, L₃, -, -, -, hoverflow, p, hp, hcounted, hquorum, hthreshold⟩ := large_snapshot
    exact hclaim (afterVote L₃) [voter] voter firstState firstProposal p (4 * 10 ^ 15) hp hcounted
      (by decide) hquorum hthreshold hoverflow

end Fracks.Governance
