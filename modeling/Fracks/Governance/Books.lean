import Fracks.Governance
import Fracks.Lib.Tally
import Fracks.Tables

/-!
# The books of governance

The program as a machine over three tables: the governance states, the proposals
and the vote records.  Each move keeps the totals of every proposal equal to the
weights of its records and the numbers of the proposals without a gap.
-/

namespace Fracks.Governance

open Checked AccountType Ledger Function

/-- The three tables of the program. -/
structure Books where
  governance : Pubkey → Option GovernanceState
  proposals : Pubkey → Option Proposal
  records : Pubkey → Option VoteRecord

namespace Books

variable {B B' : Books} {slot : ℕ}

/-- The weights of the records for a choice on the proposal at `k`. -/
def ballots (B : Books) (k : Pubkey) (c : VoteChoice) (x : Pubkey) : ℕ :=
  (B.records x).elim 0 fun v ↦ if v.proposal = k ∧ v.choice = c then v.weight else 0

/-- What an instruction does to the tables. -/
inductive Move (slot : ℕ) (B : Books) : Books → Prop
  | initialized {g : Pubkey} {state : GovernanceState} :
      B.governance g = none → state.proposalCount = 0 →
        Move slot B { B with governance := update B.governance g (some state) }
  | proposed {g k : Pubkey} {state : GovernanceState} {p : Proposal} :
      B.governance g = some state → B.proposals k = none →
        k = proposalAddress g (state.proposalCount + 1) → p.governanceState = g →
        p.proposalId = state.proposalCount + 1 → (∀ c, votes p c = 0) →
        Move slot B { B with
          governance := update B.governance g
            (some { state with proposalCount := state.proposalCount + 1 })
          proposals := update B.proposals k (some p) }
  | voted {k x : Pubkey} {p : Proposal} {v : VoteRecord} :
      B.proposals k = some p → p.status = .active → slot ≤ p.endSlot → B.records x = none →
        x = voteAddress k v.voter → v.proposal = k →
        Move slot B { B with
          proposals := update B.proposals k
            (some (withVotes p (votes p v.choice + v.weight) v.choice))
          records := update B.records x (some v) }
  | closed {k : Pubkey} {p : Proposal} {status : ProposalStatus} {executedAt : ℤ} :
      B.proposals k = some p → p.status = .active →
        Move slot B { B with
          proposals := update B.proposals k (some { p with status, executedAt }) }

/-! ## Sound books -/

structure Sound (B : Books) : Prop where
  finite : ∀ k c, Tally.Finite (B.ballots k c)
  totals : ∀ k p, B.proposals k = some p → ∀ c, votes p c = Tally.total (B.ballots k c)
  recordKey : ∀ x v, B.records x = some v → x = voteAddress v.proposal v.voter
  recordOf : ∀ x v, B.records x = some v → B.proposals v.proposal ≠ none
  proposalKey : ∀ k p, B.proposals k = some p →
    k = proposalAddress p.governanceState p.proposalId
  numbered : ∀ k p, B.proposals k = some p → ∃ state,
    B.governance p.governanceState = some state ∧ 1 ≤ p.proposalId ∧
      p.proposalId ≤ state.proposalCount
  taken : ∀ g state n, B.governance g = some state → 1 ≤ n → n ≤ state.proposalCount →
    ∃ p, B.proposals (proposalAddress g n) = some p ∧ p.governanceState = g ∧ p.proposalId = n

theorem Sound.empty : Sound ⟨fun _ ↦ none, fun _ ↦ none, fun _ ↦ none⟩ where
  finite _ _ := Tally.finite_zero
  totals _ _ h := nomatch h
  recordKey _ _ h := nomatch h
  recordOf _ _ h := nomatch h
  proposalKey _ _ h := nomatch h
  numbered _ _ h := nomatch h
  taken _ _ _ h := nomatch h

/-- Without a record for it a proposal has no ballots. -/
theorem Sound.ballots_eq_zero (hB : B.Sound) {k : Pubkey} (hk : B.proposals k = none)
    (c : VoteChoice) : B.ballots k c = fun _ ↦ 0 := by
  funext x
  cases hx : B.records x with
  | none => simp [ballots, hx]
  | some v =>
      have hv : v.proposal ≠ k := fun heq ↦ hB.recordOf x v hx (heq ▸ hk)
      simp [ballots, hx, hv]

/-- A new record is a credit to the ballots of its own proposal and choice. -/
theorem ballots_record {x : Pubkey} {v : VoteRecord} (hx : B.records x = none)
    {proposals : Pubkey → Option Proposal} (k : Pubkey) (c : VoteChoice) :
    ballots { B with proposals, records := update B.records x (some v) } k c =
      Tally.credit (B.ballots k c) x (if v.proposal = k ∧ v.choice = c then v.weight else 0) := by
  funext y
  by_cases hy : y = x
  · subst hy
    simp [ballots, Tally.credit, hx]
  · simp [ballots, Tally.credit, hy]

theorem Sound.initialized (hB : B.Sound) {g : Pubkey} {state : GovernanceState}
    (hg : B.governance g = none) (hcount : state.proposalCount = 0) :
    Sound { B with governance := update B.governance g (some state) } where
  finite := hB.finite
  totals := hB.totals
  recordKey := hB.recordKey
  recordOf := hB.recordOf
  proposalKey := hB.proposalKey
  numbered k p hp := by
    obtain ⟨s, hs, hid⟩ := hB.numbered k p hp
    have hne : p.governanceState ≠ g := by
      rintro rfl
      rw [hg] at hs
      exact nomatch hs
    exact ⟨s, (update_of_ne hne _ _).trans hs, hid⟩
  taken g' s n hs hn hle := by
    by_cases hg' : g' = g
    · subst hg'
      obtain rfl : state = s := by simpa using hs
      omega
    · exact hB.taken g' s n ((update_of_ne hg' _ _).symm.trans hs) hn hle

theorem Sound.proposed (hB : B.Sound) {g k : Pubkey} {state : GovernanceState} {p : Proposal}
    (hg : B.governance g = some state) (hk : B.proposals k = none)
    (hkey : k = proposalAddress g (state.proposalCount + 1)) (hof : p.governanceState = g)
    (hid : p.proposalId = state.proposalCount + 1) (hvotes : ∀ c, votes p c = 0) :
    Sound { B with
      governance := update B.governance g
        (some { state with proposalCount := state.proposalCount + 1 })
      proposals := update B.proposals k (some p) } where
  finite := hB.finite
  totals x q hq c := by
    change votes q c = Tally.total (B.ballots x c)
    by_cases hx : x = k
    · subst hx
      obtain rfl : p = q := by simpa using hq
      rw [hB.ballots_eq_zero hk, Tally.total_zero, hvotes]
    · exact hB.totals x q ((update_of_ne hx _ _).symm.trans hq) c
  recordKey := hB.recordKey
  recordOf x v hv := by
    have hne : v.proposal ≠ k := fun heq ↦ hB.recordOf x v hv (heq ▸ hk)
    exact (update_of_ne hne (some p) B.proposals).trans_ne (hB.recordOf x v hv)
  proposalKey x q hq := by
    by_cases hx : x = k
    · subst hx
      obtain rfl : p = q := by simpa using hq
      rw [hkey, hof, hid]
    · exact hB.proposalKey x q ((update_of_ne hx _ _).symm.trans hq)
  numbered x q hq := by
    by_cases hx : x = k
    · subst hx
      obtain rfl : p = q := by simpa using hq
      refine ⟨{ state with proposalCount := state.proposalCount + 1 }, ?_, ?_, hid.le⟩
      · rw [hof]
        exact update_self ..
      · omega
    · obtain ⟨s, hs, hone, hle⟩ := hB.numbered x q ((update_of_ne hx _ _).symm.trans hq)
      by_cases hgq : q.governanceState = g
      · rw [hgq, hg] at hs
        obtain rfl := Option.some.inj hs
        refine ⟨{ state with proposalCount := state.proposalCount + 1 }, ?_, hone,
          Nat.le_succ_of_le hle⟩
        rw [hgq]
        exact update_self ..
      · exact ⟨s, (update_of_ne hgq _ _).trans hs, hone, hle⟩
  taken g' s n hs hn hle := by
    have hold : ∀ s', B.governance g' = some s' → n ≤ s'.proposalCount → ∃ q,
        update B.proposals k (some p) (proposalAddress g' n) = some q ∧
          q.governanceState = g' ∧ q.proposalId = n := by
      intro s' hs' hn'
      obtain ⟨q, hq, hq'⟩ := hB.taken g' s' n hs' hn hn'
      have hne : proposalAddress g' n ≠ k := by
        intro heq
        rw [heq, hk] at hq
        exact nomatch hq
      exact ⟨q, (update_of_ne hne _ _).trans hq, hq'⟩
    by_cases hg' : g' = g
    · subst hg'
      obtain rfl : { state with proposalCount := state.proposalCount + 1 } = s := by
        simpa using hs
      by_cases hlast : n = state.proposalCount + 1
      · subst hlast
        exact ⟨p, by rw [← hkey]; exact update_self .., hof, hid⟩
      · exact hold state hg (Nat.le_of_lt_succ (lt_of_le_of_ne hle hlast))
    · exact hold s ((update_of_ne hg' _ _).symm.trans hs) hle

/-- A proposal may be rewritten under its number, along with the records of it. -/
theorem Sound.rewritten (hB : B.Sound) {k : Pubkey} {p p' : Proposal}
    {records : Pubkey → Option VoteRecord} (hk : B.proposals k = some p)
    (hof : p'.governanceState = p.governanceState) (hid : p'.proposalId = p.proposalId)
    (hfinite : ∀ x c, Tally.Finite (ballots { B with records } x c))
    (htotals : ∀ x q, update B.proposals k (some p') x = some q →
      ∀ c, votes q c = Tally.total (ballots { B with records } x c))
    (hrecords : ∀ x v, records x = some v →
      x = voteAddress v.proposal v.voter ∧ B.proposals v.proposal ≠ none) :
    Sound { B with proposals := update B.proposals k (some p'), records } where
  finite := hfinite
  totals := htotals
  recordKey x v hv := (hrecords x v hv).1
  recordOf x v hv := by
    change update B.proposals k (some p') v.proposal ≠ none
    by_cases hx : v.proposal = k
    · rw [hx, update_self]
      exact Option.some_ne_none p'
    · rw [update_of_ne hx]
      exact (hrecords x v hv).2
  proposalKey x q hq := by
    by_cases hx : x = k
    · subst hx
      obtain rfl : p' = q := by simpa using hq
      rw [hof, hid]
      exact hB.proposalKey x p hk
    · exact hB.proposalKey x q ((update_of_ne hx _ _).symm.trans hq)
  numbered x q hq := by
    by_cases hx : x = k
    · subst hx
      obtain rfl : p' = q := by simpa using hq
      rw [hof, hid]
      exact hB.numbered x p hk
    · exact hB.numbered x q ((update_of_ne hx _ _).symm.trans hq)
  taken g state n hg hn hle := by
    obtain ⟨q, hq, hqof, hqid⟩ := hB.taken g state n hg hn hle
    by_cases hx : proposalAddress g n = k
    · obtain rfl : p = q := Option.some.inj (hk.symm.trans (hx ▸ hq))
      refine ⟨p', ?_, hof.trans hqof, hid.trans hqid⟩
      rw [hx]
      exact update_self ..
    · exact ⟨q, (update_of_ne hx _ _).trans hq, hqof, hqid⟩

theorem Sound.voted (hB : B.Sound) {k x : Pubkey} {p : Proposal} {v : VoteRecord}
    (hk : B.proposals k = some p) (hx : B.records x = none) (hkey : x = voteAddress k v.voter)
    (hof : v.proposal = k) :
    Sound { B with
      proposals := update B.proposals k
        (some (withVotes p (votes p v.choice + v.weight) v.choice))
      records := update B.records x (some v) } := by
  have hballots : ∀ y c, ballots { B with records := update B.records x (some v) } y c =
      Tally.credit (B.ballots y c) x (if v.proposal = y ∧ v.choice = c then v.weight else 0) :=
    fun y c ↦ ballots_record hx y c
  apply hB.rewritten hk
  · exact withVotes_governanceState
  · exact withVotes_proposalId
  · intro y c
    rw [hballots]
    exact (hB.finite y c).credit x _
  · intro y q hq c
    rw [hballots, Tally.total_credit (hB.finite y c)]
    by_cases hy : y = k
    · subst hy
      rw [update_self] at hq
      obtain rfl := Option.some.inj hq
      rw [← hB.totals y p hk c]
      by_cases hc : v.choice = c
      · simp [hc, hof]
      · rw [votes_withVotes_of_ne (Ne.symm hc)]
        simp [hc]
    · rw [update_of_ne hy] at hq
      have hother : ¬ (v.proposal = y ∧ v.choice = c) := fun h ↦ hy (h.1.symm.trans hof)
      rw [if_neg hother, Nat.add_zero]
      exact hB.totals y q hq c
  · intro y w hw
    by_cases hy : y = x
    · subst hy
      rw [update_self] at hw
      obtain rfl := Option.some.inj hw
      rw [hof]
      exact ⟨hkey, by simp [hk]⟩
    · rw [update_of_ne hy] at hw
      exact ⟨hB.recordKey y w hw, hB.recordOf y w hw⟩

theorem Sound.closed (hB : B.Sound) {k : Pubkey} {p : Proposal} {status : ProposalStatus}
    {executedAt : ℤ} (hk : B.proposals k = some p) :
    Sound { B with proposals := update B.proposals k (some { p with status, executedAt }) } := by
  apply hB.rewritten hk
  · rfl
  · rfl
  · exact hB.finite
  · intro x q hq c
    by_cases hx : x = k
    · subst hx
      rw [update_self] at hq
      obtain rfl := Option.some.inj hq
      rw [votes_status]
      exact hB.totals x p hk c
    · rw [update_of_ne hx] at hq
      exact hB.totals x q hq c
  · exact fun x v hv ↦ ⟨hB.recordKey x v hv, hB.recordOf x v hv⟩

theorem Sound.move (hB : B.Sound) (h : B.Move slot B') : B'.Sound := by
  cases h with
  | initialized hg hcount => exact hB.initialized hg hcount
  | proposed hg hk hkey hof hid hvotes => exact hB.proposed hg hk hkey hof hid hvotes
  | voted hk _ _ hx hkey hof => exact hB.voted hk hx hkey hof
  | closed hk _ => exact hB.closed hk

/-! ## One proposal over time -/

/-- What is left of a proposal later on, when it was `p` at `slot`. -/
structure Later (slot : ℕ) (p q : Proposal) : Prop where
  endSlot : q.endSlot = p.endSlot
  status : p.status ≠ .active → q.status = p.status
  votes : (p.endSlot < slot ∨ p.status ≠ .active) → ∀ c, votes q c = Governance.votes p c

theorem Later.refl (slot : ℕ) (p : Proposal) : Later slot p p :=
  ⟨rfl, fun _ ↦ rfl, fun _ _ ↦ rfl⟩

theorem Later.trans {slot' : ℕ} {p q r : Proposal} (h : Later slot p q) (hle : slot ≤ slot')
    (h' : Later slot' q r) : Later slot p r where
  endSlot := h'.endSlot.trans h.endSlot
  status hp := by
    have hq := h.status hp
    exact (h'.status (hq ▸ hp)).trans hq
  votes hp c := by
    have hq : q.endSlot < slot' ∨ q.status ≠ .active := by
      rcases hp with hslot | hstatus
      · exact .inl (h.endSlot ▸ hslot.trans_le hle)
      · exact .inr (h.status hstatus ▸ hstatus)
    exact (h'.votes hq c).trans (h.votes hp c)

theorem Move.later (h : B.Move slot B') {k : Pubkey} {p : Proposal}
    (hp : B.proposals k = some p) : ∃ q, B'.proposals k = some q ∧ Later slot p q := by
  have hkept : ∀ {x : Pubkey} {o : Option Proposal}, k ≠ x →
      ∃ q, update B.proposals x o k = some q ∧ Later slot p q := fun hne ↦
    ⟨p, (update_of_ne hne _ _).trans hp, .refl slot p⟩
  cases h with
  | initialized => exact ⟨p, hp, .refl slot p⟩
  | proposed _ hx =>
      refine hkept fun heq ↦ ?_
      rw [← heq, hp] at hx
      exact nomatch hx
  | @voted x _ p' v hx hactive hopen =>
      by_cases hne : k = x
      · subst hne
        obtain rfl := Option.some.inj (hp.symm.trans hx)
        refine ⟨_, update_self .., ?_, ?_, ?_⟩
        · exact withVotes_endSlot
        · exact fun hclosed ↦ absurd hactive hclosed
        · rintro (hslot | hclosed)
          · omega
          · exact absurd hactive hclosed
      · exact hkept hne
  | @closed x _ status executedAt hx hactive =>
      by_cases hne : k = x
      · subst hne
        obtain rfl := Option.some.inj (hp.symm.trans hx)
        exact ⟨_, update_self .., rfl, fun hclosed ↦ absurd hactive hclosed,
          fun _ _ ↦ votes_status status executedAt⟩
      · exact hkept hne

end Books

end Fracks.Governance
