import Fracks.Lib.Runs
import Mathlib.Data.Set.Card
import Mathlib.Tactic.Common

/-!
# Rosters with counters

Every member belongs to at most one group, and a group that has been opened
keeps a counter.  Members enrol and leave one at a time, and each move steps the
counter of the group; in every roster that the moves lead to, the counter of a
group is the number of its members.
-/

open Runs

@[ext]
structure Roster (G M : Type*) where
  /-- The counter of a group that has been opened. -/
  count : G → Option ℕ
  /-- The group of a member. -/
  group : M → Option G

namespace Roster

inductive Move (G M : Type*)
  | opened (g : G)
  | enrolled (g : G) (m : M)
  | left (g : G) (m : M)

variable {G M : Type*}

def members (r : Roster G M) (g : G) : Set M := {m | r.group m = some g}

/-- Every member is in an opened group, and the counters are right. -/
structure Sound (r : Roster G M) : Prop where
  opened : ∀ {m g}, r.group m = some g → r.count g ≠ none
  counted : ∀ {g n}, r.count g = some n → (r.members g).Finite ∧ (r.members g).ncard = n

/-- The counter of a group with a member is positive. -/
theorem Sound.pos {r : Roster G M} (hr : r.Sound) {g : G} {m : M} {n : ℕ}
    (hm : r.group m = some g) (hn : r.count g = some n) : 0 < n := by
  obtain ⟨hfinite, hcard⟩ := hr.counted hn
  rw [← hcard, Set.ncard_pos hfinite]
  exact ⟨m, hm⟩

variable [DecidableEq G] [DecidableEq M]

inductive Step (r : Roster G M) : Move G M → Roster G M → Prop
  | opened {s : Roster G M} {g : G} :
      r.count g = none → s.count = Function.update r.count g (some 0) → s.group = r.group →
        Step r (.opened g) s
  | enrolled {s : Roster G M} {g : G} {m : M} {n : ℕ} :
      r.count g = some n → r.group m = none →
        s.count = Function.update r.count g (some (n + 1)) →
          s.group = Function.update r.group m (some g) → Step r (.enrolled g m) s
  | left {s : Roster G M} {g : G} {m : M} {n : ℕ} :
      r.count g = some n → r.group m = some g →
        s.count = Function.update r.count g (some (n - 1)) →
          s.group = Function.update r.group m none → Step r (.left g m) s

variable {r s : Roster G M} {l : Move G M} {ls : List (Move G M)}

theorem members_update {m : M} {o : Option G} (h : s.group = Function.update r.group m o) (g : G) :
    s.members g = if o = some g then insert m (r.members g) else r.members g \ {m} := by
  ext x
  simp only [members, Set.mem_ofPred_eq, h]
  by_cases hx : x = m
  · subst hx
    rw [Function.update_self]
    split
    case isTrue ho => simp [ho]
    case isFalse ho => simp [ho]
  · rw [Function.update_of_ne hx]
    split
    case isTrue ho => simp [hx]
    case isFalse ho => simp [hx]

theorem update_ne_none {f : G → Option ℕ} {g g' : G} {n : ℕ} (h : f g ≠ none) :
    Function.update f g' (some n) g ≠ none := by
  by_cases hg : g = g'
  · subst hg
    rw [Function.update_self]
    exact Option.some_ne_none n
  · rwa [Function.update_of_ne hg]

/-- Groups are never closed. -/
theorem Step.opened_of_opened (h : Step r l s) {g : G} (hg : r.count g ≠ none) :
    s.count g ≠ none := by
  cases h with
  | opened _ hcount => exact hcount ▸ update_ne_none hg
  | enrolled _ _ hcount => exact hcount ▸ update_ne_none hg
  | left _ _ hcount => exact hcount ▸ update_ne_none hg

theorem Step.sound (h : Step r l s) (hr : r.Sound) : s.Sound := by
  have hkept : ∀ g, r.count g ≠ none → s.count g ≠ none := fun _ ↦ h.opened_of_opened
  cases h with
  | @opened _ g hnone hcount hgroup =>
      have hmembers : ∀ g', s.members g' = r.members g' := fun g' ↦ by simp [members, hgroup]
      refine ⟨fun {m g'} hm ↦ ?_, fun {g' n} hn ↦ ?_⟩
      · rw [hgroup] at hm
        exact hkept _ (hr.opened hm)
      · rw [hmembers]
        by_cases hg : g' = g
        · subst hg
          rw [hcount, Function.update_self, Option.some.injEq] at hn
          have hempty : r.members g' = ∅ := by
            rw [Set.eq_empty_iff_forall_notMem]
            exact fun m hm ↦ hr.opened hm hnone
          rw [hempty, ← hn, Set.ncard_empty]
          exact ⟨Set.finite_empty, rfl⟩
        · rw [hcount, Function.update_of_ne hg] at hn
          exact hr.counted hn
  | @enrolled _ g m n hn hnew hcount hgroup =>
      refine ⟨fun {x g'} hx ↦ ?_, fun {g' k} hk ↦ ?_⟩
      · apply hkept
        by_cases hxm : x = m
        · subst hxm
          rw [hgroup, Function.update_self] at hx
          cases hx
          rw [hn]
          exact Option.some_ne_none n
        · rw [hgroup, Function.update_of_ne hxm] at hx
          exact hr.opened hx
      · rw [members_update hgroup]
        have hnot : ∀ x, m ∉ r.members x := fun x hx ↦ by
          rw [members, Set.mem_ofPred_eq, hnew] at hx
          exact nomatch hx
        by_cases hg : g' = g
        · subst hg
          obtain ⟨hfinite, hcard⟩ := hr.counted hn
          rw [hcount, Function.update_self, Option.some.injEq] at hk
          rw [if_pos rfl, Set.ncard_insert_of_notMem (hnot g') hfinite, hcard]
          exact ⟨hfinite.insert m, hk⟩
        · rw [hcount, Function.update_of_ne hg] at hk
          rw [if_neg (by simpa using Ne.symm hg), Set.sdiff_singleton_eq_self (hnot g')]
          exact hr.counted hk
  | @left _ g m n hn hm hcount hgroup =>
      refine ⟨fun {x g'} hx ↦ ?_, fun {g' k} hk ↦ ?_⟩
      · apply hkept
        by_cases hxm : x = m
        · subst hxm
          rw [hgroup, Function.update_self] at hx
          exact nomatch hx
        · rw [hgroup, Function.update_of_ne hxm] at hx
          exact hr.opened hx
      · rw [members_update hgroup, if_neg (by simp)]
        by_cases hg : g' = g
        · subst hg
          obtain ⟨hfinite, hcard⟩ := hr.counted hn
          rw [hcount, Function.update_self, Option.some.injEq] at hk
          have hmem : m ∈ r.members g' := hm
          rw [Set.ncard_sdiff_singleton_of_mem hmem, hcard]
          exact ⟨hfinite.sdiff, hk⟩
        · rw [hcount, Function.update_of_ne hg] at hk
          have hnot : m ∉ r.members g' := fun hmem ↦ by
            rw [members, Set.mem_ofPred_eq, hm, Option.some.injEq] at hmem
            exact hg hmem.symm
          rw [Set.sdiff_singleton_eq_self hnot]
          exact hr.counted hk

theorem sound_of_run (h : Run Step r ls s) (hr : r.Sound) : s.Sound :=
  h.invariant (fun _ _ _ hsound hstep ↦ hstep.sound hsound) hr

end Roster
