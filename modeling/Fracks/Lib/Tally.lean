import Mathlib.Algebra.BigOperators.Finprod
import Mathlib.Data.Set.Card
import Mathlib.Tactic.Common

/-!
# Totals and counts of finitely supported tables

A table gives every key a natural number, all but finitely many of them zero.
Its total is the sum of the entries and its size the number of positive ones.
Writing one entry shifts both by the difference at that key.
-/

namespace Tally

variable {κ : Type*}

/-- Only finitely many entries are positive. -/
def Finite (f : κ → ℕ) : Prop := (Function.support f).Finite

/-- The sum of all entries. -/
noncomputable def total (f : κ → ℕ) : ℕ := ∑ᶠ k, f k

/-- The number of positive entries. -/
noncomputable def positives (f : κ → ℕ) : ℕ := {k | 0 < f k}.ncard

theorem support_eq (f : κ → ℕ) : Function.support f = {k | 0 < f k} := by
  ext k
  simp [Nat.pos_iff_ne_zero]

theorem Finite.positive {f : κ → ℕ} (hf : Finite f) : {k | 0 < f k}.Finite := by
  rw [← support_eq]
  exact hf

theorem finite_zero : Finite (fun _ : κ ↦ 0) := by
  simp [Finite, Function.support]

@[simp] theorem total_zero : total (fun _ : κ ↦ 0) = 0 := by
  simp [total]

@[simp] theorem positives_zero : positives (fun _ : κ ↦ 0) = 0 := by
  simp [positives]

section Update

variable [DecidableEq κ] {f : κ → ℕ}

theorem Finite.update (hf : Finite f) (k : κ) (v : ℕ) : Finite (Function.update f k v) := by
  refine (hf.insert k).subset fun x hx ↦ ?_
  by_cases hxk : x = k
  · exact Set.mem_insert_iff.2 (.inl hxk)
  · refine Set.mem_insert_iff.2 (.inr ?_)
    simpa [Function.mem_support, hxk] using hx

/-- Writing one entry moves the total by the difference at that key. -/
theorem total_update (hf : Finite f) (k : κ) (v : ℕ) :
    total (Function.update f k v) + f k = total f + v := by
  classical
  set s : Finset κ := insert k hf.toFinset with hs
  have hk : k ∈ s := Finset.mem_insert_self k _
  have hsupport : Function.support f ⊆ s := fun x hx ↦ by
    exact Finset.mem_insert_of_mem ((Set.Finite.mem_toFinset hf).2 hx)
  have hsupport' : Function.support (Function.update f k v) ⊆ s := fun x hx ↦ by
    by_cases hxk : x = k
    · simp [hxk, hs]
    · exact hsupport (by simpa [Function.mem_support, hxk] using hx)
  have hnew := finsum_eq_sum_of_support_subset _ hsupport'
  have hold := finsum_eq_sum_of_support_subset _ hsupport
  rw [Finset.sum_update_of_mem hk] at hnew
  have hsplit : ∑ x ∈ s, f x = ∑ x ∈ s \ {k}, f x + f k := by
    rw [← Finset.sum_sdiff (Finset.singleton_subset_iff.2 hk), Finset.sum_singleton]
  simp only [total]
  omega

/-- Writing one entry moves the number of positive entries by at most one. -/
theorem positives_update (hf : Finite f) (k : κ) (v : ℕ) :
    positives (Function.update f k v) + (if 0 < f k then 1 else 0) =
      positives f + (if 0 < v then 1 else 0) := by
  have hfin : ({x | 0 < f x} \ {k}).Finite := hf.positive.subset Set.sdiff_subset
  have hcount : ∀ g : κ → ℕ, (∀ x, x ≠ k → g x = f x) →
      positives g = ({x | 0 < f x} \ {k}).ncard + (if 0 < g k then 1 else 0) := by
    intro g hg
    by_cases hgk : 0 < g k
    · have hset : {x | 0 < g x} = insert k ({x | 0 < f x} \ {k}) := by
        ext x
        by_cases hxk : x = k
        · simp [hxk, hgk]
        · simp [hxk, hg x hxk]
      rw [positives, hset, Set.ncard_insert_of_notMem (by simp) hfin]
      simp [hgk]
    · have hset : {x | 0 < g x} = {x | 0 < f x} \ {k} := by
        ext x
        by_cases hxk : x = k
        · subst hxk
          simpa using hgk
        · simp [hxk, hg x hxk]
      rw [positives, hset]
      simp [hgk]
  have hold := hcount f fun _ _ ↦ rfl
  have hnew := hcount (Function.update f k v) fun x hx ↦ Function.update_of_ne hx v f
  rw [Function.update_self] at hnew
  omega

end Update

/-! ## Credits, debits and moves -/

section Moves

variable [DecidableEq κ] {f : κ → ℕ} {k d : κ} {n : ℕ}

/-- The table after `n` has been added at `k`. -/
def credit (f : κ → ℕ) (k : κ) (n : ℕ) : κ → ℕ := Function.update f k (f k + n)

/-- The table after `n` has been taken off at `k`. -/
def debit (f : κ → ℕ) (k : κ) (n : ℕ) : κ → ℕ := Function.update f k (f k - n)

theorem Finite.credit (hf : Finite f) (k : κ) (n : ℕ) : Finite (credit f k n) := hf.update k _

theorem Finite.debit (hf : Finite f) (k : κ) (n : ℕ) : Finite (debit f k n) := hf.update k _

theorem total_credit (hf : Finite f) (k : κ) (n : ℕ) : total (credit f k n) = total f + n := by
  have h := total_update hf k (f k + n)
  simp only [credit]
  omega

theorem total_debit (hf : Finite f) (hn : n ≤ f k) : total (debit f k n) + n = total f := by
  have h := total_update hf k (f k - n)
  simp only [debit]
  omega

/-- A credit adds a positive entry when it fills an empty one. -/
theorem positives_credit (hf : Finite f) (k : κ) (n : ℕ) :
    positives (credit f k n) = positives f + (if 0 < n ∧ f k + n = n then 1 else 0) := by
  have h := positives_update hf k (f k + n)
  simp only [credit]
  by_cases hn : 0 < n <;> by_cases hk : f k = 0 <;> simp_all [Nat.pos_iff_ne_zero]

/-- A debit takes off a positive entry when it empties it. -/
theorem positives_debit (hf : Finite f) (hn : n ≤ f k) :
    positives (debit f k n) + (if 0 < n ∧ f k - n = 0 then 1 else 0) = positives f := by
  have h := positives_update hf k (f k - n)
  simp only [debit]
  by_cases hpos : 0 < n
  · have hk : 0 < f k := by omega
    by_cases hempty : f k - n = 0
    · simp_all
    · have hleft : 0 < f k - n := Nat.pos_of_ne_zero hempty
      simp_all
  · have hzero : n = 0 := by omega
    subst hzero
    simp_all

/-- The entry at another key is not touched by a debit. -/
theorem debit_of_ne (h : d ≠ k) : debit f k n d = f d := Function.update_of_ne h _ _

theorem credit_of_ne (h : d ≠ k) : credit f k n d = f d := Function.update_of_ne h _ _

/-- A move keeps the total. -/
theorem total_move (hf : Finite f) (d : κ) (hn : n ≤ f k) :
    total (credit (debit f k n) d n) = total f := by
  rw [total_credit (hf.debit k n), total_debit hf hn]

/-- A move changes the number of positive entries by the key that is filled and
the one that is emptied. -/
theorem positives_move (hf : Finite f) (hne : d ≠ k) (hn : n ≤ f k) :
    positives (credit (debit f k n) d n) + (if 0 < n ∧ f k - n = 0 then 1 else 0) =
      positives f + (if 0 < n ∧ f d + n = n then 1 else 0) := by
  have hdebit := positives_debit hf hn
  have hcredit := positives_credit (hf.debit k n) d n
  rw [debit_of_ne hne] at hcredit
  omega

end Moves

/-- One entry is at most the total. -/
theorem le_total {f : κ → ℕ} (hf : Finite f) (k : κ) : f k ≤ total f := by
  classical
  have h := total_update hf k 0
  omega

/-- A positive entry is counted. -/
theorem positives_pos {f : κ → ℕ} (hf : Finite f) {k : κ} (hk : 0 < f k) :
    0 < positives f :=
  (Set.ncard_pos hf.positive).2 ⟨k, hk⟩

/-- Where the entries add up to nothing, none is positive. -/
theorem positives_eq_zero {f : κ → ℕ} (hf : Finite f) (h : total f = 0) : positives f = 0 := by
  have hempty : {k | 0 < f k} = ∅ := by
    rw [Set.eq_empty_iff_forall_notMem]
    intro k hk
    have hle := le_total hf k
    rw [h] at hle
    exact absurd hle (Nat.not_le.2 hk)
  rw [positives, hempty, Set.ncard_empty]

/-- Without positive entries there is nothing to sum or to count. -/
theorem eq_zero_of_forall {f : κ → ℕ} (h : ∀ k, f k = 0) :
    Finite f ∧ total f = 0 ∧ positives f = 0 := by
  obtain rfl : f = fun _ ↦ 0 := funext h
  exact ⟨finite_zero, total_zero, positives_zero⟩

/-! ## Part of a table -/

section Among

variable {p : κ → Prop} [DecidablePred p] {f : κ → ℕ} {k d : κ} {n : ℕ}

/-- The entries at the keys with `p`, the others emptied. -/
def among (p : κ → Prop) [DecidablePred p] (f : κ → ℕ) : κ → ℕ := fun k ↦ if p k then f k else 0

theorem Finite.among (hf : Finite f) (p : κ → Prop) [DecidablePred p] : Finite (among p f) := by
  refine Set.Finite.subset hf fun k hk ↦ ?_
  simp only [Tally.among, Function.mem_support] at hk ⊢
  split at hk
  · exact hk
  · exact absurd rfl hk

theorem among_pos : 0 < among p f k ↔ 0 < f k ∧ p k := by
  unfold among
  split
  case isTrue hp => simp [hp]
  case isFalse hp => simp [hp]

theorem positives_among : positives (among p f) = {k | 0 < f k ∧ p k}.ncard := by
  simp only [positives, among_pos]

section Update

variable [DecidableEq κ]

theorem among_update_of_mem (hk : p k) (v : ℕ) :
    among p (Function.update f k v) = Function.update (among p f) k v := by
  funext x
  by_cases hx : x = k
  · subst hx
    simp [among, hk]
  · simp [among, hx]

theorem among_update_of_not (hk : ¬ p k) (v : ℕ) :
    among p (Function.update f k v) = among p f := by
  funext x
  by_cases hx : x = k
  · subst hx
    simp [among, hk]
  · simp [among, hx]

/-- A credit adds a positive entry to the part when it fills an empty one there. -/
theorem positives_among_credit (hf : Finite f) (k : κ) (n : ℕ) :
    positives (among p (credit f k n)) =
      positives (among p f) + (if p k ∧ 0 < n ∧ f k + n = n then 1 else 0) := by
  by_cases hk : p k
  · have hvalue : among p f k = f k := if_pos hk
    have hcredit := positives_credit (hf.among p) k n
    rw [credit, hvalue] at hcredit
    rw [credit, among_update_of_mem hk, hcredit]
    simp [hk]
  · rw [credit, among_update_of_not hk]
    simp [hk]

/-- A debit takes a positive entry off the part when it empties one there. -/
theorem positives_among_debit (hf : Finite f) (hn : n ≤ f k) :
    positives (among p (debit f k n)) + (if p k ∧ 0 < n ∧ f k - n = 0 then 1 else 0) =
      positives (among p f) := by
  by_cases hk : p k
  · have hvalue : among p f k = f k := if_pos hk
    have hdebit := positives_debit (hf.among p) (hvalue.symm ▸ hn)
    rw [debit, hvalue] at hdebit
    rw [debit, among_update_of_mem hk, ← hdebit]
    simp [hk]
  · rw [debit, among_update_of_not hk]
    simp [hk]

theorem positives_among_move (hf : Finite f) (hne : d ≠ k) (hn : n ≤ f k) :
    positives (among p (credit (debit f k n) d n)) +
        (if p k ∧ 0 < n ∧ f k - n = 0 then 1 else 0) =
      positives (among p f) + (if p d ∧ 0 < n ∧ f d + n = n then 1 else 0) := by
  have hdebit := positives_among_debit (p := p) hf hn
  have hcredit := positives_among_credit (p := p) (hf.debit k n) d n
  rw [debit_of_ne hne] at hcredit
  omega

end Update

end Among

/-! ## Counters that track a table -/

/-- A comparison that is kept exactly when both sides change by the same amount. -/
def Tracks (R : ℕ → ℕ → Prop) : Prop := ∀ x y n, R (x + n) (y + n) ↔ R x y

theorem tracks_eq : Tracks (· = ·) := fun _ _ _ ↦ Nat.add_right_cancel_iff

theorem tracks_le : Tracks (· ≤ ·) := fun _ _ _ ↦ Nat.add_le_add_iff_right

/-- Both sides lose and gain the same. -/
theorem Tracks.shift {R : ℕ → ℕ → Prop} (hR : Tracks R) {x x' y y' n m : ℕ} (h : R x y)
    (hx : x' + n = x + m) (hy : y' + n = y + m) : R x' y' := by
  have hboth : R (x' + n) (y' + n) := by
    rw [hx, hy]
    exact (hR x y m).2 h
  exact (hR x' y' n).1 hboth

end Tally
