import Mathlib.Algebra.Order.Floor.Semiring
import Mathlib.Algebra.Order.Archimedean.Basic
import Mathlib.Data.Rat.Floor
import Mathlib.Data.Nat.Notation

/-!
# Shares rounded up

Words divide with a remainder that is cut off.  With the divisor less one added before the
division the quotient is the fraction rounded up.
-/

namespace Ceil

/-- The fraction of two numbers, rounded up. -/
def share (n m : ℕ) : ℕ := ⌈(n : ℚ) / m⌉₊

variable {n m k : ℕ}

theorem share_le_iff (hm : 0 < m) : share n m ≤ k ↔ n ≤ k * m := by
  have hpos : (0 : ℚ) < m := by exact_mod_cast hm
  rw [share, Nat.ceil_le, div_le_iff₀ hpos]
  exact_mod_cast Iff.rfl

/-- What the words compute. -/
theorem div_eq_share (hm : 0 < m) : (n + (m - 1)) / m = share n m := by
  refine eq_of_forall_ge_iff fun k ↦ ?_
  rw [share_le_iff hm, ← Nat.lt_succ_iff, Nat.div_lt_iff_lt_mul hm, Nat.succ_mul]
  omega

theorem le_share_mul (hm : 0 < m) : n ≤ share n m * m := (share_le_iff hm).1 le_rfl

theorem share_mono (hm : 0 < m) {n' : ℕ} (h : n ≤ n') : share n m ≤ share n' m :=
  (share_le_iff hm).2 (h.trans (le_share_mul hm))

/-- Parts that are rounded up on their own are worth no less together. -/
theorem share_add_le (hm : 0 < m) (n n' : ℕ) : share (n + n') m ≤ share n m + share n' m := by
  rw [share_le_iff hm, Nat.add_mul]
  exact Nat.add_le_add (le_share_mul hm) (le_share_mul hm)

end Ceil
