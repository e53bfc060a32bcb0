import Mathlib.Algebra.Group.Int.Defs
import Mathlib.Algebra.Group.Nat.Defs
import Mathlib.Data.Int.Notation
import Mathlib.Data.List.Forall2
import Mathlib.Data.Nat.Notation
import Mathlib.Tactic.Common

/-!
# Checked computations

Inversion rules for programs written in `Except` and the fixed-width
arithmetic they use.  Machine words are natural numbers (or integers) and the
operations carry the width: a checked operation returns `none` exactly when the
word would overflow, a saturating one stops at the end of the range.
-/

namespace Checked

universe u

variable {ε : Type*} {α β : Type u}

/-! ## Inversion of `Except` programs -/

/-- Fail with `e` unless `c` holds. -/
def require (c : Prop) [Decidable c] (e : ε) : Except ε Unit :=
  if c then .ok () else .error e

/-- The value of an option, or the error `e`. -/
def okOr (o : Option α) (e : ε) : Except ε α :=
  match o with
  | some a => .ok a
  | none => .error e

@[simp] theorem require_eq_ok {c : Prop} [Decidable c] {e : ε} {u : Unit} :
    require c e = .ok u ↔ c := by
  unfold require
  split <;> simp [*]

theorem require_of {c : Prop} [Decidable c] {e : ε} (h : c) : require c e = .ok () := if_pos h

@[simp] theorem okOr_eq_ok {o : Option α} {e : ε} {a : α} :
    okOr o e = .ok a ↔ o = some a := by
  cases o <;> simp [okOr]

@[simp] theorem toOption_eq_some {x : Except ε α} {a : α} :
    x.toOption = some a ↔ x = .ok a := by
  cases x <;> simp [Except.toOption]

/-- A bind succeeds exactly when both of its parts do. -/
@[simp] theorem bind_eq_ok {x : Except ε α} {f : α → Except ε β} {b : β} :
    (x >>= f) = .ok b ↔ ∃ a, x = .ok a ∧ f a = .ok b := by
  cases x <;> simp [bind, Except.bind]

theorem require_eq_error {c : Prop} [Decidable c] {e e' : ε} :
    require c e = .error e' ↔ ¬ c ∧ e = e' := by
  unfold require
  split <;> simp [*]

theorem okOr_eq_error {o : Option α} {e e' : ε} :
    okOr o e = .error e' ↔ o = none ∧ e = e' := by
  cases o <;> simp [okOr]

/-- A bind fails where its first part does, or after it in its second. -/
theorem bind_eq_error {x : Except ε α} {f : α → Except ε β} {e : ε} :
    (x >>= f) = .error e ↔ x = .error e ∨ ∃ a, x = .ok a ∧ f a = .error e := by
  cases x <;> simp [bind, Except.bind]

@[simp] theorem pure_eq_ok {a b : α} : (pure a : Except ε α) = .ok b ↔ a = b := by
  simp [pure, Except.pure]

theorem ok_bind (a : α) (f : α → Except ε β) : (Except.ok a >>= f) = f a := rfl

theorem mapM_eq_ok {f : α → Except ε β} {as : List α} {bs : List β} :
    as.mapM f = .ok bs ↔ List.Forall₂ (fun a b ↦ f a = .ok b) as bs := by
  induction as generalizing bs with
  | nil => simp [pure, Except.pure, eq_comm]
  | cons a as ih =>
      simp only [List.mapM_cons, bind_eq_ok, pure_eq_ok, List.forall₂_cons_left_iff, ih]
      constructor
      · rintro ⟨b, hb, others, hothers, rfl⟩
        exact ⟨b, others, hb, hothers, rfl⟩
      · rintro ⟨b, others, hb, hothers, rfl⟩
        exact ⟨b, hb, others, hothers, rfl⟩

/-! ## Unsigned 64-bit words -/

def u64Max : ℕ := 2 ^ 64 - 1

def checkedAdd (a b : ℕ) : Option ℕ := if a + b ≤ u64Max then some (a + b) else none

def checkedSub (a b : ℕ) : Option ℕ := if b ≤ a then some (a - b) else none

def checkedMul (a b : ℕ) : Option ℕ := if a * b ≤ u64Max then some (a * b) else none

def saturatingAdd (a b : ℕ) : ℕ := min (a + b) u64Max

def saturatingSub (a b : ℕ) : ℕ := a - b

@[simp] theorem checkedAdd_eq_some {a b c : ℕ} :
    checkedAdd a b = some c ↔ a + b ≤ u64Max ∧ c = a + b := by
  unfold checkedAdd
  split <;> simp [*, eq_comm]

@[simp] theorem checkedSub_eq_some {a b c : ℕ} :
    checkedSub a b = some c ↔ b ≤ a ∧ c = a - b := by
  unfold checkedSub
  split <;> simp [*, eq_comm]

@[simp] theorem checkedMul_eq_some {a b c : ℕ} :
    checkedMul a b = some c ↔ a * b ≤ u64Max ∧ c = a * b := by
  unfold checkedMul
  split <;> simp [*, eq_comm]

theorem checkedSub_eq_some' {a b c : ℕ} : checkedSub a b = some c ↔ a = c + b := by
  rw [checkedSub_eq_some]
  omega

theorem saturatingSub_le (a b : ℕ) : saturatingSub a b ≤ a := Nat.sub_le a b

/-! ## Unsigned 32-bit words -/

def u32Max : ℕ := 2 ^ 32 - 1

/-- A result that must fit in 32 bits. -/
def checkedU32 (n : ℕ) : Option ℕ := if n ≤ u32Max then some n else none

@[simp] theorem checkedU32_eq_some {n m : ℕ} :
    checkedU32 n = some m ↔ n ≤ u32Max ∧ m = n := by
  unfold checkedU32
  split <;> simp [*, eq_comm]

/-! ## Unsigned 128-bit words -/

def u128Max : ℕ := 2 ^ 128 - 1

/-- A result that must fit in 128 bits. -/
def checkedU128 (n : ℕ) : Option ℕ := if n ≤ u128Max then some n else none

@[simp] theorem checkedU128_eq_some {n m : ℕ} :
    checkedU128 n = some m ↔ n ≤ u128Max ∧ m = n := by
  unfold checkedU128
  split <;> simp [*, eq_comm]

/-! ## Signed 64-bit words -/

def i64Max : ℤ := 2 ^ 63 - 1

def i64Min : ℤ := -2 ^ 63

def saturatingSubI64 (a b : ℤ) : ℤ := max i64Min (min (a - b) i64Max)

def checkedAddI64 (a b : ℤ) : Option ℤ :=
  if i64Min ≤ a + b ∧ a + b ≤ i64Max then some (a + b) else none

@[simp] theorem checkedAddI64_eq_some {a b c : ℤ} :
    checkedAddI64 a b = some c ↔ (i64Min ≤ a + b ∧ a + b ≤ i64Max) ∧ c = a + b := by
  unfold checkedAddI64
  split <;> simp [*, eq_comm]

end Checked
