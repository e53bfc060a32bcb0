import Mathlib.Data.List.Basic
import Mathlib.Tactic.Common

/-!
# First occurrences

From a list whose entries have keys, only the first entry of each key is kept,
and none whose key has been seen before.  No unseen key is lost, and what the
entries of one key agree on is kept with it.
-/

namespace FirstSeen

variable {α κ : Type*} [DecidableEq κ] {key : α → κ} {seen : List κ} {xs : List α} {x : α}

def keepFirst (key : α → κ) : List κ → List α → List α
  | _, [] => []
  | seen, x :: xs =>
      if key x ∈ seen then keepFirst key seen xs else x :: keepFirst key (key x :: seen) xs

/-- What is kept was there and is new. -/
theorem of_mem_keepFirst (h : x ∈ keepFirst key seen xs) : x ∈ xs ∧ key x ∉ seen := by
  induction xs generalizing seen with
  | nil => exact nomatch h
  | cons y ys ih =>
      rw [keepFirst] at h
      split at h
      case isTrue =>
        obtain ⟨hx, hnew⟩ := ih h
        exact ⟨List.mem_cons_of_mem y hx, hnew⟩
      case isFalse hy =>
        rcases List.mem_cons.1 h with rfl | h
        · exact ⟨List.mem_cons_self, hy⟩
        · obtain ⟨hx, hnew⟩ := ih h
          exact ⟨List.mem_cons_of_mem y hx, fun hseen ↦ hnew (List.mem_cons_of_mem _ hseen)⟩

/-- Every unseen key is kept. -/
theorem exists_mem_keepFirst (hx : x ∈ xs) (hnew : key x ∉ seen) :
    ∃ y ∈ keepFirst key seen xs, key y = key x := by
  induction xs generalizing seen with
  | nil => exact nomatch hx
  | cons z zs ih =>
      rw [keepFirst]
      split
      case isTrue hz =>
        rcases List.mem_cons.1 hx with rfl | hx
        · exact absurd hz hnew
        · exact ih hx hnew
      case isFalse hz =>
        by_cases hkey : key x = key z
        · exact ⟨z, List.mem_cons_self, hkey.symm⟩
        · rcases List.mem_cons.1 hx with rfl | hx
          · exact absurd rfl hkey
          · have hnew' : key x ∉ key z :: seen := by simp [hkey, hnew]
            obtain ⟨y, hy, hsame⟩ := ih hx hnew'
            exact ⟨y, List.mem_cons_of_mem z hy, hsame⟩

/-- What is a function of the key survives with the key. -/
theorem exists_mem_keepFirst_eq {β : Type*} {f : α → β}
    (hf : ∀ x ∈ xs, ∀ y ∈ xs, key y = key x → f y = f x) (hx : x ∈ xs) (hnew : key x ∉ seen) :
    ∃ y ∈ keepFirst key seen xs, key y = key x ∧ f y = f x := by
  obtain ⟨y, hy, hsame⟩ := exists_mem_keepFirst hx hnew
  exact ⟨y, hy, hsame, hf x hx y (of_mem_keepFirst hy).1 hsame⟩

end FirstSeen
