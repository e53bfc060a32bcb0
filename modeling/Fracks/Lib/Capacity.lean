import Mathlib.Algebra.GroupWithZero.Nat
import Mathlib.Data.List.Destutter
import Mathlib.Data.List.Nodup
import Mathlib.Data.List.Sort
import Mathlib.Tactic.Common

/-!
# Lists of limited length

A list of distinct entries with a limit on its length is extended by an entry
that it does not hold while there is room, and shortened by one that it holds.
The size of its Borsh encoding is four bytes for the length and the sizes of its
entries, so the limit bounds it.
-/

namespace Capacity

variable {α : Type*}

/-- At most `limit` entries, all of them different. -/
structure Listed (limit : ℕ) (xs : List α) : Prop where
  nodup : xs.Nodup
  length_le : xs.length ≤ limit

variable {limit : ℕ} {xs : List α} {x : α}

theorem Listed.nil : Listed limit ([] : List α) := ⟨List.nodup_nil, Nat.zero_le _⟩

theorem Listed.add (h : Listed limit xs) (hroom : xs.length < limit) (hnew : x ∉ xs) :
    Listed limit (xs ++ [x]) where
  nodup := by
    refine List.nodup_append.2 ⟨h.nodup, List.nodup_singleton x, fun a ha b hb ↦ ?_⟩
    rw [List.mem_singleton] at hb
    rintro rfl
    exact hnew (hb ▸ ha)
  length_le := by
    rw [List.length_append, List.length_singleton]
    omega

theorem Listed.remove [DecidableEq α] (h : Listed limit xs) : Listed limit (xs.erase x) where
  nodup := h.nodup.erase x
  length_le := List.length_erase_le.trans h.length_le

/-! ## Sizes -/

/-- The size of a Borsh sequence whose entries have the given sizes. -/
def vecSize (size : α → ℕ) (xs : List α) : ℕ := 4 + (xs.map size).sum

/-- The size of a Borsh string. -/
def stringSize (s : String) : ℕ := 4 + s.utf8ByteSize

theorem vecSize_of_width {size : α → ℕ} {width : ℕ} (hsize : ∀ x ∈ xs, size x = width) :
    vecSize size xs = 4 + width * xs.length := by
  have hmap : xs.map size = List.replicate xs.length width := by
    rw [List.eq_replicate_iff]
    simpa using hsize
  rw [vecSize, hmap, List.sum_replicate_nat, Nat.mul_comm]

theorem Listed.vecSize_le {size : α → ℕ} {width : ℕ} (h : Listed limit xs)
    (hsize : ∀ x ∈ xs, size x = width) : vecSize size xs ≤ 4 + width * limit := by
  rw [vecSize_of_width hsize]
  have hlength := Nat.mul_le_mul_left width h.length_le
  omega

/-! ## Detection of repetitions -/

/-- Sorting and dropping adjacent repetitions. -/
def sortDedup (xs : List ℕ) : List ℕ := (xs.mergeSort (· ≤ ·)).destutter (· ≠ ·)

/-- Nothing is dropped exactly when there are no repetitions. -/
theorem length_sortDedup_iff {xs : List ℕ} : (sortDedup xs).length = xs.length ↔ xs.Nodup := by
  have hperm : (xs.mergeSort (· ≤ ·)).Perm xs := List.mergeSort_perm xs _
  have hdedup : sortDedup xs = (xs.mergeSort (· ≤ ·)).dedup :=
    (List.pairwise_mergeSort' (· ≤ ·) xs).destutter_eq_dedup
  rw [hdedup, ← hperm.length_eq, ← hperm.nodup_iff]
  constructor
  · intro hlength
    have heq := (List.dedup_sublist _).eq_of_length hlength
    exact List.dedup_eq_self.1 heq
  · intro hnodup
    rw [List.dedup_eq_self.2 hnodup]

end Capacity
