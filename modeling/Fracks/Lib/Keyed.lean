import Mathlib.Data.List.Nodup
import Mathlib.Data.List.Pairwise
import Mathlib.Tactic.Common

/-!
# Tables with a primary key

A table is a list of rows with pairwise different keys.  An insert is refused when the
key is taken; an update changes the row under a key and never the key itself.
-/

namespace Keyed

variable {ρ κ : Type*} [DecidableEq κ]

structure Table (key : ρ → κ) where
  rows : List ρ
  nodup : (rows.map key).Nodup

namespace Table

variable {key : ρ → κ}

def empty : Table key := ⟨[], List.nodup_nil⟩

def find (t : Table key) (k : κ) : Option ρ := t.rows.find? fun row ↦ key row = k

def insert (t : Table key) (row : ρ) : Option (Table key) :=
  if h : key row ∈ t.rows.map key then none
  else some ⟨row :: t.rows, by rw [List.map_cons]; exact List.nodup_cons.2 ⟨h, t.nodup⟩⟩

/-- The row that an update of the row under `k` leaves in the place of `row`. -/
def revised (key : ρ → κ) (k : κ) (f : ρ → ρ) (row : ρ) : ρ := if key row = k then f row else row

theorem key_revised {f : ρ → ρ} (hf : ∀ row, key (f row) = key row) (k : κ) (row : ρ) :
    key (revised key k f row) = key row := by
  rw [revised]
  split
  · exact hf row
  · rfl

def update (t : Table key) (k : κ) (f : ρ → ρ) (hf : ∀ row, key (f row) = key row) : Table key where
  rows := t.rows.map (revised key k f)
  nodup := by
    rw [List.map_map]
    have hkeys : key ∘ revised key k f = key := funext (key_revised hf k)
    rw [hkeys]
    exact t.nodup

variable {t u : Table key} {row other : ρ} {k k' : κ} {f : ρ → ρ}
  {hf : ∀ row, key (f row) = key row}

theorem find_eq_some : t.find k = some row ↔ row ∈ t.rows ∧ key row = k := by
  constructor
  · intro h
    have hkey := List.find?_some h
    exact ⟨List.mem_of_find?_eq_some h, by simpa using hkey⟩
  · rintro ⟨hrow, rfl⟩
    have hfound : (t.rows.find? fun other ↦ key other = key row).isSome :=
      List.find?_isSome.2 ⟨row, hrow, by simp⟩
    obtain ⟨other, hother⟩ := Option.isSome_iff_exists.1 hfound
    have hkey : key other = key row := by simpa using List.find?_some hother
    have hsame : other = row :=
      List.inj_on_of_nodup_map t.nodup (List.mem_of_find?_eq_some hother) hrow hkey
    rw [find, hother, hsame]

theorem find_eq_none : t.find k = none ↔ ∀ row ∈ t.rows, key row ≠ k := by
  simp [find]

theorem insert_eq_some : t.insert row = some u ↔
    t.find (key row) = none ∧ u.rows = row :: t.rows := by
  rw [find_eq_none, insert]
  constructor
  · intro h
    split at h
    · cases h
    · rename_i hfresh
      cases h
      exact ⟨fun other hother hkey ↦ hfresh (List.mem_map.2 ⟨other, hother, hkey⟩), rfl⟩
  · rintro ⟨hfresh, hrows⟩
    have hnew : key row ∉ t.rows.map key := by
      intro hmem
      obtain ⟨other, hother, hkey⟩ := List.mem_map.1 hmem
      exact hfresh other hother hkey
    rw [dif_neg hnew]
    cases u
    cases hrows
    rfl

theorem insert_eq_none : t.insert row = none ↔ t.find (key row) ≠ none := by
  cases h : t.insert row with
  | none =>
      refine ⟨fun _ hfree ↦ ?_, fun _ ↦ rfl⟩
      have hfresh : key row ∉ t.rows.map key := by
        intro hmem
        obtain ⟨other, hother, hkey⟩ := List.mem_map.1 hmem
        exact find_eq_none.1 hfree other hother hkey
      rw [insert, dif_neg hfresh] at h
      cases h
  | some u => simp [(insert_eq_some.1 h).1]

theorem find_insert (h : t.insert row = some u) (k : κ) :
    u.find k = if key row = k then some row else t.find k := by
  obtain ⟨-, hrows⟩ := insert_eq_some.1 h
  rw [find, hrows, List.find?_cons]
  by_cases hk : key row = k <;> simp [hk, find]

theorem find_update : (t.update k f hf).find k' =
    if k' = k then (t.find k').map f else t.find k' := by
  have hrows : (t.update k f hf).find k' = (t.find k').map (revised key k f) := by
    rw [find, find, update, List.find?_map]
    have hkeys : (fun row ↦ decide (key row = k')) ∘ revised key k f =
        fun row ↦ decide (key row = k') := by
      funext row
      simp [key_revised hf]
    rw [hkeys]
  rw [hrows]
  cases hfound : t.find k' with
  | none => simp
  | some row =>
      obtain ⟨-, rfl⟩ := find_eq_some.1 hfound
      rw [Option.map_some, Option.map_some, revised, apply_ite some]

theorem mem_update (hf : ∀ row, key (f row) = key row) :
    other ∈ (t.update k f hf).rows ↔ ∃ row ∈ t.rows, revised key k f row = other :=
  List.mem_map

/-! ## Lasting decisions -/

section Lasting

variable {δ : Type*} {decision : ρ → δ} {closed : δ → Prop} {v : Table key}

/-- Every row of `t` whose decision is closed is in `u` with the same decision. -/
def Lasts (decision : ρ → δ) (closed : δ → Prop) (t u : Table key) : Prop :=
  ∀ row ∈ t.rows, closed (decision row) →
    ∃ other ∈ u.rows, key other = key row ∧ decision other = decision row

omit [DecidableEq κ] in
theorem Lasts.refl (t : Table key) : Lasts decision closed t t :=
  fun row hrow _ ↦ ⟨row, hrow, rfl, rfl⟩

omit [DecidableEq κ] in
theorem Lasts.trans (h : Lasts decision closed t u) (h' : Lasts decision closed u v) :
    Lasts decision closed t v := by
  intro row hrow hclosed
  obtain ⟨mid, hmid, hkey, hdecision⟩ := h row hrow hclosed
  rw [← hdecision] at hclosed
  obtain ⟨last, hlast, hkey', hdecision'⟩ := h' mid hmid hclosed
  exact ⟨last, hlast, hkey'.trans hkey, hdecision'.trans hdecision⟩

theorem Lasts.insert (h : t.insert row = some u) : Lasts decision closed t u := by
  intro other hother _
  refine ⟨other, ?_, rfl, rfl⟩
  rw [(insert_eq_some.1 h).2]
  exact List.mem_cons_of_mem row hother

/-- An update leaves all decisions alone exactly if it does so with the row it finds. -/
theorem lasts_update_iff (hf : ∀ row, key (f row) = key row) :
    Lasts decision closed t (t.update k f hf) ↔
    ∀ row, t.find k = some row → closed (decision row) → decision (f row) = decision row := by
  constructor
  · intro h row hrow hclosed
    obtain ⟨hmem, hkey⟩ := find_eq_some.1 hrow
    obtain ⟨other, hother, hsame, hdecision⟩ := h row hmem hclosed
    have hfound : (t.update k f hf).find k = some other :=
      find_eq_some.2 ⟨hother, hsame.trans hkey⟩
    rw [find_update, if_pos rfl, hrow, Option.map_some, Option.some.injEq] at hfound
    rw [hfound, hdecision]
  · intro h row hrow hclosed
    refine ⟨revised key k f row, (mem_update hf).2 ⟨row, hrow, rfl⟩, key_revised hf k row, ?_⟩
    rw [revised]
    split
    · rename_i hkey
      exact h row (find_eq_some.2 ⟨hrow, hkey⟩) hclosed
    · rfl

end Lasting

end Table

end Keyed
