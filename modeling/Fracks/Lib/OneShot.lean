import Fracks.Lib.Runs
import Mathlib.Logic.Function.Basic
import Mathlib.Order.Basic
import Mathlib.Data.Nat.Notation

/-!
# One-shot permissions

A store holds at most one pending permission under each key.  Granting writes
the key, whatever it held; using takes the pending permission away.  In every
history that starts with nothing pending the uses can be matched with earlier
grants of the same permission, no grant twice.
-/

namespace OneShot

open Runs

variable {κ ν : Type*}

inductive Event (κ ν : Type*)
  | grant (k : κ) (v : ν)
  | use (k : κ) (v : ν)
  | other

/-- One step of the store of pending permissions. -/
inductive Step [DecidableEq κ] : (κ → Option ν) → Event κ ν → (κ → Option ν) → Prop
  | grant (s : κ → Option ν) (k : κ) (v : ν) :
      Step s (.grant k v) (Function.update s k (some v))
  | use (s : κ → Option ν) (k : κ) (v : ν) :
      s k = some v → Step s (.use k v) (Function.update s k none)
  | other (s : κ → Option ν) : Step s .other s

/-- An assignment of earlier grants to the uses of a history. -/
structure Matching (hist : List (Event κ ν)) (m : ℕ → ℕ) : Prop where
  earlier : ∀ j k v, hist[j]? = some (.use k v) → m j < j ∧ hist[m j]? = some (.grant k v)
  injective : ∀ j j' k v k' v', hist[j]? = some (.use k v) → hist[j']? = some (.use k' v') →
    m j = m j' → j = j'

/-- The permission pending under `k` was granted at index `i`, and no use has
been matched with it. -/
def PendingAt (hist : List (Event κ ν)) (m : ℕ → ℕ) (k : κ) (v : ν) (i : ℕ) : Prop :=
  hist[i]? = some (.grant k v) ∧ ∀ j k' v', hist[j]? = some (.use k' v') → m j ≠ i

/-- What holds of the store after a history. -/
structure Inv (hist : List (Event κ ν)) (s : κ → Option ν) (m : ℕ → ℕ) : Prop where
  matching : Matching hist m
  pending : ∀ k v, s k = some v → ∃ i, PendingAt hist m k v i

theorem getElem?_snoc {α : Type*} {l : List α} {a b : α} {i : ℕ} :
    (l ++ [a])[i]? = some b ↔ l[i]? = some b ∨ i = l.length ∧ a = b := by
  rcases Nat.lt_trichotomy i l.length with hi | rfl | hi
  · simp [List.getElem?_append_left hi, Nat.ne_of_lt hi]
  · simp
  · have hne : i ≠ l.length := Nat.ne_of_gt hi
    have hout : (l ++ [a]).length ≤ i := by
      rw [List.length_append]
      exact hi
    simp [List.getElem?_eq_none hout, List.getElem?_eq_none (Nat.le_of_lt hi), hne]

theorem lt_of_getElem? {α : Type*} {l : List α} {a : α} {i : ℕ} (h : l[i]? = some a) :
    i < l.length := by
  by_contra hge
  rw [List.getElem?_eq_none (Nat.le_of_not_lt hge)] at h
  simp at h

section Preservation

variable {hist : List (Event κ ν)} {s : κ → Option ν} {m : ℕ → ℕ} {k : κ} {v : ν}

/-- An event that is not a use leaves every use matched as it was. -/
theorem Matching.snoc {e : Event κ ν} (h : Matching hist m) (he : ∀ k v, e ≠ .use k v) :
    Matching (hist ++ [e]) m := by
  have hold : ∀ {j : ℕ} {k : κ} {v : ν}, (hist ++ [e])[j]? = some (Event.use k v) →
      hist[j]? = some (Event.use k v) :=
    fun hj ↦ (getElem?_snoc.1 hj).resolve_right fun ⟨_, h⟩ ↦ he _ _ h
  refine ⟨fun j k v hj ↦ ?_, fun j j' k v k' v' hj hj' ↦ ?_⟩
  · obtain ⟨hlt, hgrant⟩ := h.earlier j k v (hold hj)
    exact ⟨hlt, getElem?_snoc.2 (.inl hgrant)⟩
  · exact h.injective j j' k v k' v' (hold hj) (hold hj')

theorem PendingAt.snoc {e : Event κ ν} {i : ℕ} (h : PendingAt hist m k v i)
    (he : ∀ k v, e ≠ .use k v) : PendingAt (hist ++ [e]) m k v i := by
  refine ⟨getElem?_snoc.2 (.inl h.1), fun j k' v' hj ↦ ?_⟩
  exact h.2 j k' v' ((getElem?_snoc.1 hj).resolve_right fun ⟨_, h⟩ ↦ he _ _ h)

variable [DecidableEq κ]

/-- The new grant is pending: uses are matched with earlier indices. -/
theorem Inv.grant (h : Inv hist s m) :
    Inv (hist ++ [.grant k v]) (Function.update s k (some v)) m := by
  refine ⟨h.matching.snoc (by simp), fun x w hx ↦ ?_⟩
  by_cases hxk : x = k
  · subst hxk
    obtain rfl : v = w := by simpa using hx
    refine ⟨hist.length, getElem?_snoc.2 (.inr ⟨rfl, rfl⟩), fun j k' v' hj hm ↦ ?_⟩
    have hj' := (getElem?_snoc.1 hj).resolve_right (by simp)
    have hlt := (h.matching.earlier j k' v' hj').1
    exact absurd (lt_of_getElem? hj') (by omega)
  · obtain ⟨i, hi⟩ := h.pending x w (by simpa [hxk] using hx)
    exact ⟨i, hi.snoc (by simp)⟩

/-- A use is matched with the grant pending under its key; the grants pending
under other keys stay unmatched. -/
theorem Inv.use (h : Inv hist s m) (hk : s k = some v) :
    ∃ m', Inv (hist ++ [.use k v]) (Function.update s k none) m' := by
  obtain ⟨i, hgrant, hfree⟩ := h.pending k v hk
  have hi : i < hist.length := lt_of_getElem? hgrant
  have hm : ∀ j, j < hist.length → Function.update m hist.length i j = m j := fun j hj ↦
    Function.update_of_ne (Nat.ne_of_lt hj) ..
  refine ⟨Function.update m hist.length i, ⟨⟨fun j x w hj ↦ ?_, ?_⟩, fun x w hx ↦ ?_⟩⟩
  · rcases getElem?_snoc.1 hj with hold | ⟨rfl, hnew⟩
    · obtain ⟨hlt, hg⟩ := h.matching.earlier j x w hold
      rw [hm j (lt_of_getElem? hold)]
      exact ⟨hlt, getElem?_snoc.2 (.inl hg)⟩
    · obtain ⟨rfl, rfl⟩ := Event.use.inj hnew
      rw [Function.update_self]
      exact ⟨hi, getElem?_snoc.2 (.inl hgrant)⟩
  · intro j j' x w x' w' hj hj' heq
    rcases getElem?_snoc.1 hj with hj | ⟨rfl, -⟩
    · rw [hm j (lt_of_getElem? hj)] at heq
      rcases getElem?_snoc.1 hj' with hj' | ⟨rfl, -⟩
      · rw [hm j' (lt_of_getElem? hj')] at heq
        exact h.matching.injective j j' x w x' w' hj hj' heq
      · rw [Function.update_self] at heq
        exact absurd heq (hfree j x w hj)
    · rw [Function.update_self] at heq
      rcases getElem?_snoc.1 hj' with hj' | ⟨rfl, -⟩
      · rw [hm j' (lt_of_getElem? hj')] at heq
        exact absurd heq.symm (hfree j' x' w' hj')
      · rfl
  · have hxk : x ≠ k := by
      rintro rfl
      simp at hx
    obtain ⟨i', hgrant', hfree'⟩ := h.pending x w (by simpa [hxk] using hx)
    refine ⟨i', getElem?_snoc.2 (.inl hgrant'), fun j k' v' hj ↦ ?_⟩
    rcases getElem?_snoc.1 hj with hj | ⟨rfl, -⟩
    · rw [hm j (lt_of_getElem? hj)]
      exact hfree' j k' v' hj
    · rw [Function.update_self]
      rintro rfl
      -- one index holds one grant
      rw [hgrant] at hgrant'
      exact hxk (Event.grant.inj (Option.some.inj hgrant')).1.symm

theorem Inv.step {e : Event κ ν} {s' : κ → Option ν} (h : Inv hist s m) (hstep : Step s e s') :
    ∃ m', Inv (hist ++ [e]) s' m' := by
  cases hstep with
  | grant k v => exact ⟨m, h.grant⟩
  | use k v hk => exact h.use hk
  | other =>
      refine ⟨m, h.matching.snoc (by simp), fun k v hk ↦ ?_⟩
      obtain ⟨i, hi⟩ := h.pending k v hk
      exact ⟨i, hi.snoc (by simp)⟩

/-- In every history from the empty store the uses are matched with earlier
grants of the same permission, no grant twice. -/
theorem exists_matching (h : Run Step (fun _ ↦ none) hist s) : ∃ m, Matching hist m := by
  have hinv : ∃ m, Inv ([] ++ hist) s m :=
    h.history (P := fun hist s ↦ ∃ m, Inv hist s m)
      (fun _ _ _ _ ⟨_, hm⟩ hstep ↦ hm.step hstep)
      ⟨id, ⟨by simp, by simp⟩, by simp⟩
  obtain ⟨m, hm⟩ := hinv
  exact ⟨m, by simpa using hm.matching⟩

end Preservation

end OneShot
