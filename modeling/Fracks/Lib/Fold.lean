import Fracks.Lib.Checked

/-!
# Loops that may fail

A `for` loop over a list of items is `List.foldlM` in `Except`.  The rules
below say what a successful loop preserves, what it does to a part of the state
that only one item of the list touches, and when it succeeds.
-/

namespace Fold

open Checked

universe u

variable {ε : Type*} {α : Type*} {β γ : Type u} {f : β → α → Except ε β}

theorem foldlM_cons_eq_ok {a : α} {l : List α} {b b' : β} :
    (a :: l).foldlM f b = .ok b' ↔ ∃ c, f b a = .ok c ∧ l.foldlM f c = .ok b' := by
  rw [List.foldlM_cons, bind_eq_ok]

/-- What every iteration preserves holds after the loop. -/
theorem foldlM_invariant {P : β → Prop} {l : List α} {b b' : β}
    (hstep : ∀ a ∈ l, ∀ c c', P c → f c a = .ok c' → P c')
    (h : l.foldlM f b = .ok b') (hb : P b) : P b' := by
  induction l generalizing b with
  | nil =>
      simp only [List.foldlM_nil, pure_eq_ok] at h
      exact h ▸ hb
  | cons a l ih =>
      obtain ⟨c, hc, hl⟩ := foldlM_cons_eq_ok.1 h
      have hPc : P c := hstep a (List.mem_cons_self ..) b c hb hc
      exact ih (fun x hx ↦ hstep x (List.mem_cons_of_mem a hx)) hl hPc

/-- A part of the state that no iteration changes is unchanged by the loop. -/
theorem foldlM_frame {g : β → γ} {l : List α} {b b' : β}
    (hstep : ∀ a ∈ l, ∀ c c', f c a = .ok c' → g c' = g c)
    (h : l.foldlM f b = .ok b') : g b' = g b :=
  foldlM_invariant (P := fun c ↦ g c = g b)
    (fun a ha c c' hc hcc' ↦ (hstep a ha c c' hcc').trans hc) h rfl

/-- In a list without repetitions the iteration of one item is the only one to
change a part of the state that all the others leave alone. -/
theorem foldlM_once {g : β → γ} {R : γ → γ → Prop} {l : List α} {x : α} {b b' : β}
    (hnodup : l.Nodup) (hx : x ∈ l)
    (hother : ∀ a ∈ l, a ≠ x → ∀ c c', f c a = .ok c' → g c' = g c)
    (hhit : ∀ c c', f c x = .ok c' → R (g c) (g c'))
    (h : l.foldlM f b = .ok b') : R (g b) (g b') := by
  induction l generalizing b with
  | nil => simp at hx
  | cons a l ih =>
      obtain ⟨c, hc, hl⟩ := foldlM_cons_eq_ok.1 h
      obtain ⟨hal, hnodup⟩ := List.nodup_cons.1 hnodup
      by_cases hax : a = x
      · subst hax
        have hrest : g b' = g c :=
          foldlM_frame (fun y hy ↦ hother y (List.mem_cons_of_mem a hy)
            (fun hya ↦ hal (hya ▸ hy))) hl
        rw [hrest]
        exact hhit b c hc
      · have hxl : x ∈ l := (List.mem_cons.1 hx).resolve_left (Ne.symm hax)
        rw [← hother a (List.mem_cons_self ..) hax b c hc]
        exact ih hnodup hxl (fun y hy ↦ hother y (List.mem_cons_of_mem a hy)) hl

/-- A loop succeeds when every iteration does from the states its prefix can
reach; `I` relates the part of the list already treated and the state. -/
theorem foldlM_succeeds {I : List α → β → Prop} {l : List α} {b : β}
    (hstep : ∀ pre a post c, l = pre ++ a :: post → I pre c →
      ∃ c', f c a = .ok c' ∧ I (pre ++ [a]) c')
    (hb : I [] b) : ∃ b', l.foldlM f b = .ok b' ∧ I l b' := by
  suffices hgen : ∀ (post pre : List α) (c : β), l = pre ++ post → I pre c →
      ∃ b', post.foldlM f c = .ok b' ∧ I l b' from hgen l [] b rfl hb
  intro post
  induction post with
  | nil =>
      intro pre c hl hc
      refine ⟨c, rfl, ?_⟩
      simpa [hl] using hc
  | cons a post ih =>
      intro pre c hl hc
      obtain ⟨c', hcc', hc'⟩ := hstep pre a post c hl hc
      obtain ⟨b', hb', hinv⟩ := ih (pre ++ [a]) c' (by simpa using hl) hc'
      exact ⟨b', foldlM_cons_eq_ok.2 ⟨c', hcc', hb'⟩, hinv⟩

/-- A loop whose iterations do not disturb each other succeeds exactly if each does on
its own; `I` relates the part of the list already treated and the state. -/
theorem foldlM_succeeds_iff {I : List α → β → Prop} {Q : α → Prop} {l : List α} {b : β}
    (hI : ∀ pre a post c c', l = pre ++ a :: post → I pre c → f c a = .ok c' → I (pre ++ [a]) c')
    (hQ : ∀ pre a post c, l = pre ++ a :: post → I pre c → ((∃ c', f c a = .ok c') ↔ Q a))
    (hb : I [] b) : (∃ b', l.foldlM f b = .ok b') ↔ ∀ a ∈ l, Q a := by
  suffices hgen : ∀ (post pre : List α) (c : β), l = pre ++ post → I pre c →
      ((∃ b', post.foldlM f c = .ok b') ↔ ∀ a ∈ post, Q a) from hgen l [] b rfl hb
  intro post
  induction post with
  | nil => exact fun pre c _ _ ↦ iff_of_true ⟨c, rfl⟩ (by simp)
  | cons a post ih =>
      intro pre c hl hc
      rw [List.forall_mem_cons]
      constructor
      · rintro ⟨b', hloop⟩
        obtain ⟨c', hcc', hrest⟩ := foldlM_cons_eq_ok.1 hloop
        have hc' := hI pre a post c c' hl hc hcc'
        exact ⟨(hQ pre a post c hl hc).1 ⟨c', hcc'⟩,
          (ih (pre ++ [a]) c' (by simpa using hl) hc').1 ⟨b', hrest⟩⟩
      · rintro ⟨ha, hpost⟩
        obtain ⟨c', hcc'⟩ := (hQ pre a post c hl hc).2 ha
        have hc' := hI pre a post c c' hl hc hcc'
        obtain ⟨b', hrest⟩ := (ih (pre ++ [a]) c' (by simpa using hl) hc').2 hpost
        exact ⟨b', foldlM_cons_eq_ok.2 ⟨c', hcc', hrest⟩⟩

/-- A loop without a state succeeds when all its checks do. -/
theorem foldlM_checks_eq_ok {check : α → Except ε PUnit} {l : List α} :
    l.foldlM (fun _ a ↦ check a) PUnit.unit = .ok PUnit.unit ↔
      ∀ a ∈ l, check a = .ok PUnit.unit := by
  induction l with
  | nil => simp
  | cons a l ih =>
      rw [foldlM_cons_eq_ok, List.forall_mem_cons, ← ih]
      constructor
      · rintro ⟨⟨⟩, ha, hl⟩
        exact ⟨ha, hl⟩
      · rintro ⟨ha, hl⟩
        exact ⟨_, ha, hl⟩

/-- A search finds what it looks for at the one key that has a value. -/
theorem findSome?_single {κ δ : Type*} [DecidableEq κ] {g : κ → Option δ} {a : κ}
    (hg : ∀ k, k ≠ a → g k = none) (l : List κ) :
    l.findSome? g = if a ∈ l then g a else none := by
  induction l with
  | nil => rfl
  | cons k l ih =>
      rw [List.findSome?_cons, ih]
      by_cases hk : k = a
      · subst hk
        cases hgk : g k <;> simp
      · have hne : a ≠ k := Ne.symm hk
        simp [hg k hk, List.mem_cons, hne]

end Fold
