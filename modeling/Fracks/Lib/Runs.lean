import Mathlib.Logic.Relation
import Mathlib.Tactic.Common

/-!
# Runs of a labelled transition system

A run is a list of labels with the states it passes through.  The rules below
lift a fact about one step to every state of a run: an invariant that each
admissible step preserves holds in every state reached, and a fact that each
step from an invariant state satisfies holds at every step taken.
-/

namespace Runs

variable {σ ℓ : Type*}

/-- `Run step s labels t`: the labels lead from `s` to `t`. -/
inductive Run (step : σ → ℓ → σ → Prop) : σ → List ℓ → σ → Prop
  | nil (s : σ) : Run step s [] s
  | cons {s t u : σ} {l : ℓ} {ls : List ℓ} :
      step s l t → Run step t ls u → Run step s (l :: ls) u

/-- The part of a step relation whose steps meet a condition. -/
def restrict (step ok : σ → ℓ → σ → Prop) (s : σ) (l : ℓ) (t : σ) : Prop :=
  step s l t ∧ ok s l t

section Rules

variable {step : σ → ℓ → σ → Prop} {s t u : σ} {ls ms : List ℓ} {l : ℓ}

theorem Run.append (h : Run step s ls t) (h' : Run step t ms u) :
    Run step s (ls ++ ms) u := by
  induction h with
  | nil => exact h'
  | cons hstep _ ih => exact .cons hstep (ih h')

theorem Run.single (h : step s l t) : Run step s [l] t := .cons h (.nil t)

theorem Run.snoc (h : Run step s ls t) (h' : step t l u) :
    Run step s (ls ++ [l]) u :=
  h.append (.single h')

@[simp] theorem run_nil_iff : Run step s [] t ↔ s = t := by
  constructor
  · rintro ⟨⟩
    rfl
  · rintro rfl
    exact .nil s

@[simp] theorem run_cons_iff :
    Run step s (l :: ls) u ↔ ∃ t, step s l t ∧ Run step t ls u := by
  constructor
  · rintro ⟨⟩
    exact ⟨_, ‹_›, ‹_›⟩
  · rintro ⟨t, hstep, hrun⟩
    exact .cons hstep hrun

/-- A run splits at every prefix of its labels. -/
theorem run_append_iff :
    Run step s (ls ++ ms) u ↔ ∃ t, Run step s ls t ∧ Run step t ms u := by
  induction ls generalizing s with
  | nil => simp
  | cons l ls ih =>
      simp only [List.cons_append, run_cons_iff, ih]
      constructor
      · rintro ⟨v, hstep, t, hls, hms⟩
        exact ⟨t, ⟨v, hstep, hls⟩, hms⟩
      · rintro ⟨t, ⟨v, hstep, hls⟩, hms⟩
        exact ⟨v, hstep, t, hls, hms⟩

theorem Run.mono {step' : σ → ℓ → σ → Prop} (hle : ∀ s l t, step s l t → step' s l t)
    (h : Run step s ls t) : Run step' s ls t := by
  induction h with
  | nil s => exact .nil s
  | cons hstep _ ih => exact .cons (hle _ _ _ hstep) ih

/-- The invariant rule: what holds at the start and is preserved by every step
holds at the end of every run. -/
theorem Run.invariant {P : σ → Prop}
    (hpres : ∀ s l t, P s → step s l t → P t)
    (h : Run step s ls t) (hs : P s) : P t := by
  induction h with
  | nil => exact hs
  | cons hstep _ ih => exact ih (hpres _ _ _ hs hstep)

/-- The invariant rule for a run whose labels all meet `Q`. -/
theorem Run.invariant_of_labels {P : σ → Prop} {Q : ℓ → Prop}
    (hpres : ∀ s l t, P s → Q l → step s l t → P t)
    (h : Run step s ls t) (hls : ∀ l ∈ ls, Q l) (hs : P s) : P t := by
  induction h with
  | nil => exact hs
  | cons hstep _ ih =>
      obtain ⟨hl, hls⟩ := List.forall_mem_cons.1 hls
      exact ih hls (hpres _ _ _ hs hl hstep)

/-- What every step says of its label holds of all labels of a run. -/
theorem Run.forall_labels {Q : ℓ → Prop} (hQ : ∀ s l t, step s l t → Q l)
    (h : Run step s ls t) : ∀ l ∈ ls, Q l := by
  induction h with
  | nil => simp
  | cons hstep _ ih => exact List.forall_mem_cons.2 ⟨hQ _ _ _ hstep, ih⟩

/-- A run whose labels meet the condition in every state. -/
theorem Run.restrict_of_labels {ok : σ → ℓ → σ → Prop} (h : Run step s ls t)
    (hls : ∀ l ∈ ls, ∀ s t, ok s l t) : Run (restrict step ok) s ls t := by
  induction h with
  | nil s => exact .nil s
  | cons hstep _ ih =>
      obtain ⟨hl, hls⟩ := List.forall_mem_cons.1 hls
      exact .cons ⟨hstep, hl _ _⟩ (ih hls)

/-- The history rule: an invariant over a state and the labels taken so far. -/
theorem Run.history {P : List ℓ → σ → Prop}
    (hpres : ∀ hist s l t, P hist s → step s l t → P (hist ++ [l]) t)
    (h : Run step s ls t) {hist : List ℓ} (hs : P hist s) : P (hist ++ ls) t := by
  induction h generalizing hist with
  | nil => simpa using hs
  | cons hstep _ ih =>
      have hnext := ih (hpres hist _ _ _ hs hstep)
      simpa using hnext

/-- Either `P` has held all along, or there is a last step that made it true. -/
theorem Run.held_or_since {P : σ → Prop} (h : Run step s ls t) (ht : P t) :
    (P s ∧ Run (restrict step fun s _ t ↦ P s ∧ P t) s ls t) ∨
      ∃ pre l post u v, ls = pre ++ l :: post ∧ Run step s pre u ∧ ¬ P u ∧ step u l v ∧ P v ∧
        Run (restrict step fun s _ t ↦ P s ∧ P t) v post t := by
  induction h with
  | nil s => exact .inl ⟨ht, .nil s⟩
  | @cons s v _ l ls hstep _ ih =>
      rcases ih ht with ⟨hv, hkept⟩ | ⟨pre, l', post, u, w, rfl, hpre, hrest⟩
      · by_cases hs : P s
        · exact .inl ⟨hs, .cons ⟨hstep, hs, hv⟩ hkept⟩
        · exact .inr ⟨[], l, ls, s, v, rfl, .nil s, hs, hstep, hv, hkept⟩
      · exact .inr ⟨l :: pre, l', post, u, w, rfl, .cons hstep hpre, hrest⟩

/-- The since rule: what holds at the end but not at the start was made true by
some step of the run and has held ever since. -/
theorem Run.since {P : σ → Prop} (h : Run step s ls t) (hs : ¬ P s) (ht : P t) :
    ∃ pre l post u v, ls = pre ++ l :: post ∧ Run step s pre u ∧ ¬ P u ∧ step u l v ∧ P v ∧
      Run (restrict step fun s _ t ↦ P s ∧ P t) v post t :=
  (h.held_or_since ht).resolve_left fun hheld ↦ hs hheld.1

/-- The simulation rule: when every step from an invariant state is matched by a
step between the abstract states, a run is matched by an abstract run whose
labels correspond one by one. -/
theorem Run.simulate {σ' ℓ' : Type*} {step' : σ' → ℓ' → σ' → Prop} {P : σ → Prop}
    {R : ℓ → ℓ' → Prop} {f : σ → σ'}
    (hsim : ∀ s l t, P s → step s l t → P t ∧ ∃ l', R l l' ∧ step' (f s) l' (f t))
    (h : Run step s ls t) (hs : P s) :
    ∃ ls', List.Forall₂ R ls ls' ∧ Run step' (f s) ls' (f t) := by
  induction h with
  | nil s => exact ⟨[], .nil, .nil _⟩
  | cons hstep _ ih =>
      obtain ⟨hnext, l', hl', hstep'⟩ := hsim _ _ _ hs hstep
      obtain ⟨ls', hls', hrun'⟩ := ih hnext
      exact ⟨l' :: ls', .cons hl' hls', .cons hstep' hrun'⟩

/-- The simulation rule with stuttering: a step may also leave the abstract state
as it is. -/
theorem Run.simulate_stuttering {σ' ℓ' : Type*} {step' : σ' → ℓ' → σ' → Prop} {P : σ → Prop}
    {f : σ → σ'}
    (hsim : ∀ s l t, P s → step s l t → P t ∧ (f t = f s ∨ ∃ l', step' (f s) l' (f t)))
    (h : Run step s ls t) (hs : P s) : P t ∧ ∃ ls', Run step' (f s) ls' (f t) := by
  induction h with
  | nil s => exact ⟨hs, [], .nil _⟩
  | cons hstep _ ih =>
      obtain ⟨hnext, hstutter⟩ := hsim _ _ _ hs hstep
      obtain ⟨hlast, ls', hrun'⟩ := ih hnext
      rcases hstutter with hsame | ⟨l', hstep'⟩
      · exact ⟨hlast, ls', hsame ▸ hrun'⟩
      · exact ⟨hlast, l' :: ls', .cons hstep' hrun'⟩

end Rules

/-- Every step of a run meets `P` of its state before, label and state after. -/
def Run.AllSteps (step P : σ → ℓ → σ → Prop) (s : σ) (ls : List ℓ) : Prop :=
  ∀ pre l post t u, ls = pre ++ l :: post → Run step s pre t → step t l u → P t l u

/-- Every state that a run passes through meets `P`. -/
def Run.Throughout (step : σ → ℓ → σ → Prop) (P : σ → Prop) (s : σ) (ls : List ℓ) : Prop :=
  ∀ pre post t, ls = pre ++ post → Run step s pre t → P t

section Throughout

variable {step ok : σ → ℓ → σ → Prop} {I P : σ → Prop} {s t : σ} {ls : List ℓ} {l : ℓ}

theorem Run.AllSteps.tail (h : Run.AllSteps step ok s (l :: ls)) (hstep : step s l t) :
    Run.AllSteps step ok t ls := by
  intro pre l' post u v hls hrun
  exact h (l :: pre) l' post u v (by rw [hls, List.cons_append]) (.cons hstep hrun)

theorem Run.AllSteps.single (h : ∀ t, step s l t → ok s l t) : Run.AllSteps step ok s [l] := by
  intro pre l' post t u hls hrun hstep
  cases pre with
  | nil =>
      obtain ⟨rfl, -⟩ := List.cons.inj hls
      obtain rfl := run_nil_iff.1 hrun
      exact h u hstep
  | cons => simp at hls

/-- The condition rule: when the steps that meet `ok` keep `P`, a run of such steps has `P`
throughout. -/
theorem Run.throughout_of_allSteps (hI : ∀ s l t, I s → step s l t → I t)
    (hkeeps : ∀ s l t, I s → P s → step s l t → ok s l t → P t) (hs : I s) (hP : P s)
    (hall : Run.AllSteps step ok s ls) : Run.Throughout step P s ls := by
  intro pre post t hls hrun
  induction hrun generalizing ls with
  | nil => exact hP
  | @cons s v _ l pre hstep _ ih =>
      subst hls
      have hok := hall [] l (pre ++ post) s v rfl (.nil s) hstep
      exact ih (hI _ _ _ hs hstep) (hkeeps _ _ _ hs hP hstep hok)
        (Run.AllSteps.tail hall hstep) rfl

/-- The exact-step rule: when a step from a state with `P` keeps it exactly if the
step meets `ok`, a run has `P` throughout exactly if it starts with it and all of
its steps meet `ok`. -/
theorem Run.throughout_iff (hI : ∀ s l t, I s → step s l t → I t)
    (hexact : ∀ s l t, I s → P s → step s l t → (P t ↔ ok s l t)) (hs : I s) :
    Run.Throughout step P s ls ↔ P s ∧ Run.AllSteps step ok s ls := by
  constructor
  · intro h
    refine ⟨h [] ls s rfl (.nil s), ?_⟩
    intro pre l post t u hls hrun hstep
    have ht : P t := h pre (l :: post) t hls hrun
    have hu : P u := h (pre ++ [l]) post u (by simp [hls]) (hrun.snoc hstep)
    exact (hexact t l u (hrun.invariant hI hs) ht hstep).1 hu
  · rintro ⟨hP, hall⟩
    exact Run.throughout_of_allSteps hI
      (fun s l t hs hP hstep hok ↦ (hexact s l t hs hP hstep).2 hok) hs hP hall

/-- A condition on steps may be replaced by one that says the same of all steps from
invariant states. -/
theorem Run.allSteps_congr {ok' : σ → ℓ → σ → Prop} (hI : ∀ s l t, I s → step s l t → I t)
    (hsame : ∀ s l t, I s → step s l t → (ok s l t ↔ ok' s l t)) (hs : I s) :
    Run.AllSteps step ok s ls ↔ Run.AllSteps step ok' s ls := by
  constructor
  · intro h pre l post t u hls hrun hstep
    exact (hsame t l u (hrun.invariant hI hs) hstep).1 (h pre l post t u hls hrun hstep)
  · intro h pre l post t u hls hrun hstep
    exact (hsame t l u (hrun.invariant hI hs) hstep).2 (h pre l post t u hls hrun hstep)

end Throughout

/-- Any two states that a run passes through one after the other are related. -/
def Run.Kept (step : σ → ℓ → σ → Prop) (R : σ → σ → Prop) (s : σ) (ls : List ℓ) : Prop :=
  ∀ pre mid post t u, ls = pre ++ (mid ++ post) → Run step s pre t → Run step t mid u → R t u

/-- A preorder is kept along a run exactly if every step keeps it. -/
theorem Run.kept_iff {step : σ → ℓ → σ → Prop} {R : σ → σ → Prop} {s : σ} {ls : List ℓ}
    (hrefl : ∀ s, R s s) (htrans : ∀ s t u, R s t → R t u → R s u) :
    Run.Kept step R s ls ↔ Run.AllSteps step (fun t _ u ↦ R t u) s ls := by
  constructor
  · intro h pre l post t u hls hrun hstep
    exact h pre [l] post t u hls hrun (.single hstep)
  · intro h pre mid post t u hls hrun hmid
    induction hmid generalizing pre with
    | nil t => exact hrefl t
    | @cons t v u l mid hstep _ ih =>
        have hfirst : R t v := h pre l (mid ++ post) t v hls hrun hstep
        have hrest : R v u := ih (pre ++ [l]) (by simp [hls]) (hrun.snoc hstep)
        exact htrans t v u hfirst hrest

/-! ## Traces -/

/-- A run together with the states it passes through: each label with the state after it. -/
inductive Trace (step : σ → ℓ → σ → Prop) : σ → List (ℓ × σ) → Prop
  | nil (s : σ) : Trace step s []
  | cons {s t : σ} {l : ℓ} {path : List (ℓ × σ)} :
      step s l t → Trace step t path → Trace step s ((l, t) :: path)

namespace Trace

/-- Every state of the trace meets `P`. -/
def Throughout (P : σ → Prop) (s : σ) (path : List (ℓ × σ)) : Prop :=
  P s ∧ ∀ entry ∈ path, P entry.2

/-- Every step of the trace meets `P` of its state before, label and state after. -/
def AllSteps (P : σ → ℓ → σ → Prop) : σ → List (ℓ × σ) → Prop
  | _, [] => True
  | s, (l, t) :: path => P s l t ∧ AllSteps P t path

variable {step ok : σ → ℓ → σ → Prop} {I P : σ → Prop} {s t : σ} {l : ℓ} {path : List (ℓ × σ)}

theorem single (h : step s l t) : Trace step s [(l, t)] := .cons h (.nil t)

theorem throughout_cons : Throughout P s ((l, t) :: path) ↔ P s ∧ Throughout P t path := by
  rw [Throughout, List.forall_mem_cons, Throughout]

/-- The exact-step rule for one run: when a step from a state with `P` keeps it exactly if the
step meets `ok`, a trace has `P` throughout exactly if it starts with it and all of its steps
meet `ok`. -/
theorem throughout_iff (hI : ∀ s l t, I s → step s l t → I t)
    (hexact : ∀ s l t, I s → P s → step s l t → (P t ↔ ok s l t)) (h : Trace step s path)
    (hs : I s) : Throughout P s path ↔ P s ∧ AllSteps ok s path := by
  induction h with
  | nil s => simp [Throughout, AllSteps]
  | @cons s t l path hstep _ ih =>
      rw [throughout_cons, ih (hI s l t hs hstep), AllSteps]
      refine and_congr_right fun hP ↦ and_congr_left fun _ ↦ ?_
      exact hexact s l t hs hP hstep

end Trace

end Runs
