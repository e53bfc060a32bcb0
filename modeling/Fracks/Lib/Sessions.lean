import Fracks.Lib.Runs

/-!
# Calls that share a store

Calls of a service run side by side over one store.  A call is what remains of it, and
its next statement is atomic: one command or one transaction.  Between two statements
of a call any others may come, so a call may only rely on what no statement of another
call destroys.
-/

namespace Sessions

open Runs

variable {σ κ ε ρ : Type*}

/-- A store with the calls that are under way. -/
structure Pool (σ κ : Type*) where
  store : σ
  calls : List κ

inductive Label (κ ε : Type*)
  | arrive (c : κ)
  | advance (c : κ) (e : ε)

/-- A call that arrives, or the next statement of the call at a position. -/
inductive Move (κ ε : Type*)
  | arrive (c : κ)
  | advance (position : ℕ) (e : ε)

/-- Which calls may arrive, and what the next statement of a call does; the input `e`
comes from outside.  After it the call goes on or has its result. -/
structure Service (σ κ ε ρ : Type*) where
  Opens : κ → Prop
  advance : σ → κ → ε → σ × (κ ⊕ ρ)

namespace Service

variable (S : Service σ κ ε ρ)

inductive Step : Pool σ κ → Label κ ε → Pool σ κ → Prop
  | arrive {store : σ} {calls : List κ} {c : κ} :
      S.Opens c → Step ⟨store, calls⟩ (.arrive c) ⟨store, c :: calls⟩
  | advance {store : σ} {before after : List κ} {c : κ} {e : ε} :
      Step ⟨store, before ++ c :: after⟩ (.advance c e)
        ⟨(S.advance store c e).1, before ++ ((S.advance store c e).2.getLeft?.toList ++ after)⟩

/-- `G` holds of the store and `K` of every call that is under way. -/
structure Sound (G : σ → Prop) (K : σ → κ → Prop) (p : Pool σ κ) : Prop where
  store : G p.store
  calls : ∀ c ∈ p.calls, K p.store c

/-- The statement of a call that finds what it relies on keeps `G`, leaves behind a
call that finds the same, and spoils it for no other call. -/
structure Keeps (G : σ → Prop) (K : σ → κ → Prop) : Prop where
  opens : ∀ s c, G s → S.Opens c → K s c
  store : ∀ s c e, G s → K s c → G (S.advance s c e).1
  call : ∀ s c e c', G s → K s c → (S.advance s c e).2 = .inl c' →
    K (S.advance s c e).1 c'
  others : ∀ s c e d, G s → K s c → K s d → K (S.advance s c e).1 d

variable {S} {G : σ → Prop} {K : σ → κ → Prop} {p q : Pool σ κ} {l : Label κ ε}

/-- The rule of reliance. -/
theorem Keeps.step (h : S.Keeps G K) (hp : Sound G K p) (hstep : S.Step p l q) :
    Sound G K q := by
  obtain ⟨hstore, hcalls⟩ := hp
  cases hstep with
  | arrive hopens =>
      refine ⟨hstore, fun c hc ↦ ?_⟩
      rcases List.mem_cons.1 hc with rfl | hc
      · exact h.opens _ _ hstore hopens
      · exact hcalls c hc
  | @advance store before after c e =>
      have hc : K store c := hcalls c (by simp)
      refine ⟨h.store _ _ _ hstore hc, fun d hd ↦ ?_⟩
      simp only [List.mem_append, Option.mem_toList,
        Sum.getLeft?_eq_some_iff] at hd
      rcases hd with hd | hd | hd
      · exact h.others _ _ _ _ hstore hc (hcalls d (by simp [hd]))
      · exact h.call _ _ _ _ hstore hc hd
      · exact h.others _ _ _ _ hstore hc (hcalls d (by simp [hd]))

theorem Sound.empty {s : σ} (h : G s) : Sound G K ⟨s, []⟩ := ⟨h, fun _ hc ↦ by cases hc⟩

/-- What the statement of a call needs of the call. -/
theorem Sound.of_advance {c : κ} {e : ε} (hp : Sound G K p) (hstep : S.Step p (.advance c e) q) :
    G p.store ∧ K p.store c ∧ q.store = (S.advance p.store c e).1 := by
  cases hstep with
  | advance => exact ⟨hp.store, hp.calls c (by simp), rfl⟩

theorem store_of_arrive {c : κ} (hstep : S.Step p (.arrive c) q) : q.store = p.store := by
  cases hstep with
  | arrive => rfl

/-! ## What labels do to the store -/

variable (S) in
/-- The store after a label, whatever calls are under way. -/
def storeAfter (s : σ) : Label κ ε → σ
  | .arrive _ => s
  | .advance c e => (S.advance s c e).1

theorem store_of_step (hstep : S.Step p l q) : q.store = S.storeAfter p.store l := by
  cases hstep with
  | arrive => rfl
  | advance => rfl

variable (S) in
/-- A check of every label against the store that it meets. -/
def checks (ok : σ → Label κ ε → Bool) : σ → List (Label κ ε) → Bool
  | _, [] => true
  | s, l :: ls => ok s l && checks ok (S.storeAfter s l) ls

/-- A condition on stores and labels holds at every step of every run over labels that pass its
check. -/
theorem allSteps_of_checks {ok : σ → Label κ ε → Bool}
    {P : Pool σ κ → Label κ ε → Pool σ κ → Prop}
    (hok : ∀ p l q, ok p.store l → S.Step p l q → P p l q) {ls : List (Label κ ε)}
    (h : S.checks ok p.store ls) : Run.AllSteps S.Step P p ls := by
  intro pre l post t u hls hrun hstep
  induction hrun generalizing ls with
  | nil =>
      subst hls
      exact hok _ _ _ (Bool.and_eq_true _ _ ▸ h).1 hstep
  | cons hfirst _ ih =>
      subst hls
      apply ih _ rfl hstep
      rw [store_of_step hfirst]
      exact (Bool.and_eq_true _ _ ▸ h).2

/-! ## Runs by position -/

variable (S) in
/-- The label of a move and the pool after it. -/
def move (p : Pool σ κ) : Move κ ε → Option (Label κ ε × Pool σ κ)
  | .arrive c => some (.arrive c, ⟨p.store, c :: p.calls⟩)
  | .advance position e => p.calls[position]?.map fun c ↦ (.advance c e,
      ⟨(S.advance p.store c e).1, p.calls.take position ++
        ((S.advance p.store c e).2.getLeft?.toList ++ p.calls.drop (position + 1))⟩)

variable (S) in
def play : Pool σ κ → List (Move κ ε) → Option (List (Label κ ε) × Pool σ κ)
  | p, [] => some ([], p)
  | p, m :: ms => do
      let moved ← S.move p m
      let played ← play moved.2 ms
      some (moved.1 :: played.1, played.2)

theorem step_of_move {m : Move κ ε} (hopens : ∀ c, m = .arrive c → S.Opens c)
    (h : S.move p m = some (l, q)) : S.Step p l q := by
  obtain ⟨store, calls⟩ := p
  cases m with
  | arrive c =>
      cases h
      exact .arrive (hopens c rfl)
  | advance position e =>
      obtain ⟨c, hc, hmoved⟩ := Option.map_eq_some_iff.1 h
      cases hmoved
      obtain ⟨hlt, hget⟩ := List.getElem?_eq_some_iff.1 hc
      have hsplit : calls = calls.take position ++ c :: calls.drop (position + 1) := by
        rw [← hget, List.getElem_cons_drop, List.take_append_drop]
      have hstep : S.Step ⟨store, calls.take position ++ c :: calls.drop (position + 1)⟩
          (.advance c e) ⟨(S.advance store c e).1, calls.take position ++
            ((S.advance store c e).2.getLeft?.toList ++ calls.drop (position + 1))⟩ := .advance
      rwa [← hsplit] at hstep

/-- A play is a run. -/
theorem run_of_play {ms : List (Move κ ε)} {ls : List (Label κ ε)}
    (hopens : ∀ c, .arrive c ∈ ms → S.Opens c) (h : S.play p ms = some (ls, q)) :
    Run S.Step p ls q := by
  induction ms generalizing p ls with
  | nil =>
      cases h
      exact .nil _
  | cons m ms ih =>
      obtain ⟨⟨label, mid⟩, hmove, h⟩ := Option.bind_eq_some_iff.1 h
      obtain ⟨⟨labels, last⟩, hplay, h⟩ := Option.bind_eq_some_iff.1 h
      cases h
      have hfirst : ∀ c, m = .arrive c → S.Opens c := fun c hc ↦ hopens c (by simp [hc])
      have hrest : ∀ c, .arrive c ∈ ms → S.Opens c := fun c hc ↦ hopens c (by simp [hc])
      exact .cons (step_of_move hfirst hmove) (ih hrest hplay)

end Service

end Sessions
