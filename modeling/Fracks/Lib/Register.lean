import Fracks.Lib.Runs
import Mathlib.Logic.Function.Basic
import Mathlib.Tactic.Common

/-!
# Registers of numbered entries

Every owner numbers its entries one after another.  An entry is filed under a
key and is live until it is retired or dropped, and for each owner and key the
register names the entry that is active.  In every register that the moves lead
to, the active entry of a key is its only live entry, and no number of an owner
is given twice.
-/

open Runs

@[ext]
structure Register (O K : Type*) where
  /-- The next number of an owner that has been opened. -/
  next : O → Option ℕ
  /-- The key of an entry and whether it is live. -/
  entry : O × ℕ → Option (K × Bool)
  /-- The number of the active entry. -/
  active : O × K → Option ℕ

namespace Register

inductive Move (O K : Type*)
  | opened (o : O)
  | filed (o : O) (k : K)
  | retired (o : O) (n : ℕ)
  | dropped (o : O) (n : ℕ)

variable {O K : Type*} [DecidableEq O] [DecidableEq K]

/-- The active entries after entry `n`, filed under `k`, has ceased to be live. -/
def withdraw (r : Register O K) (o : O) (k : K) (n : ℕ) : O × K → Option ℕ :=
  if r.active (o, k) = some n then Function.update r.active (o, k) none else r.active

inductive Step (r : Register O K) : Move O K → Register O K → Prop
  | opened {s : Register O K} {o : O} :
      r.next o = none → s.next = Function.update r.next o (some 0) → s.entry = r.entry →
        s.active = r.active → Step r (.opened o) s
  | filed {s : Register O K} {o : O} {k : K} {n : ℕ} :
      r.next o = some n → r.active (o, k) = none →
        s.next = Function.update r.next o (some (n + 1)) →
          s.entry = Function.update r.entry (o, n) (some (k, true)) →
            s.active = Function.update r.active (o, k) (some n) → Step r (.filed o k) s
  | retired {s : Register O K} {o : O} {k : K} {n : ℕ} {live : Bool} :
      r.entry (o, n) = some (k, live) → s.next = r.next →
        s.entry = Function.update r.entry (o, n) (some (k, false)) →
          s.active = r.withdraw o k n → Step r (.retired o n) s
  | dropped {s : Register O K} {o : O} {k : K} {n : ℕ} {live : Bool} :
      r.entry (o, n) = some (k, live) → s.next = r.next →
        s.entry = Function.update r.entry (o, n) none → s.active = r.withdraw o k n →
          Step r (.dropped o n) s

/-- Entries carry numbers that were given out, and the active entry of a key is
the live one. -/
structure Sound (r : Register O K) : Prop where
  numbered : ∀ {o n e}, r.entry (o, n) = some e → ∃ m, r.next o = some m ∧ n < m
  active_iff : ∀ {o k n}, r.active (o, k) = some n ↔ r.entry (o, n) = some (k, true)

variable {r s t u : Register O K} {l l' : Move O K} {ls : List (Move O K)}

omit [DecidableEq O] [DecidableEq K] in
/-- A key has at most one live entry. -/
theorem Sound.live_unique (hr : r.Sound) {o : O} {k : K} {n m : ℕ}
    (hn : r.entry (o, n) = some (k, true)) (hm : r.entry (o, m) = some (k, true)) : n = m := by
  have hactive := hr.active_iff.2 hn
  rw [hr.active_iff.2 hm] at hactive
  exact (Option.some.inj hactive).symm

/-- Withdrawing an entry leaves exactly the live entries other than it active. -/
theorem Sound.withdraw_eq_some (hr : r.Sound) {o : O} {k : K} {n : ℕ} {live : Bool}
    (hn : r.entry (o, n) = some (k, live)) {p : O} {j : K} {m : ℕ} :
    r.withdraw o k n (p, j) = some m ↔ (p, m) ≠ (o, n) ∧ r.entry (p, m) = some (j, true) := by
  by_cases hactive : r.active (o, k) = some n
  · rw [withdraw, if_pos hactive]
    by_cases hkey : (p, j) = (o, k)
    · obtain ⟨rfl, rfl⟩ := Prod.mk.inj hkey
      simp only [Function.update_self, reduceCtorEq, ne_eq, Prod.mk.injEq, true_and, false_iff,
        not_and]
      intro hne hm
      exact hne (hr.live_unique hm (hr.active_iff.1 hactive))
    · rw [Function.update_of_ne hkey, hr.active_iff]
      refine ⟨fun hm ↦ ⟨?_, hm⟩, And.right⟩
      rintro heq
      obtain ⟨rfl, rfl⟩ := Prod.mk.inj heq
      rw [hr.active_iff.1 hactive] at hm
      simp only [Option.some.injEq, Prod.mk.injEq, and_true] at hm
      exact hkey (by rw [hm])
  · rw [withdraw, if_neg hactive, hr.active_iff]
    refine ⟨fun hm ↦ ⟨?_, hm⟩, And.right⟩
    rintro heq
    obtain ⟨rfl, rfl⟩ := Prod.mk.inj heq
    have hkey := hm
    rw [hn] at hkey
    simp only [Option.some.injEq, Prod.mk.injEq] at hkey
    obtain ⟨rfl, rfl⟩ := hkey
    exact hactive (hr.active_iff.2 hm)

theorem Step.sound (h : Step r l s) (hr : r.Sound) : s.Sound := by
  cases h with
  | @opened _ o hnone hnext hentry hactive =>
      constructor
      · intro p n e he
        rw [hentry] at he
        obtain ⟨m, hm, hlt⟩ := hr.numbered he
        have hne : p ≠ o := by
          rintro rfl
          rw [hnone] at hm
          exact nomatch hm
        exact ⟨m, by rw [hnext, Function.update_of_ne hne, hm], hlt⟩
      · intro p j m
        rw [hentry, hactive, hr.active_iff]
  | @filed _ o k n hn hfree hnext hentry hactive =>
      have hnew : r.entry (o, n) = none := by
        by_contra hne
        obtain ⟨e, he⟩ := Option.ne_none_iff_exists'.1 hne
        obtain ⟨q, hq, hlt⟩ := hr.numbered he
        rw [hn, Option.some.injEq] at hq
        omega
      constructor
      · intro p m e he
        by_cases hp : p = o
        · subst hp
          refine ⟨n + 1, by rw [hnext, Function.update_self], ?_⟩
          by_cases hm : m = n
          · omega
          · rw [hentry, Function.update_of_ne (by simpa using hm)] at he
            obtain ⟨q, hq, hlt⟩ := hr.numbered he
            rw [hn, Option.some.injEq] at hq
            omega
        · rw [hentry, Function.update_of_ne (by simp [hp])] at he
          rw [hnext, Function.update_of_ne hp]
          exact hr.numbered he
      · intro p j m
        rw [hentry, hactive]
        by_cases hkey : (p, j) = (o, k)
        · obtain ⟨rfl, rfl⟩ := Prod.mk.inj hkey
          rw [Function.update_self, Option.some.injEq]
          by_cases hm : m = n
          · subst hm
            simp
          · rw [Function.update_of_ne (by simpa using hm), ← hr.active_iff, hfree]
            simp [Ne.symm hm]
        · rw [Function.update_of_ne hkey, hr.active_iff]
          by_cases hpm : (p, m) = (o, n)
          · obtain ⟨rfl, rfl⟩ := Prod.mk.inj hpm
            rw [Function.update_self, hnew]
            simp only [reduceCtorEq, Option.some.injEq, Prod.mk.injEq, and_true, false_iff]
            rintro rfl
            exact hkey rfl
          · rw [Function.update_of_ne hpm]
  | @retired _ o k n live hn hnext hentry hactive =>
      constructor
      · intro p m e he
        rw [hnext]
        by_cases hpm : (p, m) = (o, n)
        · obtain ⟨rfl, rfl⟩ := Prod.mk.inj hpm
          exact hr.numbered hn
        · rw [hentry, Function.update_of_ne hpm] at he
          exact hr.numbered he
      · intro p j m
        rw [hentry, hactive, hr.withdraw_eq_some hn]
        by_cases hpm : (p, m) = (o, n)
        · simp [hpm]
        · simp [hpm]
  | @dropped _ o k n live hn hnext hentry hactive =>
      constructor
      · intro p m e he
        rw [hnext]
        by_cases hpm : (p, m) = (o, n)
        · rw [hentry, hpm, Function.update_self] at he
          exact nomatch he
        · rw [hentry, Function.update_of_ne hpm] at he
          exact hr.numbered he
      · intro p j m
        rw [hentry, hactive, hr.withdraw_eq_some hn]
        by_cases hpm : (p, m) = (o, n)
        · simp [hpm]
        · simp [hpm]

theorem sound_of_run (h : Run Step r ls s) (hr : r.Sound) : s.Sound :=
  h.invariant (fun _ _ _ hsound hstep ↦ hstep.sound hsound) hr

/-! ## Numbers -/

/-- The step from `r` to `s` brings in entry `n` of `o`. -/
def Files (r s : Register O K) (o : O) (n : ℕ) : Prop :=
  r.entry (o, n) = none ∧ s.entry (o, n) ≠ none

/-- Only filing brings in an entry, under the next number of its owner. -/
theorem Step.next_of_files (h : Step r l s) {o : O} {n : ℕ} (hn : Files r s o n) :
    r.next o = some n ∧ s.next o = some (n + 1) := by
  obtain ⟨hbefore, hafter⟩ := hn
  cases h with
  | opened _ _ hentry =>
      rw [hentry] at hafter
      exact absurd hbefore hafter
  | @filed _ p k m hm _ hnext hentry =>
      by_cases hpm : (o, n) = (p, m)
      · obtain ⟨rfl, rfl⟩ := Prod.mk.inj hpm
        exact ⟨hm, by rw [hnext, Function.update_self]⟩
      · rw [hentry, Function.update_of_ne hpm] at hafter
        exact absurd hbefore hafter
  | @retired _ p k m live hm _ hentry =>
      by_cases hpm : (o, n) = (p, m)
      · rw [hpm, hm] at hbefore
        exact nomatch hbefore
      · rw [hentry, Function.update_of_ne hpm] at hafter
        exact absurd hbefore hafter
  | @dropped _ p k m live hm _ hentry =>
      by_cases hpm : (o, n) = (p, m)
      · rw [hpm, hm] at hbefore
        exact nomatch hbefore
      · rw [hentry, Function.update_of_ne hpm] at hafter
        exact absurd hbefore hafter

/-- Owners are never closed, and their numbers only grow. -/
theorem Step.next_le (h : Step r l s) {o : O} {n : ℕ} (hn : r.next o = some n) :
    ∃ m, s.next o = some m ∧ n ≤ m := by
  cases h with
  | @opened _ p hnone hnext =>
      have hne : o ≠ p := by
        rintro rfl
        rw [hnone] at hn
        exact nomatch hn
      exact ⟨n, by rw [hnext, Function.update_of_ne hne, hn], n.le_refl⟩
  | @filed _ p k m hm _ hnext =>
      by_cases hp : o = p
      · subst hp
        rw [hn, Option.some.injEq] at hm
        exact ⟨m + 1, by rw [hnext, Function.update_self], by omega⟩
      · exact ⟨n, by rw [hnext, Function.update_of_ne hp, hn], n.le_refl⟩
  | retired _ hnext => exact ⟨n, by rw [hnext, hn], n.le_refl⟩
  | dropped _ hnext => exact ⟨n, by rw [hnext, hn], n.le_refl⟩

theorem next_le_of_run (h : Run Step r ls s) {o : O} {n : ℕ} (hn : r.next o = some n) :
    ∃ m, s.next o = some m ∧ n ≤ m := by
  refine h.invariant (P := fun s ↦ ∃ m, s.next o = some m ∧ n ≤ m) ?_ ⟨n, hn, n.le_refl⟩
  rintro s l t ⟨m, hm, hle⟩ hstep
  obtain ⟨q, hq, hmq⟩ := hstep.next_le hm
  exact ⟨q, hq, Nat.le_trans hle hmq⟩

/-- Of two steps that bring in an entry of one owner, the later one gives the
greater number. -/
theorem numbers_increase (hfirst : Step r l s) (hrun : Run Step s ls t) (hsecond : Step t l' u)
    {o : O} {n m : ℕ} (hn : Files r s o n) (hm : Files t u o m) : n < m := by
  obtain ⟨q, hq, hle⟩ := next_le_of_run hrun (hfirst.next_of_files hn).2
  rw [(hsecond.next_of_files hm).1, Option.some.injEq] at hq
  omega

end Register
