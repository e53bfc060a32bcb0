import Fracks.Constraints

/-!
# Tables of records

The records of one type form a table, the function `L.view α` from addresses to
records.  A write updates the table of its own type at one address and leaves
every other table alone; the creation of an account leaves all tables alone.
-/

namespace Fracks.Ledger

open Checked AccountType

variable {α β : Type} [AccountType α] [AccountType β] {L L' : Ledger} {k payer : Pubkey}

theorem view_none_of_kind {b : β} (h : L.view β k = some b) (hkind : kind α ≠ kind β) :
    L.view α k = none := by
  by_contra hne
  obtain ⟨a, ha⟩ := Option.ne_none_iff_exists'.1 hne
  exact account_ne_of_kind hkind ((view_eq_some.1 ha).symm.trans (view_eq_some.1 h))

theorem view_none_of_vacant (h : L.accounts k = .vacant) : L.view α k = none := by
  by_contra hne
  obtain ⟨a, ha⟩ := Option.ne_none_iff_exists'.1 hne
  exact account_ne_vacant a ((view_eq_some.1 ha).symm.trans h)

theorem view_none_of_uninitialized {owner : Pubkey} (h : L.accounts k = ⟨owner, .empty⟩) :
    L.view α k = none := by
  by_contra hne
  obtain ⟨a, ha⟩ := Option.ne_none_iff_exists'.1 hne
  exact account_ne_uninitialized a owner ((view_eq_some.1 ha).symm.trans h)

theorem view_ne {x y : Pubkey} {a : α} (hx : L.view α x = some a) (hy : L.view α y = none) :
    x ≠ y := by
  rintro rfl
  rw [hx] at hy
  exact nomatch hy

theorem ne_of_kind {x y : Pubkey} {a : α} {b : β} (hx : L.accounts x = account a)
    (hy : L.accounts y = account b) (hkind : kind α ≠ kind β) : x ≠ y := by
  rintro rfl
  exact account_ne_of_kind hkind (hx.symm.trans hy)

/-! ## Writes -/

theorem view_put (a : α) : (L.put k a).view α = Function.update (L.view α) k (some a) := by
  funext x
  by_cases hx : x = k
  · rw [hx, view_put_self, Function.update_self]
  · rw [view_put_of_ne a hx, Function.update_of_ne hx]

theorem view_put_other {b : β} (hk : L.view α k = none) (hkind : kind α ≠ kind β) :
    (L.put k b).view α = L.view α := by
  funext x
  by_cases hx : x = k
  · rw [hx, hk]
    exact view_none_of_kind (view_put_self b) hkind
  · exact view_put_of_ne b hx

/-- Overwriting a record leaves the tables of the other types alone. -/
theorem view_overwrite {b b' : β} (hk : L.accounts k = account b) (hkind : kind α ≠ kind β) :
    (L.put k b').view α = L.view α :=
  view_put_other (view_none_of_kind (view_eq_some.2 hk) hkind) hkind

theorem close_accounts_of_ne {x destination : Pubkey} (hx : x ≠ k) :
    (L.close k destination).accounts x = L.accounts x := by
  simp [close, setAccount_accounts_of_ne _ hx]

theorem view_close {destination : Pubkey} :
    (L.close k destination).view α = Function.update (L.view α) k none := by
  funext x
  by_cases hx : x = k
  · rw [hx, Function.update_self]
    exact view_none_of_vacant (by simp [close, setAccount])
  · rw [Function.update_of_ne hx]
    exact view_congr (close_accounts_of_ne hx)

theorem view_close_other {b : β} {destination : Pubkey} (hk : L.accounts k = account b)
    (hkind : kind α ≠ kind β) : (L.close k destination).view α = L.view α := by
  rw [view_close, ← view_none_of_kind (view_eq_some.2 hk) hkind, Function.update_eq_self]

/-! ## Creation -/

/-- A new account holds no record yet. -/
theorem view_createAccount {program : ProgramName} {space : ℕ}
    (h : L.createAccount payer k program space = .ok L') : L'.view α = L.view α := by
  obtain ⟨hvacant, hother, hnew, -⟩ := createAccount_ok h
  funext x
  by_cases hx : x = k
  · rw [hx, view_none_of_vacant hvacant, view_none_of_uninitialized hnew]
  · exact view_congr (hother x hx)

theorem view_initIfNeeded {expected : Pubkey} {space : ℕ} {old : Option α}
    (h : L.initIfNeeded α payer k expected space = .ok (L', old)) :
    k = expected ∧ L.view α k = old ∧ L'.view β = L.view β := by
  obtain ⟨hk, hother, hcase, -⟩ := initIfNeeded_ok h
  refine ⟨hk, ?_, ?_⟩
  · rcases hcase with ⟨rfl, hvacant, -⟩ | ⟨a, rfl, ha, -⟩
    · exact view_none_of_vacant hvacant
    · exact view_eq_some.2 ha
  · funext x
    by_cases hx : x = k
    · subst hx
      rcases hcase with ⟨-, hvacant, hnew⟩ | ⟨a, -, ha, hkept⟩
      · rw [view_none_of_vacant hvacant, view_none_of_uninitialized hnew]
      · exact view_congr (hkept.trans ha.symm)
    · exact view_congr (hother x hx)

/-- After `init_if_needed` no record of another type is at the address. -/
theorem view_initIfNeeded_other {expected : Pubkey} {space : ℕ} {old : Option α}
    (h : L.initIfNeeded α payer k expected space = .ok (L', old)) (hkind : kind β ≠ kind α) :
    L'.view β k = none := by
  obtain ⟨-, -, ⟨-, -, hnew⟩ | ⟨a, -, -, ha⟩, -⟩ := initIfNeeded_ok h
  · exact view_none_of_uninitialized hnew
  · exact view_none_of_kind (view_eq_some.2 ha) hkind

/-- The `init` of a record adds it to the table of its type. -/
theorem view_initRecord {expected : Pubkey} {space : ℕ} {a : α}
    (h : L.initRecord payer k expected space a = .ok L') :
    k = expected ∧ L.view α k = none ∧ L'.view α = Function.update (L.view α) k (some a) := by
  obtain ⟨hk, hvacant, hnew, hother⟩ := initRecord_ok h
  refine ⟨hk, view_none_of_vacant hvacant, ?_⟩
  funext x
  by_cases hx : x = k
  · rw [hx, Function.update_self, view_eq_some, hnew]
  · rw [Function.update_of_ne hx]
    exact view_congr (hother x hx)

/-! ## Properties of all records -/

/-- Every record of a table meets `P`. -/
def Everywhere (P : Pubkey → α → Prop) (table : Pubkey → Option α) : Prop :=
  ∀ k a, table k = some a → P k a

omit [AccountType α] in
theorem everywhere_of_none {P : Pubkey → α → Prop} {table : Pubkey → Option α}
    (h : ∀ k, table k = none) : Everywhere P table := by
  intro k a ha
  rw [h] at ha
  exact nomatch ha

omit [AccountType α] in
theorem Everywhere.update {P : Pubkey → α → Prop} {table : Pubkey → Option α}
    (h : Everywhere P table) {o : Option α} (ho : ∀ a, o = some a → P k a) :
    Everywhere P (Function.update table k o) := by
  intro x a hx
  by_cases hxk : x = k
  · subst hxk
    rw [Function.update_self] at hx
    exact ho a hx
  · rw [Function.update_of_ne hxk] at hx
    exact h x a hx

omit [AccountType α] in
/-- Where all records meet `P`, only the one that is written can break it. -/
theorem Everywhere.update_iff {P : Pubkey → α → Prop} {table : Pubkey → Option α}
    (h : Everywhere P table) {o : Option α} :
    Everywhere P (Function.update table k o) ↔ ∀ a, o = some a → P k a := by
  refine ⟨fun hall a ha ↦ hall k a ?_, h.update⟩
  rw [Function.update_self, ha]

/-- No two records of a table have the same key. -/
def Distinct {γ : Type} (key : α → γ) (table : Pubkey → Option α) : Prop :=
  ∀ k k' a a', table k = some a → table k' = some a' → key a = key a' → k = k'

omit [AccountType α] in
/-- Where keys are distinct, they stay so exactly if no other record has the key of
the one that is written. -/
theorem Distinct.update_iff {γ : Type} {key : α → γ} {table : Pubkey → Option α} {a : α}
    (h : Distinct key table) :
    Distinct key (Function.update table k (some a)) ↔
      ∀ x b, table x = some b → key b = key a → x = k := by
  constructor
  · intro hall x b hb hkey
    by_contra hx
    have hother : Function.update table k (some a) x = some b := by
      rw [Function.update_of_ne hx, hb]
    exact hx (hall x k b a hother (Function.update_self ..) hkey)
  · intro hfirst x y b c hb hc hkey
    by_cases hx : x = k <;> by_cases hy : y = k
    · rw [hx, hy]
    · subst hx
      rw [Function.update_self, Option.some_inj] at hb
      rw [Function.update_of_ne hy] at hc
      exact (hfirst y c hc (by rw [hb, hkey])).symm
    · subst hy
      rw [Function.update_self, Option.some_inj] at hc
      rw [Function.update_of_ne hx] at hb
      exact hfirst x b hb (by rw [hc, hkey])
    · rw [Function.update_of_ne hx] at hb
      rw [Function.update_of_ne hy] at hc
      exact h x y b c hb hc hkey

theorem Frame.table_eq {S : List AccountKind} (h : Frame S L L') (hα : kind α ∉ S) :
    L'.view α = L.view α :=
  funext fun k ↦ h.view_eq hα k

section Everywhere

variable {P : Pubkey → α → Prop}

theorem Everywhere.of_frame {S : List AccountKind} (h : Everywhere P (L.view α))
    (hframe : Frame S L L') (hα : kind α ∉ S) : Everywhere P (L'.view α) := by
  rwa [hframe.table_eq hα]

theorem Everywhere.put (h : Everywhere P (L.view α)) {a : α} (ha : P k a) :
    Everywhere P ((L.put k a).view α) := by
  rw [view_put]
  refine h.update fun b hb ↦ ?_
  obtain rfl := Option.some.inj hb
  exact ha

/-- A record of another type says nothing about the records of this one. -/
theorem Everywhere.put_other (h : Everywhere P (L.view α)) {b : β} (hkind : kind α ≠ kind β) :
    Everywhere P ((L.put k b).view α) := by
  intro x a hx
  by_cases hxk : x = k
  · subst hxk
    rw [view_none_of_kind (view_put_self b) hkind] at hx
    exact nomatch hx
  · rw [view_put_of_ne b hxk] at hx
    exact h x a hx

theorem Everywhere.initRecord (h : Everywhere P (L.view α)) {expected : Pubkey} {space : ℕ}
    {a : α} (hinit : L.initRecord payer k expected space a = .ok L') (ha : P k a) :
    Everywhere P (L'.view α) := by
  rw [(view_initRecord hinit).2.2]
  refine h.update fun b hb ↦ ?_
  obtain rfl := Option.some.inj hb
  exact ha

end Everywhere

end Fracks.Ledger
