import Fracks.Ledger

/-!
# Account constraints

The generated checks that the instructions of all programs share: signer and
seeds constraints, the `init` of a record, and the load-modify-store of a
mutable one.  Each comes with the equation that says when it succeeds and with
its frame.
-/

namespace Fracks

open Checked AccountType

def requireSigner (signers : List Pubkey) (k : Pubkey) : Result Unit :=
  require (k ∈ signers) (.anchor .accountNotSigner)

def requireSeeds (k expected : Pubkey) : Result Unit :=
  require (k = expected) (.anchor .constraintSeeds)

/-- A `Program` account must be the program of that name. -/
def requireProgram (k : Pubkey) (name : ProgramName) : Result Unit :=
  require (k = .program name) (.anchor .invalidProgramId)

@[simp] theorem requireSigner_eq_ok {signers : List Pubkey} {k : Pubkey} {u : Unit} :
    requireSigner signers k = .ok u ↔ k ∈ signers := require_eq_ok

@[simp] theorem requireSeeds_eq_ok {k expected : Pubkey} {u : Unit} :
    requireSeeds k expected = .ok u ↔ k = expected := require_eq_ok

@[simp] theorem requireProgram_eq_ok {k : Pubkey} {name : ProgramName} {u : Unit} :
    requireProgram k name = .ok u ↔ k = .program name := require_eq_ok

namespace Ledger

variable {α : Type} [AccountType α] {L L' : Ledger} {k payer : Pubkey}

/-- An `init` account at its seeds, written with the record `a`. -/
def initRecord (L : Ledger) (payer k expected : Pubkey) (space : ℕ) (a : α) : Result Ledger := do
  requireSeeds k expected
  let L ← L.createAccount payer k (kind α).program space
  .ok (L.put k a)

/-- An `init_if_needed` account at its seeds: a record that is there already is
loaded, otherwise the account is created. -/
def initIfNeeded (α : Type) [AccountType α] (L : Ledger) (payer k expected : Pubkey)
    (space : ℕ) : Result (Ledger × Option α) := do
  requireSeeds k expected
  if (L.accounts k).owner = .default then
    let L ← L.createAccount payer k (kind α).program space
    .ok (L, none)
  else
    let a ← L.load α k
    .ok (L, some a)

/-- Load the record at `k`, run `f` on it and write the result back. -/
def modify (L : Ledger) (k : Pubkey) (f : α → Result α) : Result Ledger := do
  let a ← L.load α k
  let a' ← f a
  .ok (L.put k a')

theorem initRecord_ok {expected : Pubkey} {space : ℕ} {a : α}
    (h : L.initRecord payer k expected space a = .ok L') :
    k = expected ∧ L.accounts k = .vacant ∧ L'.accounts k = account a ∧
      ∀ x, x ≠ k → L'.accounts x = L.accounts x := by
  simp only [initRecord, bind_eq_ok, requireSeeds_eq_ok, exists_const, Except.ok.injEq] at h
  obtain ⟨hk, L₁, hcreate, rfl⟩ := h
  obtain ⟨hvacant, hother, -⟩ := createAccount_ok hcreate
  refine ⟨hk, hvacant, put_accounts_self a, fun x hx ↦ ?_⟩
  rw [put_accounts_of_ne a hx, hother x hx]

theorem initRecord_now {expected : Pubkey} {space : ℕ} {a : α}
    (h : L.initRecord payer k expected space a = .ok L') : L'.now = L.now := by
  simp only [initRecord, bind_eq_ok, requireSeeds_eq_ok, exists_const, Except.ok.injEq] at h
  obtain ⟨-, L₁, hcreate, rfl⟩ := h
  exact (createAccount_ok hcreate).2.2.2

theorem initRecord_slot {expected : Pubkey} {space : ℕ} {a : α}
    (h : L.initRecord payer k expected space a = .ok L') : L'.slot = L.slot := by
  simp only [initRecord, createAccount, systemTransfer, bind_eq_ok, requireSeeds_eq_ok,
    require_eq_ok, exists_const, Except.ok.injEq] at h
  obtain ⟨-, L₁, ⟨-, L₂, ⟨-, -, rfl⟩, rfl⟩, rfl⟩ := h
  rfl

theorem modify_eq_ok {f : α → Result α} :
    L.modify k f = .ok L' ↔
      ∃ a a', L.accounts k = account a ∧ f a = .ok a' ∧ L' = L.put k a' := by
  simp only [modify, bind_eq_ok, load_eq_ok, Except.ok.injEq]
  constructor
  · rintro ⟨a, ha, a', ha', rfl⟩
    exact ⟨a, a', ha, ha', rfl⟩
  · rintro ⟨a, a', ha, ha', rfl⟩
    exact ⟨a, ha, a', ha', rfl⟩

theorem Frame.initRecord {S : List AccountKind} {expected : Pubkey} {space : ℕ} {a : α}
    (h : L.initRecord payer k expected space a = .ok L') (hS : kind α ∈ S) : Frame S L L' := by
  simp only [Ledger.initRecord, bind_eq_ok, requireSeeds_eq_ok, exists_const,
    Except.ok.injEq] at h
  obtain ⟨-, L₁, hcreate, rfl⟩ := h
  exact .create hcreate hS

theorem Frame.modify {S : List AccountKind} {f : α → Result α}
    (h : L.modify k f = .ok L') (hS : kind α ∈ S) : Frame S L L' := by
  obtain ⟨a, a', ha, -, rfl⟩ := modify_eq_ok.1 h
  exact .put ha hS

/-- After `init_if_needed` the account holds the old record or is new, and no
other account has changed. -/
theorem initIfNeeded_ok {expected : Pubkey} {space : ℕ} {old : Option α}
    (h : L.initIfNeeded α payer k expected space = .ok (L', old)) :
    k = expected ∧ (∀ x, x ≠ k → L'.accounts x = L.accounts x) ∧
      ((old = none ∧ L.accounts k = .vacant ∧
          L'.accounts k = ⟨.program (kind α).program, .empty⟩) ∨
        ∃ a, old = some a ∧ L.accounts k = account a ∧ L'.accounts k = account a) ∧
        ∀ S, kind α ∈ S → ∀ a : α, Frame S L (L'.put k a) := by
  simp only [initIfNeeded, bind_eq_ok, requireSeeds_eq_ok, exists_const] at h
  obtain ⟨hk, h⟩ := h
  split at h
  · simp only [bind_eq_ok, Except.ok.injEq, Prod.mk.injEq] at h
    obtain ⟨L₁, hcreate, rfl, rfl⟩ := h
    obtain ⟨hvacant, hother, hnew, -⟩ := createAccount_ok hcreate
    exact ⟨hk, hother, .inl ⟨rfl, hvacant, hnew⟩, fun S hS a ↦ .create hcreate hS⟩
  · simp only [bind_eq_ok, load_eq_ok, Except.ok.injEq, Prod.mk.injEq] at h
    obtain ⟨a, ha, rfl, rfl⟩ := h
    exact ⟨hk, fun _ _ ↦ rfl, .inr ⟨a, rfl, ha, ha⟩, fun S hS a' ↦ .put ha hS⟩

theorem initIfNeeded_now {expected : Pubkey} {space : ℕ} {old : Option α}
    (h : L.initIfNeeded α payer k expected space = .ok (L', old)) : L'.now = L.now := by
  simp only [initIfNeeded, bind_eq_ok, requireSeeds_eq_ok, exists_const] at h
  obtain ⟨-, h⟩ := h
  split at h
  · simp only [bind_eq_ok, Except.ok.injEq, Prod.mk.injEq] at h
    obtain ⟨L₁, hcreate, rfl, -⟩ := h
    obtain ⟨-, -, -, hnow⟩ := createAccount_ok hcreate
    exact hnow
  · simp only [bind_eq_ok, Except.ok.injEq, Prod.mk.injEq] at h
    obtain ⟨_, -, rfl, -⟩ := h
    rfl

/-- A record of another type that is there after `init_if_needed` is in another
account. -/
theorem initIfNeeded_ne {β : Type} [AccountType β] {expected : Pubkey} {space : ℕ}
    {old : Option α} {x : Pubkey} {b : β}
    (h : L.initIfNeeded α payer k expected space = .ok (L', old))
    (hkind : kind α ≠ kind β) (hx : L'.accounts x = account b) : x ≠ k := by
  rintro rfl
  obtain ⟨-, -, ⟨-, -, hnew⟩ | ⟨a, -, -, ha⟩, -⟩ := initIfNeeded_ok h
  · exact account_ne_uninitialized b _ (hx.symm.trans hnew)
  · exact account_ne_of_kind hkind (ha.symm.trans hx)

omit [AccountType α] in
/-- A guard in front of a computation leaves its frame alone. -/
theorem Frame.of_bind {S : List AccountKind} {x : Result α} {f : α → Result Ledger}
    (h : (x >>= f) = .ok L') (hf : ∀ a, f a = .ok L' → Frame S L L') : Frame S L L' := by
  obtain ⟨a, -, ha⟩ := bind_eq_ok.1 h
  exact hf a ha

end Ledger

end Fracks
