import Mathlib.Data.Int.Notation
import Mathlib.Data.Nat.Notation
import Mathlib.Tactic.Common

/-!
# Requests of the backend

What the services of the backend share: the errors they answer with and the values that
come into a statement from outside.
-/

namespace Fracks.Backend

inductive HttpError
  | badRequest (message : String)
  | conflict (message : String)
  | notFound (message : String)
  | internal
  deriving DecidableEq

/-- A fresh identifier, the clock of the service and the clock of the database, in
milliseconds. -/
structure Input where
  uuid : String
  now : ℤ
  databaseNow : ℤ
  deriving DecidableEq

/-- `text || null`: an empty text counts as none. -/
def orNull (text : Option String) : Option String := text.filter (· ≠ "")

section Statements

variable {σ κ ρ : Type}

/-- A statement that changes nothing: the call goes on, or has its reply. -/
def proceed (db : σ) (next : Except HttpError (κ ⊕ ρ)) : σ × (κ ⊕ Except HttpError ρ) :=
  match next with
  | .ok (.inl call) => (db, .inl call)
  | .ok (.inr reply) => (db, .inr (.ok reply))
  | .error e => (db, .inr (.error e))

/-- The last statement of a call: it is refused as a whole or leaves a database and a
reply. -/
def conclude (db : σ) (written : Option (σ × ρ)) : σ × (κ ⊕ Except HttpError ρ) :=
  match written with
  | some written => (written.1, .inr (.ok written.2))
  | none => (db, .inr (.error .internal))

variable {db : σ} {next : κ} {planned : Except HttpError (κ ⊕ ρ)} {written : Option (σ × ρ)}

@[simp] theorem proceed_fst : (proceed db planned).1 = db := by
  rcases planned with e | next
  · rfl
  · cases next <;> rfl

theorem proceed_inl : (proceed db planned).2 = .inl next ↔ planned = .ok (.inl next) := by
  rcases planned with e | planned
  · simp [proceed]
  · cases planned <;> simp [proceed]

theorem conclude_fst : (conclude (κ := κ) db written).1 = (written.map Prod.fst).getD db := by
  cases written <;> rfl

@[simp] theorem conclude_ne_inl : (conclude db written).2 ≠ .inl next := by
  cases written <;> simp [conclude]

end Statements

end Fracks.Backend
