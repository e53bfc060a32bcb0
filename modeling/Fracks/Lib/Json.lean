import Fracks.Lib.Decimal
import Mathlib.Tactic.Common

/-!
# Records and JSON values

A record is a list of entries in which the first entry of a key counts.  Setting a key
to nothing removes it, as a document store does with an undefined field.
-/

namespace Json

variable {α : Type*}

abbrev Record (α : Type*) := List (String × α)

namespace Record

def get (record : Record α) (key : String) : Option α := record.lookup key

def set (record : Record α) (key : String) (value : Option α) : Record α :=
  value.toList.map (fun a ↦ (key, a)) ++ record.filter fun entry ↦ !(entry.1 == key)

/-- The entries of `other` over those of `record`. -/
def spread (record other : Record α) : Record α :=
  other.foldr (fun entry merged ↦ set merged entry.1 (some entry.2)) record

theorem get_cons (name : String) (a : α) (record : Record α) (key : String) :
    get ((name, a) :: record) key = if key = name then some a else get record key := by
  rw [get, List.lookup_cons]
  by_cases h : key = name
  · simp [h]
  · have hname : (key == name) = false := by simpa using h
    simp [h, hname, get]

theorem get_filter (keep : String → Bool) (record : Record α) (key : String) :
    get (record.filter fun entry ↦ keep entry.1) key =
      if keep key then get record key else none := by
  induction record with
  | nil => simp [get]
  | cons entry record ih =>
      obtain ⟨name, a⟩ := entry
      by_cases hname : key = name
      · subst hname
        cases hkeep : keep key <;> simp [hkeep, get_cons, ih]
      · cases hkeep : keep name <;> simp [hkeep, get_cons, ih, hname]

theorem get_set (record : Record α) (key other : String) (value : Option α) :
    get (set record key value) other = if other = key then value else get record other := by
  have hrest := get_filter (fun name ↦ !(name == key)) record other
  by_cases h : other = key
  · subst h
    rw [if_neg (by simp)] at hrest
    cases value <;> simp [set, get_cons, hrest]
  · have hname : (!(other == key)) = true := by simpa using h
    rw [if_pos hname] at hrest
    cases value <;> simp [set, get_cons, hrest, h]

@[simp] theorem get_set_self (record : Record α) (key : String) (value : Option α) :
    get (set record key value) key = value := by
  rw [get_set, if_pos rfl]

theorem mem_set {record : Record α} {key : String} {a : α} {entry : String × α} :
    entry ∈ set record key (some a) ↔ entry = (key, a) ∨ entry ∈ record ∧ entry.1 ≠ key := by
  simp [set]

end Record

inductive Value
  | null
  | boolean (b : Bool)
  | number (negative : Bool) (n : Decimal.Number)
  | string (s : String)
  | array (items : List Value)
  | object (entries : List (String × Value))

namespace Value

/-- The entries of a value that is neither null nor a list nor a scalar. -/
def record? : Value → Option (Record Value)
  | object entries => some entries
  | _ => none

/-- A list with an item. -/
def filledArray : Value → Bool
  | array items => !items.isEmpty
  | _ => false

/-- A record with an entry. -/
def filledRecord : Value → Bool
  | object entries => !entries.isEmpty
  | _ => false

def ofNat (n : ℕ) : Value := number false ⟨n, 0⟩

def strings (texts : List String) : Value := array (texts.map string)

def texts (record : Record String) : Value :=
  object (record.map fun entry ↦ (entry.1, string entry.2))

@[simp] theorem record?_object (entries : List (String × Value)) :
    (object entries).record? = some entries := rfl

/-! ## Conversions -/

mutual

/-- A value as a text: the items of a list are separated by commas. -/
def text : Value → String
  | null => "null"
  | boolean b => toString b
  | number negative n => (if negative ∧ n.significand ≠ 0 then "-" else "") ++ n.toText
  | string s => s
  | array items => ",".intercalate (itemTexts items)
  | object _ => "[object Object]"

def itemTexts : List Value → List String
  | [] => []
  | null :: items => "" :: itemTexts items
  | item :: items => text item :: itemTexts items

end

/-- A value as a number, if it is a finite one. -/
def finite : Value → Option ℚ
  | null => some 0
  | boolean b => some (if b then 1 else 0)
  | number negative n => some (if negative then -n.rat else n.rat)
  | string s => Decimal.ofText? s
  | array items => Decimal.ofText? (text (array items))
  | object _ => none

end Value

/-! ## Binary values -/

/-- A value as a database keeps it in binary form: a number by what it stands for, an object by
the values under its keys. -/
inductive Binary
  | null
  | boolean (b : Bool)
  | number (q : ℚ)
  | string (s : String)
  | array (items : List Binary)
  | object (fields : String → Option Binary)

namespace Value

mutual

def binary : Value → Binary
  | null => .null
  | boolean b => .boolean b
  | number negative n => .number (if negative then -n.rat else n.rat)
  | string s => .string s
  | array items => .array (binaryItems items)
  | object entries => .object (binaryFields entries)

def binaryItems : List Value → List Binary
  | [] => []
  | item :: items => binary item :: binaryItems items

def binaryFields : List (String × Value) → String → Option Binary
  | [], _ => none
  | (name, value) :: entries, key =>
      if key = name then some (binary value) else binaryFields entries key

end

theorem binaryFields_eq (entries : Record Value) (key : String) :
    binaryFields entries key = (entries.get key).map binary := by
  induction entries with
  | nil => rfl
  | cons entry entries ih =>
      obtain ⟨name, value⟩ := entry
      rw [binaryFields, Record.get_cons, ih]
      split <;> rfl

/-- Objects with the same values under the same keys are the same, in whatever order they list
them. -/
theorem binary_object_of_get {entries entries' : Record Value}
    (h : ∀ key, entries.get key = entries'.get key) :
    binary (object entries) = binary (object entries') := by
  rw [binary, binary]
  congr 1
  funext key
  rw [binaryFields_eq, binaryFields_eq, h]

end Value

end Json
