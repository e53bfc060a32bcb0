import Mathlib.Data.List.DropRight
import Mathlib.Data.Nat.Notation
import Mathlib.Data.Int.Notation
import Mathlib.Algebra.Order.Ring.Rat
import Mathlib.Algebra.Order.AbsoluteValue.Basic
import Mathlib.Tactic.Common
import Mathlib.Tactic.Ring

/-!
# Numbers as decimal texts

A text of digits stands for a number, and every number stands in its own text.  With a
point a text stands for a number of fractions; what of them is below the scale that is
asked for is cut off.  The text of a floating number has a point or an exponent.
-/

namespace Decimal

/-- The number that a list of digits stands for. -/
def value (digits : List Char) : ℕ := Nat.ofDigitChars 10 digits 0

def IsDigits (cs : List Char) : Prop := cs ≠ [] ∧ cs.all Char.isDigit

instance (cs : List Char) : Decidable (IsDigits cs) := inferInstanceAs (Decidable (_ ∧ _))

/-- The number of a text that has digits only, and at least one. -/
def parse (text : String) : Option ℕ :=
  if IsDigits text.toList then some (value text.toList) else none

/-! ## Digits -/

section Digits

variable {l m : List Char}

theorem IsDigits.of_subset (h : IsDigits l) (hne : m ≠ []) (hsub : m ⊆ l) : IsDigits m := by
  refine ⟨hne, ?_⟩
  rw [List.all_eq_true]
  exact fun c hc ↦ List.all_eq_true.1 h.2 c (hsub hc)

theorem isDigits_toDigits (n : ℕ) : IsDigits (Nat.toDigits 10 n) := by
  refine ⟨Nat.toDigits_ne_nil, ?_⟩
  rw [List.all_eq_true]
  intro c hc
  exact Nat.isDigit_of_mem_toDigits (by decide) (by decide) hc

@[simp] theorem value_toDigits (n : ℕ) : value (Nat.toDigits 10 n) = n :=
  Nat.ofDigitChars_ten_toDigits

theorem toList_toString (n : ℕ) : (toString n).toList = Nat.toDigits 10 n := Nat.toList_repr

@[simp] theorem parse_toString (n : ℕ) : parse (toString n) = some n := by
  rw [parse, toList_toString, if_pos (isDigits_toDigits n), value_toDigits]

theorem value_append (l m : List Char) :
    value (l ++ m) = value l * 10 ^ m.length + value m := by
  rw [value, Nat.ofDigitChars_append, Nat.ofDigitChars_eq_ofDigitChars_zero, Nat.mul_comm]
  rfl

@[simp] theorem value_replicate_zero (n : ℕ) : value (List.replicate n '0') = 0 := by
  simp [value]

theorem value_lt (h : l.all Char.isDigit) : value l < 10 ^ l.length := by
  induction l with
  | nil => decide
  | cons c l ih =>
      rw [List.all_cons, Bool.and_eq_true] at h
      have hrest := ih h.2
      have hdigit : value [c] < 10 := by
        obtain ⟨-, hc⟩ := Char.isDigit_iff_toNat.1 h.1
        have hnine : c.toNat ≤ 57 := hc
        simp [value, Nat.ofDigitChars_cons]
        omega
      have hsplit := value_append [c] l
      rw [List.singleton_append] at hsplit
      have hscaled : (value [c] + 1) * 10 ^ l.length ≤ 10 * 10 ^ l.length :=
        Nat.mul_le_mul_right _ hdigit
      rw [hsplit, List.length_cons, Nat.pow_succ']
      rw [Nat.succ_mul] at hscaled
      omega

theorem value_take (h : l.all Char.isDigit) (n : ℕ) :
    value (l.take n) = value l / 10 ^ (l.length - n) := by
  have hrest : (l.drop n).all Char.isDigit := by
    rw [List.all_eq_true] at h ⊢
    exact fun c hc ↦ h c (List.mem_of_mem_drop hc)
  have hlt := value_lt hrest
  rw [List.length_drop] at hlt
  have hsplit := value_append (l.take n) (l.drop n)
  rw [List.take_append_drop, List.length_drop] at hsplit
  rw [hsplit, Nat.mul_comm, Nat.mul_add_div (Nat.pow_pos (by decide)), Nat.div_eq_of_lt hlt,
    Nat.add_zero]

end Digits

/-! ## Fractions -/

/-- The text of digits with a point in it is split there. -/
def splitPoint (cs : List Char) : List Char × Option (List Char) :=
  match cs.dropWhile (· ≠ '.') with
  | [] => (cs, none)
  | _ :: fraction => (cs.takeWhile (· ≠ '.'), some fraction)

/-- The first `scale` digits behind the point, filled up with zeros. -/
def pad (scale : ℕ) (fraction : List Char) : List Char :=
  (fraction ++ List.replicate scale '0').take scale

/-- What a text stands for in units of which `10 ^ scale` make one. -/
def scaled (scale : ℕ) (text : String) : Option ℕ :=
  let (whole, fraction) := splitPoint text.toList
  if IsDigits whole ∧ ∀ digits ∈ fraction, IsDigits digits then
    some (value whole * 10 ^ scale + value (pad scale (fraction.getD [])))
  else none

section Fractions

variable {whole fraction : List Char}

theorem ne_point {cs : List Char} (h : cs.all Char.isDigit) : ∀ c ∈ cs, c ≠ '.' := by
  intro c hc hpoint
  have hdigit := List.all_eq_true.1 h c hc
  rw [hpoint] at hdigit
  exact absurd hdigit (by decide)

theorem splitPoint_whole (h : IsDigits whole) : splitPoint whole = (whole, none) := by
  have hdrop : whole.dropWhile (· ≠ '.') = [] := by
    rw [List.dropWhile_eq_nil_iff]
    simpa using ne_point h.2
  rw [splitPoint, hdrop]

theorem splitPoint_fraction (h : IsDigits whole) :
    splitPoint (whole ++ '.' :: fraction) = (whole, some fraction) := by
  have hall : ∀ c ∈ whole, decide (c ≠ '.') = true := by
    simpa using ne_point h.2
  rw [splitPoint, List.dropWhile_append_of_pos hall, List.takeWhile_append_of_pos hall]
  simp

theorem value_pad (h : fraction.all Char.isDigit) (scale : ℕ) :
    value (pad scale fraction) = value fraction * 10 ^ scale / 10 ^ fraction.length := by
  have hall : (fraction ++ List.replicate scale '0').all Char.isDigit := by
    rw [List.all_append, h, Bool.true_and, List.all_replicate]
    simp
  rw [pad, value_take hall, value_append, value_replicate_zero, Nat.add_zero]
  simp

theorem scaled_whole (h : IsDigits whole) (scale : ℕ) :
    scaled scale (String.ofList whole) = some (value whole * 10 ^ scale) := by
  have hzero : value (pad scale []) = 0 := by simp [pad]
  simp [scaled, splitPoint_whole h, h, hzero]

theorem scaled_point (hwhole : IsDigits whole) (hfraction : IsDigits fraction) (scale : ℕ) :
    scaled scale (String.ofList (whole ++ '.' :: fraction)) =
      some (value whole * 10 ^ scale + value (pad scale fraction)) := by
  simp [scaled, splitPoint_fraction hwhole, hwhole, hfraction]

/-- A text with a point stands for its digits, moved by the length of the fraction. -/
theorem scaled_fraction (hwhole : IsDigits whole) (hfraction : IsDigits fraction) (scale : ℕ) :
    scaled scale (String.ofList (whole ++ '.' :: fraction)) =
      some (value (whole ++ fraction) * 10 ^ scale / 10 ^ fraction.length) := by
  have hmoved : value (whole ++ fraction) * 10 ^ scale =
      10 ^ fraction.length * (value whole * 10 ^ scale) + value fraction * 10 ^ scale := by
    rw [value_append]
    ring
  rw [scaled_point hwhole hfraction, value_pad hfraction.2, hmoved,
    Nat.mul_add_div (Nat.pow_pos (by decide))]

end Fractions

/-! ## Amounts -/

/-- The digits of a fraction, filled up with zeros in front. -/
def fractionDigits (scale fraction : ℕ) : List Char := (toString fraction).toList.leftpad scale '0'

/-- An amount of units of which `10 ^ scale` make one, without needless zeros. -/
def format (scale amount : ℕ) : String :=
  let whole := amount / 10 ^ scale
  let fraction := amount % 10 ^ scale
  if fraction = 0 then toString whole
  else toString whole ++ "." ++
    String.ofList ((fractionDigits scale fraction).rdropWhile (· = '0'))

section Amounts

variable {scale fraction : ℕ}

theorem length_fractionDigits (hscale : 0 < scale) (h : fraction < 10 ^ scale) :
    (fractionDigits scale fraction).length = scale := by
  have hle : (Nat.toDigits 10 fraction).length ≤ scale :=
    (Nat.length_toDigits_le_iff (by decide) hscale).2 h
  rw [fractionDigits, toList_toString, List.length_leftpad]
  exact Nat.max_eq_left hle

theorem value_fractionDigits (scale fraction : ℕ) :
    value (fractionDigits scale fraction) = fraction := by
  rw [fractionDigits, toList_toString, List.leftpad, value_append, value_replicate_zero,
    Nat.zero_mul, Nat.zero_add, value_toDigits]

theorem isDigits_fractionDigits (scale fraction : ℕ) :
    IsDigits (fractionDigits scale fraction) := by
  have hdigits := isDigits_toDigits fraction
  rw [fractionDigits, toList_toString, List.leftpad]
  refine ⟨by simp [hdigits.1], ?_⟩
  rw [List.all_append, hdigits.2, Bool.and_true]
  simp

/-- Zeros at the end of a fraction do not count. -/
theorem pad_rdropWhile (digits : List Char) :
    pad digits.length (digits.rdropWhile (· = '0')) = digits := by
  have hzeros : digits.rtakeWhile (· = '0') =
      List.replicate (digits.rtakeWhile (· = '0')).length '0' := by
    refine List.eq_replicate_of_mem fun c hc ↦ ?_
    simpa using List.mem_rtakeWhile_imp hc
  have hsplit : digits.rdropWhile (· = '0') ++
      List.replicate (digits.rtakeWhile (· = '0')).length '0' = digits := by
    rw [← hzeros, List.rdropWhile_append_rtakeWhile]
  have hlength := congrArg List.length hsplit
  rw [List.length_append, List.length_replicate] at hlength
  rw [pad, List.take_append, List.take_of_length_le (by omega), List.take_replicate]
  have hrest : min (digits.length - (digits.rdropWhile (· = '0')).length) digits.length =
      (digits.rtakeWhile (· = '0')).length := by
    omega
  rw [hrest, hsplit]

theorem isDigits_rdropWhile (scale : ℕ) (hfraction : fraction ≠ 0) :
    IsDigits ((fractionDigits scale fraction).rdropWhile (· = '0')) := by
  refine (isDigits_fractionDigits scale fraction).of_subset ?_ (List.rdropWhile_prefix _ _).subset
  intro hnil
  have hpad := pad_rdropWhile (fractionDigits scale fraction)
  rw [hnil] at hpad
  have hzero := congrArg value hpad
  rw [value_fractionDigits] at hzero
  exact hfraction (by simpa [pad] using hzero.symm)

/-- An amount is read back from its text. -/
theorem scaled_format (scale amount : ℕ) : scaled scale (format scale amount) = some amount := by
  have hsum : 10 ^ scale * (amount / 10 ^ scale) + amount % 10 ^ scale = amount :=
    Nat.div_add_mod amount (10 ^ scale)
  rw [format]
  split
  · rename_i hfraction
    rw [hfraction, Nat.add_zero, Nat.mul_comm] at hsum
    have hwhole := scaled_whole (isDigits_toDigits (amount / 10 ^ scale)) scale
    rwa [value_toDigits, hsum] at hwhole
  · rename_i hfraction
    have hscale : 0 < scale := by
      by_contra hnot
      obtain rfl : scale = 0 := by omega
      exact hfraction (Nat.mod_one amount)
    have hpad := pad_rdropWhile (fractionDigits scale (amount % 10 ^ scale))
    rw [length_fractionDigits hscale (Nat.mod_lt _ (Nat.pow_pos (by decide)))] at hpad
    have hpoint := scaled_point (isDigits_toDigits (amount / 10 ^ scale))
      (isDigits_rdropWhile scale hfraction) scale
    rw [hpad, value_fractionDigits, value_toDigits, Nat.mul_comm, hsum] at hpoint
    rw [← hpoint]
    congr 1
    apply String.toList_injective
    simp

end Amounts

/-! ## Floating numbers -/

/-- The number `significand * 10 ^ exponent`. -/
structure Number where
  significand : ℕ
  exponent : ℤ
  deriving DecidableEq

namespace Number

def digits (n : Number) : List Char := Nat.toDigits 10 n.significand

/-- The place of the point, counted from the first digit. -/
def point (n : Number) : ℤ := n.digits.length + n.exponent

/-- Without an exponent in its text. -/
def IsPlain (n : Number) : Prop := n.significand = 0 ∨ -6 < n.point ∧ n.point ≤ 21

instance (n : Number) : Decidable n.IsPlain := inferInstanceAs (Decidable (_ ∨ _))

def plainDigits (n : Number) : List Char :=
  if n.significand = 0 then ['0']
  else if 0 ≤ n.exponent then n.digits ++ List.replicate n.exponent.toNat '0'
  else if 0 < n.point then n.digits.take n.point.toNat ++ '.' :: n.digits.drop n.point.toNat
  else '0' :: '.' :: (List.replicate (-n.point).toNat '0' ++ n.digits)

def exponentDigits (n : Number) : List Char :=
  let mantissa := match n.digits with
    | [] => []
    | [d] => [d]
    | d :: ds => d :: '.' :: ds
  let shift := n.point - 1
  mantissa ++ 'e' :: (if 0 ≤ shift then '+' else '-') :: Nat.toDigits 10 shift.natAbs

/-- The text of a number: plain between a millionth and 10²¹, else with an exponent. -/
def toText (n : Number) : String :=
  String.ofList (if n.IsPlain then n.plainDigits else n.exponentDigits)

/-- The number in units of which `10 ^ scale` make one. -/
def units (scale : ℕ) (n : Number) : ℕ :=
  n.significand * 10 ^ n.exponent.toNat * 10 ^ scale / 10 ^ (-n.exponent).toNat

/-- A plain text stands for what the number is worth. -/
theorem scaled_toText {n : Number} (h : n.IsPlain) (scale : ℕ) :
    scaled scale n.toText = some (n.units scale) := by
  have hdigits : IsDigits n.digits := isDigits_toDigits n.significand
  have hvalue : value n.digits = n.significand := value_toDigits n.significand
  rw [toText, if_pos h, plainDigits, units]
  split
  · rename_i hzero
    have hnought : value ['0'] = 0 := by decide
    rw [scaled_whole (by decide), hzero, hnought]
    simp
  · split
    · rename_i hexponent
      have hwhole : IsDigits (n.digits ++ List.replicate n.exponent.toNat '0') :=
        ⟨by simp [hdigits.1], by rw [List.all_append, hdigits.2, Bool.true_and]; simp⟩
      have hnone : (-n.exponent).toNat = 0 := by omega
      rw [scaled_whole hwhole, value_append, value_replicate_zero, List.length_replicate, hvalue,
        hnone, Nat.pow_zero, Nat.div_one, Nat.add_zero]
    · rename_i hexponent
      have hnone : n.exponent.toNat = 0 := by omega
      rw [hnone, Nat.pow_zero, Nat.mul_one]
      split
      · rename_i hpoint
        rw [point] at hpoint
        have htake : IsDigits (n.digits.take n.point.toNat) := by
          refine hdigits.of_subset ?_ (List.take_subset _ _)
          rw [Ne, List.take_eq_nil_iff, point]
          have hne := hdigits.1
          have hplace : (n.digits.length + n.exponent).toNat ≠ 0 := by omega
          simp [hne, hplace]
        have hdrop : IsDigits (n.digits.drop n.point.toNat) := by
          refine hdigits.of_subset ?_ (List.drop_subset _ _)
          rw [Ne, List.drop_eq_nil_iff, point]
          omega
        have hlength : (n.digits.drop n.point.toNat).length = (-n.exponent).toNat := by
          rw [List.length_drop, point]
          omega
        rw [scaled_fraction htake hdrop, List.take_append_drop, hlength, hvalue]
      · rename_i hpoint
        rw [point] at hpoint
        have hfraction : IsDigits (List.replicate (-n.point).toNat '0' ++ n.digits) :=
          ⟨by simp [hdigits.1], by rw [List.all_append, hdigits.2, Bool.and_true]; simp⟩
        have hlength : (List.replicate (-n.point).toNat '0' ++ n.digits).length =
            (-n.exponent).toNat := by
          rw [List.length_append, List.length_replicate, point]
          omega
        have hfirst : value ['0'] = 0 := by decide
        have hsum : value (['0'] ++ (List.replicate (-n.point).toNat '0' ++ n.digits)) =
            n.significand := by
          rw [value_append, value_append, value_replicate_zero, hvalue, hfirst]
          simp
        have hnought : IsDigits ['0'] := by decide
        have hscaled := scaled_fraction hnought hfraction scale
        rw [hsum, hlength] at hscaled
        exact hscaled

def rat (n : Number) : ℚ := n.significand * (10 : ℚ) ^ n.exponent

/-- The number without zeros at its end. -/
def normal (n : Number) : Number :=
  let zeros := (n.digits.rtakeWhile (· = '0')).length
  if n.significand = 0 then ⟨0, 0⟩ else ⟨n.significand / 10 ^ zeros, n.exponent + zeros⟩

/-- A fraction whose denominator divides a power of ten. -/
def ofRat (q : ℚ) : Number :=
  let places := ((List.range 1100).find? fun k ↦ 10 ^ k % q.den = 0).getD 0
  normal ⟨q.num.natAbs * (10 ^ places / q.den), -places⟩

end Number

/-- The text of a fraction. -/
def textOf (q : ℚ) : String := (if q < 0 then "-" else "") ++ (Number.ofRat q).toText

/-! ## Texts as numbers -/

def isSpace (c : Char) : Bool :=
  c.toNat ∈ [0x9, 0xA, 0xB, 0xC, 0xD, 0x20, 0xA0, 0x1680, 0x2028, 0x2029, 0x202F, 0x205F, 0x3000,
    0xFEFF] ∨ (0x2000 ≤ c.toNat ∧ c.toNat ≤ 0x200A)

def trim (cs : List Char) : List Char := (cs.dropWhile isSpace).rdropWhile isSpace

theorem trim_eq_self {cs : List Char} (h : ∀ c ∈ cs, isSpace c = false) : trim cs = cs := by
  have hfront : cs.dropWhile isSpace = cs := by
    rw [List.dropWhile_eq_self_iff]
    intro hpos
    simp [h _ (List.getElem_mem hpos)]
  rw [trim, hfront, List.rdropWhile_eq_self_iff]
  intro hne
  simp [h _ (List.getLast_mem hne)]

theorem isSpace_of_isDigit {c : Char} (h : c.isDigit) : isSpace c = false := by
  obtain ⟨hlow, hhigh⟩ := Char.isDigit_iff_toNat.1 h
  have hzero : 48 ≤ c.toNat := hlow
  have hnine : c.toNat ≤ 57 := hhigh
  rw [isSpace, decide_eq_false_iff_not]
  simp
  omega

def splitSign : List Char → Bool × List Char
  | '-' :: cs => (true, cs)
  | '+' :: cs => (false, cs)
  | cs => (false, cs)

def ofExponent? : List Char → Option ℤ
  | [] => some 0
  | c :: cs =>
      let (negative, digits) := splitSign cs
      if (c = 'e' ∨ c = 'E') ∧ IsDigits digits then
        some (if negative then -(value digits : ℤ) else value digits)
      else none

/-- A literal of digits with a point or an exponent, without its sign. -/
def ofLiteral? (cs : List Char) : Option ℚ :=
  let whole := cs.takeWhile Char.isDigit
  let rest := cs.dropWhile Char.isDigit
  let fraction := if rest.head? = some '.' then (rest.drop 1).takeWhile Char.isDigit else []
  let rest := if rest.head? = some '.' then (rest.drop 1).dropWhile Char.isDigit else rest
  if whole ++ fraction = [] then none
  else (ofExponent? rest).map fun exponent ↦
    (⟨value (whole ++ fraction), exponent - fraction.length⟩ : Number).rat

def digitOf (c : Char) : ℕ :=
  if c.isDigit then c.toNat - '0'.toNat else c.toLower.toNat - 'a'.toNat + 10

/-- An integer to another base. -/
def ofBase? (base : ℕ) (digits : List Char) : Option ℚ :=
  if digits ≠ [] ∧ digits.all fun c ↦ c.isAlphanum ∧ digitOf c < base then
    some (digits.foldl (fun n c ↦ base * n + digitOf c) 0 : ℕ)
  else none

/-- An integer whose base is named in front of it. -/
def ofPrefixed? : List Char → Option ℚ
  | '0' :: 'x' :: digits => ofBase? 16 digits
  | '0' :: 'X' :: digits => ofBase? 16 digits
  | '0' :: 'o' :: digits => ofBase? 8 digits
  | '0' :: 'O' :: digits => ofBase? 8 digits
  | '0' :: 'b' :: digits => ofBase? 2 digits
  | '0' :: 'B' :: digits => ofBase? 2 digits
  | _ => none

def ofSigned? (cs : List Char) : Option ℚ :=
  let (negative, literal) := splitSign cs
  (ofLiteral? literal).map fun q ↦ if negative then -q else q

/-- A plain text has no blanks around it. -/
theorem Number.trim_toText {n : Number} (h : n.IsPlain) :
    trim n.toText.toList = n.toText.toList := by
  apply trim_eq_self
  have hdigits : ∀ c ∈ n.digits, isSpace c = false := fun c hc ↦
    isSpace_of_isDigit (List.all_eq_true.1 (isDigits_toDigits n.significand).2 c hc)
  have hzeros : ∀ k : ℕ, ∀ c ∈ List.replicate k '0', isSpace c = false := by
    intro k c hc
    rw [List.eq_of_mem_replicate hc]
    decide
  have hpoint : isSpace '.' = false := by decide
  have hzero : isSpace '0' = false := by decide
  intro c hc
  rw [toText, if_pos h, String.toList_ofList, plainDigits] at hc
  split at hc
  · rw [List.mem_singleton.1 hc, hzero]
  · split at hc
    · rcases List.mem_append.1 hc with hc | hc
      · exact hdigits c hc
      · exact hzeros _ c hc
    · split at hc
      · rcases List.mem_append.1 hc with hc | hc
        · exact hdigits c (List.mem_of_mem_take hc)
        · rcases List.mem_cons.1 hc with rfl | hc
          · exact hpoint
          · exact hdigits c (List.mem_of_mem_drop hc)
      · rcases List.mem_cons.1 hc with rfl | hc
        · exact hzero
        · rcases List.mem_cons.1 hc with rfl | hc
          · exact hpoint
          · rcases List.mem_append.1 hc with hc | hc
            · exact hzeros _ c hc
            · exact hdigits c hc

/-- From here on a number is infinite. -/
def overflow : ℚ := 2 ^ 1024 - 2 ^ 970

/-- A text as a finite number: blanks around it do not count, and nothing is zero. -/
def ofText? (text : String) : Option ℚ :=
  let cs := trim text.toList
  let number := if cs = [] then some 0 else ofPrefixed? cs <|> ofSigned? cs
  number.filter fun q ↦ |q| < overflow

/-- A text as an integer of any size. -/
def ofInteger? (text : String) : Option ℤ :=
  let cs := trim text.toList
  let (negative, digits) := splitSign cs
  if cs = [] then some 0
  else if IsDigits digits then
    some (if negative then -(value digits : ℤ) else value digits)
  else (ofPrefixed? cs).map Rat.num

/-! ## Texts of integers -/

section Integers

variable {cs : List Char}

theorem trim_digits (h : cs.all Char.isDigit) : trim cs = cs :=
  trim_eq_self fun c hc ↦ isSpace_of_isDigit (List.all_eq_true.1 h c hc)

theorem ofPrefixed?_digits (h : cs.all Char.isDigit) : ofPrefixed? cs = none := by
  rw [ofPrefixed?.eq_def]
  split
  case h_7 => rfl
  all_goals
    rw [List.all_cons, List.all_cons, Bool.and_eq_true, Bool.and_eq_true] at h
    exact absurd h.2.1 (by decide)

theorem splitSign_digits (h : cs.all Char.isDigit) : splitSign cs = (false, cs) := by
  rw [splitSign.eq_def]
  split
  case h_3 => rfl
  all_goals
    rw [List.all_cons, Bool.and_eq_true] at h
    exact absurd h.1 (by decide)

theorem ofLiteral?_digits (h : IsDigits cs) : ofLiteral? cs = some (value cs : ℚ) := by
  have hall : ∀ c ∈ cs, c.isDigit = true := List.all_eq_true.1 h.2
  have htake : cs.takeWhile Char.isDigit = cs := List.takeWhile_eq_self_iff.2 hall
  have hdrop : cs.dropWhile Char.isDigit = [] := List.dropWhile_eq_nil_iff.2 hall
  simp [ofLiteral?, htake, hdrop, h.1, ofExponent?, Number.rat]

theorem ofSigned?_digits (h : IsDigits cs) : ofSigned? cs = some (value cs : ℚ) := by
  rw [ofSigned?, splitSign_digits h.2]
  simp [ofLiteral?_digits h]

theorem ofSigned?_neg_digits (h : IsDigits cs) : ofSigned? ('-' :: cs) = some (-value cs : ℚ) := by
  simp [ofSigned?, splitSign, ofLiteral?_digits h]

/-- A number is read back from its text. -/
theorem ofText?_toString {n : ℕ} (h : (n : ℚ) < overflow) :
    ofText? (toString n) = some (n : ℚ) := by
  have hdigits := isDigits_toDigits n
  rw [ofText?, toList_toString, trim_digits hdigits.2]
  simp only [if_neg hdigits.1, ofPrefixed?_digits hdigits.2, ofSigned?_digits hdigits,
    value_toDigits, Option.orElse_eq_orElse, Option.orElse_none]
  simp [Option.filter, h]

theorem ofText?_toString_neg {n : ℕ} (h : (n : ℚ) < overflow) :
    ofText? ("-" ++ toString n) = some (-n : ℚ) := by
  have hdigits := isDigits_toDigits n
  have htext : ("-" ++ toString n).toList = '-' :: Nat.toDigits 10 n := by
    rw [String.toList_append, toList_toString]
    rfl
  have hspace : ∀ c ∈ '-' :: Nat.toDigits 10 n, isSpace c = false := by
    intro c hc
    rcases List.mem_cons.1 hc with rfl | hc
    · decide
    · exact isSpace_of_isDigit (List.all_eq_true.1 hdigits.2 c hc)
  have hprefix : ofPrefixed? ('-' :: Nat.toDigits 10 n) = none := rfl
  rw [ofText?, htext, trim_eq_self hspace]
  simp only [reduceCtorEq, if_false, hprefix, ofSigned?_neg_digits hdigits, value_toDigits,
    Option.orElse_eq_orElse]
  simp [Option.filter, h]

theorem ofText?_toString_int {z : ℤ} (h : (z.natAbs : ℚ) < overflow) :
    ofText? (toString z) = some (z : ℚ) := by
  cases z with
  | ofNat n => exact ofText?_toString h
  | negSucc n =>
      have hread : ofText? ("-" ++ toString (n + 1)) = some (-((n + 1 : ℕ) : ℚ)) :=
        ofText?_toString_neg h
      rw [Int.cast_negSucc]
      exact hread

theorem ofInteger?_digits (h : IsDigits cs) :
    ofInteger? (String.ofList cs) = some (value cs : ℤ) := by
  rw [ofInteger?, String.toList_ofList, trim_digits h.2, splitSign_digits h.2]
  simp [h, h.1]

theorem ofInteger?_toString (n : ℕ) : ofInteger? (toString n) = some (n : ℤ) := by
  have hdigits := ofInteger?_digits (isDigits_toDigits n)
  rwa [← toList_toString, String.ofList_toList, toList_toString, value_toDigits] at hdigits

/-- The text of an amount has no blanks around it. -/
theorem trim_format (scale amount : ℕ) :
    trim (format scale amount).toList = (format scale amount).toList := by
  have hdigits : ∀ n : ℕ, ∀ c ∈ (toString n).toList, isSpace c = false := by
    intro n c hc
    rw [toList_toString] at hc
    exact isSpace_of_isDigit (List.all_eq_true.1 (isDigits_toDigits n).2 c hc)
  apply trim_eq_self
  intro c hc
  rw [format] at hc
  split at hc
  · exact hdigits _ c hc
  · rw [String.toList_append, String.toList_append, String.toList_ofList, List.mem_append,
      List.mem_append] at hc
    rcases hc with (hc | hc) | hc
    · exact hdigits _ c hc
    · rw [List.mem_singleton.1 hc]
      decide
    · rw [String.toList_ofList] at hc
      have hstart := List.rdropWhile_prefix (fun c ↦ decide (c = '0'))
        (fractionDigits scale (amount % 10 ^ scale))
      have hfraction := isDigits_fractionDigits scale (amount % 10 ^ scale)
      exact isSpace_of_isDigit (List.all_eq_true.1 hfraction.2 c (hstart.subset hc))

end Integers

end Decimal
