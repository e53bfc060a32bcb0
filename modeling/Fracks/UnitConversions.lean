import Fracks.Backend.Parameters

/-!
# Unit conversions

An amount of base units is written as a text in two places of the backend and read back
in one of the backend and in two of the frontend.  On digits with an optional point and
digits behind it the readers agree, and each one reads what is written.
-/

namespace Fracks

open Json

namespace Frontend

/-! ## The frontend -/

def padEnd (n : ℕ) (cs : List Char) : List Char := cs ++ List.replicate (n - cs.length) '0'

def orZero (cs : List Char) : List Char := if cs = [] then ['0'] else cs

/-- The parts of a text in front of its point and behind it, the latter with as many digits
as there are decimals. -/
def splitAmount (text : String) (decimals : ℕ) : List Char × List Char :=
  let parts := (Decimal.trim text.toList).splitOn '.'
  (orZero (parts.headD []), (padEnd decimals (parts.getD 1 [])).take decimals)

/-- `_toTokenAmount` of the compliance service; `none` is an exception. -/
def toTokenAmount (value : String) (decimals : ℕ) : Option ℤ := do
  let (whole, fraction) := splitAmount value decimals
  let units ← Decimal.ofInteger? (String.ofList whole)
  let rest ← Decimal.ofInteger? (String.ofList (orZero fraction))
  some (units * 10 ^ decimals + rest)

/-- The conversion of the factory service, where `newBn` makes a number of a text. -/
def toTokenAmountBn (newBn : String → ℤ) (value : Option Value) (decimals : ℕ) (fallback : ℤ) :
    ℤ :=
  if Backend.isBlank value then fallback
  else match value with
    | none => fallback
    | some value =>
        let (whole, fraction) := splitAmount value.text decimals
        let scale := 10 ^ decimals
        newBn (String.ofList whole) * scale + newBn (String.ofList (orZero fraction))

end Frontend

/-! ## Amounts as texts -/

/-- Digits, or digits on both sides of a point. -/
def IsAmount (text : String) : Prop :=
  ∃ whole, Decimal.IsDigits whole ∧ (text = String.ofList whole ∨
    ∃ fraction, Decimal.IsDigits fraction ∧ text = String.ofList (whole ++ '.' :: fraction))

section Amounts

variable {whole fraction : List Char}

theorem padEnd_take (decimals : ℕ) (cs : List Char) :
    (Frontend.padEnd decimals cs).take decimals = Decimal.pad decimals cs := by
  have hmin : min (decimals - cs.length) (decimals - cs.length) =
      min (decimals - cs.length) decimals := by
    omega
  rw [Frontend.padEnd, Decimal.pad, List.take_append, List.take_append, List.take_replicate,
    List.take_replicate, hmin]

theorem ne_blank {text : String} (h : IsAmount text) : text ≠ "" := by
  obtain ⟨whole, hwhole, htext⟩ := h
  rintro rfl
  have hnil := congrArg String.toList (htext.resolve_right ?_)
  · exact hwhole.1 (by simpa using hnil.symm)
  · rintro ⟨fraction, -, hpoint⟩
    have hnil := congrArg String.toList hpoint
    simp at hnil

theorem orZero_of_ne {cs : List Char} (h : cs ≠ []) : Frontend.orZero cs = cs := if_neg h

theorem not_mem_point (h : Decimal.IsDigits whole) : '.' ∉ whole := fun hmem ↦
  Decimal.ne_point h.2 '.' hmem rfl

theorem splitAmount_whole (h : Decimal.IsDigits whole) (decimals : ℕ) :
    Frontend.splitAmount (String.ofList whole) decimals = (whole, Decimal.pad decimals []) := by
  have hparts : whole.splitOn '.' = [whole] := by
    have hnone : ∀ part ∈ [whole], '.' ∉ part := by
      simpa using not_mem_point h
    have hsplit := List.splitOn_intercalate '.' hnone (List.cons_ne_nil _ _)
    simpa using hsplit
  simp only [Frontend.splitAmount, String.toList_ofList, Decimal.trim_digits h.2, hparts,
    List.headD_cons, List.getD_cons_succ, List.getD_nil, orZero_of_ne h.1, padEnd_take]

theorem trim_amount (hwhole : Decimal.IsDigits whole) (hfraction : Decimal.IsDigits fraction) :
    Decimal.trim (whole ++ '.' :: fraction) = whole ++ '.' :: fraction := by
  apply Decimal.trim_eq_self
  intro c hc
  rcases List.mem_append.1 hc with hc | hc
  · exact Decimal.isSpace_of_isDigit (List.all_eq_true.1 hwhole.2 c hc)
  · rcases List.mem_cons.1 hc with rfl | hc
    · decide
    · exact Decimal.isSpace_of_isDigit (List.all_eq_true.1 hfraction.2 c hc)

theorem splitAmount_fraction (hwhole : Decimal.IsDigits whole)
    (hfraction : Decimal.IsDigits fraction) (decimals : ℕ) :
    Frontend.splitAmount (String.ofList (whole ++ '.' :: fraction)) decimals =
      (whole, Decimal.pad decimals fraction) := by
  have hparts : (whole ++ '.' :: fraction).splitOn '.' = [whole, fraction] := by
    have hnone : ∀ part ∈ [whole, fraction], '.' ∉ part := by
      simp [not_mem_point hwhole, not_mem_point hfraction]
    have hsplit := List.splitOn_intercalate '.' hnone (List.cons_ne_nil _ _)
    simpa [List.intercalate] using hsplit
  simp only [Frontend.splitAmount, String.toList_ofList, trim_amount hwhole hfraction, hparts,
    List.headD_cons, List.getD_cons_succ, List.getD_cons_zero, orZero_of_ne hwhole.1, padEnd_take]

/-- The digits behind the point, or a zero, stand for what they are worth. -/
theorem isDigits_orZero {cs : List Char} (h : cs.all Char.isDigit) :
    Decimal.IsDigits (Frontend.orZero cs) ∧
      Decimal.value (Frontend.orZero cs) = Decimal.value cs := by
  by_cases hnil : cs = []
  · rw [hnil]
    decide
  · rw [orZero_of_ne hnil]
    exact ⟨⟨hnil, h⟩, rfl⟩

theorem pad_all {cs : List Char} (h : cs.all Char.isDigit) (decimals : ℕ) :
    (Decimal.pad decimals cs).all Char.isDigit := by
  rw [List.all_eq_true] at h ⊢
  intro c hc
  rcases List.mem_append.1 (List.mem_of_mem_take hc) with hc | hc
  · exact h c hc
  · rw [List.eq_of_mem_replicate hc]
    decide

end Amounts

/-- What a reader makes of an amount: the parts of the text in base units. -/
theorem amount_parts {text : String} (h : IsAmount text) (decimals : ℕ) :
    ∃ whole fraction, Decimal.IsDigits whole ∧ fraction.all Char.isDigit ∧
      Frontend.splitAmount text decimals = (whole, fraction) ∧
        Backend.trim text = text ∧ Decimal.scaled decimals text =
          some (Decimal.value whole * 10 ^ decimals + Decimal.value fraction) := by
  obtain ⟨whole, hwhole, rfl | ⟨fraction, hfraction, rfl⟩⟩ := h
  · refine ⟨whole, Decimal.pad decimals [], hwhole, pad_all rfl decimals,
      splitAmount_whole hwhole decimals, ?_, ?_⟩
    · rw [Backend.trim, String.toList_ofList, Decimal.trim_digits hwhole.2]
    · have hzero : Decimal.value (Decimal.pad decimals []) = 0 := by simp [Decimal.pad]
      rw [Decimal.scaled_whole hwhole, hzero, Nat.add_zero]
  · refine ⟨whole, Decimal.pad decimals fraction, hwhole, pad_all hfraction.2 decimals,
      splitAmount_fraction hwhole hfraction decimals, ?_, ?_⟩
    · rw [Backend.trim, String.toList_ofList, trim_amount hwhole hfraction]
    · exact Decimal.scaled_point hwhole hfraction decimals

theorem isAmount_format (amount decimals : ℕ) : IsAmount (Decimal.format decimals amount) := by
  have hwhole := Decimal.isDigits_toDigits (amount / 10 ^ decimals)
  refine ⟨_, hwhole, ?_⟩
  rw [Decimal.format]
  split
  · exact .inl (by rw [← Decimal.toList_toString, String.ofList_toList])
  · rename_i hfraction
    refine .inr ⟨_, Decimal.isDigits_rdropWhile decimals hfraction, ?_⟩
    apply String.toList_injective
    simp

section Readers

variable {newBn : String → ℤ}
  (hnewBn : ∀ digits, Decimal.IsDigits digits →
    newBn (String.ofList digits) = Decimal.value digits)

include hnewBn

/-- The three readers give one number. -/
theorem readers_agree {text : String} (h : IsAmount text) (decimals : ℕ) (fallback : ℤ) :
    ∃ units : ℕ, Backend.decimalToBaseUnits (some (.string text)) decimals = some units ∧
      Frontend.toTokenAmountBn newBn (some (.string text)) decimals fallback = units ∧
        Frontend.toTokenAmount text decimals = some (units : ℤ) := by
  obtain ⟨whole, fraction, hwhole, hfraction, hsplit, htrim, hscaled⟩ := amount_parts h decimals
  obtain ⟨hzero, hvalue⟩ := isDigits_orZero hfraction
  have hblank : ¬ Backend.isBlank (some (.string text)) := fun hblank ↦
    ne_blank h (of_decide_eq_true hblank)
  refine ⟨Decimal.value whole * 10 ^ decimals + Decimal.value fraction, ?_, ?_, ?_⟩
  · rw [Backend.decimalToBaseUnits, if_neg hblank, Option.bind_some, Value.text, htrim, hscaled]
  · rw [Frontend.toTokenAmountBn, if_neg hblank]
    simp only [Value.text, hsplit, hnewBn _ hwhole, hnewBn _ hzero, hvalue]
    push_cast
    rfl
  · simp only [Frontend.toTokenAmount, hsplit, Decimal.ofInteger?_digits hwhole,
      Decimal.ofInteger?_digits hzero, hvalue, Option.bind_eq_bind, Option.bind_some]
    push_cast
    rfl

/-- Amounts are read back from their texts, and on every amount with or without a fraction
the readers agree. -/
theorem unit_conversions_agree (fallback : ℤ) :
    (∀ amount decimals : ℕ,
      let text := Indexer.formatBaseUnits amount decimals
      Backend.decimalToBaseUnits (some (.string text)) decimals = some amount ∧
        Backend.baseUnitsToDecimal amount decimals = text ∧
          Frontend.toTokenAmountBn newBn (some (.string text)) decimals fallback = amount ∧
            Frontend.toTokenAmount text decimals = some (amount : ℤ)) ∧
      ∀ text decimals, IsAmount text →
        ∃ units : ℕ, Backend.decimalToBaseUnits (some (.string text)) decimals = some units ∧
          Frontend.toTokenAmountBn newBn (some (.string text)) decimals fallback = units ∧
            Frontend.toTokenAmount text decimals = some (units : ℤ) := by
  refine ⟨fun amount decimals ↦ ?_, fun text decimals h ↦ readers_agree hnewBn h decimals fallback⟩
  have hread := Backend.decimalToBaseUnits_format amount decimals
  have htext : Indexer.formatBaseUnits amount decimals = Decimal.format decimals amount :=
    Indexer.formatBaseUnits_eq amount decimals
  have hamount : IsAmount (Indexer.formatBaseUnits amount decimals) := by
    rw [htext]
    exact isAmount_format amount decimals
  obtain ⟨units, hback, hfactory, hcompliance⟩ :=
    readers_agree hnewBn hamount decimals fallback
  obtain rfl : amount = units := Option.some.inj (hread.symm.trans hback)
  exact ⟨hread, htext.symm, hfactory, hcompliance⟩

end Readers

/-- Numbers of texts as `BigInt` makes them. -/
def newBigInt (text : String) : ℤ := (Decimal.ofInteger? text).getD 0

theorem newBigInt_digits {digits : List Char} (h : Decimal.IsDigits digits) :
    newBigInt (String.ofList digits) = Decimal.value digits := by
  rw [newBigInt, Decimal.ofInteger?_digits h, Option.getD_some]

theorem token_and_half_read : IsAmount "1.5" ∧
    Frontend.toTokenAmount (Indexer.formatBaseUnits 1500000 6) 6 = some 1500000 := by
  have hconversions := unit_conversions_agree (fun digits ↦ newBigInt_digits) 0
  have hwhole : Decimal.IsDigits ['1'] := by decide
  have hfraction : Decimal.IsDigits ['5'] := by decide
  exact ⟨⟨['1'], hwhole, .inr ⟨['5'], hfraction, rfl⟩⟩, (hconversions.1 1500000 6).2.2.2⟩

end Fracks
