import Fracks.Backend.Compliance
import Fracks.ModuleImages

/-!
# Parameters read back

The check of a purchase request takes the parameters of the modules out of the texts that
the indexer has written: amounts, lists of countries and caps by country.
-/

namespace Fracks.Backend

open Json

/-! ## Lists -/

section Split

variable {isSeparator : Char → Bool} {word rest : List Char} {words : List (List Char)}

theorem splitRuns_word (h : ∀ c ∈ word, isSeparator c = false) :
    splitRuns isSeparator (word ++ rest) = (splitRuns isSeparator rest).modifyHead (word ++ ·) := by
  induction word with
  | nil =>
      have hid : (fun l : List Char ↦ [] ++ l) = id := rfl
      rw [hid, List.modifyHead_id]
      rfl
  | cons c word ih =>
      have hc : isSeparator c = false := h c (by simp)
      rw [List.cons_append, splitRuns, hc, if_neg Bool.false_ne_true,
        ih fun d hd ↦ h d (by simp [hd])]
      cases splitRuns isSeparator rest <;> rfl

/-- Words with single separators between them are what the text is split into. -/
theorem splitRuns_intercalate {separator : Char} (hseparator : isSeparator separator = true)
    (hne : words ≠ []) (hwords : ∀ word ∈ words, word ≠ [] ∧ ∀ c ∈ word, isSeparator c = false) :
    splitRuns isSeparator ([separator].intercalate words) = words := by
  induction words with
  | nil => exact absurd rfl hne
  | cons word words ih =>
      obtain ⟨-, hword⟩ := hwords word (by simp)
      cases words with
      | nil =>
          have hsplit : splitRuns isSeparator (word ++ []) = _ := splitRuns_word hword
          simpa [splitRuns] using hsplit
      | cons next words =>
          have hrest := ih (by simp) fun w hw ↦ hwords w (by simp [hw])
          obtain ⟨hnonempty, hnext⟩ := hwords next (by simp)
          have htext : [separator].intercalate (word :: next :: words) =
              word ++ separator :: [separator].intercalate (next :: words) := by
            simp [List.intercalate]
          have hhead : ([separator].intercalate (next :: words)).head?.any isSeparator = false := by
            obtain ⟨c, cs, rfl⟩ := List.exists_cons_of_ne_nil hnonempty
            have hc : isSeparator c = false := hnext c (by simp)
            cases words <;> simp [List.intercalate, hc]
          have hseparated : splitRuns isSeparator
              (separator :: [separator].intercalate (next :: words)) =
                [] :: splitRuns isSeparator ([separator].intercalate (next :: words)) := by
            rw [splitRuns, if_pos hseparator, hhead, if_neg Bool.false_ne_true]
          rw [htext, splitRuns_word hword, hseparated, hrest]
          simp

end Split

theorem splitList_join {texts : List String} (hne : texts ≠ [])
    (htexts : ∀ text ∈ texts, text.toList ≠ [] ∧
      ∀ c ∈ text.toList, c ≠ ',' ∧ Decimal.isSpace c = false) :
    splitList (Indexer.join texts) = texts := by
  rw [splitList, Indexer.join, String.toList_ofList, splitRuns_intercalate (by decide) (by simpa)]
  · simp
  · intro word hword
    obtain ⟨text, htext, rfl⟩ := List.mem_map.1 hword
    obtain ⟨hnonempty, hplain⟩ := htexts text htext
    refine ⟨hnonempty, fun c hc ↦ ?_⟩
    obtain ⟨hcomma, hspace⟩ := hplain c hc
    simp [hcomma, hspace]

/-! ## Numbers -/

theorem trunc_natCast (n : ℕ) : trunc n = n := by
  rw [trunc, Rat.num_natCast, Rat.den_natCast, Nat.cast_one, Int.tdiv_one]

theorem lt_overflow {n : ℕ} (h : n < 2 ^ 64) : (n : ℚ) < Decimal.overflow := by
  have hn : (n : ℚ) < 2 ^ 64 := by exact_mod_cast h
  have hlow : (2 : ℚ) ^ 64 ≤ 2 ^ 970 := pow_le_pow_right₀ one_le_two (by decide)
  have hhigh : (2 : ℚ) ^ 970 + 2 ^ 970 ≤ 2 ^ 1024 := by
    rw [← mul_two, ← pow_succ]
    exact pow_le_pow_right₀ one_le_two (by decide)
  rw [Decimal.overflow, lt_sub_iff_add_lt]
  exact ((add_lt_add_iff_right _).2 (hn.trans_le hlow)).trans_le hhigh

theorem finite_toString {n : ℕ} (h : n < 2 ^ 64) :
    finite (some (.string (toString n))) = some (n : ℚ) := by
  rw [finite, Option.bind_some, Value.finite, Decimal.ofText?_toString (lt_overflow h)]

theorem finite_toString_int {z : ℤ} (hlow : -2 ^ 63 ≤ z) (hhigh : z < 2 ^ 63) :
    finite (some (.string (toString z))) = some (z : ℚ) := by
  have hsmall : (z.natAbs : ℚ) < Decimal.overflow := lt_overflow (by omega)
  rw [finite, Option.bind_some, Value.finite, Decimal.ofText?_toString_int hsmall]

theorem isDigit_of_mem {n : ℕ} {c : Char} (h : c ∈ (toString n).toList) : c.isDigit := by
  rw [Decimal.toList_toString] at h
  exact List.all_eq_true.1 (Decimal.isDigits_toDigits n).2 c h

theorem plain_of_isDigit {c : Char} (h : c.isDigit) :
    c ≠ ',' ∧ c ≠ ':' ∧ Decimal.isSpace c = false := by
  refine ⟨?_, ?_, Decimal.isSpace_of_isDigit h⟩ <;>
  · rintro rfl
    exact absurd h (by decide)

theorem decimalToBaseUnits_format (amount decimals : ℕ) :
    decimalToBaseUnits (some (.string (Indexer.formatBaseUnits amount decimals))) decimals =
      some amount := by
  rw [Indexer.formatBaseUnits_eq]
  have htrim : trim (Decimal.format decimals amount) = Decimal.format decimals amount := by
    rw [trim, Decimal.trim_format, String.ofList_toList]
  have hscaled := Decimal.scaled_format decimals amount
  have hblank : ¬ isBlank (some (.string (Decimal.format decimals amount))) := by
    intro hblank
    have hempty : Decimal.format decimals amount = "" := of_decide_eq_true hblank
    rw [hempty] at hscaled
    cases hscaled
  rw [decimalToBaseUnits, if_neg hblank, Option.bind_some, Value.text, htrim, hscaled]

/-! ## Countries -/

theorem parseCountryList_join {countries : List ℕ} (hne : countries ≠ [])
    (hfits : ∀ country ∈ countries, country < 2 ^ 16) :
    parseCountryList (.string (Indexer.join (countries.map toString))) =
      countries.map (fun country : ℕ ↦ (country : ℤ)) := by
  rw [parseCountryList, splitList_join (by simpa)]
  · rw [List.filterMap_map]
    refine List.filterMap_eq_map_iff_forall_eq_some.2 fun country hcountry ↦ ?_
    have hlt : country < 2 ^ 64 := by
      have hsmall := hfits country hcountry
      omega
    rw [Function.comp_apply, Decimal.ofText?_toString (lt_overflow hlt), Option.map_some,
      trunc_natCast]
  · intro text htext
    obtain ⟨country, -, rfl⟩ := List.mem_map.1 htext
    rw [Decimal.toList_toString]
    refine ⟨(Decimal.isDigits_toDigits country).1, fun c hc ↦ ?_⟩
    have hdigit := List.all_eq_true.1 (Decimal.isDigits_toDigits country).2 c hc
    exact ⟨(plain_of_isDigit hdigit).1, (plain_of_isDigit hdigit).2.2⟩

theorem toList_countryCapText (entry : CountryCapEntry) :
    (Indexer.countryCapText entry).toList =
      (toString entry.country).toList ++ ':' :: (toString entry.cap).toList := by
  have htext : Indexer.countryCapText entry =
      toString entry.country ++ ":" ++ toString entry.cap := rfl
  rw [htext, String.toList_append, String.toList_append, List.append_assoc]
  rfl

theorem splitOn_countryCapText (entry : CountryCapEntry) :
    ((Indexer.countryCapText entry).toList.splitOn ':').map String.ofList =
      [toString entry.country, toString entry.cap] := by
  have hpieces : (Indexer.countryCapText entry).toList =
      [':'].intercalate [(toString entry.country).toList, (toString entry.cap).toList] := by
    rw [toList_countryCapText]
    simp [List.intercalate]
  rw [hpieces, List.splitOn_intercalate]
  · simp only [List.map_cons, List.map_nil, String.ofList_toList]
  · intro piece hpiece hcolon
    simp only [List.mem_cons, List.not_mem_nil, or_false] at hpiece
    rcases hpiece with rfl | rfl
    · exact (plain_of_isDigit (isDigit_of_mem hcolon)).2.1 rfl
    · exact (plain_of_isDigit (isDigit_of_mem hcolon)).2.1 rfl
  · simp

theorem parseCountryCaps_join {caps : List CountryCapEntry} (hne : caps ≠ [])
    (hfits : ∀ entry ∈ caps, entry.country < 2 ^ 16 ∧ entry.cap < 2 ^ 64) :
    parseCountryCaps (some (.string (Indexer.join (caps.map Indexer.countryCapText)))) =
      caps.map fun entry ↦ ⟨entry.country, entry.cap⟩ := by
  rw [parseCountryCaps, splitList_join (by simpa)]
  · rw [List.filterMap_map]
    refine List.filterMap_eq_map_iff_forall_eq_some.2 fun entry hentry ↦ ?_
    obtain ⟨hcountry, hcap⟩ := hfits entry hentry
    have hcountry : (entry.country : ℚ) < Decimal.overflow := lt_overflow (by omega)
    have hparts : (((Indexer.countryCapText entry).toList.splitOn ':').map fun part ↦
        Decimal.ofText? (String.ofList part)) =
      [some (entry.country : ℚ), some (entry.cap : ℚ)] := by
      have hmap := congrArg (List.map Decimal.ofText?) (splitOn_countryCapText entry)
      rw [List.map_map] at hmap
      refine hmap.trans ?_
      rw [List.map_cons, List.map_cons, List.map_nil, Decimal.ofText?_toString hcountry,
        Decimal.ofText?_toString (lt_overflow hcap)]
    have hcap? : countryCap? (some (entry.country : ℚ)) (some (entry.cap : ℚ)) =
        some ⟨entry.country, entry.cap⟩ := by
      simp [countryCap?, trunc_natCast]
    simp only [Function.comp_apply, hparts]
    exact hcap?
  · intro text htext
    obtain ⟨entry, -, rfl⟩ := List.mem_map.1 htext
    rw [toList_countryCapText]
    refine ⟨by simp, fun c hc ↦ ?_⟩
    rcases List.mem_append.1 hc with hc | hc
    · have hplain := plain_of_isDigit (isDigit_of_mem hc)
      exact ⟨hplain.1, hplain.2.2⟩
    · rcases List.mem_cons.1 hc with rfl | hc
      · decide
      · have hplain := plain_of_isDigit (isDigit_of_mem hc)
        exact ⟨hplain.1, hplain.2.2⟩

end Fracks.Backend
