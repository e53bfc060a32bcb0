import Fracks.CountryCounts
import Fracks.Deployment

/-!
# Moves between countries

The country cap counts one holder less where the sender leaves and one more where the
receiver enters.  Inside one country both count accounts are the same account, and an
exit is written over by the copy that the receiver's side has loaded.
-/

namespace Fracks

open Checked AccountType Ledger HookedModule Compliance

/-- The counts before and after a move of a holder out of a country and of one into a
country. -/
def CountsMove (exits enters : Prop) [Decidable exits] [Decidable enters]
    (fromCountry toCountry : ℕ) (before after : ℕ → ℕ) : Prop :=
  ∀ country, after country + (if country = fromCountry ∧ exits then 1 else 0) =
    before country + (if country = toCountry ∧ enters then 1 else 0)

/-- Counts that lose the exits inside one country are moved unless there is one that no
entry makes up for. -/
theorem countsMove_iff {exits enters : Prop} [Decidable exits] [Decidable enters]
    {fromCountry toCountry : ℕ} {before after : ℕ → ℕ}
    (h : ∀ country, after country + (if country = fromCountry ∧ fromCountry ≠ toCountry ∧ exits
        then 1 else 0) =
      before country + (if country = toCountry ∧ enters ∧ ¬ (fromCountry = toCountry ∧ exits)
        then 1 else 0)) :
    CountsMove exits enters fromCountry toCountry before after ↔
      ¬ (fromCountry = toCountry ∧ exits ∧ ¬ enters) := by
  constructor
  · rintro hmove ⟨rfl, hexits, hstays⟩
    have hclaimed : after fromCountry + 1 = before fromCountry := by
      simpa [hexits, hstays] using hmove fromCountry
    have hactual : after fromCountry = before fromCountry := by
      simpa [hstays] using h fromCountry
    omega
  · intro hkept country
    by_cases hexits : exits
    · by_cases hsame : fromCountry = toCountry
      · have henters : enters := by
          by_contra hstays
          exact hkept ⟨hsame, hexits, hstays⟩
        simpa [hexits, henters, hsame] using h country
      · simpa [hexits, hsame] using h country
    · simpa [hexits] using h country

/-- The move is exact unless a holder leaves a country inside which nobody enters. -/
theorem country_move_exact_iff {L L' : Ledger} {C M source : Pubkey} {remaining : List Pubkey}
    {amount fromAfter toAfter fromCountry toCountry : ℕ} {m : InvestorCountryCapModule}
    (hM : L.accounts M = account m)
    (h : moduleTransferred C remaining source amount fromAfter toAfter fromCountry toCountry L M =
      .ok L') :
    CountsMove (senderExits amount fromAfter) (receiverEnters amount toAfter) fromCountry toCountry
        (countsOf L M) (countsOf L' M) ↔
      ¬ (fromCountry = toCountry ∧ senderExits amount fromAfter ∧
        ¬ receiverEnters amount toAfter) :=
  countsMove_iff (moduleTransferred_counts h hM)

/-! ## An exit inside one country -/

def residenceCap : Pubkey := moduleAddress InvestorCountryCapModule (.address 0)

def residenceCapRecord : InvestorCountryCapModule where
  owner := .address 1
  tokenMint := .address 0
  hookAuthority := complianceAddress (.address 0)
  countryCaps := [⟨276, 3⟩]

def residenceRecord (country count : ℕ) : CountryInvestorCount where
  module := residenceCap
  country := country
  count := count

def residenceLedger : Ledger := .ofRecords
  [(residenceCap, account residenceCapRecord),
    (countKey residenceCap 276, account (residenceRecord 276 2)),
    (countKey residenceCap 586, account (residenceRecord 586 0))]

def residenceSupport : List Pubkey :=
  [residenceCap, .program .modCountryCap, countKey residenceCap 276, countKey residenceCap 586]

/-- One of two residents gives all its tokens to the other; the count stays at two. -/
theorem exit_inside_country_lost : ∃ L',
    moduleTransferred (complianceAddress (.address 0)) residenceSupport (.address 10) 4 0 9 276 276
        residenceLedger residenceCap = .ok L' ∧
      ¬ CountsMove (senderExits 4 0) (receiverEnters 4 9) 276 276
        (countsOf residenceLedger residenceCap)
        (countsOf L' residenceCap) := by
  obtain ⟨L', h, hbefore, hafter⟩ : ∃ L',
      moduleTransferred (complianceAddress (.address 0)) residenceSupport (.address 10) 4 0 9 276
        276
          residenceLedger residenceCap = .ok L' ∧
        countsOf residenceLedger residenceCap 276 = 2 ∧ countsOf L' residenceCap 276 = 2 :=
    ⟨_, rfl, rfl, rfl⟩
  refine ⟨L', h, fun hmove ↦ ?_⟩
  have hcount := hmove 276
  rw [hbefore, hafter] at hcount
  exact absurd hcount (by decide)

/-- A resident gives all its tokens to a newcomer abroad. -/
theorem move_abroad_exact : ∃ L',
    moduleTransferred (complianceAddress (.address 0)) residenceSupport (.address 10) 4 0 4 276 586
        residenceLedger residenceCap = .ok L' ∧
      CountsMove (senderExits 4 0) (receiverEnters 4 4) 276 586
        (countsOf residenceLedger residenceCap)
        (countsOf L' residenceCap) := by
  obtain ⟨L', h⟩ : ∃ L', moduleTransferred (complianceAddress (.address 0)) residenceSupport
      (.address 10) 4 0 4 276 586 residenceLedger residenceCap = .ok L' := ⟨_, rfl⟩
  have hrecord : residenceLedger.accounts residenceCap = account residenceCapRecord := rfl
  exact ⟨L', h, (country_move_exact_iff hrecord h).2 (by decide)⟩

end Fracks
