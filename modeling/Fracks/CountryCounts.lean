import Fracks.BookedCounters
import Fracks.NewCounters
import Fracks.SupportRecords
import Fracks.Token.SupportAccounts

/-!
# The counts of all countries

The records of a country cap together are a table from countries to counts.  A
post-hook shifts the entries of the countries it is given, and a country without
a record counts as empty until its record is opened.
-/

namespace Fracks

open Checked AccountType Ledger HookedModule Compliance

/-- The counts as their records at the module say. -/
def countsOf (L : Ledger) (M : Pubkey) (country : ℕ) : ℕ :=
  (Token.countRecord L M country).elim 0 CountryInvestorCount.count

variable {L L' : Ledger} {C M source : Pubkey} {remaining : List Pubkey} {S : List AccountKind}
  {amount fromAfter toAfter country fromCountry toCountry : ℕ} {state : ComplianceState}
  {m : InvestorCountryCapModule} {c : CountryInvestorCount}

theorem countRecord_eq_recordOf : Token.countRecord L M country =
    (recordOf CountryInvestorCount.module L M (countKey M country)).filter
      fun c ↦ c.country = country := by
  unfold Token.countRecord recordOf
  cases L.view CountryInvestorCount (countKey M country) with
  | none => rfl
  | some c => by_cases hmodule : c.module = M <;> simp [Option.filter, hmodule]

theorem countRecord_eq_some : Token.countRecord L M country = some c ↔
    L.accounts (countKey M country) = account c ∧ c.module = M ∧ c.country = country := by
  simp [Token.countRecord, Option.filter_eq_some_iff, view_eq_some]

theorem countsOf_of_record (h : Token.countRecord L M country = some c) :
    countsOf L M country = c.count := by
  rw [countsOf, h]
  rfl

theorem countsOf_of_frame (h : Frame S L L') (hS : AccountKind.countryInvestorCount ∉ S) :
    countsOf L' M = countsOf L M := by
  funext country
  simp only [countsOf, Token.countRecord, h.view_eq (α := CountryInvestorCount) hS]

/-- Writing the record of a country writes its entry. -/
theorem countsOf_put (hmodule : c.module = M) (hcountry : c.country = country) :
    countsOf (L.put (countKey M country) c) M =
      Function.update (countsOf L M) country c.count := by
  funext other
  by_cases hother : other = country
  · subst hother
    have hrecord : Token.countRecord (L.put (countKey M other) c) M other = some c :=
      countRecord_eq_some.2 ⟨put_accounts_self c, hmodule, hcountry⟩
    rw [countsOf_of_record hrecord, Function.update_self]
  · have hne : countKey M other ≠ countKey M country :=
      fun hkey ↦ hother (countAddress_inj.1 hkey)
    rw [Function.update_of_ne hother, countsOf, countsOf, Token.countRecord, Token.countRecord,
      view_put_of_ne c hne]

/-- The call of another module leaves the counts alone. -/
theorem countsOf_of_ne {hook : PostHook} {M' : Pubkey} (h : Iteration hook C M' L L')
    (hne : M' ≠ M) : countsOf L' M = countsOf L M := by
  funext country
  have hrecord : recordOf CountryInvestorCount.module L' M (countKey M country) =
      recordOf CountryInvestorCount.module L M (countKey M country) :=
    CounterChange.recordOf_of_not namesModule_count h.change fun hP ↦ hne hP.1.symm
  rw [countsOf, countsOf, countRecord_eq_recordOf, countRecord_eq_recordOf, hrecord]

/-- What one call does to the counts of a module, the whole loop does. -/
theorem foldlM_countsOf {hook : PostHook} {f : Ledger → Pubkey → Result Ledger}
    {modules : List Pubkey} {R : (ℕ → ℕ) → (ℕ → ℕ) → Prop}
    (hkinds : AccountKind.investorCountryCapModule ∉ hook.kinds)
    (hf : ∀ M L L', f L M = .ok L' → Iteration hook C M L L')
    (hhit : ∀ L L', L.accounts M = account m → f L M = .ok L' → R (countsOf L M) (countsOf L' M))
    (hnodup : modules.Nodup) (hbound : M ∈ modules) (hM : L.accounts M = account m)
    (h : modules.foldlM f L = .ok L') : R (countsOf L M) (countsOf L' M) := by
  refine Fold.foldlM_once (g := fun L ↦ (countsOf L M, L.view InvestorCountryCapModule M))
    (R := fun v v' ↦ v.2 = some m → R v.1 v'.1) hnodup hbound (fun M' _ hne L L' hstep ↦ ?_)
    (fun L L' hstep hm ↦ ?_) h (view_eq_some.2 hM)
  · have hiteration := hf M' L L' hstep
    rw [countsOf_of_ne hiteration hne,
      hiteration.frame.view_eq (α := InvestorCountryCapModule) hkinds]
  · exact hhit L L' (view_eq_some.1 hm) hstep

/-! ## The post-hooks -/

theorem created_counts (h : created L C remaining amount toAfter toCountry = .ok L')
    (hstate : L.accounts C = account state) (hactive : state.modulesPaused = false)
    (hnodup : state.modules.Nodup) (hbound : M ∈ state.modules) (hM : L.accounts M = account m)
    (country : ℕ) :
    countsOf L' M country =
      countsOf L M country +
        (if country = toCountry ∧ receiverEnters amount toAfter then 1 else 0) := by
  obtain ⟨state', hstate', -, hloop⟩ := created_eq_ok.1 h
  obtain rfl := account_inj.1 (hstate.symm.trans hstate')
  rcases hloop with ⟨hpaused, -⟩ | ⟨-, hloop⟩
  · simp [hactive] at hpaused
  refine foldlM_countsOf (R := fun f f' ↦ f' country = f country +
    (if country = toCountry ∧ receiverEnters amount toAfter then 1 else 0)) (by decide)
    (fun _ _ _ ↦ moduleCreated_iteration) (fun L L' hM hstep ↦ ?_) hnodup hbound hM hloop
  obtain ⟨-, -, key, hkey, hcall⟩ := (moduleCreated_countryCap hM).1 hstep
  obtain ⟨rfl, -, hnamed⟩ := findCountryCountAccount_ok hkey
  obtain ⟨-, m₁, c, c₁, -, hc, haddress, -, hnames, hcount, rfl⟩ :=
    ModCountryCap.updateSingleCountryCount_ok hcall
  have hne : c.module ≠ .default := hnames ▸ haddress ▸ moduleAddress_ne_default _
  obtain ⟨hmodule, hcountry, hshift⟩ := ModCountryCap.onlyIf_enter_ok hne hcount
  have hbefore := countsOf_of_record (countRecord_eq_some.2 ⟨hc, hnames, hnamed c hc⟩)
  rw [countsOf_put (hmodule.trans hnames) (hcountry.trans (hnamed c hc))]
  by_cases hto : country = toCountry
  · subst hto
    rw [Function.update_self, hshift, hbefore]
    simp
  · simp [hto]

theorem destroyed_counts (h : destroyed L C remaining amount fromAfter fromCountry = .ok L')
    (hstate : L.accounts C = account state) (hnodup : state.modules.Nodup)
    (hbound : M ∈ state.modules) (hM : L.accounts M = account m) (country : ℕ) :
    countsOf L' M country +
        (if country = fromCountry ∧ senderExits amount fromAfter then 1 else 0) =
      countsOf L M country := by
  obtain ⟨state', hstate', -, hloop⟩ := destroyed_eq_ok.1 h
  obtain rfl := account_inj.1 (hstate.symm.trans hstate')
  refine foldlM_countsOf (R := fun f f' ↦ f' country +
    (if country = fromCountry ∧ senderExits amount fromAfter then 1 else 0) = f country) (by decide)
    (fun _ _ _ ↦ moduleDestroyed_iteration) (fun L L' hM hstep ↦ ?_) hnodup hbound hM hloop
  obtain ⟨-, -, key, hkey, hcall⟩ := (moduleDestroyed_countryCap hM).1 hstep
  obtain ⟨rfl, -, hnamed⟩ := findCountryCountAccount_ok hkey
  obtain ⟨-, m₁, c, c₁, -, hc, haddress, -, hnames, hcount, rfl⟩ :=
    ModCountryCap.updateSingleCountryCount_ok hcall
  have hne : c.module ≠ .default := hnames ▸ haddress ▸ moduleAddress_ne_default _
  obtain ⟨hmodule, hcountry, hshift⟩ := ModCountryCap.onlyIf_leave_ok hne hcount
  have hbefore := countsOf_of_record (countRecord_eq_some.2 ⟨hc, hnames, hnamed c hc⟩)
  rw [countsOf_put (hmodule.trans hnames) (hcountry.trans (hnamed c hc))]
  by_cases hfrom : country = fromCountry
  · subst hfrom
    rw [Function.update_self, hbefore, ← hshift]
    simp
  · simp [hfrom]

/-- Between two countries both entries shift.  Inside one country the two records
are one account and the second write is the one that stays, so that only an entry
without an exit is counted. -/
theorem moduleTransferred_counts
    (h : moduleTransferred C remaining source amount fromAfter toAfter fromCountry toCountry L M =
      .ok L') (hM : L.accounts M = account m) (country : ℕ) :
    countsOf L' M country + (if country = fromCountry ∧ fromCountry ≠ toCountry ∧
        senderExits amount fromAfter then 1 else 0) =
      countsOf L M country + (if country = toCountry ∧ receiverEnters amount toAfter ∧
        ¬ (fromCountry = toCountry ∧ senderExits amount fromAfter) then 1 else 0) := by
  obtain ⟨-, -, fromKey, hfromKey, toKey, htoKey, hcall⟩ := (moduleTransferred_countryCap hM).1 h
  obtain ⟨rfl, -, hfnamed⟩ := findCountryCountAccount_ok hfromKey
  obtain ⟨rfl, -, htnamed⟩ := findCountryCountAccount_ok htoKey
  obtain ⟨-, m₁, f, t, f', t', -, hf, ht, haddress, -, hfnames, htnames, hcounts, rfl⟩ :=
    ModCountryCap.transferred_ok hcall
  have hne : M ≠ .default := haddress ▸ moduleAddress_ne_default _
  obtain ⟨⟨hfmodule, hfcountry, hfcount⟩, htmodule, htcountry, htcount⟩ :=
    ModCountryCap.updateCounts_ok (hfnames ▸ hne) (htnames ▸ hne) hcounts
  have hfbefore := countsOf_of_record (countRecord_eq_some.2 ⟨hf, hfnames, hfnamed f hf⟩)
  have htbefore := countsOf_of_record (countRecord_eq_some.2 ⟨ht, htnames, htnamed t ht⟩)
  rw [countsOf_put (htmodule.trans htnames) (htcountry.trans (htnamed t ht)),
    countsOf_put (hfmodule.trans hfnames) (hfcountry.trans (hfnamed f hf))]
  by_cases hto : country = toCountry
  · subst hto
    have hother : ¬ (country = fromCountry ∧ fromCountry ≠ country ∧
        senderExits amount fromAfter) := fun hfrom ↦ hfrom.2.1 hfrom.1.symm
    rw [Function.update_self, if_neg hother, htcount, htbefore]
    simp
  · rw [Function.update_of_ne hto, if_neg fun hkey : country = toCountry ∧ _ ↦ hto hkey.1]
    by_cases hfrom : country = fromCountry
    · subst hfrom
      rw [Function.update_self, hfbefore, ← hfcount]
      simp [hto]
    · simp [hfrom]

theorem transferred_counts
    (h : transferred L C remaining source amount fromAfter toAfter fromCountry toCountry = .ok L')
    (hstate : L.accounts C = account state) (hnodup : state.modules.Nodup)
    (hbound : M ∈ state.modules) (hM : L.accounts M = account m) (country : ℕ) :
    countsOf L' M country + (if country = fromCountry ∧ fromCountry ≠ toCountry ∧
        senderExits amount fromAfter then 1 else 0) =
      countsOf L M country + (if country = toCountry ∧ receiverEnters amount toAfter ∧
        ¬ (fromCountry = toCountry ∧ senderExits amount fromAfter) then 1 else 0) := by
  obtain ⟨state', hstate', -, hloop⟩ := transferred_eq_ok.1 h
  obtain rfl := account_inj.1 (hstate.symm.trans hstate')
  exact foldlM_countsOf (R := fun f f' ↦ f' country + (if country = fromCountry ∧
      fromCountry ≠ toCountry ∧ senderExits amount fromAfter then 1 else 0) =
    f country + (if country = toCountry ∧ receiverEnters amount toAfter ∧
      ¬ (fromCountry = toCountry ∧ senderExits amount fromAfter) then 1 else 0)) (by decide)
    (fun _ _ _ ↦ moduleTransferred_iteration)
    (fun L L' hM hstep ↦ moduleTransferred_counts hstep hM country) hnodup hbound hM hloop

/-! ## Counts that stay -/

/-- Counts that were there stay, and new ones are at zero. -/
theorem countsOf_of_untouched
    (hopened : ∀ k, (L'.accounts k).counterModule k = some M → KnownOrOpened L L' k M)
    (hsame : ∀ k, (L.accounts k).counterModule k = some M → L'.accounts k = L.accounts k) :
    countsOf L' M = countsOf L M := by
  funext country
  cases hbefore : Token.countRecord L M country with
  | some c =>
      obtain ⟨hc, hmodule, hcountry⟩ := countRecord_eq_some.1 hbefore
      have hkept := hsame _ (by rw [hc, namesModule_count, hmodule])
      have hafter := countRecord_eq_some.2 ⟨hkept.trans hc, hmodule, hcountry⟩
      rw [countsOf_of_record hbefore, countsOf_of_record hafter]
  | none =>
      rw [countsOf, countsOf, hbefore]
      cases hafter : Token.countRecord L' M country with
      | none => rfl
      | some c =>
          obtain ⟨hc, hmodule, hcountry⟩ := countRecord_eq_some.1 hafter
          rcases hopened (countKey M country) (by rw [hc, namesModule_count, hmodule]) with
            hknown | hzero
          · have hold := (hsame _ hknown).symm.trans hc
            rw [countRecord_eq_some.2 ⟨hold, hmodule, hcountry⟩] at hbefore
            cases hbefore
          · rw [hc] at hzero
            exact hzero

end Fracks
