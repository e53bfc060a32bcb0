import Fracks.BoundModules

/-!
# Usage and count records under the post-hooks

The daily limit and the country cap keep their counters in support records that
name the module.  A post-hook calls the module once, and the call writes the
records of one wallet or of one or two countries; all other records of the
module stay.
-/

namespace Fracks.Compliance

open Checked AccountType Ledger HookedModule

variable {L L' : Ledger} {C M M' k source : Pubkey} {remaining : List Pubkey} {hook : PostHook}
  {amount fromAfter toAfter fromCountry toCountry : ℕ} {state : ComplianceState}

/-! ## Records that name their module -/

section Named

variable {α : Type} [AccountType α] {module : α → Pubkey}

/-- The records of the type hold counters of the module they name. -/
def NamesModule (module : α → Pubkey) : Prop :=
  ∀ (k : Pubkey) (a : α), (account a).counterModule k = some (module a)

theorem namesModule_usage : NamesModule DailyWalletUsage.module := fun _ _ ↦ rfl

theorem namesModule_count : NamesModule CountryInvestorCount.module := fun _ _ ↦ rfl

/-- The record at `k` when it names the module `M`. -/
def recordOf (module : α → Pubkey) (L : Ledger) (M k : Pubkey) : Option α :=
  (L.view α k).filter fun a ↦ module a = M

@[simp] theorem recordOf_eq_some {a : α} :
    recordOf module L M k = some a ↔ L.accounts k = account a ∧ module a = M := by
  simp [recordOf, Option.filter_eq_some_iff, view_eq_some]

/-- A change of counters keeps the records of the modules it leaves out. -/
theorem CounterChange.recordOf_of_not {P : Pubkey → Pubkey → Prop} (hα : NamesModule module)
    (h : CounterChange P L L') (hP : ¬ P k M) : recordOf module L' M k = recordOf module L M k := by
  by_cases hsame : L'.accounts k = L.accounts k
  · rw [recordOf, recordOf, view_congr hsame]
  · obtain ⟨M₁, hM₁, hP₁⟩ := h.changes k hsame
    have hnone : ∀ {L₀ : Ledger}, (L₀.accounts k).counterModule k = some M₁ →
        recordOf module L₀ M k = none := by
      intro L₀ hcounter
      rw [Option.eq_none_iff_forall_ne_some]
      intro a ha
      obtain ⟨ha, hmodule⟩ := recordOf_eq_some.1 ha
      rw [ha, hα, hmodule] at hcounter
      exact hP (Option.some.inj hcounter ▸ hP₁)
    rw [hnone hM₁, hnone ((h.same k).counterModule.trans hM₁)]

end Named

/-! ## Loops -/

/-- A call keeps the clock. -/
theorem Iteration.now (h : Iteration hook C M L L') : L'.now = L.now := by
  rcases h with rfl | ⟨-, h⟩
  · rfl
  · cases h with
    | maxInvestorsTransferred _ _ _ h =>
        obtain ⟨-, m, n, -, -, -, -, rfl⟩ := ModMaxInvestors.transferred_ok h
        rfl
    | maxInvestorsCreated _ _ h =>
        obtain ⟨-, m, -, -, -, rfl⟩ := ModMaxInvestors.created_ok h
        rfl
    | maxInvestorsDestroyed _ _ h =>
        obtain ⟨-, m, n, -, -, -, -, rfl⟩ := ModMaxInvestors.destroyed_eq_ok.1 h
        rfl
    | supplyCapCreated _ h =>
        obtain ⟨-, m, -, -, -, -, -, rfl⟩ := ModSupplyCap.created_eq_ok.1 h
        rfl
    | supplyCapDestroyed _ h =>
        obtain ⟨-, m, -, -, -, -, rfl⟩ := ModSupplyCap.destroyed_eq_ok.1 h
        rfl
    | countryCapTransferred _ _ _ _ _ _ _ h =>
        obtain ⟨-, m, f, t, f', t', -, -, -, -, -, -, -, -, rfl⟩ := ModCountryCap.transferred_ok h
        rfl
    | countryCapCreated _ _ _ _ h =>
        obtain ⟨-, m, c, c', -, -, -, -, -, -, rfl⟩ := ModCountryCap.updateSingleCountryCount_ok h
        rfl
    | countryCapDestroyed _ _ _ _ h =>
        obtain ⟨-, m, c, c', -, -, -, -, -, -, rfl⟩ := ModCountryCap.updateSingleCountryCount_ok h
        rfl
    | dailyLimitTransferred _ _ _ h =>
        obtain ⟨-, m, u, -, -, -, -, -, -, -, -, rfl⟩ := ModDailyLimit.transferred_ok h
        rfl

/-- What one call does to a record of a module, seen with the module itself and
the clock, the whole loop does. -/
theorem foldlM_recordOf {α μ : Type} [AccountType α] [AccountType μ] {module : α → Pubkey}
    (hα : NamesModule module) {m : μ} {f : Ledger → Pubkey → Result Ledger}
    {modules : List Pubkey} {R : ℤ → α → α → Prop}
    (hμ : kind μ ∉ hook.kinds) (hf : ∀ M L L', f L M = .ok L' → Iteration hook C M L L')
    (hhit : ∀ L L', L.accounts M = account m → f L M = .ok L' → ∀ a', L'.accounts k = account a' →
      module a' = M → ∃ a, L.accounts k = account a ∧ module a = M ∧ R L.now a a')
    (hnodup : modules.Nodup) (hbound : M ∈ modules) (hM : L.accounts M = account m)
    (h : modules.foldlM f L = .ok L') {a' : α} (ha' : L'.accounts k = account a')
    (hmodule : module a' = M) :
    ∃ a, L.accounts k = account a ∧ module a = M ∧ R L.now a a' := by
  have honce := Fold.foldlM_once
    (g := fun L ↦ (recordOf module L M k, L.view μ M, L.now))
    (R := fun v v' ↦ v.2.1 = some m → ∀ a', v'.1 = some a' → ∃ a, v.1 = some a ∧ R v.2.2 a a')
    hnodup hbound (fun M' _ hne L L' hstep ↦ ?_) (fun L L' hstep hm a' ha' ↦ ?_) h
    (view_eq_some.2 hM) a' (recordOf_eq_some.2 ⟨ha', hmodule⟩)
  · obtain ⟨a, ha, hR⟩ := honce
    obtain ⟨ha, hmodule⟩ := recordOf_eq_some.1 ha
    exact ⟨a, ha, hmodule, hR⟩
  · have hiteration := hf M' L L' hstep
    have hother : recordOf module L' M k = recordOf module L M k :=
      CounterChange.recordOf_of_not hα hiteration.change fun hP ↦ hne hP.1.symm
    rw [hother, hiteration.frame.view_eq hμ, hiteration.now]
  · obtain ⟨ha', hmodule⟩ := recordOf_eq_some.1 ha'
    obtain ⟨a, ha, hmodule, hR⟩ := hhit L L' (view_eq_some.1 hm) hstep a' ha' hmodule
    exact ⟨a, recordOf_eq_some.2 ⟨ha, hmodule⟩, hR⟩

/-! ## Usage -/

/-- The usage records after a transfer: that of the sender has the amount added
in its open window, the others stay. -/
theorem transferred_usage {m : DailyTransferLimitModule} {u' : DailyWalletUsage}
    (h : transferred L C remaining source amount fromAfter toAfter fromCountry toCountry = .ok L')
    (hstate : L.accounts C = account state) (hnodup : state.modules.Nodup)
    (hbound : M ∈ state.modules) (hM : L.accounts M = account m)
    (hu' : L'.accounts k = account u') (hmodule : u'.module = M) :
    ∃ u : DailyWalletUsage, L.accounts k = account u ∧ u.module = M ∧
      (u' = u ∨ k = ModDailyLimit.usageAddress M source (.program .modDailyLimit) ∧
        u.wallet = source ∧ u'.volume = (ModDailyLimit.refreshWindow u L.now).volume + amount ∧
          u'.volume ≤ u64Max) := by
  obtain ⟨state', hstate', -, hloop⟩ := transferred_eq_ok.1 h
  obtain rfl := account_inj.1 (hstate.symm.trans hstate')
  refine foldlM_recordOf namesModule_usage (m := m) (R := fun t u u' ↦ u' = u ∨
    k = ModDailyLimit.usageAddress M source (.program .modDailyLimit) ∧
      u.wallet = source ∧ u'.volume = (ModDailyLimit.refreshWindow u t).volume + amount ∧
        u'.volume ≤ u64Max)
    (by decide) (fun _ _ _ ↦ moduleTransferred_iteration) (fun L L' hM hstep u' hu' hmodule ↦ ?_)
    hnodup hbound hM hloop hu' hmodule
  obtain ⟨-, -, key, -, hcall⟩ := (moduleTransferred_dailyLimit hM).1 hstep
  obtain ⟨-, _, u, -, hu, -, -, hkey, hnames, hwallet, hfits, rfl⟩ :=
    ModDailyLimit.transferred_ok hcall
  by_cases hk : k = key
  · subst hk
    have hnew := hu'.symm.trans (put_accounts_self _)
    obtain rfl := account_inj.1 hnew
    exact ⟨u, hu, hnames, .inr ⟨hkey, hwallet, rfl, hfits⟩⟩
  · rw [put_accounts_of_ne _ hk] at hu'
    exact ⟨u', hu', hmodule, .inl rfl⟩

/-! ## Counts -/

theorem countAddress_inj {c c' : ℕ} {program : Pubkey} :
    ModCountryCap.countAddress M c program = ModCountryCap.countAddress M c' program ↔ c = c' := by
  simp [ModCountryCap.countAddress, Pubkey.findProgramAddress, Pubkey.addSeed]

theorem findCountryCountAccount_ok {program : Pubkey} {country : ℕ}
    (h : findCountryCountAccount L remaining M program country = .ok k) :
    k = ModCountryCap.countAddress M country program ∧ k ∈ remaining ∧
      ∀ c : CountryInvestorCount, L.accounts k = account c → c.country = country := by
  rw [findCountryCountAccount, okOr_eq_ok] at h
  have hsome := List.find?_some h
  unfold countryCountAt at hsome
  split at hsome
  · split at hsome
    · rename_i count hcount
      split at hsome
      · rename_i hnamed
        obtain ⟨hkey, -, hcountry⟩ := hnamed
        refine ⟨hkey, List.mem_of_find?_eq_some h, fun c hc ↦ ?_⟩
        rw [hc, account_data, decode_encode] at hcount
        exact Option.some.inj hcount ▸ hcountry
      · exact nomatch hsome
    · exact nomatch hsome
  · exact nomatch hsome

/-- The count of a country at the module `M`. -/
abbrev countKey (M : Pubkey) (country : ℕ) : Pubkey :=
  ModCountryCap.countAddress M country (.program .modCountryCap)

section Counts

variable {m : InvestorCountryCapModule} {c' : CountryInvestorCount}

theorem created_count (h : created L C remaining amount toAfter toCountry = .ok L')
    (hstate : L.accounts C = account state) (hactive : state.modulesPaused = false)
    (hnodup : state.modules.Nodup) (hbound : M ∈ state.modules) (hM : L.accounts M = account m)
    (hc' : L'.accounts k = account c') (hmodule : c'.module = M) :
    ∃ c : CountryInvestorCount, L.accounts k = account c ∧ c.module = M ∧
      c'.country = c.country ∧
        (k = countKey M toCountry → c.country = toCountry ∧ k ∈ remaining) ∧ c'.count = c.count +
          (if k = countKey M toCountry ∧ receiverEnters amount toAfter then 1 else 0) := by
  obtain ⟨state', hstate', -, hloop⟩ := created_eq_ok.1 h
  obtain rfl := account_inj.1 (hstate.symm.trans hstate')
  rcases hloop with ⟨hpaused, -⟩ | ⟨-, hloop⟩
  · simp [hactive] at hpaused
  · refine foldlM_recordOf namesModule_count (m := m) (R := fun _ c c' ↦ c'.country = c.country ∧
      (k = countKey M toCountry → c.country = toCountry ∧ k ∈ remaining) ∧ c'.count = c.count +
        (if k = countKey M toCountry ∧ receiverEnters amount toAfter then 1 else 0))
      (by decide) (fun _ _ _ ↦ moduleCreated_iteration) (fun L L' hM hstep c' hc' hmodule ↦ ?_)
      hnodup hbound hM hloop hc' hmodule
    obtain ⟨-, -, key, hkey, hcall⟩ := (moduleCreated_countryCap hM).1 hstep
    obtain ⟨rfl, hlisted, hnamed⟩ := findCountryCountAccount_ok hkey
    obtain ⟨-, m₁, c, c₁, -, hc, haddress, -, hnames, hcount, rfl⟩ :=
      ModCountryCap.updateSingleCountryCount_ok hcall
    have hne : c.module ≠ .default := hnames ▸ haddress ▸ moduleAddress_ne_default _
    obtain ⟨-, hcountry, hcount⟩ := ModCountryCap.onlyIf_enter_ok hne hcount
    by_cases hk : k = countKey M toCountry
    · subst hk
      obtain rfl := account_inj.1 (hc'.symm.trans (put_accounts_self _))
      exact ⟨c, hc, hnames, hcountry, fun _ ↦ ⟨hnamed c hc, hlisted⟩, by simpa using hcount⟩
    · rw [put_accounts_of_ne _ hk] at hc'
      exact ⟨c', hc', hmodule, rfl, fun hkey ↦ absurd hkey hk, by simp [hk]⟩

theorem destroyed_count (h : destroyed L C remaining amount fromAfter fromCountry = .ok L')
    (hstate : L.accounts C = account state) (hnodup : state.modules.Nodup)
    (hbound : M ∈ state.modules) (hM : L.accounts M = account m)
    (hc' : L'.accounts k = account c') (hmodule : c'.module = M) :
    ∃ c : CountryInvestorCount, L.accounts k = account c ∧ c.module = M ∧
      c'.country = c.country ∧ c'.count +
        (if k = countKey M fromCountry ∧ senderExits amount fromAfter then 1 else 0) = c.count := by
  obtain ⟨state', hstate', -, hloop⟩ := destroyed_eq_ok.1 h
  obtain rfl := account_inj.1 (hstate.symm.trans hstate')
  refine foldlM_recordOf namesModule_count (m := m) (R := fun _ c c' ↦ c'.country = c.country ∧
    c'.count + (if k = countKey M fromCountry ∧ senderExits amount fromAfter then 1 else 0) =
      c.count)
    (by decide) (fun _ _ _ ↦ moduleDestroyed_iteration) (fun L L' hM hstep c' hc' hmodule ↦ ?_)
    hnodup hbound hM hloop hc' hmodule
  obtain ⟨-, -, key, hkey, hcall⟩ := (moduleDestroyed_countryCap hM).1 hstep
  obtain ⟨rfl, -⟩ := findCountryCountAccount_ok hkey
  obtain ⟨-, m₁, c, c₁, -, hc, haddress, -, hnames, hcount, rfl⟩ :=
    ModCountryCap.updateSingleCountryCount_ok hcall
  have hne : c.module ≠ .default := hnames ▸ haddress ▸ moduleAddress_ne_default _
  obtain ⟨-, hcountry, hcount⟩ := ModCountryCap.onlyIf_leave_ok hne hcount
  by_cases hk : k = countKey M fromCountry
  · subst hk
    obtain rfl := account_inj.1 (hc'.symm.trans (put_accounts_self _))
    exact ⟨c, hc, hnames, hcountry, by simpa using hcount⟩
  · rw [put_accounts_of_ne _ hk] at hc'
    exact ⟨c', hc', hmodule, rfl, by simp [hk]⟩

/-- Between two countries each count changes on its own.  Inside one country the
two counts are one account, and only the second write stays. -/
theorem transferred_count
    (h : transferred L C remaining source amount fromAfter toAfter fromCountry toCountry = .ok L')
    (hstate : L.accounts C = account state) (hnodup : state.modules.Nodup)
    (hbound : M ∈ state.modules) (hM : L.accounts M = account m)
    (hc' : L'.accounts k = account c') (hmodule : c'.module = M) :
    ∃ c : CountryInvestorCount, L.accounts k = account c ∧ c.module = M ∧
      c'.country = c.country ∧ (k = countKey M toCountry → c.country = toCountry) ∧
        c'.count + (if k = countKey M fromCountry ∧ fromCountry ≠ toCountry ∧
          senderExits amount fromAfter then 1 else 0) =
          c.count + (if k = countKey M toCountry ∧ receiverEnters amount toAfter ∧
            ¬ (fromCountry = toCountry ∧ senderExits amount fromAfter) then 1 else 0) := by
  obtain ⟨state', hstate', -, hloop⟩ := transferred_eq_ok.1 h
  obtain rfl := account_inj.1 (hstate.symm.trans hstate')
  refine foldlM_recordOf namesModule_count (m := m) (R := fun _ c c' ↦ c'.country = c.country ∧
    (k = countKey M toCountry → c.country = toCountry) ∧
    c'.count + (if k = countKey M fromCountry ∧ fromCountry ≠ toCountry ∧
      senderExits amount fromAfter then 1 else 0) =
      c.count + (if k = countKey M toCountry ∧ receiverEnters amount toAfter ∧
        ¬ (fromCountry = toCountry ∧ senderExits amount fromAfter) then 1 else 0))
    (by decide) (fun _ _ _ ↦ moduleTransferred_iteration) (fun L L' hM hstep c' hc' hmodule ↦ ?_)
    hnodup hbound hM hloop hc' hmodule
  obtain ⟨-, -, fromKey, hfromKey, toKey, htoKey, hcall⟩ :=
    (moduleTransferred_countryCap hM).1 hstep
  obtain ⟨rfl, -⟩ := findCountryCountAccount_ok hfromKey
  obtain ⟨rfl, -, hnamed⟩ := findCountryCountAccount_ok htoKey
  obtain ⟨-, m₁, f, t, f', t', -, hf, ht, haddress, -, hfnames, htnames, hcounts, rfl⟩ :=
    ModCountryCap.transferred_ok hcall
  have hne : M ≠ .default := haddress ▸ moduleAddress_ne_default _
  obtain ⟨⟨-, hfcountry, hfcount⟩, -, htcountry, htcount⟩ :=
    ModCountryCap.updateCounts_ok (hfnames ▸ hne) (htnames ▸ hne) hcounts
  by_cases hto : k = countKey M toCountry
  · subst hto
    obtain rfl := account_inj.1 (hc'.symm.trans (put_accounts_self _))
    refine ⟨t, ht, htnames, htcountry, fun _ ↦ hnamed t ht, ?_⟩
    have hother : ¬ (countKey M toCountry = countKey M fromCountry ∧ fromCountry ≠ toCountry ∧
        senderExits amount fromAfter) := fun hfrom ↦ hfrom.2.1 (countAddress_inj.1 hfrom.1).symm
    rw [if_neg hother]
    simpa using htcount
  · rw [put_accounts_of_ne _ hto] at hc'
    by_cases hfrom : k = countKey M fromCountry
    · subst hfrom
      have hcountries : fromCountry ≠ toCountry := fun heq ↦ hto (heq ▸ rfl)
      obtain rfl := account_inj.1 (hc'.symm.trans (put_accounts_self _))
      refine ⟨f, hf, hfnames, hfcountry, fun hkey ↦ absurd hkey hto, ?_⟩
      rw [if_neg (fun hkey : countKey M fromCountry = countKey M toCountry ∧ _ ↦ hto hkey.1)]
      simpa [hcountries] using hfcount
    · rw [put_accounts_of_ne _ hfrom] at hc'
      exact ⟨c', hc', hmodule, rfl, fun hkey ↦ absurd hkey hto, by simp [hto, hfrom]⟩

end Counts

end Fracks.Compliance
