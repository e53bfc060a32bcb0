import Fracks.BoundModules
import Fracks.SupportRecords
import Fracks.TransferRules

/-!
# What a mint is admitted by

The check of the controller before a mint and the post-hook `created` both go through the
bound modules.  Together they succeed exactly if every module admits the mint by its rule
and the ones with counters are wired to the compliance state.
-/

namespace Fracks

open Checked AccountType Ledger Compliance HookedModule

/-- The contents of the account of one of the eight modules. -/
def AccountData.isModule : AccountData → Bool
  | .maxInvestorsModule _ => true
  | .countryRestrictModule _ => true
  | .maxBalanceModule _ => true
  | .maxTransferModule _ => true
  | .lockupModule _ => true
  | .dailyTransferLimitModule _ => true
  | .supplyCapModule _ => true
  | .investorCountryCapModule _ => true
  | _ => false

/-- The rule of a bound module for a mint. -/
def MintRule (L : Ledger) (amount toBalance country : ℕ) (M : Pubkey) : Prop :=
  match (L.accounts M).data with
  | .maxInvestorsModule m => toBalance = 0 → 0 < amount → m.holderCount < m.maxInvestors
  | .countryRestrictModule m => country ∈ m.allowedCountries
  | .maxBalanceModule m => toBalance + amount ≤ m.maxBalance
  | .maxTransferModule m => amount ≤ m.maxAmount
  | .lockupModule m => m.lockupEnd ≤ L.now
  | .dailyTransferLimitModule _ => True
  | .supplyCapModule m => m.totalSupply + amount ≤ m.maxSupply
  | .investorCountryCapModule m => toBalance = 0 → 0 < amount → ∀ cap,
      m.capOf country = some cap → Token.storedCount L M country < cap
  | _ => False

/-- A module with a counter obeys the compliance state, has the count of the country and
room in its counter. -/
def MintWired (L : Ledger) (C : Pubkey) (amount toBalance country : ℕ) (M : Pubkey) : Prop :=
  match (L.accounts M).data with
  | .maxInvestorsModule m =>
      m.hookAuthority = C ∧ (toBalance = 0 → 0 < amount → m.holderCount < u64Max)
  | .supplyCapModule m => m.hookAuthority = C ∧ m.totalSupply + amount ≤ u64Max
  | .investorCountryCapModule m => m.hookAuthority = C ∧
      ∃ count, Token.countRecord L M country = some count ∧
        (toBalance = 0 → 0 < amount → count.count < u64Max)
  | _ => True

variable {L L' : Ledger} {C M M' : Pubkey} {remaining : List Pubkey}
  {amount toBalance country : ℕ}

/-! ## One module -/

theorem receiverEnters_iff : receiverEnters amount (toBalance + amount) ↔
    toBalance = 0 ∧ 0 < amount := by
  constructor
  · rintro ⟨hpos, hafter⟩
    exact ⟨by omega, hpos⟩
  · rintro ⟨rfl, hpos⟩
    exact ⟨hpos, Nat.zero_add amount⟩

/-- The search for the count of a country finds its record at its address. -/
theorem findCountryCountAccount_iff {k : Pubkey}
    (hlisted : ModCountryCap.countAddress M country (.program .modCountryCap) ∈ remaining) :
    findCountryCountAccount L remaining M (.program .modCountryCap) country = .ok k ↔
      k = ModCountryCap.countAddress M country (.program .modCountryCap) ∧
        (Token.countRecord L M country).isSome := by
  rw [findCountryCountAccount, okOr_eq_ok]
  constructor
  · intro h
    have hfound := List.find?_some h
    have hk : k = ModCountryCap.countAddress M country (.program .modCountryCap) := by
      by_contra hne
      rw [Token.countryCountAt_of_ne hne] at hfound
      cases hfound
    rw [hk, Token.countryCountAt_countAddress] at hfound
    exact ⟨hk, hfound⟩
  · rintro ⟨rfl, hsome⟩
    have hhit : (remaining.find? fun k ↦ (countryCountAt L M (.program .modCountryCap) country
        k).isSome).isSome := by
      refine List.find?_isSome.2 ⟨_, hlisted, ?_⟩
      rw [Token.countryCountAt_countAddress]
      exact hsome
    obtain ⟨k, hk⟩ := Option.isSome_iff_exists.1 hhit
    have hfound := List.find?_some hk
    have hsame : k = ModCountryCap.countAddress M country (.program .modCountryCap) := by
      by_contra hne
      rw [Token.countryCountAt_of_ne hne] at hfound
      cases hfound
    rw [hk, hsame]

theorem created_maxInvestors_iff {m : MaxInvestorsModule} (hm : L.accounts M = account m)
    (hkey : M = moduleAddress MaxInvestorsModule m.tokenMint) (hlisted : M ∈ remaining)
    (hprogram : .program .modMaxInvestors ∈ remaining) :
    (∃ L', moduleCreated C remaining amount (toBalance + amount) country L M = .ok L') ↔
      m.hookAuthority = C ∧ (toBalance = 0 → 0 < amount → m.holderCount < u64Max) := by
  constructor
  · rintro ⟨L', h⟩
    obtain ⟨-, ⟨hauth, -⟩, h⟩ := (moduleCreated_maxInvestors hm).1 h
    obtain ⟨-, m', n, hm', -, -, hcount, -⟩ := mutateModule_eq_ok.1 h
    obtain rfl := account_inj.1 (hm.symm.trans hm')
    obtain ⟨c, hc, -⟩ := bind_eq_ok.1 hcount
    refine ⟨hauth.symm, fun hzero hpos ↦ ?_⟩
    exact (incrementIf_eq_ok.1 hc).2 (receiverEnters_iff.2 ⟨hzero, hpos⟩)
  · rintro ⟨rfl, hroom⟩
    have hcount : (incrementIf (receiverEnters amount (toBalance + amount)) m.holderCount
        (.maxInvestors .arithmeticOverflow)) = .ok (m.holderCount +
          (if receiverEnters amount (toBalance + amount) then 1 else 0)) := by
      refine incrementIf_eq_ok.2 ⟨rfl, fun henters ↦ ?_⟩
      obtain ⟨hzero, hpos⟩ := receiverEnters_iff.1 henters
      exact hroom hzero hpos
    exact ⟨_, (moduleCreated_maxInvestors hm).2 ⟨hlisted, ⟨rfl, hprogram⟩,
      mutateModule_eq_ok.2 ⟨List.mem_singleton_self _, m, _, hm, hkey, .inr rfl,
        bind_eq_ok.2 ⟨_, hcount, rfl⟩, rfl⟩⟩⟩

theorem created_supplyCap_iff {m : SupplyCapModule} (hm : L.accounts M = account m)
    (hkey : M = moduleAddress SupplyCapModule m.tokenMint) (hlisted : M ∈ remaining)
    (hprogram : .program .modSupplyCap ∈ remaining) :
    (∃ L', moduleCreated C remaining amount (toBalance + amount) country L M = .ok L') ↔
      m.totalSupply + amount ≤ m.maxSupply ∧ m.hookAuthority = C ∧
        m.totalSupply + amount ≤ u64Max := by
  constructor
  · rintro ⟨L', h⟩
    obtain ⟨-, ⟨hauth, -⟩, h⟩ := (moduleCreated_supplyCap hm).1 h
    obtain ⟨-, m', hm', -, -, hmax, hcap, -⟩ := ModSupplyCap.created_eq_ok.1 h
    obtain rfl := account_inj.1 (hm.symm.trans hm')
    exact ⟨hcap, hauth.symm, hmax⟩
  · rintro ⟨hcap, rfl, hmax⟩
    exact ⟨_, (moduleCreated_supplyCap hm).2 ⟨hlisted, ⟨rfl, hprogram⟩,
      ModSupplyCap.created_eq_ok.2 ⟨List.mem_singleton_self _, m, hm, hkey, .inr rfl, hmax, hcap,
        rfl⟩⟩⟩

theorem created_countryCap_iff {m : InvestorCountryCapModule} (hm : L.accounts M = account m)
    (hkey : M = moduleAddress InvestorCountryCapModule m.tokenMint) (hlisted : M ∈ remaining)
    (hprogram : .program .modCountryCap ∈ remaining)
    (hcount : ModCountryCap.countAddress M country (.program .modCountryCap) ∈ remaining) :
    (∃ L', moduleCreated C remaining amount (toBalance + amount) country L M = .ok L') ↔
      m.hookAuthority = C ∧ ∃ count, Token.countRecord L M country = some count ∧
        (toBalance = 0 → 0 < amount → count.count < u64Max) := by
  have hne : M ≠ .default := hkey ▸ moduleAddress_ne_default _
  constructor
  · rintro ⟨L', h⟩
    obtain ⟨-, ⟨hauth, -⟩, k, hk, h⟩ := (moduleCreated_countryCap hm).1 h
    obtain ⟨rfl, hsome⟩ := (findCountryCountAccount_iff hcount).1 hk
    obtain ⟨count, hrecord⟩ := Option.isSome_iff_exists.1 hsome
    obtain ⟨hview, -⟩ := Option.filter_eq_some_iff.1 hrecord
    obtain ⟨-, m', c, c', -, hc, -, -, hmodule, hupdate, -⟩ :=
      ModCountryCap.updateSingleCountryCount_ok h
    obtain rfl := account_inj.1 ((view_eq_some.1 hview).symm.trans hc)
    refine ⟨hauth.symm, count, hrecord, fun hzero hpos ↦ ?_⟩
    rw [ModCountryCap.onlyIf, if_pos (receiverEnters_iff.2 ⟨hzero, hpos⟩)] at hupdate
    exact ((ModCountryCap.enterCountry_eq_ok (hmodule ▸ hne)).1 hupdate).1
  · rintro ⟨rfl, count, hrecord, hroom⟩
    have hk := (findCountryCountAccount_iff hcount).2 ⟨rfl, by rw [hrecord]; rfl⟩
    obtain ⟨hview, hnamed⟩ := Option.filter_eq_some_iff.1 hrecord
    obtain ⟨hmodule, -⟩ := of_decide_eq_true hnamed
    have hentered : ∃ c', ModCountryCap.onlyIf (receiverEnters amount (toBalance + amount))
        (ModCountryCap.enterCountry M country) count = .ok c' := by
      rw [ModCountryCap.onlyIf]
      split
      · rename_i henters
        obtain ⟨hzero, hpos⟩ := receiverEnters_iff.1 henters
        exact ⟨_, (ModCountryCap.enterCountry_eq_ok (hmodule.symm ▸ hne)).2
          ⟨hroom hzero hpos, rfl⟩⟩
      · exact ⟨count, rfl⟩
    obtain ⟨c', hc'⟩ := hentered
    refine ⟨L.put (ModCountryCap.countAddress M country (.program .modCountryCap)) c',
      (moduleCreated_countryCap hm).2 ⟨hlisted, ⟨rfl, hprogram⟩, _, hk, ?_⟩⟩
    simp only [ModCountryCap.created, ModCountryCap.updateSingleCountryCount, bind_eq_ok,
      requireSigner_eq_ok, load_eq_ok, checkAuthority_eq_ok, require_eq_ok, exists_const]
    exact ⟨List.mem_singleton_self _, m, hm, count, view_eq_some.1 hview, ⟨hkey, .inr rfl⟩,
      hmodule, c', hc', rfl⟩

/-- What the post-hook asks of a module. -/
def CreatedAsks (L : Ledger) (C : Pubkey) (amount toBalance country : ℕ) (M : Pubkey) : Prop :=
  match (L.accounts M).data with
  | .countryRestrictModule m => country ∈ m.allowedCountries
  | .maxBalanceModule m => toBalance + amount ≤ m.maxBalance
  | .maxTransferModule m => amount ≤ m.maxAmount
  | .lockupModule m => m.lockupEnd ≤ L.now
  | .supplyCapModule m =>
      m.totalSupply + amount ≤ m.maxSupply ∧ MintWired L C amount toBalance country M
  | _ => MintWired L C amount toBalance country M

/-- The accounts that a mint is given for a bound module: itself, the program of a module, and
the count of the country for a module of the country cap. -/
structure ModuleSupplied (L : Ledger) (remaining : List Pubkey) (country : ℕ) (M : Pubkey) :
    Prop where
  listed : M ∈ remaining
  program : (L.accounts M).data.isModule → (L.accounts M).owner ∈ remaining
  count : (L.accounts M).owner = .program .modCountryCap →
    ModCountryCap.countAddress M country (.program .modCountryCap) ∈ remaining

theorem isModule_of_moduleAccount (h : ModuleAccount L M) : (L.accounts M).data.isModule := by
  cases h with
  | maxInvestors h | country h | maxBalance h | maxTransfer h | lockup h | dailyLimit h
  | supplyCap h | countryCap h =>
      obtain ⟨m, hm, -⟩ := h
      rw [hm]
      rfl

theorem moduleCreated_isOk_iff (hmodule : ModuleAccount L M)
    (hsupplied : ModuleSupplied L remaining country M) :
    (∃ L', moduleCreated C remaining amount (toBalance + amount) country L M = .ok L') ↔
      CreatedAsks L C amount toBalance country M := by
  have hlisted := hsupplied.listed
  have hprogram := hsupplied.program (isModule_of_moduleAccount hmodule)
  cases hmodule with
  | maxInvestors h =>
      obtain ⟨m, hm, hkey⟩ := h
      rw [hm] at hprogram
      simp only [CreatedAsks, MintWired, hm]
      exact created_maxInvestors_iff hm hkey hlisted hprogram
  | supplyCap h =>
      obtain ⟨m, hm, hkey⟩ := h
      rw [hm] at hprogram
      simp only [CreatedAsks, MintWired, hm]
      exact created_supplyCap_iff hm hkey hlisted hprogram
  | countryCap h =>
      obtain ⟨m, hm, hkey⟩ := h
      rw [hm] at hprogram
      have hcount := hsupplied.count (by rw [hm]; rfl)
      simp only [CreatedAsks, MintWired, hm]
      exact created_countryCap_iff hm hkey hlisted hprogram hcount
  | country h =>
      obtain ⟨m, hm, hkey⟩ := h
      simp [CreatedAsks, moduleCreated, hm, account, encode, hlisted]
  | maxBalance h =>
      obtain ⟨m, hm, hkey⟩ := h
      simp [CreatedAsks, moduleCreated, hm, account, encode, hlisted]
  | maxTransfer h =>
      obtain ⟨m, hm, hkey⟩ := h
      simp [CreatedAsks, moduleCreated, hm, account, encode, hlisted]
  | lockup h =>
      obtain ⟨m, hm, hkey⟩ := h
      simp [CreatedAsks, moduleCreated, hm, account, encode, hlisted]
  | dailyLimit h =>
      obtain ⟨m, hm, hkey⟩ := h
      simp [CreatedAsks, MintWired, moduleCreated, hm, account, encode, hlisted]

theorem readCountryCount_eq_stored {m : InvestorCountryCapModule} (hm : L.accounts M = account m)
    (hcount : ModCountryCap.countAddress M country (.program .modCountryCap) ∈ remaining) :
    readCountryCount L remaining M (.program .modCountryCap) country =
      Token.storedCount L M country := by
  have howner : (L.accounts M).owner = .program .modCountryCap := by
    rw [hm]
    rfl
  rw [← howner, Token.readCountryCount_eq_shown, Token.shownCount, howner, if_pos hcount]

/-- The check before the mint and the post-hook together ask for the rule of the module
and for its wiring. -/
theorem module_admits_iff (hfits : toBalance + amount ≤ u64Max) (hmodule : ModuleAccount L M)
    (hsupplied : ModuleSupplied L remaining country M) :
    (Token.moduleComplies L remaining .default amount toBalance 0 country M = .ok () ∧
      CreatedAsks L C amount toBalance country M) ↔
        MintRule L amount toBalance country M ∧ MintWired L C amount toBalance country M := by
  have hlisted := hsupplied.listed
  have hsum : saturatingAdd toBalance amount = toBalance + amount := min_eq_left hfits
  cases hmodule with
  | maxInvestors h =>
      obtain ⟨m, hm, -⟩ := h
      simp [CreatedAsks, MintRule, MintWired, Token.moduleComplies, hm, account, encode, hlisted]
  | supplyCap h =>
      obtain ⟨m, hm, -⟩ := h
      simp [CreatedAsks, MintRule, MintWired, Token.moduleComplies, hm, account, encode, hlisted]
  | countryCap h =>
      obtain ⟨m, hm, -⟩ := h
      have hstored := readCountryCount_eq_stored hm (hsupplied.count (by rw [hm]; rfl))
      by_cases henters : toBalance = 0 ∧ 0 < amount
      · cases hcap : m.capOf country <;>
          simp [CreatedAsks, MintRule, MintWired, Token.moduleComplies, hm, account, encode, kind,
            AccountKind.program, hlisted, henters, hcap, hstored]
      · have hstays : ¬ (toBalance = 0 ∧ 0 < amount) := henters
        simp [CreatedAsks, MintRule, MintWired, Token.moduleComplies, hm, account, encode, hlisted,
          hstays]
        tauto
  | country h =>
      obtain ⟨m, hm, -⟩ := h
      simp [CreatedAsks, MintRule, MintWired, Token.moduleComplies, hm, account, encode, hlisted]
  | maxBalance h =>
      obtain ⟨m, hm, -⟩ := h
      simp [CreatedAsks, MintRule, MintWired, Token.moduleComplies, hm, account, encode, hlisted,
        hsum]
  | maxTransfer h =>
      obtain ⟨m, hm, -⟩ := h
      simp [CreatedAsks, MintRule, MintWired, Token.moduleComplies, hm, account, encode, hlisted]
  | lockup h =>
      obtain ⟨m, hm, -⟩ := h
      simp [CreatedAsks, MintRule, MintWired, Token.moduleComplies, hm, account, encode, hlisted]
  | dailyLimit h =>
      obtain ⟨m, hm, -⟩ := h
      simp [CreatedAsks, MintRule, MintWired, Token.moduleComplies, hm, account, encode, hlisted]

/-! ## All of them -/

/-- Only accounts that count for modules in `pre` have changed. -/
structure Undisturbed (L : Ledger) (pre : List Pubkey) (c : Ledger) : Prop where
  change : CounterChange (fun _ M ↦ M ∈ pre) L c
  now : c.now = L.now

theorem moduleCreated_now (h : moduleCreated C remaining amount (toBalance + amount) country L M =
    .ok L') : L'.now = L.now := by
  rcases moduleCreated_iteration h with rfl | ⟨-, hcall⟩
  · rfl
  · cases hcall with
    | maxInvestorsCreated _ _ h =>
        obtain ⟨-, m, -, -, -, rfl⟩ := ModMaxInvestors.created_ok h
        rfl
    | supplyCapCreated _ h =>
        obtain ⟨-, m, -, -, -, -, -, rfl⟩ := ModSupplyCap.created_eq_ok.1 h
        rfl
    | countryCapCreated t _ _ _ h =>
        obtain ⟨-, m, c, c', -, -, -, -, -, -, rfl⟩ := ModCountryCap.updateSingleCountryCount_ok h
        rfl

/-- The account of a module that has not been called is as it was. -/
theorem Undisturbed.accounts {pre : List Pubkey} {c : Ledger} (h : Undisturbed L pre c)
    (hmodule : ModuleAccount L M) (hM : M ∉ pre) : c.accounts M = L.accounts M := by
  by_contra hchanged
  obtain ⟨M', hcounter, hM'⟩ := h.change.changes M hchanged
  have hself : M' = M := by
    cases hmodule with
    | maxInvestors h =>
        obtain ⟨m, hm, -⟩ := h
        rw [hm] at hcounter
        exact (Option.some.inj hcounter).symm
    | supplyCap h =>
        obtain ⟨m, hm, -⟩ := h
        rw [hm] at hcounter
        exact (Option.some.inj hcounter).symm
    | country h | maxBalance h | maxTransfer h | lockup h | dailyLimit h | countryCap h =>
        obtain ⟨m, hm, -⟩ := h
        rw [hm] at hcounter
        cases hcounter
  exact hM (hself ▸ hM')

/-- The counts of a module that has not been called are as they were. -/
theorem Undisturbed.countRecord {pre : List Pubkey} {c : Ledger} (h : Undisturbed L pre c)
    (hM : M ∉ pre) : Token.countRecord c M country = Token.countRecord L M country := by
  rw [Token.countRecord, Token.countRecord]
  generalize ModCountryCap.countAddress M country (.program .modCountryCap) = k
  by_cases hsame : c.accounts k = L.accounts k
  · rw [view_congr hsame]
  · obtain ⟨M', hcounter, hM'⟩ := h.change.changes k hsame
    have hother : ∀ l : Ledger, (l.accounts k).counterModule k = some M' →
        (l.view CountryInvestorCount k).filter (fun c ↦ c.module = M ∧ c.country = country) =
          none := by
      intro l hl
      rw [Option.filter_eq_none_iff]
      intro count hview hnamed
      rw [view_eq_some.1 hview] at hl
      have hmodule : count.module = M' := Option.some.inj hl
      exact hM ((of_decide_eq_true hnamed).1 ▸ hmodule ▸ hM')
    rw [hother L hcounter, hother c ((h.change.same k).counterModule.trans hcounter)]

theorem Undisturbed.createdAsks {pre : List Pubkey} {c : Ledger} (h : Undisturbed L pre c)
    (hmodule : ModuleAccount L M) (hM : M ∉ pre) :
    CreatedAsks c C amount toBalance country M ↔ CreatedAsks L C amount toBalance country M := by
  simp only [CreatedAsks, MintWired, h.accounts hmodule hM, h.now, h.countRecord hM]

theorem Undisturbed.moduleAccount {pre : List Pubkey} {c : Ledger} (h : Undisturbed L pre c)
    (hmodule : ModuleAccount L M) (hM : M ∉ pre) : ModuleAccount c M := by
  have hsame := h.accounts hmodule hM
  cases hmodule with
  | maxInvestors h => exact .maxInvestors (h.imp fun m hm ↦ ⟨hsame.trans hm.1, hm.2⟩)
  | country h => exact .country (h.imp fun m hm ↦ ⟨hsame.trans hm.1, hm.2⟩)
  | maxBalance h => exact .maxBalance (h.imp fun m hm ↦ ⟨hsame.trans hm.1, hm.2⟩)
  | maxTransfer h => exact .maxTransfer (h.imp fun m hm ↦ ⟨hsame.trans hm.1, hm.2⟩)
  | lockup h => exact .lockup (h.imp fun m hm ↦ ⟨hsame.trans hm.1, hm.2⟩)
  | dailyLimit h => exact .dailyLimit (h.imp fun m hm ↦ ⟨hsame.trans hm.1, hm.2⟩)
  | supplyCap h => exact .supplyCap (h.imp fun m hm ↦ ⟨hsame.trans hm.1, hm.2⟩)
  | countryCap h => exact .countryCap (h.imp fun m hm ↦ ⟨hsame.trans hm.1, hm.2⟩)

/-- The calls of the modules do not disturb each other. -/
theorem modulesCreated_iff {modules : List Pubkey} (hnodup : modules.Nodup)
    (hmodules : ∀ M ∈ modules, ModuleAccount L M)
    (hsupplied : ∀ M ∈ modules, ModuleSupplied L remaining country M) :
    (∃ L', modules.foldlM (moduleCreated C remaining amount (toBalance + amount) country) L =
      .ok L') ↔ ∀ M ∈ modules, CreatedAsks L C amount toBalance country M := by
  refine Fold.foldlM_succeeds_iff (I := Undisturbed L) ?_ ?_ ⟨.refl _ _, rfl⟩
  · intro pre M post c c' hsplit hc hstep
    refine ⟨?_, (moduleCreated_now hstep).trans hc.now⟩
    have hbefore := hc.change.mono fun _ M' hM' ↦ List.mem_append_left [M] hM'
    exact hbefore.trans ((moduleCreated_iteration hstep).change.mono fun _ M' hM' ↦ by
      simp [hM'.1])
  · intro pre M post c hsplit hc
    have hmem : M ∈ modules := by simp [hsplit]
    have hnew : M ∉ pre := by
      intro hpre
      rw [hsplit] at hnodup
      exact (List.nodup_append.1 hnodup).2.2 M hpre M List.mem_cons_self rfl
    have hmodule := hmodules M hmem
    have hlisted := hsupplied M hmem
    rw [← hc.createdAsks hmodule hnew]
    apply moduleCreated_isOk_iff (hc.moduleAccount hmodule hnew)
    refine ⟨hlisted.listed, ?_, ?_⟩
    · rw [hc.accounts hmodule hnew]
      exact hlisted.program
    · rw [hc.accounts hmodule hnew]
      exact hlisted.count

/-- The compliance state of a token with its modules. -/
structure Configured (L : Ledger) (token : TokenState) (state : ComplianceState) : Prop where
  compliance : L.accounts token.compliance = account state
  address : token.compliance = complianceAddress state.tokenMint
  mint : state.tokenMint = token.tokenMint
  nodup : state.modules.Nodup

/-- The amount fits the instruction, and the check of the controller before a mint and the
post-hook both pass. -/
def MintComplies [Borsh] (L : Ledger) (token : TokenState) (remaining : List Pubkey)
    (amount toBalance country : ℕ) : Prop :=
  amount ≤ u64Max ∧
  Token.evaluateCompliance L token token.compliance remaining .default amount toBalance 0 country =
    .ok () ∧
  ∃ L', Compliance.created L token.compliance remaining amount (toBalance + amount) country = .ok L'

theorem isModule_of_complies
    (h : Token.moduleComplies L remaining .default amount toBalance 0 country M = .ok ()) :
    (L.accounts M).data.isModule := by
  obtain ⟨-, -, h⟩ := bind_eq_ok.1 h
  generalize (L.accounts M).data = data at h ⊢
  cases data <;> first | rfl | cases h

theorem isModule_of_rule (h : MintRule L amount toBalance country M) :
    (L.accounts M).data.isModule := by
  rw [MintRule] at h
  generalize (L.accounts M).data = data at h ⊢
  cases data <;> first | rfl | cases h

section Admission

variable [Borsh] {token : TokenState} {state : ComplianceState}

/-- Unless the modules are paused, a mint is admitted exactly if each bound module admits it
and is wired. -/
theorem mintComplies_iff (hconfigured : Configured L token state)
    (hmodules : ∀ M ∈ state.modules, (L.accounts M).data.isModule → ModuleAccount L M)
    (hsupplied : ∀ M ∈ state.modules, ModuleSupplied L remaining country M) :
    MintComplies L token remaining amount toBalance country ↔
      toBalance + amount ≤ u64Max ∧ (state.modulesPaused = true ∨ ∀ M ∈ state.modules,
        MintRule L amount toBalance country M ∧
          MintWired L token.compliance amount toBalance country
          M) := by
  obtain ⟨hC, haddress, hmint, hnodup⟩ := hconfigured
  have hloaded : Token.deserializeLocal ComplianceState L token.compliance = .ok state := by
    simp [Token.deserializeLocal, hC, Borsh.decodeView_encode]
  have hread : readCompliance L token.compliance = .ok state :=
    readCompliance_eq_ok.2 ⟨hC, haddress⟩
  have hevaluate : Token.evaluateCompliance L token token.compliance remaining .default amount
      toBalance 0 country = .ok () ↔ toBalance ≤ u64Max - amount ∧ (state.modulesPaused = true ∨
        ∀ M ∈ state.modules,
          Token.moduleComplies L remaining .default amount toBalance 0 country M = .ok ()) := by
    simp only [Token.evaluateCompliance, hloaded, hmint, bind_eq_ok, require_eq_ok, exists_const,
      Except.ok.injEq, exists_eq_left', true_and]
    refine and_congr_right fun _ ↦ ?_
    cases state.modulesPaused with
    | true => simp
    | false =>
        simp only [Bool.false_eq_true, if_false, false_or]
        exact Fold.foldlM_checks_eq_ok
  have hcreated : (∃ L', Compliance.created L token.compliance remaining amount (toBalance + amount)
      country = .ok L') ↔ state.modulesPaused = true ∨ ∃ L', state.modules.foldlM
        (moduleCreated token.compliance remaining amount (toBalance + amount) country) L =
          .ok L' := by
    simp only [Compliance.created, hread, ok_bind]
    cases state.modulesPaused <;> simp
  rw [MintComplies, hevaluate, hcreated]
  cases hpaused : state.modulesPaused with
  | true =>
      simp only [true_or, and_true]
      omega
  | false =>
      simp only [Bool.false_eq_true, false_or]
      constructor
      · rintro ⟨hamount, ⟨hroom, hcomplies⟩, hloop⟩
        have hfits : toBalance + amount ≤ u64Max := by omega
        have haccounts : ∀ M ∈ state.modules, ModuleAccount L M := fun M hM ↦
          hmodules M hM (isModule_of_complies (hcomplies M hM))
        have hasked := (modulesCreated_iff hnodup haccounts hsupplied).1 hloop
        exact ⟨hfits, fun M hM ↦ (module_admits_iff hfits (haccounts M hM) (hsupplied M hM)).1
          ⟨hcomplies M hM, hasked M hM⟩⟩
      · rintro ⟨hfits, hall⟩
        have haccounts : ∀ M ∈ state.modules, ModuleAccount L M := fun M hM ↦
          hmodules M hM (isModule_of_rule (hall M hM).1)
        have hboth := fun M hM ↦
          (module_admits_iff hfits (haccounts M hM) (hsupplied M hM)).2 (hall M hM)
        exact ⟨by omega, ⟨by omega, fun M hM ↦ (hboth M hM).1⟩,
          (modulesCreated_iff hnodup haccounts hsupplied).2 fun M hM ↦ (hboth M hM).2⟩

end Admission

end Fracks
