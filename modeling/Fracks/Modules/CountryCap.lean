import Fracks.Modules.Hooked

/-!
# The country cap module

`mod_country_cap` keeps one count of holders for each country, in an account
derived from the module and the country.  A move between two countries touches
two counts; inside one country only the net change is applied.
-/

namespace Fracks

instance : HookedModule InvestorCountryCapModule where
  label := .modCountryCap
  owner := InvestorCountryCapModule.owner
  tokenMint := InvestorCountryCapModule.tokenMint
  hookAuthority := InvestorCountryCapModule.hookAuthority
  withHookAuthority m hookAuthority := { m with hookAuthority }
  notOwner := .countryCap .notOwner
  notAuthorized := .countryCap .notAuthorized

/-- The cap of a country: the first entry of the list with that country. -/
def InvestorCountryCapModule.capOf (module : InvestorCountryCapModule) (country : ℕ) : Option ℕ :=
  (module.countryCaps.find? fun entry ↦ entry.country = country).map CountryCapEntry.cap

end Fracks

namespace Fracks.ModCountryCap

open Checked AccountType HookedModule Ledger

def maxCountryCaps : ℕ := 32

def moduleSpace : ℕ := 8 + 32 + 32 + 32 + 4 + (10 * maxCountryCaps) + 1

def countSpace : ℕ := 8 + 32 + 2 + 8 + 1

def countAddress (module : Pubkey) (country : ℕ) (program : Pubkey) : Pubkey :=
  .findProgramAddress .countryCount [.key module, .num country] program

def initializeModule (L : Ledger) (signers : List Pubkey) (owner moduleState tokenMint : Pubkey)
    (countryCaps : List CountryCapEntry) : Result Ledger := do
  let L ← initializeModuleAccount .modCountryCap L signers owner moduleState tokenMint moduleSpace
    { owner, tokenMint, hookAuthority := owner, countryCaps : InvestorCountryCapModule }
  require (countryCaps.length ≤ maxCountryCaps) (.countryCap .tooManyCountryCaps)
  .ok L

def setHookAuthority (L : Ledger) (signers : List Pubkey)
    (owner moduleState hookAuthority : Pubkey) : Result Ledger :=
  HookedModule.setHookAuthority InvestorCountryCapModule L signers owner moduleState hookAuthority

/-- The `CheckCountryCount` accounts: any count account will do. -/
def canTransfer (L : Ledger) (moduleState countryCount : Pubkey)
    (amount toBalance toCountry : ℕ) : Result Bool := do
  let module ← readModule .modCountryCap InvestorCountryCapModule.tokenMint L moduleState
  let count ← L.load CountryInvestorCount countryCount
  if amount = 0 ∨ 0 < toBalance then .ok true
  else
    match module.capOf toCountry with
    | some cap => .ok (count.count < cap)
    | none => .ok true

/-- Anyone may pay for the count account of a country. -/
def initializeCountryCount (L : Ledger) (signers : List Pubkey)
    (owner moduleState countryCount : Pubkey) (country : ℕ) : Result Ledger := do
  requireSigner signers owner
  let module ← L.load InvestorCountryCapModule moduleState
  requireSeeds moduleState (moduleAddress InvestorCountryCapModule module.tokenMint)
  L.initRecord owner countryCount
    (countAddress moduleState country (.program .modCountryCap)) countSpace
    { module := moduleState, country, count := 0 : CountryInvestorCount }

def initializeCountIfNeeded (count : CountryInvestorCount) (module : Pubkey) (country : ℕ) :
    CountryInvestorCount :=
  if count.module = .default then { module, country, count := 0 } else count

/-- One holder less in the country of a count account. -/
def leaveCountry (module : Pubkey) (country : ℕ) (count : CountryInvestorCount) :
    Result CountryInvestorCount := do
  let count := initializeCountIfNeeded count module country
  let n ← okOr (checkedSub count.count 1) (.countryCap .arithmeticOverflow)
  .ok { count with count := n }

/-- One holder more in the country of a count account. -/
def enterCountry (module : Pubkey) (country : ℕ) (count : CountryInvestorCount) :
    Result CountryInvestorCount := do
  let count := initializeCountIfNeeded count module country
  let n ← okOr (checkedAdd count.count 1) (.countryCap .arithmeticOverflow)
  .ok { count with count := n }

def onlyIf (c : Prop) [Decidable c]
    (f : CountryInvestorCount → Result CountryInvestorCount) (count : CountryInvestorCount) :
    Result CountryInvestorCount :=
  if c then f count else .ok count

/-- The update of the two loaded counts.  In one country a move that swaps
holders changes nothing. -/
def updateCounts (module : Pubkey) (fromCountry toCountry : ℕ) (exits enters : Prop)
    [Decidable exits] [Decidable enters] (fromCount toCount : CountryInvestorCount) :
    Result (CountryInvestorCount × CountryInvestorCount) :=
  if fromCountry = toCountry then do
    let fromCount' ← onlyIf (exits ∧ ¬ enters) (leaveCountry module fromCountry) fromCount
    let toCount' ← onlyIf (enters ∧ ¬ exits) (enterCountry module toCountry) toCount
    .ok (fromCount', toCount')
  else do
    let fromCount' ← onlyIf exits (leaveCountry module fromCountry) fromCount
    let toCount' ← onlyIf enters (enterCountry module toCountry) toCount
    .ok (fromCount', toCount')

/-- Both count accounts are loaded before either is written; when they are the
same account the second write is the one that stays. -/
def transferred (L : Ledger) (signers : List Pubkey)
    (authority moduleState fromCountryCount toCountryCount : Pubkey)
    (amount fromBalanceAfter toBalanceAfter fromCountry toCountry : ℕ) : Result Ledger := do
  requireSigner signers authority
  let module ← L.load InvestorCountryCapModule moduleState
  let fromCount ← L.load CountryInvestorCount fromCountryCount
  let toCount ← L.load CountryInvestorCount toCountryCount
  checkAuthority moduleState authority module
  require (fromCount.module = moduleState) (.countryCap .invalidCountryCount)
  require (toCount.module = moduleState) (.countryCap .invalidCountryCount)
  let counts ← updateCounts moduleState fromCountry toCountry
    (senderExits amount fromBalanceAfter) (receiverEnters amount toBalanceAfter) fromCount toCount
  .ok ((L.put fromCountryCount counts.1).put toCountryCount counts.2)

/-- The `UpdateSingleCountryCount` accounts. -/
def updateSingleCountryCount (L : Ledger) (signers : List Pubkey)
    (authority moduleState countryCount : Pubkey)
    (f : CountryInvestorCount → Result CountryInvestorCount) : Result Ledger := do
  requireSigner signers authority
  let module ← L.load InvestorCountryCapModule moduleState
  let count ← L.load CountryInvestorCount countryCount
  checkAuthority moduleState authority module
  require (count.module = moduleState) (.countryCap .invalidCountryCount)
  let count ← f count
  .ok (L.put countryCount count)

def created (L : Ledger) (signers : List Pubkey) (authority moduleState countryCount : Pubkey)
    (amount toBalanceAfter toCountry : ℕ) : Result Ledger :=
  updateSingleCountryCount L signers authority moduleState countryCount
    (onlyIf (receiverEnters amount toBalanceAfter) (enterCountry moduleState toCountry))

def destroyed (L : Ledger) (signers : List Pubkey) (authority moduleState countryCount : Pubkey)
    (amount fromBalanceAfter fromCountry : ℕ) : Result Ledger :=
  updateSingleCountryCount L signers authority moduleState countryCount
    (onlyIf (senderExits amount fromBalanceAfter) (leaveCountry moduleState fromCountry))

section Specification

variable {L L' : Ledger} {signers : List Pubkey}
  {authority moduleState fromCountryCount toCountryCount countryCount : Pubkey}
  {amount fromBalanceAfter toBalanceAfter fromCountry toCountry country : ℕ}
  {count count' : CountryInvestorCount}

/-- A count account with a real module is never reinitialized. -/
theorem initializeCountIfNeeded_of_ne (h : count.module ≠ .default) :
    initializeCountIfNeeded count moduleState country = count := by
  simp [initializeCountIfNeeded, h]

theorem leaveCountry_eq_ok (h : count.module ≠ .default) :
    leaveCountry moduleState country count = .ok count' ↔
      0 < count.count ∧ count' = { count with count := count.count - 1 } := by
  simp only [leaveCountry, initializeCountIfNeeded_of_ne h, bind_eq_ok, okOr_eq_ok,
    checkedSub_eq_some, Except.ok.injEq]
  constructor
  · rintro ⟨n, ⟨hn, rfl⟩, rfl⟩
    exact ⟨hn, rfl⟩
  · rintro ⟨hn, rfl⟩
    exact ⟨_, ⟨hn, rfl⟩, rfl⟩

theorem enterCountry_eq_ok (h : count.module ≠ .default) :
    enterCountry moduleState country count = .ok count' ↔
      count.count + 1 ≤ u64Max ∧ count' = { count with count := count.count + 1 } := by
  simp only [enterCountry, initializeCountIfNeeded_of_ne h, bind_eq_ok, okOr_eq_ok,
    checkedAdd_eq_some, Except.ok.injEq]
  constructor
  · rintro ⟨n, ⟨hn, rfl⟩, rfl⟩
    exact ⟨hn, rfl⟩
  · rintro ⟨hn, rfl⟩
    exact ⟨_, ⟨hn, rfl⟩, rfl⟩

theorem onlyIf_leave_ok {c : Prop} [Decidable c] (hm : count.module ≠ .default)
    (h : onlyIf c (leaveCountry moduleState country) count = .ok count') :
    count'.module = count.module ∧ count'.country = count.country ∧
      count'.count + (if c then 1 else 0) = count.count := by
  unfold onlyIf at h
  split at h
  case isTrue hc =>
    obtain ⟨hpos, rfl⟩ := (leaveCountry_eq_ok hm).1 h
    refine ⟨rfl, rfl, ?_⟩
    simp only [hc, if_true]
    omega
  case isFalse hc =>
    obtain rfl := Except.ok.inj h
    simp [hc]

theorem onlyIf_enter_ok {c : Prop} [Decidable c] (hm : count.module ≠ .default)
    (h : onlyIf c (enterCountry moduleState country) count = .ok count') :
    count'.module = count.module ∧ count'.country = count.country ∧
      count'.count = count.count + (if c then 1 else 0) := by
  unfold onlyIf at h
  split at h
  case isTrue hc =>
    obtain ⟨-, rfl⟩ := (enterCountry_eq_ok hm).1 h
    simp [hc]
  case isFalse hc =>
    obtain rfl := Except.ok.inj h
    simp [hc]

theorem updateSingleCountryCount_ok {f : CountryInvestorCount → Result CountryInvestorCount}
    (h : updateSingleCountryCount L signers authority moduleState countryCount f = .ok L') :
    authority ∈ signers ∧ ∃ (m : InvestorCountryCapModule) (c c' : CountryInvestorCount),
      L.accounts moduleState = account m ∧ L.accounts countryCount = account c ∧
        moduleState = moduleAddress InvestorCountryCapModule m.tokenMint ∧
          isModuleAuthority m authority ∧ c.module = moduleState ∧ f c = .ok c' ∧
            L' = L.put countryCount c' := by
  simp only [updateSingleCountryCount, bind_eq_ok, requireSigner_eq_ok, load_eq_ok,
    checkAuthority_eq_ok, require_eq_ok, exists_const, Except.ok.injEq] at h
  obtain ⟨hsigner, m, hm, c, hc, ⟨hkey, hauth⟩, hmodule, c', hc', rfl⟩ := h
  exact ⟨hsigner, m, c, c', hm, hc, hkey, hauth, hmodule, hc', rfl⟩

theorem transferred_ok
    (h : transferred L signers authority moduleState fromCountryCount toCountryCount amount
      fromBalanceAfter toBalanceAfter fromCountry toCountry = .ok L') :
    authority ∈ signers ∧ ∃ (m : InvestorCountryCapModule) (f t f' t' : CountryInvestorCount),
      L.accounts moduleState = account m ∧ L.accounts fromCountryCount = account f ∧
        L.accounts toCountryCount = account t ∧
          moduleState = moduleAddress InvestorCountryCapModule m.tokenMint ∧
            isModuleAuthority m authority ∧ f.module = moduleState ∧ t.module = moduleState ∧
              updateCounts moduleState fromCountry toCountry
                (senderExits amount fromBalanceAfter) (receiverEnters amount toBalanceAfter) f t =
                  .ok (f', t') ∧
                L' = (L.put fromCountryCount f').put toCountryCount t' := by
  simp only [transferred, bind_eq_ok, requireSigner_eq_ok, load_eq_ok,
    checkAuthority_eq_ok, require_eq_ok, exists_const, Except.ok.injEq] at h
  obtain ⟨hsigner, m, hm, f, hf, t, ht, ⟨hkey, hauth⟩, hfm, htm, ⟨f', t'⟩, hcounts, rfl⟩ := h
  exact ⟨hsigner, m, f, t, f', t', hm, hf, ht, hkey, hauth, hfm, htm, hcounts, rfl⟩

/-- What an update of two counts does to each of them. -/
theorem updateCounts_ok {exits enters : Prop} [Decidable exits] [Decidable enters]
    {f t f' t' : CountryInvestorCount} (hf : f.module ≠ .default) (ht : t.module ≠ .default)
    (h : updateCounts moduleState fromCountry toCountry exits enters f t = .ok (f', t')) :
    (f'.module = f.module ∧ f'.country = f.country ∧
      f'.count + (if exits ∧ ¬ (fromCountry = toCountry ∧ enters) then 1 else 0) = f.count) ∧
    (t'.module = t.module ∧ t'.country = t.country ∧
      t'.count = t.count + (if enters ∧ ¬ (fromCountry = toCountry ∧ exits) then 1 else 0)) := by
  unfold updateCounts at h
  split at h
  case isTrue hcountry =>
    simp only [bind_eq_ok, Except.ok.injEq, Prod.mk.injEq] at h
    obtain ⟨_, hleave, _, henter, rfl, rfl⟩ := h
    simpa [hcountry] using And.intro (onlyIf_leave_ok hf hleave) (onlyIf_enter_ok ht henter)
  case isFalse hcountry =>
    simp only [bind_eq_ok, Except.ok.injEq, Prod.mk.injEq] at h
    obtain ⟨_, hleave, _, henter, rfl, rfl⟩ := h
    simpa [hcountry] using And.intro (onlyIf_leave_ok hf hleave) (onlyIf_enter_ok ht henter)

end Specification

end Fracks.ModCountryCap
