import Fracks.Deployment

/-!
# Usage and count records

The compliance check finds the usage record of the sender and the count of the
receiver's country among accounts that the caller lists, and reads zero where
they are missing.  The records sit at derived addresses, so that the search
sees the stored value exactly when that address is in the list.
-/

namespace Fracks.Token

open Checked AccountType Ledger Compliance

variable {L : Ledger} {M program source : Pubkey} {remaining : List Pubkey}
  {amount toBalance fromCountry toCountry : ℕ}

/-! ## The search -/

theorem dailyUsageAt_of_ne {k : Pubkey} (hk : k ≠ ModDailyLimit.usageAddress M source program) :
    dailyUsageAt L M program source k = none := by
  unfold dailyUsageAt
  split
  · split
    · simp [hk]
    · rfl
  · rfl

theorem countryCountAt_of_ne {k : Pubkey} {country : ℕ}
    (hk : k ≠ ModCountryCap.countAddress M country program) :
    countryCountAt L M program country k = none := by
  unfold countryCountAt
  split
  · split
    · simp [hk]
    · rfl
  · rfl

/-- What the wallet has sent in the open window, as its usage record at the
module says. -/
def storedVolume (L : Ledger) (M wallet : Pubkey) : ℕ :=
  readDailyUsage L [ModDailyLimit.usageAddress M wallet (L.accounts M).owner] M (L.accounts M).owner
    wallet

/-- The count of the country, as its record at the module says. -/
def storedCount (L : Ledger) (M : Pubkey) (country : ℕ) : ℕ :=
  readCountryCount L [ModCountryCap.countAddress M country (L.accounts M).owner] M
    (L.accounts M).owner country

/-- The usage record of a wallet at a daily limit. -/
def usageRecord (L : Ledger) (M wallet : Pubkey) : Option DailyWalletUsage :=
  (L.view DailyWalletUsage (ModDailyLimit.usageAddress M wallet (.program .modDailyLimit))).filter
    fun u ↦ u.module = M ∧ u.wallet = wallet

/-- The count record of a country at a country cap. -/
def countRecord (L : Ledger) (M : Pubkey) (country : ℕ) : Option CountryInvestorCount :=
  (L.view CountryInvestorCount
    (ModCountryCap.countAddress M country (.program .modCountryCap))).filter
      fun c ↦ c.module = M ∧ c.country = country

theorem storedVolume_eq {m : DailyTransferLimitModule} {wallet : Pubkey}
    (hM : L.accounts M = account m) :
    storedVolume L M wallet = (usageRecord L M wallet).elim 0 fun u ↦
      if ModDailyLimit.daySeconds ≤ saturatingSubI64 L.now u.windowStartedAt then 0
      else u.volume := by
  have howner : (L.accounts M).owner = .program .modDailyLimit := by
    rw [hM]
    rfl
  have hfound : dailyUsageAt L M (.program .modDailyLimit) wallet
      (ModDailyLimit.usageAddress M wallet (.program .modDailyLimit)) =
        usageRecord L M wallet := by
    unfold dailyUsageAt usageRecord Ledger.view
    simp only [kind, AccountKind.program]
    by_cases hkey : (L.accounts
        (ModDailyLimit.usageAddress M wallet (.program .modDailyLimit))).owner =
          .program .modDailyLimit
    · simp only [hkey, if_true]
      cases decode (α := DailyWalletUsage) (L.accounts
          (ModDailyLimit.usageAddress M wallet (.program .modDailyLimit))).data with
      | none => rfl
      | some u => simp [Option.filter]
    · simp [hkey]
  unfold storedVolume readDailyUsage
  rw [howner]
  simp only [List.findSome?_cons, List.findSome?_nil, hfound]
  cases usageRecord L M wallet <;> rfl

theorem countryCountAt_countAddress {country : ℕ} :
    countryCountAt L M (.program .modCountryCap) country
      (ModCountryCap.countAddress M country (.program .modCountryCap)) =
        countRecord L M country := by
  unfold countryCountAt countRecord Ledger.view
  simp only [kind, AccountKind.program]
  by_cases hkey : (L.accounts
      (ModCountryCap.countAddress M country (.program .modCountryCap))).owner =
        .program .modCountryCap
  · simp only [hkey, if_true]
    cases decode (α := CountryInvestorCount) (L.accounts
        (ModCountryCap.countAddress M country (.program .modCountryCap))).data with
    | none => rfl
    | some c => simp [Option.filter]
  · simp [hkey]

theorem storedCount_eq {m : InvestorCountryCapModule} {country : ℕ}
    (hM : L.accounts M = account m) :
    storedCount L M country = (countRecord L M country).elim 0 CountryInvestorCount.count := by
  have howner : (L.accounts M).owner = .program .modCountryCap := by
    rw [hM]
    rfl
  unfold storedCount readCountryCount
  rw [howner]
  simp only [List.findSome?_cons, List.findSome?_nil, countryCountAt_countAddress]
  cases countRecord L M country <;> rfl

/-- The part of the stored volume that a list of accounts shows. -/
def shownVolume (L : Ledger) (remaining : List Pubkey) (M wallet : Pubkey) : ℕ :=
  if ModDailyLimit.usageAddress M wallet (L.accounts M).owner ∈ remaining then
    storedVolume L M wallet else 0

/-- The part of the stored count that a list of accounts shows. -/
def shownCount (L : Ledger) (remaining : List Pubkey) (M : Pubkey) (country : ℕ) : ℕ :=
  if ModCountryCap.countAddress M country (L.accounts M).owner ∈ remaining then
    storedCount L M country else 0

theorem readDailyUsage_eq_shown :
    readDailyUsage L remaining M (L.accounts M).owner source =
      shownVolume L remaining M source := by
  have hnone : ∀ k, k ≠ ModDailyLimit.usageAddress M source (L.accounts M).owner →
      dailyUsageAt L M (L.accounts M).owner source k = none := fun _ ↦ dailyUsageAt_of_ne
  have hsearch := fun l ↦ Fold.findSome?_single (l := l) hnone
  unfold shownVolume storedVolume readDailyUsage
  rw [hsearch, hsearch]
  by_cases hmem : ModDailyLimit.usageAddress M source (L.accounts M).owner ∈ remaining <;>
    simp [hmem]

theorem readCountryCount_eq_shown {country : ℕ} :
    readCountryCount L remaining M (L.accounts M).owner country =
      shownCount L remaining M country := by
  have hnone : ∀ k, k ≠ ModCountryCap.countAddress M country (L.accounts M).owner →
      countryCountAt L M (L.accounts M).owner country k = none := fun _ ↦ countryCountAt_of_ne
  have hsearch := fun l ↦ Fold.findSome?_single (l := l) hnone
  unfold shownCount storedCount readCountryCount
  rw [hsearch, hsearch]
  by_cases hmem : ModCountryCap.countAddress M country (L.accounts M).owner ∈ remaining <;>
    simp [hmem]

/-! ## The check of one module -/

/-- The module refuses, whatever usage and count records are listed. -/
def ModuleRefuses (L : Ledger) (remaining : List Pubkey) (source : Pubkey)
    (amount toBalance fromCountry toCountry : ℕ) (M : Pubkey) : Prop :=
  M ∉ remaining ∨
    match (L.accounts M).data with
    | .maxInvestorsModule module =>
        toBalance = 0 ∧ 0 < amount ∧ module.maxInvestors ≤ module.holderCount
    | .countryRestrictModule module =>
        ¬ ((source = .default ∨ fromCountry ∈ module.allowedCountries) ∧
          toCountry ∈ module.allowedCountries)
    | .maxBalanceModule module => module.maxBalance < saturatingAdd toBalance amount
    | .maxTransferModule module => module.maxAmount < amount
    | .lockupModule module => L.now < module.lockupEnd
    | .dailyTransferLimitModule _ | .supplyCapModule _ | .investorCountryCapModule _ => False
    | _ => True

/-- The daily limit or the country cap of the module is exceeded by what is
stored. -/
def LimitExceeded (L : Ledger) (source : Pubkey) (amount toBalance toCountry : ℕ) (M : Pubkey) :
    Prop :=
  match (L.accounts M).data with
  | .dailyTransferLimitModule module =>
      source ≠ .default ∧ module.dailyLimit < storedVolume L M source + amount
  | .investorCountryCapModule module =>
      toBalance = 0 ∧ 0 < amount ∧ ∃ cap, module.capOf toCountry = some cap ∧
        cap ≤ storedCount L M toCountry
  | _ => False

/-- The daily limit or the country cap of the module is exceeded by what the list
shows of the stored records. -/
def LimitShown (L : Ledger) (remaining : List Pubkey) (source : Pubkey)
    (amount toBalance toCountry : ℕ) (M : Pubkey) : Prop :=
  match (L.accounts M).data with
  | .dailyTransferLimitModule module =>
      source ≠ .default ∧
        module.dailyLimit < saturatingAdd (shownVolume L remaining M source) amount
  | .investorCountryCapModule module =>
      toBalance = 0 ∧ 0 < amount ∧ ∃ cap, module.capOf toCountry = some cap ∧
        cap ≤ shownCount L remaining M toCountry
  | _ => False

theorem moduleComplies_eq_ok :
    moduleComplies L remaining source amount toBalance fromCountry toCountry M = .ok () ↔
      ¬ ModuleRefuses L remaining source amount toBalance fromCountry toCountry M ∧
        ¬ LimitShown L remaining source amount toBalance toCountry M := by
  unfold moduleComplies ModuleRefuses LimitShown
  rw [readDailyUsage_eq_shown, readCountryCount_eq_shown]
  simp only [bind_eq_ok, require_eq_ok, exists_const, not_or, not_not, and_assoc]
  refine and_congr_right fun _ ↦ ?_
  generalize (L.accounts M).data = data
  cases data with
  | dailyTransferLimitModule module => by_cases hmint : source = .default <;> simp [hmint]
  | investorCountryCapModule module =>
      by_cases henters : toBalance = 0 ∧ 0 < amount
      · cases hcap : module.capOf toCountry <;> simp [henters, hcap]
      · simp only [henters, if_false]
        tauto
  | _ => simp

/-! ## The whole check -/

section Evaluation

variable [Borsh] {tokenState : TokenState} {C : Pubkey} {state : ComplianceState}

/-- The evaluation fails before any module is asked. -/
def ReferencesRefused (tokenState : TokenState) (C : Pubkey) (state : ComplianceState)
    (amount toBalance : ℕ) : Prop :=
  tokenState.compliance ≠ C ∨ u64Max - amount < toBalance ∨ state.tokenMint ≠ tokenState.tokenMint

theorem evaluateCompliance_eq_ok (hstate : deserializeLocal ComplianceState L C = .ok state)
    (hactive : state.modulesPaused = false) :
    evaluateCompliance L tokenState C remaining source amount toBalance fromCountry toCountry =
        .ok () ↔
      ¬ ReferencesRefused tokenState C state amount toBalance ∧
        (∀ M ∈ state.modules,
          ¬ ModuleRefuses L remaining source amount toBalance fromCountry toCountry M) ∧
        ∀ M ∈ state.modules, ¬ LimitShown L remaining source amount toBalance toCountry M := by
  simp only [evaluateCompliance, ReferencesRefused, bind_eq_ok, require_eq_ok, exists_const,
    hstate, Except.ok.injEq, exists_eq_left', hactive, Bool.false_eq_true, if_false, not_or,
    not_lt, not_not, and_assoc]
  rw [Fold.foldlM_checks_eq_ok]
  simp only [moduleComplies_eq_ok, forall_and]

/-- An evaluation that a stored volume or count should stop is refused exactly when
the list shows enough of it or another check fails. -/
theorem limits_enforced_iff (hstate : deserializeLocal ComplianceState L C = .ok state)
    (hactive : state.modulesPaused = false) :
    ((∃ M ∈ state.modules, LimitExceeded L source amount toBalance toCountry M) →
        evaluateCompliance L tokenState C remaining source amount toBalance fromCountry toCountry ≠
          .ok ()) ↔
      (∀ M ∈ state.modules, ¬ LimitExceeded L source amount toBalance toCountry M) ∨
        (∃ M ∈ state.modules, LimitShown L remaining source amount toBalance toCountry M) ∨
          ReferencesRefused tokenState C state amount toBalance ∨
            ∃ M ∈ state.modules,
              ModuleRefuses L remaining source amount toBalance fromCountry toCountry M := by
  rw [Ne, evaluateCompliance_eq_ok hstate hactive]
  constructor
  · intro hrefused
    by_contra hall
    push Not at hall
    obtain ⟨hexceeded, hshown, hreferences, hmodules⟩ := hall
    exact hrefused hexceeded ⟨hreferences, hmodules, hshown⟩
  · rintro hcondition ⟨M₀, hM₀, hexceeded⟩ ⟨hkeys, hmodules, hlimits⟩
    rcases hcondition with hwithin | ⟨M, hM, hshown⟩ | hreferences | ⟨M, hM, hrefuses⟩
    · exact hwithin M₀ hM₀ hexceeded
    · exact hlimits M hM hshown
    · exact hkeys hreferences
    · exact hmodules M hM hrefuses

end Evaluation

/-! ## A usage record left out -/

/-- A token with a daily limit. -/
def limitedDeployment : Deployment where
  tokenMint := .address 0
  issuer := .address 1
  paused := false
  modules := [HookedModule.moduleAddress DailyTransferLimitModule (.address 0)]
  modulesPaused := false
  metas := TokenHook.baseMetas
  wallets := []
  holdings := []

def limitModule : Pubkey := HookedModule.moduleAddress DailyTransferLimitModule (.address 0)

def limitRecord : DailyTransferLimitModule where
  owner := limitedDeployment.issuer
  tokenMint := limitedDeployment.tokenMint
  hookAuthority := limitedDeployment.compliance
  dailyLimit := 100

def busySender : Pubkey := .address 11

def busyUsage : Pubkey :=
  ModDailyLimit.usageAddress limitModule busySender (.program .modDailyLimit)

/-- The sender has sent 90 of its 100 tokens since a hundred seconds. -/
def busyUsageRecord : DailyWalletUsage where
  module := limitModule
  wallet := busySender
  windowStartedAt := 900
  volume := 90

def limitedLedger : Ledger :=
  limitedDeployment.ledger
    [(limitModule, account limitRecord), (busyUsage, account busyUsageRecord)]

theorem limitedLedger_state : @deserializeLocal ComplianceState _ strictBorsh limitedLedger
    limitedDeployment.compliance = .ok limitedDeployment.complianceRecord := rfl

theorem limitedLedger_exceeded : ∃ M ∈ limitedDeployment.complianceRecord.modules,
    LimitExceeded limitedLedger busySender 20 0 276 M := by
  refine ⟨limitModule, .head _, ?_⟩
  have hstored : storedVolume limitedLedger limitModule busySender = 90 := rfl
  have hmodule : (limitedLedger.accounts limitModule).data =
    .dailyTransferLimitModule limitRecord := rfl
  unfold LimitExceeded
  rw [hmodule, hstored]
  exact ⟨by decide, by decide⟩

/-- Without the usage record in the list the transfer of 20 more tokens complies. -/
theorem limit_missed_without_usage : ¬ ∀ (L : Ledger) (tokenState : TokenState) (C : Pubkey)
    (state : ComplianceState) (remaining : List Pubkey) (source : Pubkey)
    (amount toBalance fromCountry toCountry : ℕ),
    @deserializeLocal ComplianceState _ strictBorsh L C = .ok state → state.modulesPaused = false →
      (∃ M ∈ state.modules, LimitExceeded L source amount toBalance toCountry M) →
        @evaluateCompliance strictBorsh L tokenState C remaining source amount toBalance fromCountry
          toCountry ≠ .ok () :=
  fun hall ↦ hall limitedLedger limitedDeployment.tokenStateRecord _ _ [limitModule] busySender 20 0
    276 276 limitedLedger_state rfl limitedLedger_exceeded rfl

/-- With the usage record in the list it is refused. -/
theorem limit_met_with_usage : @evaluateCompliance strictBorsh limitedLedger
    limitedDeployment.tokenStateRecord limitedDeployment.compliance [limitModule, busyUsage]
    busySender 20 0 276 276 ≠ .ok () := by
  refine (@limits_enforced_iff _ _ _ _ _ _ _ strictBorsh limitedDeployment.tokenStateRecord _ _
    limitedLedger_state rfl).2 (.inr (.inl ⟨limitModule, .head _, ?_⟩)) limitedLedger_exceeded
  have hshown : shownVolume limitedLedger [limitModule, busyUsage] limitModule busySender = 90 :=
    rfl
  have hmodule : (limitedLedger.accounts limitModule).data =
    .dailyTransferLimitModule limitRecord := rfl
  unfold LimitShown
  rw [hmodule, hshown]
  exact ⟨by decide, by decide⟩

end Fracks.Token
