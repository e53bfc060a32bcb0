import Fracks.Backend.Parameters
import Fracks.Deployment
import Fracks.MintAdmission

/-!
# The preflight and the chain

The check of a purchase request stands for the check that the token program makes when the
tokens are minted.  It looks at the rules that the indexer has found a parameter for, and
only at those.
-/

namespace Fracks.Backend

open Checked Json AccountType HookedModule Indexer Layouts

/-! ## What the ledger has -/

theorem rule_of_moduleAccount {L : Ledger} {M : Pubkey} (h : ModuleAccount L M) :
    ∃ rule, Rule.of? (L.accounts M).data = some rule ∧
      (L.accounts M).owner = .program rule.program := by
  cases h with
  | maxInvestors h =>
      obtain ⟨m, hm, -⟩ := h
      exact ⟨.maxInvestors, by rw [hm]; rfl, by rw [hm]; rfl⟩
  | country h =>
      obtain ⟨m, hm, -⟩ := h
      exact ⟨.countryRestrict, by rw [hm]; rfl, by rw [hm]; rfl⟩
  | maxBalance h =>
      obtain ⟨m, hm, -⟩ := h
      exact ⟨.maxBalance, by rw [hm]; rfl, by rw [hm]; rfl⟩
  | maxTransfer h =>
      obtain ⟨m, hm, -⟩ := h
      exact ⟨.maxTransfer, by rw [hm]; rfl, by rw [hm]; rfl⟩
  | lockup h =>
      obtain ⟨m, hm, -⟩ := h
      exact ⟨.lockup, by rw [hm]; rfl, by rw [hm]; rfl⟩
  | dailyLimit h =>
      obtain ⟨m, hm, -⟩ := h
      exact ⟨.dailyLimit, by rw [hm]; rfl, by rw [hm]; rfl⟩
  | supplyCap h =>
      obtain ⟨m, hm, -⟩ := h
      exact ⟨.supplyCap, by rw [hm]; rfl, by rw [hm]; rfl⟩
  | countryCap h =>
      obtain ⟨m, hm, -⟩ := h
      exact ⟨.countryCap, by rw [hm]; rfl, by rw [hm]; rfl⟩

/-- The index and the endpoint of the backend show the ledger as it is, and no other request
is open. -/
structure Mirrored (config : Config) (chain : Chain) (addr : Pubkey → Key) (L : Ledger)
    (token : TokenState) (state : ComplianceState) (balance : ℕ) (reads : Reads) : Prop where
  distinct : Function.Injective config.moduleIds.of
  programs : ∀ rule : Rule,
    config.moduleIds.of rule = toBase58 (addr (.program rule.program)).toList
  compliance : state.modules.length < 2 ^ 32 ∧ ∃ owner bytes,
    chain.getAccountInfo (addr token.compliance).toList = some ⟨owner, bytes⟩ ∧
      Image addr [state.owner, state.tokenMint]
        (Bytes.toLE 4 state.modules.length ++ state.modules.flatMap fun M ↦ (addr M).toList) bytes
  modules : ∀ M ∈ state.modules, (L.accounts M).data.isModule → ∃ bytes,
    chain.getAccountInfo (addr M).toList = some ⟨(addr (L.accounts M).owner).toList, bytes⟩ ∧
      Serialized addr (L.accounts M).data bytes
  decimals : reads.record.get "decimals" = some (.ofNat token.decimals)
  params : reads.record.get "complianceModuleParams" =
    some ((readMetadata config chain (addr token.tokenMint).toList (addr token.compliance).toList
      (some token.decimals)).part .complianceModuleParams)
  indexedBalance : reads.balance = some (toString balance) ∨ reads.balance = none ∧ balance = 0
  liveBalance : ∀ amount, reads.liveBalance = .ok amount → amount = balance
  liveState : ∀ shown, reads.liveState = .ok shown → ∃ m,
    L.view MaxInvestorsModule (moduleAddress MaxInvestorsModule token.tokenMint) = some m ∧
      shown = ⟨m.maxInvestors, m.holderCount⟩
  clock : reads.nowSeconds = L.now
  noRequests : reads.activeRequests = []

section Preflight

variable {config : Config} {chain : Chain} {addr : Pubkey → Key} {L : Ledger} {token : TokenState}
  {state : ComplianceState} {data : ComplianceData} {reads : Reads} {M : Pubkey}
  {amount : Decimal.Number} {balance country : ℕ} {currentSupply : ℤ}

/-! ## What the index has of it -/

theorem getParamValue_eq {sets : List (Record Value)} {key : String} {value : Value}
    (hfound : ∃ params ∈ sets, params.get key = some value)
    (honly : ∀ params ∈ sets, ∀ other, params.get key = some other → other = value) :
    getParamValue sets key = some value := by
  obtain ⟨params, hparams, hvalue⟩ := hfound
  rw [getParamValue]
  cases hfind : sets.findSome? fun params ↦ params.get key with
  | none =>
      rw [List.findSome?_eq_none_iff] at hfind
      have hmissing := hfind params hparams
      rw [hvalue] at hmissing
      cases hmissing
  | some other =>
      obtain ⟨set, hset, hother⟩ := List.exists_of_findSome?_eq_some hfind
      rw [honly set hset other hother]

/-- The parameters are taken out of the records of the modules. -/
theorem mem_getComplianceParamSets_iff {metadata : Record Value} {params : Record ModuleParams}
    {set : Record Value}
    (h : metadata.get "complianceModuleParams" =
      some (.object (params.map fun entry ↦ (entry.1, .texts entry.2)))) :
    set ∈ getComplianceParamSets metadata ↔ ∃ entry ∈ params, entry.2 ≠ [] ∧
      set = entry.2.map fun parameter ↦ (parameter.1, .string parameter.2) := by
  rw [getComplianceParamSets, h]
  constructor
  · intro hset
    simp only [asRecord, Option.bind_some, Value.record?_object, Option.getD_some, List.map_map,
      List.mem_filter, List.mem_map, decide_eq_true_eq] at hset
    obtain ⟨⟨entry, hentry, rfl⟩, hlength⟩ := hset
    refine ⟨entry, hentry, ?_, rfl⟩
    rintro hnil
    simp [Value.texts, hnil] at hlength
  · rintro ⟨entry, hentry, hne, rfl⟩
    simp only [asRecord, Option.bind_some, Value.record?_object, Option.getD_some, List.map_map,
      List.mem_filter, List.mem_map, decide_eq_true_eq]
    refine ⟨⟨entry, hentry, rfl⟩, ?_⟩
    rw [List.length_map]
    exact List.length_pos_iff.2 hne

section Index

variable (hmirrored : Mirrored config chain addr L token state balance reads)
include hmirrored

theorem Mirrored.moduleStates : ((chain.getAccountInfo (addr token.compliance).toList).map
    parseComplianceState).getD [] = state.modules.map fun M ↦ (addr M).toList := by
  obtain ⟨hlength, owner, bytes, hanswer, himage⟩ := hmirrored.compliance
  obtain ⟨before, rest, hbefore, rfl⟩ := himage.parts
  rw [hanswer, Option.map_some, Option.getD_some, parseComplianceState]
  exact readVector_append (f := fun M ↦ (addr M).toList) hbefore hlength
    (fun M _ ↦ Vector.length_toList) fun M _ before after ↦ readPubkey_append (addr M)

theorem Mirrored.answered (hmodules : ∀ M ∈ state.modules, ModuleAccount L M) :
    ∀ M ∈ state.modules, ∃ rule, ModuleAnswered config chain addr L M rule := by
  intro M hM
  obtain ⟨rule, hrule, howner⟩ := rule_of_moduleAccount (hmodules M hM)
  have hmodule : (L.accounts M).data.isModule := by
    generalize (L.accounts M).data = data at hrule
    cases data <;> first | rfl | cases hrule
  have hprogram := hmirrored.programs rule
  rw [← howner] at hprogram
  exact ⟨rule, hrule, hprogram.symm, hmirrored.modules M hM hmodule⟩

/-- What was indexed for a module is found under the key of its rule. -/
theorem Mirrored.param (hmodules : ∀ M ∈ state.modules, ModuleAccount L M) (rule : Rule)
    {text : String} (hM : M ∈ state.modules) (honly : OnlyOfItsRule L state.modules M)
    (hrule : Rule.of? (L.accounts M).data = some rule)
    (htext : indexedText token.decimals (L.accounts M).data = some text) :
    reads.param rule.key = some (.string text) := by
  have hanswered := hmirrored.answered hmodules
  have hparams := hmirrored.params
  rw [Metadata.part, readMetadata, readComplianceMetadata, hmirrored.moduleStates, List.foldl_map,
    Option.getD_some] at hparams
  have hentry := mem_of_recorded hmirrored.distinct hanswered hM honly
    ⟨rule, text, hrule, htext, rfl⟩
  refine getParamValue_eq ?_ ?_
  · refine ⟨_, (mem_getComplianceParamSets_iff hparams).2 ⟨_, hentry, by simp, rfl⟩, ?_⟩
    simp [Record.get_cons]
  · intro params hset other hother
    obtain ⟨entry, hmem, -, rfl⟩ := (mem_getComplianceParamSets_iff hparams).1 hset
    obtain ⟨M', hM', rule', text', hrule', htext', rfl⟩ :=
      recorded_of_mem hmirrored.distinct hanswered hmem
    have hvalue : other = .string text' ∧ rule.key = rule'.key := by
      simp only [List.map_cons, List.map_nil, Record.get_cons] at hother
      split at hother
      · rename_i hkey
        exact ⟨(Option.some.inj hother).symm, hkey⟩
      · cases hother
    obtain ⟨rfl, hkey⟩ := hvalue
    obtain rfl := Rule.key_injective hkey
    obtain rfl := honly M' hM' (hrule'.trans hrule.symm)
    rw [htext] at htext'
    rw [Option.some.inj htext']

theorem Mirrored.currentBalance_eq : reads.currentBalance = balance := by
  have hindexed : reads.indexedBalance = balance := by
    rw [Reads.indexedBalance]
    rcases hmirrored.indexedBalance with htext | ⟨hnone, rfl⟩
    · have hne : toString balance ≠ "" := by
        intro hempty
        have hparse := Decimal.parse_toString balance
        rw [hempty] at hparse
        cases hparse
      have hshown : orNull (some (toString balance)) = some (toString balance) :=
        Option.filter_eq_some_iff.2 ⟨rfl, decide_eq_true hne⟩
      rw [htext, hshown, Option.bind_some, Decimal.ofInteger?_toString]
      rfl
    · rw [hnone]
      rfl
  rw [Reads.currentBalance]
  split
  · cases hlive : reads.liveBalance with
    | error message => exact hindexed
    | ok shown => rw [hmirrored.liveBalance shown hlive]
  · exact hindexed

theorem Mirrored.decimals_eq (h : token.decimals ≤ 18) : reads.decimals = token.decimals := by
  have hfinite : finite (some (.ofNat token.decimals)) = some (token.decimals : ℚ) := by
    simp [finite, Value.ofNat, Value.finite, Decimal.Number.rat]
  rw [Reads.decimals, decimalsFromMetadata, hmirrored.decimals, hfinite]
  simp [h]

end Index

/-! ## What a preflight without objections says -/

theorem ok_iff : (calculateCompliance data reads currentSupply).ok = true ↔
    blockingReasons data reads currentSupply = [] ∧
      amountError data reads currentSupply = none := by
  simp [calculateCompliance]

/-- Nothing was found against the request. -/
structure Passed (data : ComplianceData) (reads : Reads) (currentSupply : ℤ) : Prop where
  country : countryRefusal data reads = none
  live : liveRefusal reads = none
  lockup : lockupRefusal reads = none
  investorCap : investorCapReached data reads = none
  countryCap : countryCapReached data reads = none
  positive : positiveError data reads = none
  maxAmount : maxAmountError data reads = none
  maxBalance : maxBalanceError data reads = none
  supply : supplyError data reads currentSupply = none

theorem passed_of_ok (h : (calculateCompliance data reads currentSupply).ok = true) :
    Passed data reads currentSupply := by
  obtain ⟨hreasons, herror⟩ := ok_iff.1 h
  simp only [blockingReasons, List.append_eq_nil_iff, Option.toList_eq_nil_iff,
    Option.map_eq_none_iff] at hreasons
  obtain ⟨⟨⟨⟨⟨⟨-, hcountry⟩, hlive⟩, hlockup⟩, hinvestors⟩, hcap⟩, -⟩ := hreasons
  simp only [amountError, Option.or_eq_none_iff] at herror
  obtain ⟨hsupply, hbalance, hamount, hpositive⟩ := herror
  exact ⟨hcountry, hlive, hlockup, hinvestors, hcap, hpositive, hamount, hbalance, hsupply⟩

/-! ## Rules that the preflight speaks for -/

/-- The amounts are compared in the units of the token: its decimals are among those that the
backend takes from the metadata, and the requested amount has a text without an exponent. -/
def SameUnits (token : TokenState) (amount : Decimal.Number) : Prop :=
  token.decimals ≤ 18 ∧ amount.IsPlain

/-- The other wallets with a request from the country. -/
def otherWallets (data : ComplianceData) (reads : Reads) : List String :=
  (reads.countryWallets.map String.toLower).dedup.erase data.investorWallet.toLower

/-- The module is the only one of its rule, its limit is one that the indexer and the check do
not take for no limit, and where it counts, its counter is not ahead of the backend's number. -/
def Covered (L : Ledger) (token : TokenState) (state : ComplianceState) (data : ComplianceData)
    (reads : Reads) (amount : Decimal.Number) (country : ℕ) (currentSupply : ℤ) (M : Pubkey) :
    Prop :=
  OnlyOfItsRule L state.modules M ∧
  match (L.accounts M).data with
  | .maxInvestorsModule m => m.tokenMint = token.tokenMint ∧ 0 < m.maxInvestors
  | .countryRestrictModule m => m.allowedCountries ≠ []
  | .maxBalanceModule _ => SameUnits token amount
  | .maxTransferModule _ => SameUnits token amount
  | .lockupModule _ => True
  | .dailyTransferLimitModule _ => True
  | .supplyCapModule m => SameUnits token amount ∧ m.totalSupply ≤ currentSupply
  | .investorCountryCapModule _ =>
      Token.storedCount L M country ≤ (otherWallets data reads).length
  | _ => False

theorem isModule_of_covered (h : Covered L token state data reads amount country currentSupply M) :
    (L.accounts M).data.isModule := by
  obtain ⟨-, h⟩ := h
  generalize (L.accounts M).data = data at h ⊢
  cases data <;> first | rfl | cases h

theorem length_reservedWallets (data : ComplianceData) (reads : Reads) :
    (reservedWallets data reads).length = (otherWallets data reads).length + 1 := by
  rw [reservedWallets, otherWallets]
  by_cases hmem : data.investorWallet.toLower ∈ reads.countryWallets.map String.toLower
  · have hdedup := List.mem_dedup.2 hmem
    have hpos := List.length_pos_of_mem hdedup
    rw [List.dedup_cons_of_mem hmem, List.length_erase_of_mem hdedup]
    omega
  · have hdedup : data.investorWallet.toLower ∉ (reads.countryWallets.map String.toLower).dedup :=
      fun h ↦ hmem (List.mem_dedup.1 h)
    rw [List.dedup_cons_of_notMem hmem, List.erase_of_not_mem hdedup, List.length_cons]

section Rules

variable (hmirrored : Mirrored config chain addr L token state balance reads)
  (hmodules : ∀ M ∈ state.modules, ModuleAccount L M) (hM : M ∈ state.modules)
  (honly : OnlyOfItsRule L state.modules M) (hpassed : Passed data reads currentSupply)
include hmirrored

theorem Mirrored.amountParam_eq {key : String} {limit : ℕ} (hdecimals : token.decimals ≤ 18)
    (hparam : reads.param key = some (.string (formatBaseUnits limit token.decimals))) :
    reads.amountParam key = some limit := by
  rw [Reads.amountParam, hparam, hmirrored.decimals_eq hdecimals, decimalToBaseUnits_format]

theorem Mirrored.amountBaseUnits_eq (hunits : SameUnits token amount)
    (hamount : data.amount = some (.number false amount)) :
    amountBaseUnits data reads = some (amount.units token.decimals) := by
  rw [amountBaseUnits, hamount, if_neg (by exact Bool.false_ne_true),
    hmirrored.decimals_eq hunits.1, decimalToBaseUnits_number hunits.2]

include hmodules hM honly hpassed

theorem country_allowed {m : CountryRestrictModule}
    (hm : (L.accounts M).data = .countryRestrictModule m)
    (hcountry : investorCountry data = some (country : ℚ)) (hne : m.allowedCountries ≠ []) :
    country ∈ m.allowedCountries := by
  have hserialized := hmirrored.modules M hM (by rw [hm]; rfl)
  obtain ⟨bytes, -, hbytes⟩ := hserialized
  rw [hm] at hbytes
  have htext : indexedText token.decimals (L.accounts M).data =
      some (join (m.allowedCountries.map toString)) := by
    rw [hm, indexedText, if_pos (List.length_pos_iff.2 hne)]
  have hparam := hmirrored.param hmodules .countryRestrict hM honly (by rw [hm]; rfl) htext
  have hallowed : allowedCountries reads =
      m.allowedCountries.map (fun country : ℕ ↦ (country : ℤ)) := by
    rw [allowedCountries]
    exact (congrArg (fun value ↦ (value.map parseCountryList).getD []) hparam).trans
      (parseCountryList_join hne hbytes.2.1)
  have hpass := hpassed.country
  have hnonempty : (m.allowedCountries.map (fun country : ℕ ↦ (country : ℤ))).length > 0 := by
    rw [List.length_map]
    exact List.length_pos_iff.2 hne
  rw [countryRefusal, hallowed, if_pos hnonempty, hcountry] at hpass
  simp only [trunc_natCast, ite_eq_left_iff, reduceCtorEq, imp_false, not_not] at hpass
  obtain ⟨allowed, hallowed, hsame⟩ := List.mem_map.1 hpass
  exact Int.ofNat_inj.1 hsame ▸ hallowed

theorem amount_within {m : MaxTransferModule} (hm : (L.accounts M).data = .maxTransferModule m)
    (hamount : data.amount = some (.number false amount)) (hunits : SameUnits token amount) :
    amount.units token.decimals ≤ m.maxAmount := by
  have hparam := hmirrored.param hmodules .maxTransfer hM honly (by rw [hm]; rfl) (by rw [hm]; rfl)
  have hlimit : reads.amountParam "max_amount" = some m.maxAmount :=
    hmirrored.amountParam_eq hunits.1 hparam
  have hpass := hpassed.maxAmount
  rw [maxAmountError, hlimit] at hpass
  exact le_of_above_eq_none data reads hpass (hmirrored.amountBaseUnits_eq hunits hamount)

theorem balance_within {m : MaxBalanceModule} (hm : (L.accounts M).data = .maxBalanceModule m)
    (hamount : data.amount = some (.number false amount)) (hunits : SameUnits token amount) :
    balance + amount.units token.decimals ≤ m.maxBalance := by
  have hparam := hmirrored.param hmodules .maxBalance hM honly (by rw [hm]; rfl) (by rw [hm]; rfl)
  have hlimit : reads.amountParam "max_balance" = some m.maxBalance :=
    hmirrored.amountParam_eq hunits.1 hparam
  have hbase := hmirrored.amountBaseUnits_eq hunits hamount
  have hremaining : maxBalanceRemaining reads = some ((m.maxBalance : ℤ) - balance).toNat := by
    rw [maxBalanceRemaining, hlimit, hmirrored.currentBalance_eq]
    rfl
  have hpass := hpassed.maxBalance
  rw [maxBalanceError, hremaining] at hpass
  have hle := le_of_above_eq_none data reads hpass hbase
  have hpositive : amount.units token.decimals ≠ 0 := by
    intro hzero
    have hnone := hpassed.positive
    rw [positiveError, hbase, hzero, if_pos rfl] at hnone
    cases hnone
  omega

theorem supply_within {m : SupplyCapModule} (hm : (L.accounts M).data = .supplyCapModule m)
    (hamount : data.amount = some (.number false amount)) (hunits : SameUnits token amount)
    (hsupply : m.totalSupply ≤ currentSupply) :
    m.totalSupply + amount.units token.decimals ≤ m.maxSupply := by
  have hparam := hmirrored.param hmodules .supplyCap hM honly (by rw [hm]; rfl) (by rw [hm]; rfl)
  have hlimit : reads.amountParam "max_supply" = some m.maxSupply :=
    hmirrored.amountParam_eq hunits.1 hparam
  have hbase := hmirrored.amountBaseUnits_eq hunits hamount
  have hreserved : reads.reservedSupply = 0 := by
    rw [Reads.reservedSupply, hmirrored.noRequests]
    rfl
  have hremaining : supplyRemaining reads currentSupply =
      some ((m.maxSupply : ℤ) - currentSupply - (0 : ℕ)).toNat := by
    rw [supplyRemaining, hlimit, hreserved]
    rfl
  have hpass := hpassed.supply
  rw [supplyError, hremaining] at hpass
  have hle := le_of_above_eq_none data reads hpass hbase
  have hpositive : amount.units token.decimals ≠ 0 := by
    intro hzero
    have hnone := hpassed.positive
    rw [positiveError, hbase, hzero, if_pos rfl] at hnone
    cases hnone
  omega

theorem lockup_over {m : LockupModule} (hm : (L.accounts M).data = .lockupModule m) :
    m.lockupEnd ≤ L.now := by
  have hserialized := hmirrored.modules M hM (by rw [hm]; rfl)
  obtain ⟨bytes, -, hbytes⟩ := hserialized
  rw [hm] at hbytes
  obtain ⟨hlow, hhigh, -⟩ := hbytes
  have hparam : reads.param "lockup_end" = some (.string (toString m.lockupEnd)) :=
    hmirrored.param hmodules .lockup hM honly (by rw [hm]; rfl) (by rw [hm]; rfl)
  have hread : finite (reads.param "lockup_end") = some (m.lockupEnd : ℚ) := by
    rw [hparam, finite_toString_int hlow hhigh]
  have hpass := hpassed.lockup
  rw [lockupRefusal, hread, hmirrored.clock, Option.bind_some] at hpass
  by_contra hlate
  have hlocked : (L.now : ℚ) < m.lockupEnd := by exact_mod_cast not_le.1 hlate
  rw [if_pos hlocked] at hpass
  cases hpass

theorem investors_below {m : MaxInvestorsModule}
    (hm : (L.accounts M).data = .maxInvestorsModule m) (hmint : m.tokenMint = token.tokenMint)
    (hpositive : 0 < m.maxInvestors) (hnew : balance = 0) : m.holderCount < m.maxInvestors := by
  have hserialized := hmirrored.modules M hM (by rw [hm]; rfl)
  obtain ⟨bytes, -, hbytes⟩ := hserialized
  rw [hm] at hbytes
  have hparam : reads.param "max_investors" = some (.string (toString m.maxInvestors)) :=
    hmirrored.param hmodules .maxInvestors hM honly (by rw [hm]; rfl) (by rw [hm]; rfl)
  have hread : finite (reads.param "max_investors") = some (m.maxInvestors : ℚ) := by
    rw [hparam, finite_toString hbytes.1]
  have hchecks : reads.checksInvestors = true := by
    rw [Reads.checksInvestors, hread]
    simpa using hpositive
  have hview : L.view MaxInvestorsModule (moduleAddress MaxInvestorsModule token.tokenMint) =
      some m := by
    cases hmodules M hM with
    | maxInvestors h =>
        obtain ⟨m', hm', hkey⟩ := h
        rw [hm'] at hm
        obtain rfl : m' = m := AccountData.maxInvestorsModule.inj hm
        have haddress : M = moduleAddress MaxInvestorsModule m'.tokenMint := hkey
        rw [← hmint, ← haddress]
        exact Ledger.view_eq_some.2 hm'
    | country h | maxBalance h | maxTransfer h | lockup h | dailyLimit h | supplyCap h
    | countryCap h =>
        obtain ⟨m', hm', -⟩ := h
        rw [hm'] at hm
        cases hm
  have hlive := hpassed.live
  have hcap := hpassed.investorCap
  rw [liveRefusal] at hlive
  rw [investorCapReached, hmirrored.currentBalance_eq] at hcap
  rw [Reads.liveInvestors, hchecks, if_pos rfl] at hlive hcap
  cases hbalance : reads.liveBalance with
  | error message =>
      rw [hbalance] at hlive
      cases hlive
  | ok shown =>
      cases hstate : reads.liveState with
      | error message =>
          rw [hbalance, hstate] at hlive
          cases hlive
      | ok shownState =>
          rw [hbalance, hstate] at hcap
          obtain ⟨m', hm', rfl⟩ := hmirrored.liveState shownState hstate
          obtain rfl : m = m' := Option.some.inj (hview.symm.trans hm')
          by_contra hfull
          have hcapped : ((balance : ℤ) = 0 ∧ m.holderCount +
              (activeNewInvestors data reads).length ≥ m.maxInvestors) := ⟨by omega, by omega⟩
          exact absurd ((if_pos hcapped).symm.trans hcap) (by simp)

theorem country_cap_left {m : InvestorCountryCapModule}
    (hm : (L.accounts M).data = .investorCountryCapModule m)
    (hcountry : investorCountry data = some (country : ℚ))
    (hcount : Token.storedCount L M country ≤ (otherWallets data reads).length)
    (hnew : balance = 0) {cap : ℕ} (hcap : m.capOf country = some cap) :
    Token.storedCount L M country < cap := by
  have hserialized := hmirrored.modules M hM (by rw [hm]; rfl)
  obtain ⟨bytes, -, hbytes⟩ := hserialized
  rw [hm] at hbytes
  obtain ⟨entry, hfind, rfl⟩ := Option.map_eq_some_iff.1 hcap
  have hne : m.countryCaps ≠ [] := by
    intro hnil
    rw [hnil] at hfind
    cases hfind
  have htext : indexedText token.decimals (L.accounts M).data =
      some (join (m.countryCaps.map countryCapText)) := by
    rw [hm, indexedText, if_pos (List.length_pos_iff.2 hne)]
  have hparam := hmirrored.param hmodules .countryCap hM honly (by rw [hm]; rfl) htext
  have hcaps : parseCountryCaps (reads.param "country_caps") =
      m.countryCaps.map fun entry ↦ ⟨entry.country, entry.cap⟩ :=
    (congrArg parseCountryCaps hparam).trans (parseCountryCaps_join hne hbytes.2.1)
  have hlisted : countryCapFor data reads = some ⟨entry.country, entry.cap⟩ := by
    have hzero : (balance : ℤ) = 0 := by omega
    rw [countryCapFor, hmirrored.currentBalance_eq, if_pos hzero, hcountry, Option.bind_some, hcaps,
      trunc_natCast, List.find?_map, Option.map_eq_some_iff]
    refine ⟨entry, ?_, rfl⟩
    simpa [Function.comp_def] using hfind
  have hpass := hpassed.countryCap
  rw [countryCapReached, hlisted, Option.bind_some, length_reservedWallets] at hpass
  by_contra hfull
  have hover : (((otherWallets data reads).length + 1 : ℕ) : ℤ) > entry.cap := by omega
  rw [if_pos hover] at hpass
  cases hpass

theorem rule_of_covered (hcountry : investorCountry data = some (country : ℚ))
    (hamount : data.amount = some (.number false amount))
    (hcovered : Covered L token state data reads amount country currentSupply M) :
    MintRule L (amount.units token.decimals) balance country M := by
  have hmodule := isModule_of_covered hcovered
  obtain ⟨-, hcovered⟩ := hcovered
  rw [MintRule]
  cases hdata : (L.accounts M).data <;> rw [hdata] at hcovered hmodule
  case maxInvestorsModule m =>
    intro hnew _
    exact investors_below hmirrored hmodules hM honly hpassed hdata hcovered.1 hcovered.2 hnew
  case countryRestrictModule m =>
    exact country_allowed hmirrored hmodules hM honly hpassed hdata hcountry hcovered
  case maxBalanceModule m =>
    exact balance_within hmirrored hmodules hM honly hpassed hdata hamount hcovered
  case maxTransferModule m =>
    exact amount_within hmirrored hmodules hM honly hpassed hdata hamount hcovered
  case lockupModule m => exact lockup_over hmirrored hmodules hM honly hpassed hdata
  case dailyTransferLimitModule m => trivial
  case supplyCapModule m =>
    exact supply_within hmirrored hmodules hM honly hpassed hdata hamount hcovered.1 hcovered.2
  case investorCountryCapModule m =>
    intro hnew _ cap hcap
    exact country_cap_left hmirrored hmodules hM honly hpassed hdata hcountry hcovered hnew hcap
  all_goals cases hmodule

end Rules

end Preflight

/-! ## A token restricted to some countries -/

namespace Restricted

def module : Pubkey :=
  .findProgramAddress .modCountry [.key (.address 0)] (.program .modCountryRestrict)

def deployment : Deployment where
  tokenMint := .address 0
  issuer := .address 1
  paused := false
  modules := [module]
  modulesPaused := false
  metas := TokenHook.baseMetas
  wallets := []
  holdings := []

def restriction (countries : List ℕ) : CountryRestrictModule where
  owner := deployment.issuer
  tokenMint := deployment.tokenMint
  allowedCountries := countries

def ledger (countries : List ℕ) : Ledger :=
  deployment.ledger [(module, account (restriction countries))]

theorem ledger_module (countries : List ℕ) :
    (ledger countries).accounts module = account (restriction countries) := rfl

/-- A key of its own for each program and for the accounts of the token. -/
def addr (k : Pubkey) : Key :=
  Decoders.key (
    if k = deployment.tokenMint then 1
    else if k = deployment.issuer then 2
    else if k = deployment.compliance then 3
    else if k = module then 4
    else if k = .program .modCountryRestrict then 5
    else if k = .program .modCountryCap then 6
    else if k = .program .modMaxBalance then 7
    else if k = .program .modMaxTransfer then 8
    else if k = .program .modLockup then 9
    else if k = .program .modMaxInvestors then 10
    else if k = .program .modDailyLimit then 11
    else if k = .program .modSupplyCap then 12
    else 13)

def programText (name : ProgramName) : String := toBase58 (addr (.program name)).toList

def config : Config where
  moduleIds := {
    maxInvestors := programText .modMaxInvestors
    countryRestrict := programText .modCountryRestrict
    maxBalance := programText .modMaxBalance
    maxTransfer := programText .modMaxTransfer
    lockup := programText .modLockup
    dailyLimit := programText .modDailyLimit
    supplyCap := programText .modSupplyCap
    countryCap := programText .modCountryCap }
  tirProgram := (Decoders.key 14).toList
  ctrState := fun mint ↦ mint.map (· + 100)
  tirState := fun mint ↦ mint.map (· + 200)

def image (keys : List Pubkey) (body : List UInt8) : List UInt8 :=
  List.replicate 8 0 ++ (keys.flatMap fun k ↦ (addr k).toList) ++ (body ++ [])

theorem image_image (keys : List Pubkey) (body : List UInt8) :
    Image addr keys body (image keys body) := ⟨List.replicate 8 0, [], rfl, rfl⟩

def complianceBytes : List UInt8 :=
  image [deployment.issuer, deployment.tokenMint]
    (Bytes.toLE 4 1 ++ [module].flatMap fun M ↦ (addr M).toList)

def moduleBytes (countries : List ℕ) : List UInt8 :=
  image [deployment.issuer, deployment.tokenMint]
    (Bytes.toLE 4 countries.length ++ countries.flatMap (Bytes.toLE 2))

def answer (countries : List ℕ) (key : List UInt8) : Option Indexer.Account :=
  if key = (addr deployment.compliance).toList then
    some ⟨(addr (.program .fracksCompliance)).toList, complianceBytes⟩
  else if key = (addr module).toList then
    some ⟨(addr (.program .modCountryRestrict)).toList, moduleBytes countries⟩
  else none

theorem answer_compliance (countries : List ℕ) :
    answer countries (addr deployment.compliance).toList =
      some ⟨(addr (.program .fracksCompliance)).toList, complianceBytes⟩ := by
  rw [answer, if_pos rfl]

theorem answer_module (countries : List ℕ) : answer countries (addr module).toList =
    some ⟨(addr (.program .modCountryRestrict)).toList, moduleBytes countries⟩ := by
  have hother : (addr module).toList ≠ (addr deployment.compliance).toList := by decide +kernel
  rw [answer, if_neg hother, if_pos rfl]

def chain (countries : List ℕ) : Chain where
  getAccountInfo := answer countries
  getProgramAccounts := fun _ ↦ []

def metadata (countries : List ℕ) : Metadata :=
  readMetadata config (chain countries) (addr deployment.tokenMint).toList
    (addr deployment.compliance).toList (some 0)

def reads (countries : List ℕ) : Reads where
  metadata := some (metadata countries).toJson
  liveState := .error "Max Investors module account is missing."
  now := 1000000

def data : ComplianceData where
  tokenContract := toBase58 (addr deployment.tokenMint).toList
  investorWallet := toBase58 (addr (.address 2)).toList
  country := some (.string "276")
  amount := some (.number false ⟨60, 0⟩)

theorem distinct : Function.Injective config.moduleIds.of := by
  have hnodup : (Rule.all.map config.moduleIds.of).Nodup := by
    decide +kernel
  intro rule rule' hsame
  exact List.inj_on_of_nodup_map hnodup (Rule.mem_all rule) (Rule.mem_all rule') hsame

theorem mirrored {countries : List ℕ} (hlength : countries.length < 2 ^ 32)
    (hfits : ∀ country ∈ countries, country < 2 ^ 16) :
    Mirrored config (chain countries) addr (ledger countries) deployment.tokenStateRecord
      deployment.complianceRecord 0 (reads countries) where
  distinct := distinct
  programs := by
    intro rule
    cases rule <;> rfl
  compliance := by
    exact ⟨by decide, _, complianceBytes, answer_compliance countries, image_image _ _⟩
  modules := by
    intro M hM _
    obtain rfl : M = module := List.mem_singleton.1 hM
    exact ⟨moduleBytes countries, answer_module countries, hlength, hfits, image_image _ _⟩
  decimals := rfl
  params := rfl
  indexedBalance := .inr ⟨rfl, rfl⟩
  liveBalance := fun _ h ↦ (Except.ok.inj h).symm
  liveState := by
    intro shown h
    cases h
  clock := rfl
  noRequests := rfl

theorem configured (countries : List ℕ) :
    Configured (ledger countries) deployment.tokenStateRecord deployment.complianceRecord :=
  ⟨rfl, rfl, rfl, by decide⟩

theorem moduleAccount (countries : List ℕ) : ∀ M ∈ deployment.complianceRecord.modules,
    ((ledger countries).accounts M).data.isModule → ModuleAccount (ledger countries) M := by
  intro M hM _
  obtain rfl : M = module := List.mem_singleton.1 hM
  exact .country ⟨restriction countries, rfl, rfl⟩

/-- The accounts that a mint is given. -/
def remaining : List Pubkey := [module, .program .modCountryRestrict]

theorem supplied (countries : List ℕ) : ∀ M ∈ deployment.complianceRecord.modules,
    ModuleSupplied (ledger countries) remaining 276 M := by
  intro M hM
  obtain rfl : M = module := List.mem_singleton.1 hM
  refine ⟨List.mem_cons_self, fun _ ↦ .tail _ (.head _), fun howner ↦ ?_⟩
  have hother : Pubkey.program .modCountryRestrict = .program .modCountryCap := howner
  cases hother

theorem investorCountry_data : investorCountry data = some ((276 : ℕ) : ℚ) := by
  decide +kernel

/-- Sixty tokens, which have no decimals. -/
def requested : Decimal.Number := ⟨60, 0⟩

theorem preflight_ok (countries : List ℕ) (h : countries = [] ∨ countries = [276]) :
    (calculateCompliance data (reads countries) 0).ok = true := by
  rcases h with rfl | rfl <;> decide +kernel

end Restricted

end Fracks.Backend
