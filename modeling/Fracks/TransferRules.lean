import Fracks.Token.SupportAccounts

/-!
# Three copies of the transfer rule

Every module program has a `can_transfer` of its own; the router and the token
controller repeat its rule.  The copies agree on a transfer for which the
accounts of the modules and of their records are listed.
-/

namespace Fracks

open Checked AccountType Ledger Compliance

/-- The `can_transfer` instruction of the program that holds the module, called
with the canonical record of the sender or of the receiver's country. -/
def moduleCanTransfer (L : Ledger) (source : Pubkey)
    (amount toBalance fromCountry toCountry : ℕ) (M : Pubkey) : Result Bool :=
  match (L.accounts M).owner with
  | .program .modMaxInvestors => ModMaxInvestors.canTransfer L M amount toBalance
  | .program .modCountryRestrict => ModCountryRestrict.canTransfer L M fromCountry toCountry
  | .program .modMaxBalance => ModMaxBalance.canTransfer L M amount toBalance
  | .program .modMaxTransfer => ModMaxTransfer.canTransfer L M amount
  | .program .modLockup => ModLockup.canTransfer L M
  | .program .modDailyLimit =>
      ModDailyLimit.canTransfer L M
        (ModDailyLimit.usageAddress M source (.program .modDailyLimit)) amount
  | .program .modSupplyCap => ModSupplyCap.canTransfer L M
  | .program .modCountryCap =>
      ModCountryCap.canTransfer L M
        (ModCountryCap.countAddress M toCountry (.program .modCountryCap)) amount toBalance
        toCountry
  | _ => .error (.anchor .invalidProgramId)

/-- One of the eight module programs has set the module up for some mint. -/
inductive ModuleAccount (L : Ledger) (M : Pubkey) : Prop
  | maxInvestors (h : ModuleOfMint .modMaxInvestors MaxInvestorsModule.tokenMint L M)
  | country (h : ModuleOfMint .modCountry CountryRestrictModule.tokenMint L M)
  | maxBalance (h : ModuleOfMint .modMaxBalance MaxBalanceModule.tokenMint L M)
  | maxTransfer (h : ModuleOfMint .modMaxTransfer MaxTransferModule.tokenMint L M)
  | lockup (h : ModuleOfMint .modLockup LockupModule.tokenMint L M)
  | dailyLimit (h : ModuleOfMint .modDailyLimit DailyTransferLimitModule.tokenMint L M)
  | supplyCap (h : ModuleOfMint .modSupplyCap SupplyCapModule.tokenMint L M)
  | countryCap (h : ModuleOfMint .modCountryCap InvestorCountryCapModule.tokenMint L M)

/-- The record that the module needs for the transfer exists and is listed. -/
def SupportSupplied (L : Ledger) (remaining : List Pubkey) (source : Pubkey) (toCountry : ℕ)
    (M : Pubkey) : Prop :=
  match (L.accounts M).data with
  | .dailyTransferLimitModule _ =>
      (Token.usageRecord L M source).isSome ∧
        ModDailyLimit.usageAddress M source (.program .modDailyLimit) ∈ remaining
  | .investorCountryCapModule _ =>
      (Token.countRecord L M toCountry).isSome ∧
        ModCountryCap.countAddress M toCountry (.program .modCountryCap) ∈ remaining
  | _ => True

variable {L : Ledger} {remaining : List Pubkey} {source M C : Pubkey}
  {amount toBalance fromCountry toCountry : ℕ}

/-! ## The router and the controller -/

theorem allModulesAllow_eq_true {modules : List Pubkey} :
    allModulesAllow L remaining source amount toBalance fromCountry toCountry modules = .ok true ↔
      ∀ M ∈ modules,
        moduleAllows L remaining source amount toBalance fromCountry toCountry M = .ok true := by
  induction modules with
  | nil => simp [allModulesAllow]
  | cons M rest ih =>
      rw [List.forall_mem_cons, ← ih, allModulesAllow, bind_eq_ok]
      constructor
      · rintro ⟨allowed, hM, hrest⟩
        cases allowed with
        | true => exact ⟨hM, hrest⟩
        | false => simp at hrest
      · rintro ⟨hM, hrest⟩
        exact ⟨true, hM, hrest⟩

/-- The two callers ask the same of every module, except for a mint. -/
theorem moduleAllows_eq_true (hsource : source ≠ .default) :
    moduleAllows L remaining source amount toBalance fromCountry toCountry M = .ok true ↔
      Token.moduleComplies L remaining source amount toBalance fromCountry toCountry M =
        .ok () := by
  unfold moduleAllows Token.moduleComplies
  simp only [bind_eq_ok, require_eq_ok, exists_const]
  refine and_congr_right fun _ ↦ ?_
  generalize (L.accounts M).data = data
  cases data with
  | dailyTransferLimitModule module => simp [hsource]
  | countryRestrictModule module => simp [hsource]
  | investorCountryCapModule module =>
      by_cases henters : toBalance = 0 ∧ 0 < amount
      · cases hcap : module.capOf toCountry <;> simp [henters, hcap]
      · simp [henters]
  | maxInvestorsModule module =>
      simp only [Except.ok.injEq, decide_eq_true_eq, require_eq_ok]
  | _ => simp

/-! ## The modules themselves -/

/-- What is read from the listed accounts is what the usage record says. -/
theorem readDailyUsage_of_supplied {m : DailyTransferLimitModule} {u : DailyWalletUsage}
    (hM : L.accounts M = account m) (hu : Token.usageRecord L M source = some u)
    (hlisted : ModDailyLimit.usageAddress M source (.program .modDailyLimit) ∈ remaining) :
    readDailyUsage L remaining M (L.accounts M).owner source =
      if ModDailyLimit.daySeconds ≤ saturatingSubI64 L.now u.windowStartedAt then 0
      else u.volume := by
  have howner : (L.accounts M).owner = .program .modDailyLimit := by
    rw [hM]
    rfl
  rw [Token.readDailyUsage_eq_shown, Token.shownVolume, howner, if_pos hlisted,
    Token.storedVolume_eq hM, hu]
  rfl

/-- What is read from the listed accounts is what the count record says. -/
theorem readCountryCount_of_supplied {m : InvestorCountryCapModule} {c : CountryInvestorCount}
    (hM : L.accounts M = account m) (hc : Token.countRecord L M toCountry = some c)
    (hlisted : ModCountryCap.countAddress M toCountry (.program .modCountryCap) ∈ remaining) :
    readCountryCount L remaining M (L.accounts M).owner toCountry = c.count := by
  have howner : (L.accounts M).owner = .program .modCountryCap := by
    rw [hM]
    rfl
  rw [Token.readCountryCount_eq_shown, Token.shownCount, howner, if_pos hlisted,
    Token.storedCount_eq hM, hc]
  rfl

/-- The record of a module, as its program and its callers see it. -/
theorem moduleOfMint_read {α : Type} [AccountType α] {label : SeedLabel} {tokenMint : α → Pubkey}
    (h : ModuleOfMint label tokenMint L M) :
    ∃ m : α, L.accounts M = account m ∧ (L.accounts M).owner = .program (kind α).program ∧
      (L.accounts M).data = encode m ∧ readModule label tokenMint L M = .ok m := by
  obtain ⟨m, hm, hkey⟩ := h
  refine ⟨m, hm, ?_, ?_, readModule_eq_ok.2 ⟨hm, hkey⟩⟩
  · rw [hm]
    rfl
  · rw [hm]
    rfl

theorem dailyLimit_agrees (hsource : source ≠ .default)
    (hmodule : ModuleOfMint .modDailyLimit DailyTransferLimitModule.tokenMint L M)
    (hlisted : M ∈ remaining) (hsupport : SupportSupplied L remaining source toCountry M) :
    moduleAllows L remaining source amount toBalance fromCountry toCountry M =
      ModDailyLimit.canTransfer L M
        (ModDailyLimit.usageAddress M source (.program .modDailyLimit)) amount := by
  obtain ⟨m, hm, -, hencoded, hread⟩ := moduleOfMint_read hmodule
  have hdata : (L.accounts M).data = .dailyTransferLimitModule m := hencoded
  rw [SupportSupplied, hdata] at hsupport
  obtain ⟨hexists, hrecord⟩ := hsupport
  obtain ⟨u, hu⟩ := Option.isSome_iff_exists.1 hexists
  have hused := readDailyUsage_of_supplied hm hu hrecord
  obtain ⟨hview, hnamed⟩ := Option.filter_eq_some_iff.1 hu
  have hload : L.load DailyWalletUsage
      (ModDailyLimit.usageAddress M source (.program .modDailyLimit)) = .ok u :=
    load_eq_ok.2 (view_eq_some.1 hview)
  have hwallet : u.wallet ≠ .default := by
    simp only [decide_eq_true_eq] at hnamed
    rw [hnamed.2]
    exact hsource
  simp only [moduleAllows, require, hlisted, if_true, hdata, hused, ModDailyLimit.canTransfer,
    hread, hload, hwallet, false_or, ok_bind]

theorem countryCap_agrees
    (hmodule : ModuleOfMint .modCountryCap InvestorCountryCapModule.tokenMint L M)
    (hlisted : M ∈ remaining) (hsupport : SupportSupplied L remaining source toCountry M) :
    moduleAllows L remaining source amount toBalance fromCountry toCountry M =
      ModCountryCap.canTransfer L M
        (ModCountryCap.countAddress M toCountry (.program .modCountryCap)) amount toBalance
        toCountry := by
  obtain ⟨m, hm, -, hencoded, hread⟩ := moduleOfMint_read hmodule
  have hdata : (L.accounts M).data = .investorCountryCapModule m := hencoded
  rw [SupportSupplied, hdata] at hsupport
  obtain ⟨hexists, hrecord⟩ := hsupport
  obtain ⟨c, hc⟩ := Option.isSome_iff_exists.1 hexists
  have hcount := readCountryCount_of_supplied hm hc hrecord
  obtain ⟨hview, -⟩ := Option.filter_eq_some_iff.1 hc
  have hload : L.load CountryInvestorCount
      (ModCountryCap.countAddress M toCountry (.program .modCountryCap)) = .ok c :=
    load_eq_ok.2 (view_eq_some.1 hview)
  simp only [moduleAllows, require, hlisted, if_true, hdata, hcount, ModCountryCap.canTransfer,
    hread, hload, ok_bind]
  by_cases henters : toBalance = 0 ∧ 0 < amount
  · have hstays : ¬ (amount = 0 ∨ 0 < toBalance) := by omega
    exact (if_pos henters).trans (if_neg hstays).symm
  · have hstays : amount = 0 ∨ 0 < toBalance := by omega
    rw [if_neg henters, if_pos hstays]

/-- The router says of a listed module what the module says. -/
theorem moduleAllows_eq_moduleCanTransfer (hsource : source ≠ .default)
    (hmodule : ModuleAccount L M) (hlisted : M ∈ remaining)
    (hsupport : SupportSupplied L remaining source toCountry M) :
    moduleAllows L remaining source amount toBalance fromCountry toCountry M =
      moduleCanTransfer L source amount toBalance fromCountry toCountry M := by
  cases hmodule with
  | maxInvestors h =>
      obtain ⟨m, -, howner, hencoded, hread⟩ := moduleOfMint_read h
      have hdata : (L.accounts M).data = .maxInvestorsModule m := hencoded
      rw [moduleCanTransfer, howner]
      simp only [moduleAllows, require, hlisted, if_true, ok_bind, hdata, kind,
        AccountKind.program, ModMaxInvestors.canTransfer, hread]
      by_cases henters : toBalance = 0 ∧ 0 < amount
      · simp [henters]
      · have hroom : ¬ (toBalance = 0 ∧ 0 < amount ∧ m.maxInvestors ≤ m.holderCount) :=
          fun h ↦ henters ⟨h.1, h.2.1⟩
        rw [if_neg henters]
        simp only [hroom, not_false_eq_true, decide_true]
  | country h =>
      obtain ⟨m, -, howner, hencoded, hread⟩ := moduleOfMint_read h
      have hdata : (L.accounts M).data = .countryRestrictModule m := hencoded
      rw [moduleCanTransfer, howner]
      simp only [moduleAllows, require, hlisted, if_true, ok_bind, hdata, kind,
        AccountKind.program, ModCountryRestrict.canTransfer, hread]
  | maxBalance h =>
      obtain ⟨m, -, howner, hencoded, hread⟩ := moduleOfMint_read h
      have hdata : (L.accounts M).data = .maxBalanceModule m := hencoded
      rw [moduleCanTransfer, howner]
      simp only [moduleAllows, require, hlisted, if_true, ok_bind, hdata, kind,
        AccountKind.program, ModMaxBalance.canTransfer, hread]
  | maxTransfer h =>
      obtain ⟨m, -, howner, hencoded, hread⟩ := moduleOfMint_read h
      have hdata : (L.accounts M).data = .maxTransferModule m := hencoded
      rw [moduleCanTransfer, howner]
      simp only [moduleAllows, require, hlisted, if_true, ok_bind, hdata, kind,
        AccountKind.program, ModMaxTransfer.canTransfer, hread]
  | lockup h =>
      obtain ⟨m, -, howner, hencoded, hread⟩ := moduleOfMint_read h
      have hdata : (L.accounts M).data = .lockupModule m := hencoded
      rw [moduleCanTransfer, howner]
      simp only [moduleAllows, require, hlisted, if_true, ok_bind, hdata, kind,
        AccountKind.program, ModLockup.canTransfer, hread]
  | supplyCap h =>
      obtain ⟨m, -, howner, hencoded, hread⟩ := moduleOfMint_read h
      have hdata : (L.accounts M).data = .supplyCapModule m := hencoded
      rw [moduleCanTransfer, howner]
      simp only [moduleAllows, require, hlisted, if_true, ok_bind, hdata, kind,
        AccountKind.program, ModSupplyCap.canTransfer, hread]
  | dailyLimit h =>
      obtain ⟨-, -, howner, -, -⟩ := moduleOfMint_read h
      rw [moduleCanTransfer, howner]
      exact dailyLimit_agrees hsource h hlisted hsupport
  | countryCap h =>
      obtain ⟨-, -, howner, -, -⟩ := moduleOfMint_read h
      rw [moduleCanTransfer, howner]
      exact countryCap_agrees h hlisted hsupport

/-! ## The three copies -/

variable {tokenState : TokenState} {state : ComplianceState}

theorem canTransfer_eq_true (hC : L.accounts C = account state)
    (hkey : C = complianceAddress state.tokenMint) (hactive : state.modulesPaused = false) :
    canTransfer L C remaining source amount toBalance fromCountry toCountry = .ok true ↔
      ∀ M ∈ state.modules,
        moduleAllows L remaining source amount toBalance fromCountry toCountry M = .ok true := by
  have hread : readCompliance L C = .ok state := by
    simp only [readCompliance, bind_eq_ok, load_eq_ok, requireSeeds_eq_ok, exists_const]
    exact ⟨state, hC, hkey, rfl⟩
  rw [canTransfer, hread, ok_bind, hactive, ← allModulesAllow_eq_true]
  rfl

section Agreement

variable [Borsh]

theorem evaluateCompliance_iff_modules (hC : L.accounts C = account state)
    (hactive : state.modulesPaused = false) (hlinked : tokenState.compliance = C)
    (hmint : state.tokenMint = tokenState.tokenMint) (hfits : toBalance + amount ≤ u64Max) :
    Token.evaluateCompliance L tokenState C remaining source amount toBalance fromCountry
        toCountry = .ok () ↔
      ∀ M ∈ state.modules,
        Token.moduleComplies L remaining source amount toBalance fromCountry toCountry M =
          .ok () := by
  have hloaded : Token.deserializeLocal ComplianceState L C = .ok state := by
    simp [Token.deserializeLocal, hC, Borsh.decodeView_encode]
  have hroom : toBalance ≤ u64Max - amount := by omega
  rw [← Fold.foldlM_checks_eq_ok]
  simp only [Token.evaluateCompliance, hlinked, hroom, hloaded, hmint, hactive, require, if_true,
    ok_bind, Bool.false_eq_true, if_false]

/-- For a transfer of a token whose modules are not paused, with the accounts of
the modules and of their records listed, the router, the controller and the
modules themselves decide alike. -/
theorem transfer_rules_agree (hC : L.accounts C = account state)
    (hkey : C = complianceAddress state.tokenMint) (hlinked : tokenState.compliance = C)
    (hmint : state.tokenMint = tokenState.tokenMint) (hactive : state.modulesPaused = false)
    (hsource : source ≠ .default) (hfits : toBalance + amount ≤ u64Max)
    (hmodules : ∀ M ∈ state.modules, ModuleAccount L M)
    (hlisted : ∀ M ∈ state.modules, M ∈ remaining)
    (hsupport : ∀ M ∈ state.modules, SupportSupplied L remaining source toCountry M) :
    (canTransfer L C remaining source amount toBalance fromCountry toCountry = .ok true ↔
      Token.evaluateCompliance L tokenState C remaining source amount toBalance fromCountry
        toCountry = .ok ()) ∧
    (canTransfer L C remaining source amount toBalance fromCountry toCountry = .ok true ↔
      ∀ M ∈ state.modules,
        moduleCanTransfer L source amount toBalance fromCountry toCountry M = .ok true) := by
  rw [canTransfer_eq_true hC hkey hactive,
    evaluateCompliance_iff_modules hC hactive hlinked hmint hfits]
  constructor
  · simp only [moduleAllows_eq_true hsource]
  · refine forall₂_congr fun M hM ↦ ?_
    have hsame : moduleAllows L remaining source amount toBalance fromCountry toCountry M =
        moduleCanTransfer L source amount toBalance fromCountry toCountry M :=
      moduleAllows_eq_moduleCanTransfer hsource (hmodules M hM) (hlisted M hM) (hsupport M hM)
    rw [hsame]

end Agreement

/-- A sender below its daily limit: the router agrees, so the controller and the
module do. -/
theorem limit_rules_agree :
    @Token.evaluateCompliance strictBorsh Token.limitedLedger
        Token.limitedDeployment.tokenStateRecord Token.limitedDeployment.compliance
        [Token.limitModule, Token.busyUsage] Token.busySender 10 0 276 276 = .ok () ∧
      ∀ M ∈ Token.limitedDeployment.complianceRecord.modules,
        moduleCanTransfer Token.limitedLedger Token.busySender 10 0 276 276 M = .ok true := by
  have hmodules : ∀ M ∈ Token.limitedDeployment.complianceRecord.modules, M = Token.limitModule :=
    fun M hM ↦ List.mem_singleton.1 hM
  have hsupport : SupportSupplied Token.limitedLedger [Token.limitModule, Token.busyUsage]
      Token.busySender 276 Token.limitModule := ⟨rfl, .tail _ (.head _)⟩
  have hagree := @transfer_rules_agree Token.limitedLedger [Token.limitModule, Token.busyUsage]
    Token.busySender Token.limitedDeployment.compliance 10 0 276 276
    Token.limitedDeployment.tokenStateRecord Token.limitedDeployment.complianceRecord strictBorsh
    rfl rfl rfl rfl rfl (by decide) (by decide)
    (fun M hM ↦ hmodules M hM ▸ .dailyLimit ⟨Token.limitRecord, rfl, rfl⟩)
    (fun M hM ↦ hmodules M hM ▸ .head _)
    (fun M hM ↦ (hmodules M hM).symm ▸ hsupport)
  exact ⟨hagree.1.1 rfl, hagree.2.1 rfl⟩

end Fracks
