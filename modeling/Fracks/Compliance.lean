import Fracks.Modules.SupplyCap
import Fracks.Modules.MaxInvestors
import Fracks.Modules.CountryCap
import Fracks.Modules.DailyLimit
import Fracks.Modules.Restrictions

/-!
# The compliance router

`fracks_compliance` keeps the list of modules bound to a token and forwards the
post-hooks `created`, `destroyed` and `transferred` to them.  The accounts of
the modules, of their programs and of their records arrive as a list of
remaining accounts; the router signs the calls with its own address.
-/

namespace Fracks.Compliance

open Checked AccountType Ledger

def maxModules : ℕ := 15

def complianceSpace : ℕ := 8 + 32 + 32 + 4 + (32 * maxModules) + 1 + 1

def complianceAddress (tokenMint : Pubkey) : Pubkey :=
  .findProgramAddress .complianceState [.key tokenMint] (.program .fracksCompliance)

/-! ## Administration -/

def initializeCompliance (L : Ledger) (signers : List Pubkey)
    (owner complianceState tokenMint : Pubkey) : Result Ledger := do
  requireSigner signers owner
  L.initRecord owner complianceState (complianceAddress tokenMint) complianceSpace
    { owner, tokenMint, modules := [], modulesPaused := false : ComplianceState }

/-- The `UpdateComplianceOwner` accounts. -/
def updateComplianceOwner (L : Ledger) (signers : List Pubkey) (owner complianceState : Pubkey)
    (f : ComplianceState → Result ComplianceState) : Result Ledger := do
  requireSigner signers owner
  L.modify complianceState fun state ↦ do
    requireSeeds complianceState (complianceAddress state.tokenMint)
    require (state.owner = owner) (.compliance .notOwner)
    f state

def bindModule (L : Ledger) (signers : List Pubkey)
    (owner complianceState modulePubkey : Pubkey) : Result Ledger :=
  updateComplianceOwner L signers owner complianceState fun state ↦ do
    require (state.modules.length < maxModules) (.compliance .maxModulesReached)
    require (modulePubkey ∉ state.modules) (.compliance .moduleAlreadyBound)
    .ok { state with modules := state.modules ++ [modulePubkey] }

def unbindModule (L : Ledger) (signers : List Pubkey)
    (owner complianceState modulePubkey : Pubkey) : Result Ledger :=
  updateComplianceOwner L signers owner complianceState fun state ↦ do
    require (modulePubkey ∈ state.modules) (.compliance .moduleNotBound)
    .ok { state with modules := state.modules.erase modulePubkey }

def setModulesPaused (L : Ledger) (signers : List Pubkey) (owner complianceState : Pubkey)
    (paused : Bool) : Result Ledger :=
  updateComplianceOwner L signers owner complianceState fun state ↦
    .ok { state with modulesPaused := paused }

def transferOwnership (L : Ledger) (signers : List Pubkey)
    (owner complianceState newOwner : Pubkey) : Result Ledger :=
  updateComplianceOwner L signers owner complianceState fun state ↦ do
    require (newOwner ≠ .default) (.compliance .invalidOwner)
    .ok { state with owner := newOwner }

/-! ## Support accounts of the modules -/

/-- The usage record at `k`, when `k` is the usage account of the wallet for a
module of `program`. -/
def dailyUsageAt (L : Ledger) (module program wallet k : Pubkey) : Option DailyWalletUsage :=
  if (L.accounts k).owner = program then
    match decode (α := DailyWalletUsage) (L.accounts k).data with
    | some usage =>
        if k = ModDailyLimit.usageAddress module wallet program ∧ usage.module = module ∧
            usage.wallet = wallet then some usage else none
    | none => none
  else none

/-- The count record at `k`, when `k` is the count account of the country for a
module of `program`. -/
def countryCountAt (L : Ledger) (module program : Pubkey) (country : ℕ) (k : Pubkey) :
    Option CountryInvestorCount :=
  if (L.accounts k).owner = program then
    match decode (α := CountryInvestorCount) (L.accounts k).data with
    | some count =>
        if k = ModCountryCap.countAddress module country program ∧ count.module = module ∧
            count.country = country then some count else none
    | none => none
  else none

/-- What the wallet has sent in its open window; nothing when its usage account
is not among the accounts. -/
def readDailyUsage (L : Ledger) (accounts : List Pubkey) (module program wallet : Pubkey) : ℕ :=
  match accounts.findSome? (dailyUsageAt L module program wallet) with
  | some usage =>
      if ModDailyLimit.daySeconds ≤ saturatingSubI64 L.now usage.windowStartedAt then 0
      else usage.volume
  | none => 0

/-- The count of the country; zero when its account is not among the accounts. -/
def readCountryCount (L : Ledger) (accounts : List Pubkey) (module program : Pubkey)
    (country : ℕ) : ℕ :=
  match accounts.findSome? (countryCountAt L module program country) with
  | some count => count.count
  | none => 0

def findDailyUsageAccount (L : Ledger) (accounts : List Pubkey)
    (module program wallet : Pubkey) : Result Pubkey :=
  okOr (accounts.find? fun k ↦ (dailyUsageAt L module program wallet k).isSome)
    (.compliance .missingModuleSupportAccount)

def findCountryCountAccount (L : Ledger) (accounts : List Pubkey) (module program : Pubkey)
    (country : ℕ) : Result Pubkey :=
  okOr (accounts.find? fun k ↦ (countryCountAt L module program country k).isSome)
    (.compliance .missingModuleSupportAccount)

/-! ## The check before a transfer -/

/-- What one bound module says to a transfer. -/
def moduleAllows (L : Ledger) (remaining : List Pubkey) (source : Pubkey)
    (amount toBalance fromCountry toCountry : ℕ) (moduleKey : Pubkey) : Result Bool := do
  require (moduleKey ∈ remaining) (.compliance .missingModuleAccount)
  match (L.accounts moduleKey).data with
  | .maxInvestorsModule module =>
      .ok (¬ (toBalance = 0 ∧ 0 < amount ∧ module.maxInvestors ≤ module.holderCount))
  | .countryRestrictModule module =>
      .ok (fromCountry ∈ module.allowedCountries ∧ toCountry ∈ module.allowedCountries)
  | .maxBalanceModule module => .ok (saturatingAdd toBalance amount ≤ module.maxBalance)
  | .maxTransferModule module => .ok (amount ≤ module.maxAmount)
  | .lockupModule module => .ok (module.lockupEnd ≤ L.now)
  | .dailyTransferLimitModule module =>
      let used := readDailyUsage L remaining moduleKey (L.accounts moduleKey).owner source
      .ok (saturatingAdd used amount ≤ module.dailyLimit)
  | .supplyCapModule _ => .ok true
  | .investorCountryCapModule module =>
      if toBalance = 0 ∧ 0 < amount then
        match module.capOf toCountry with
        | some cap =>
            .ok (readCountryCount L remaining moduleKey (L.accounts moduleKey).owner toCountry
              < cap)
        | none => .ok true
      else .ok true
  | _ => .error (.compliance .invalidModuleAccount)

/-- The first module that refuses decides. -/
def allModulesAllow (L : Ledger) (remaining : List Pubkey) (source : Pubkey)
    (amount toBalance fromCountry toCountry : ℕ) : List Pubkey → Result Bool
  | [] => .ok true
  | moduleKey :: rest => do
      let allowed ← moduleAllows L remaining source amount toBalance fromCountry toCountry moduleKey
      if allowed then
        allModulesAllow L remaining source amount toBalance fromCountry toCountry rest
      else .ok false

/-- The `ReadCompliance` accounts: only the seeds are checked, nobody signs. -/
def readCompliance (L : Ledger) (complianceState : Pubkey) : Result ComplianceState := do
  let state ← L.load ComplianceState complianceState
  requireSeeds complianceState (complianceAddress state.tokenMint)
  .ok state

def canTransfer (L : Ledger) (complianceState : Pubkey) (remaining : List Pubkey)
    (source : Pubkey) (amount toBalance fromCountry toCountry : ℕ) : Result Bool := do
  let state ← readCompliance L complianceState
  if state.modulesPaused then .ok true
  else allModulesAllow L remaining source amount toBalance fromCountry toCountry state.modules

/-! ## Post-hooks -/

def ensureHookAuthority (complianceState hookAuthority : Pubkey) : Result Unit :=
  require (complianceState = hookAuthority) (.compliance .moduleHookAuthorityMismatch)

/-- The call of a module program.  A program outside this repository that owns
an account with a module's discriminator is called too; it holds no account of
this model and changes none. -/
def invokeModule (name : ProgramName) (program : Pubkey) (L : Ledger) (call : Result Ledger) :
    Result Ledger :=
  if program = .program name then call else .ok L

/-- The part of every forwarded call that precedes it: the hook authority of
the module must be this compliance state and its program must be at hand. -/
def prepareCall (complianceState hookAuthority program : Pubkey) (remaining : List Pubkey) :
    Result Unit := do
  ensureHookAuthority complianceState hookAuthority
  require (program ∈ remaining) (.compliance .missingModuleProgramAccount)

variable {L L' : Ledger} {C M : Pubkey} {remaining : List Pubkey}

theorem invokeModule_self (name : ProgramName) (L : Ledger) (call : Result Ledger) :
    invokeModule name (.program name) L call = call := if_pos rfl

@[simp] theorem prepareCall_eq_ok {hookAuthority program : Pubkey} {u : Unit} :
    prepareCall C hookAuthority program remaining = .ok u ↔
      C = hookAuthority ∧ program ∈ remaining := by
  simp [prepareCall, ensureHookAuthority]

def moduleTransferred (complianceState : Pubkey) (remaining : List Pubkey) (source : Pubkey)
    (amount fromBalanceAfter toBalanceAfter fromCountry toCountry : ℕ)
    (L : Ledger) (moduleKey : Pubkey) : Result Ledger := do
  require (moduleKey ∈ remaining) (.compliance .missingModuleAccount)
  let program := (L.accounts moduleKey).owner
  match (L.accounts moduleKey).data with
  | .maxInvestorsModule module => do
      prepareCall complianceState module.hookAuthority program remaining
      invokeModule .modMaxInvestors program L
        (ModMaxInvestors.transferred L [complianceState] complianceState moduleKey amount
          fromBalanceAfter toBalanceAfter)
  | .dailyTransferLimitModule module => do
      prepareCall complianceState module.hookAuthority program remaining
      let usage ← findDailyUsageAccount L remaining moduleKey program source
      invokeModule .modDailyLimit program L
        (ModDailyLimit.transferred L [complianceState] complianceState moduleKey usage source
          amount)
  | .investorCountryCapModule module => do
      prepareCall complianceState module.hookAuthority program remaining
      let fromCount ← findCountryCountAccount L remaining moduleKey program fromCountry
      let toCount ← findCountryCountAccount L remaining moduleKey program toCountry
      invokeModule .modCountryCap program L
        (ModCountryCap.transferred L [complianceState] complianceState moduleKey fromCount toCount
          amount fromBalanceAfter toBalanceAfter fromCountry toCountry)
  | _ => .ok L

theorem moduleTransferred_maxInvestors
    {source : Pubkey} {amount fromAfter toAfter fromCountry toCountry : ℕ}
    {m : MaxInvestorsModule} (hM : L.accounts M = account m) :
    moduleTransferred C remaining source amount fromAfter toAfter fromCountry toCountry L M =
        .ok L' ↔
      M ∈ remaining ∧ (C = m.hookAuthority ∧ .program .modMaxInvestors ∈ remaining) ∧
        ModMaxInvestors.transferred L [C] C M amount fromAfter toAfter = .ok L' := by
  simp [moduleTransferred, hM, account, encode, kind, AccountKind.program, invokeModule_self]

/-- The pause flag is not consulted here. -/
def transferred (L : Ledger) (complianceState : Pubkey) (remaining : List Pubkey)
    (source : Pubkey) (amount fromBalanceAfter toBalanceAfter fromCountry toCountry : ℕ) :
    Result Ledger := do
  let state ← readCompliance L complianceState
  state.modules.foldlM (moduleTransferred complianceState remaining source amount
    fromBalanceAfter toBalanceAfter fromCountry toCountry) L

def moduleCreated (complianceState : Pubkey) (remaining : List Pubkey)
    (amount toBalanceAfter toCountry : ℕ) (L : Ledger) (moduleKey : Pubkey) :
    Result Ledger := do
  require (moduleKey ∈ remaining) (.compliance .missingModuleAccount)
  let program := (L.accounts moduleKey).owner
  match (L.accounts moduleKey).data with
  | .countryRestrictModule module => do
      require (toCountry ∈ module.allowedCountries) (.compliance .complianceCheckFailed)
      .ok L
  | .maxBalanceModule module => do
      require (toBalanceAfter ≤ module.maxBalance) (.compliance .complianceCheckFailed)
      .ok L
  | .maxTransferModule module => do
      require (amount ≤ module.maxAmount) (.compliance .complianceCheckFailed)
      .ok L
  | .lockupModule module => do
      require (module.lockupEnd ≤ L.now) (.compliance .complianceCheckFailed)
      .ok L
  | .maxInvestorsModule module => do
      prepareCall complianceState module.hookAuthority program remaining
      invokeModule .modMaxInvestors program L
        (ModMaxInvestors.created L [complianceState] complianceState moduleKey amount
          toBalanceAfter)
  | .supplyCapModule module => do
      prepareCall complianceState module.hookAuthority program remaining
      invokeModule .modSupplyCap program L
        (ModSupplyCap.created L [complianceState] complianceState moduleKey amount)
  | .investorCountryCapModule module => do
      prepareCall complianceState module.hookAuthority program remaining
      let count ← findCountryCountAccount L remaining moduleKey program toCountry
      invokeModule .modCountryCap program L
        (ModCountryCap.created L [complianceState] complianceState moduleKey count amount
          toBalanceAfter toCountry)
  | _ => .ok L

theorem moduleCreated_maxInvestors {amount toAfter toCountry : ℕ} {m : MaxInvestorsModule}
    (hM : L.accounts M = account m) :
    moduleCreated C remaining amount toAfter toCountry L M = .ok L' ↔
      M ∈ remaining ∧ (C = m.hookAuthority ∧ .program .modMaxInvestors ∈ remaining) ∧
        ModMaxInvestors.created L [C] C M amount toAfter = .ok L' := by
  simp [moduleCreated, hM, account, encode, kind, AccountKind.program, invokeModule_self]

/-- While the modules are paused nothing is recorded. -/
def created (L : Ledger) (complianceState : Pubkey) (remaining : List Pubkey)
    (amount toBalanceAfter toCountry : ℕ) : Result Ledger := do
  let state ← readCompliance L complianceState
  if state.modulesPaused then
    .ok L
  else
    state.modules.foldlM
      (moduleCreated complianceState remaining amount toBalanceAfter toCountry) L

def moduleDestroyed (complianceState : Pubkey) (remaining : List Pubkey)
    (amount fromBalanceAfter fromCountry : ℕ) (L : Ledger) (moduleKey : Pubkey) :
    Result Ledger := do
  require (moduleKey ∈ remaining) (.compliance .missingModuleAccount)
  let program := (L.accounts moduleKey).owner
  match (L.accounts moduleKey).data with
  | .maxInvestorsModule module => do
      prepareCall complianceState module.hookAuthority program remaining
      invokeModule .modMaxInvestors program L
        (ModMaxInvestors.destroyed L [complianceState] complianceState moduleKey amount
          fromBalanceAfter)
  | .supplyCapModule module => do
      prepareCall complianceState module.hookAuthority program remaining
      invokeModule .modSupplyCap program L
        (ModSupplyCap.destroyed L [complianceState] complianceState moduleKey amount)
  | .investorCountryCapModule module => do
      prepareCall complianceState module.hookAuthority program remaining
      let count ← findCountryCountAccount L remaining moduleKey program fromCountry
      invokeModule .modCountryCap program L
        (ModCountryCap.destroyed L [complianceState] complianceState moduleKey count amount
          fromBalanceAfter fromCountry)
  | _ => .ok L

theorem moduleDestroyed_maxInvestors {amount fromAfter fromCountry : ℕ} {m : MaxInvestorsModule}
    (hM : L.accounts M = account m) :
    moduleDestroyed C remaining amount fromAfter fromCountry L M = .ok L' ↔
      M ∈ remaining ∧ (C = m.hookAuthority ∧ .program .modMaxInvestors ∈ remaining) ∧
        ModMaxInvestors.destroyed L [C] C M amount fromAfter = .ok L' := by
  simp [moduleDestroyed, hM, account, encode, kind, AccountKind.program, invokeModule_self]

/-- The pause flag is not consulted here either. -/
def destroyed (L : Ledger) (complianceState : Pubkey) (remaining : List Pubkey)
    (amount fromBalanceAfter fromCountry : ℕ) : Result Ledger := do
  let state ← readCompliance L complianceState
  state.modules.foldlM
    (moduleDestroyed complianceState remaining amount fromBalanceAfter fromCountry) L

end Fracks.Compliance
