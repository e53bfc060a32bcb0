import Fracks.Identity
import Fracks.HookExecution

/-!
# Checks of the token controller

The helpers that the instructions of `fracks_token` share: who may operate a
token, the verification of wallets and token accounts, the freeze gates, the
compliance check, and the calls of the other programs.  Accounts that the
source takes unchecked arrive as bare keys; what is asked of them is asked here.
-/

namespace Fracks.Token

open Checked AccountType Ledger

def controllerProgram : Pubkey := .program .fracksToken

def maxNameLen : ℕ := 64

def maxSymbolLen : ℕ := 12

def maxIsinLen : ℕ := 24

def tokenStateAddress (tokenMint : Pubkey) : Pubkey :=
  .findProgramAddress .tokenState [.key tokenMint] controllerProgram

def ownerAddress (tokenMint : Pubkey) : Pubkey :=
  .findProgramAddress .owner [.key tokenMint] controllerProgram

def agentAddress (tokenMint agent : Pubkey) : Pubkey :=
  .findProgramAddress .agent [.key tokenMint, .key agent] controllerProgram

def frozenAddress (tokenMint wallet : Pubkey) : Pubkey :=
  .findProgramAddress .frozen [.key tokenMint, .key wallet] controllerProgram

def partialFreezeAddress (tokenMint wallet : Pubkey) : Pubkey :=
  .findProgramAddress .partialFreeze [.key tokenMint, .key wallet] controllerProgram

def subscriptionAddress (tokenMint investor : Pubkey) : Pubkey :=
  .findProgramAddress .subscription [.key tokenMint, .key investor] controllerProgram

/-! ## Loading -/

/-- The token state of an instruction, at its own seeds. -/
def loadTokenState (L : Ledger) (k : Pubkey) : Result TokenState := do
  let state ← L.load TokenState k
  requireSeeds k (tokenStateAddress state.tokenMint)
  .ok state

def deserializeAccountData (α : Type) [AccountType α] (L : Ledger) (k : Pubkey) : Result α :=
  okOr (decode (L.accounts k).data) (.anchor .accountDiscriminatorMismatch)

def deserializeLocal (α : Type) [AccountType α] [Borsh] (L : Ledger) (k : Pubkey) : Result α :=
  okOr (Borsh.decodeView α (L.accounts k).data) (.token .invalidRegistryReference)

/-- The terms of an offering: any account of the factory that decodes. -/
def readOfferingTerms [Borsh] (L : Ledger) (k : Pubkey) : Result OfferingTerms := do
  require ((L.accounts k).owner = .program .fracksFactory) (.token .invalidOfferingTerms)
  okOr (Borsh.decodeView OfferingTerms (L.accounts k).data) (.token .invalidOfferingTerms)

def validateMetadata (name symbol isin : String) : Result Unit := do
  require (name.utf8ByteSize ≤ maxNameLen) (.token .metadataTooLong)
  require (symbol.utf8ByteSize ≤ maxSymbolLen) (.token .metadataTooLong)
  require (isin.utf8ByteSize ≤ maxIsinLen) (.token .metadataTooLong)

/-- The price of `amount` base units, rounded up, in 128-bit arithmetic. -/
def calculateSolPayment (amount pricePerToken tokenDecimals : ℕ) : Result ℕ := do
  require (0 < pricePerToken) (.token .paymentRequired)
  let denominator ← okOr (checkedU128 (10 ^ tokenDecimals)) (.token .paymentAmountOverflow)
  let numerator ← okOr (checkedU128 (amount * pricePerToken)) (.token .paymentAmountOverflow)
  let rounded ← okOr (checkedU128 (numerator + (denominator - 1))) (.token .paymentAmountOverflow)
  let payment := rounded / denominator
  require (payment ≤ u64Max) (.token .paymentAmountOverflow)
  .ok payment

/-! ## Operators -/

/-- Whether the account is the owner state of the token and names `authority`. -/
def ownerAuthorizes (L : Ledger) (authority tokenMint ownerState : Pubkey) : Result Bool :=
  if (L.accounts ownerState).owner = controllerProgram ∧ (L.accounts ownerState).data ≠ .empty ∧
      ownerState = ownerAddress tokenMint then do
    let state ← deserializeAccountData OwnerState L ownerState
    require (state.tokenMint = tokenMint) (.token .invalidRegistryReference)
    .ok (state.owner = authority)
  else .ok false

def agentAuthorizes (L : Ledger) (authority tokenMint agentRole : Pubkey) : Result Unit :=
  if (L.accounts agentRole).owner = controllerProgram ∧ (L.accounts agentRole).data ≠ .empty ∧
      agentRole = agentAddress tokenMint authority then do
    let role ← deserializeAccountData AgentRole L agentRole
    require (role.tokenMint = tokenMint) (.token .invalidRegistryReference)
    require (role.isActive = true) (.token .notAgent)
  else .error (.token .unauthorizedAuthority)

def authorizeOperator (L : Ledger) (authority : Pubkey) (tokenState : TokenState)
    (ownerState agentRole : Pubkey) : Result Unit := do
  let isOwner ← ownerAuthorizes L authority tokenState.tokenMint ownerState
  if isOwner then .ok () else agentAuthorizes L authority tokenState.tokenMint agentRole

/-- The accounts of an instruction that an operator signs. -/
structure OperatorAccounts where
  authority : Pubkey
  tokenState : Pubkey
  ownerState : Pubkey
  agentRole : Pubkey

/-- The signature, the token state and the authorization of an operator. -/
def OperatorAccounts.check (accts : OperatorAccounts) (L : Ledger) (signers : List Pubkey) :
    Result TokenState := do
  requireSigner signers accts.authority
  let state ← loadTokenState L accts.tokenState
  authorizeOperator L accts.authority state accts.ownerState accts.agentRole
  .ok state

/-! ## Wallets -/

section Wallets

variable [Borsh]

/-- The accounts of the identity registry of a token. -/
structure RegistryAccounts where
  irpState : Pubkey
  irsState : Pubkey
  tirState : Pubkey
  ctrState : Pubkey

def verifyWalletAgainstIrp (L : Ledger) (tokenState : TokenState) (wallet : Pubkey)
    (accts : RegistryAccounts) (walletIdentity : Pubkey) (remaining : List Pubkey) :
    Result WalletIdentity := do
  require (tokenState.identityRegistry = accts.irpState) (.token .invalidRegistryReference)
  let registry ← deserializeLocal IdentityRegistryState L accts.irpState
  let irsState ← deserializeLocal IdentityRegistryStorageState L accts.irsState
  let tirState ← deserializeLocal TrustedIssuersState L accts.tirState
  let ctrState ← deserializeLocal ClaimTopicsState L accts.ctrState
  require (registry.irsAccount = accts.irsState) (.token .invalidRegistryReference)
  require (registry.tirAccount = accts.tirState) (.token .invalidRegistryReference)
  require (registry.ctrAccount = accts.ctrState) (.token .invalidRegistryReference)
  require (registry.tokenMint = tokenState.tokenMint) (.token .invalidRegistryReference)
  require (tirState.tokenMint = tokenState.tokenMint) (.token .invalidRegistryReference)
  require (ctrState.tokenMint = tokenState.tokenMint) (.token .invalidRegistryReference)
  require (accts.irpState ∈ irsState.boundRegistries) (.token .invalidRegistryReference)
  let identity ← okOr (Irp.findWalletIdentity L wallet accts.irsState walletIdentity).toOption.join
    (.token .walletNotVerified)
  require (identity.isActive = true) (.token .walletNotVerified)
  require (∀ topic ∈ ctrState.topics,
    Irp.verifyClaimForTopic L identity.fid topic accts.tirState remaining L.now = true)
    (.token .walletNotVerified)
  .ok identity

def requireWalletIdentity (L : Ledger) (walletIdentity wallet irs : Pubkey) :
    Result WalletIdentity := do
  let found ← okOr (Irp.findWalletIdentity L wallet irs walletIdentity).toOption
    (.token .invalidRegistryReference)
  let identity ← okOr found (.token .walletNotVerified)
  require (identity.isActive = true) (.token .walletNotVerified)
  .ok identity

end Wallets

/-! ## Token accounts and mints -/

def readTokenAccount (L : Ledger) (k : Pubkey) : Result TokenAccount :=
  okOr (L.view TokenAccount k) (.token .invalidTokenAccount)

def validateTokenAccount (a : TokenAccount) (tokenMint owner : Pubkey) : Result Unit := do
  require (a.mint = tokenMint) (.token .invalidTokenAccount)
  require (a.owner = owner) (.token .invalidTokenAccount)
  require (a.isFrozen = false) (.token .walletFrozen)

def validateTokenMintAccount (L : Ledger) (mintKey : Pubkey) (tokenState : TokenState)
    (requirePermanentDelegate : Bool) : Result Unit := do
  require (mintKey = tokenState.tokenMint) (.token .invalidTokenAccount)
  let mint ← okOr (L.view Mint mintKey) (.token .invalidTokenAccount)
  require (mint.isInitialized = true) (.token .invalidTokenAccount)
  require (mint.decimals = tokenState.decimals) (.token .invalidTokenAccount)
  let hook ← okOr mint.transferHook (.token .missingTransferHook)
  require (hook.programId = some TokenHook.hookProgram) (.token .missingTransferHook)
  require (requirePermanentDelegate →
      mint.permanentDelegate = some (some (tokenStateAddress tokenState.tokenMint)))
    (.token .missingPermanentDelegate)
  require (mint.mintAuthority = some (tokenStateAddress tokenState.tokenMint))
    (.token .invalidTokenAuthority)

/-! ## Freezes -/

section Freezes

variable [Borsh]

/-- The caller chooses the account.  One that is the system program, has no
data or belongs to another program stands for a wallet that is not frozen;
every other account is refused, whatever it says. -/
def ensureWalletNotFrozen (L : Ledger) (frozen wallet tokenMint : Pubkey) : Result Unit :=
  if frozen = .default ∨ (L.accounts frozen).data = .empty ∨
      (L.accounts frozen).owner ≠ controllerProgram then .ok ()
  else do
    let record ← deserializeLocal FrozenWallet L frozen
    require (record.wallet = wallet) (.token .walletFrozen)
    require (record.tokenMint = tokenMint) (.token .walletFrozen)
    .error (.token .walletFrozen)

/-- Here the owner that stands for no freeze is the system program, and neither
the owner nor the address of any other account is checked. -/
def readPartialFreezeAmount (L : Ledger) (partialFreeze wallet tokenMint : Pubkey) : Result ℕ :=
  if partialFreeze = .default ∨ (L.accounts partialFreeze).data = .empty ∨
      (L.accounts partialFreeze).owner = .default then .ok 0
  else do
    let record ← deserializeLocal PartialFreeze L partialFreeze
    require (record.wallet = wallet ∧ record.tokenMint = tokenMint)
      (.token .invalidRegistryReference)
    .ok record.frozenAmount

end Freezes

/-! ## Compliance -/

/-- The check of one bound module.  A mint is exempt from the sender's country
and from the daily limit, and nothing is asked of the supply cap. -/
def moduleComplies (L : Ledger) (remaining : List Pubkey) (source : Pubkey)
    (amount toBalance fromCountry toCountry : ℕ) (moduleKey : Pubkey) : Result Unit := do
  let isMint := source = .default
  require (moduleKey ∈ remaining) (.token .complianceCheckFailed)
  match (L.accounts moduleKey).data with
  | .maxInvestorsModule module =>
      require (¬ (toBalance = 0 ∧ 0 < amount ∧ module.maxInvestors ≤ module.holderCount))
        (.token .complianceCheckFailed)
  | .countryRestrictModule module =>
      require ((isMint ∨ fromCountry ∈ module.allowedCountries) ∧
        toCountry ∈ module.allowedCountries) (.token .complianceCheckFailed)
  | .maxBalanceModule module =>
      require (saturatingAdd toBalance amount ≤ module.maxBalance) (.token .complianceCheckFailed)
  | .maxTransferModule module =>
      require (amount ≤ module.maxAmount) (.token .complianceCheckFailed)
  | .lockupModule module =>
      require (module.lockupEnd ≤ L.now) (.token .complianceCheckFailed)
  | .dailyTransferLimitModule module =>
      if isMint then .ok ()
      else
        let used := Compliance.readDailyUsage L remaining moduleKey (L.accounts moduleKey).owner
          source
        require (saturatingAdd used amount ≤ module.dailyLimit) (.token .complianceCheckFailed)
  | .supplyCapModule _ => .ok ()
  | .investorCountryCapModule module =>
      if toBalance = 0 ∧ 0 < amount then
        match module.capOf toCountry with
        | some cap =>
            require (Compliance.readCountryCount L remaining moduleKey
              (L.accounts moduleKey).owner toCountry < cap) (.token .complianceCheckFailed)
        | none => .ok ()
      else .ok ()
  | _ => .error (.token .complianceCheckFailed)

section Compliance

variable [Borsh]

/-- The check before a transfer or a mint; the sender of a mint is the default
key and its country is not looked at. -/
def evaluateCompliance (L : Ledger) (tokenState : TokenState) (complianceState : Pubkey)
    (remaining : List Pubkey) (source : Pubkey)
    (amount toBalance fromCountry toCountry : ℕ) : Result Unit := do
  require (tokenState.compliance = complianceState) (.token .invalidRegistryReference)
  require (toBalance ≤ u64Max - amount) (.token .complianceCheckFailed)
  let state ← deserializeLocal ComplianceState L complianceState
  require (state.tokenMint = tokenState.tokenMint) (.token .invalidRegistryReference)
  if state.modulesPaused then .ok ()
  else state.modules.foldlM (fun _ moduleKey ↦
    moduleComplies L remaining source amount toBalance fromCountry toCountry moduleKey) ()

/-- The accounts that a forced transfer or a recovery passes to Token-2022 for
the hook: the fixed ones and one for each bound module. -/
def buildTokenHookAccounts (L : Ledger)
    (controllerProgram tokenState transferApproval complianceState complianceProgram
      extraAccountMetas hookProgram : Pubkey) (remaining : List Pubkey) :
    Result (List Pubkey) := do
  let compliance ← deserializeLocal ComplianceState L complianceState
  require (∀ module ∈ compliance.modules, module ∈ remaining) (.token .complianceCheckFailed)
  .ok ([controllerProgram, tokenState, transferApproval, complianceState, complianceProgram] ++
    compliance.modules ++ [extraAccountMetas, hookProgram])

end Compliance

/-- The post-hooks of the modules that count neither issues nor burns: nobody signs, the account
of the call is the module, and nothing is recorded.  The other programs have no such
instruction, or one that asks for a signature that the call does not carry. -/
def readModulePostHook (L : Ledger) (name : ProgramName) (moduleState : Pubkey) :
    Result Unit := do
  match name with
  | .modCountryRestrict =>
      let _ ← readModule .modCountry CountryRestrictModule.tokenMint L moduleState
      .ok ()
  | .modMaxBalance =>
      let _ ← readModule .modMaxBalance MaxBalanceModule.tokenMint L moduleState
      .ok ()
  | .modMaxTransfer =>
      let _ ← readModule .modMaxTransfer MaxTransferModule.tokenMint L moduleState
      .ok ()
  | .modLockup =>
      let _ ← readModule .modLockup LockupModule.tokenMint L moduleState
      .ok ()
  | .modDailyLimit =>
      let _ ← readModule .modDailyLimit DailyTransferLimitModule.tokenMint L moduleState
      .ok ()
  | _ => .error (.anchor .invalidProgramId)

/-- The call of the program that owns the compliance account.  The router forwards it; some
module programs answer to the same instruction; one outside the repository changes nothing
here. -/
def invokeCompliance (L : Ledger) (complianceProgram complianceState : Pubkey)
    (call : Result Ledger) : Result Ledger := do
  require (complianceProgram = (L.accounts complianceState).owner)
    (.token .invalidRegistryReference)
  if complianceProgram = .program .fracksCompliance then call
  else
    match complianceProgram with
    | .program name => do
        readModulePostHook L name complianceState
        .ok L
    | _ => .ok L

def invokeComplianceCreated (L : Ledger) (complianceProgram complianceState : Pubkey)
    (remaining : List Pubkey) (amount toBalanceAfter toCountry : ℕ) : Result Ledger :=
  invokeCompliance L complianceProgram complianceState
    (Compliance.created L complianceState remaining amount toBalanceAfter toCountry)

def invokeComplianceDestroyed (L : Ledger) (complianceProgram complianceState : Pubkey)
    (remaining : List Pubkey) (amount fromBalanceAfter fromCountry : ℕ) : Result Ledger :=
  invokeCompliance L complianceProgram complianceState
    (Compliance.destroyed L complianceState remaining amount fromBalanceAfter fromCountry)

/-! ## Calls signed by the token state -/

/-- The signers of a call that the controller makes for a token. -/
def withTokenState (signers : List Pubkey) (tokenState : TokenState) : List Pubkey :=
  tokenStateAddress tokenState.tokenMint :: signers

def approveHookTransfer (L : Ledger) (signers : List Pubkey) (tokenState : TokenState)
    (accts : TokenHook.ApproveTransferAccounts) (args : TokenHook.ApproveTransferArgs) :
    Result Ledger :=
  TokenHook.approveTransfer L (withTokenState signers tokenState) accts args

def requireTokenProgram (tokenProgram : Pubkey) : Result Unit :=
  require (tokenProgram = Token2022.tokenProgram) (.token .invalidTokenProgram)

def invokeTokenMintToChecked (L : Ledger) (signers : List Pubkey) (tokenState : TokenState)
    (tokenProgram mintKey destination authority : Pubkey) (amount : ℕ) : Result Ledger := do
  requireTokenProgram tokenProgram
  Token2022.mintTo L (withTokenState signers tokenState) mintKey destination authority amount
    (some tokenState.decimals)

def invokeTokenBurnChecked (L : Ledger) (signers : List Pubkey) (tokenState : TokenState)
    (tokenProgram source mintKey authority : Pubkey) (amount : ℕ) : Result Ledger := do
  requireTokenProgram tokenProgram
  Token2022.burn L (withTokenState signers tokenState) source mintKey authority amount
    (some tokenState.decimals)

def invokeTokenTransferChecked (L : Ledger) (signers : List Pubkey) (tokenState : TokenState)
    (tokenProgram source mintKey destination authority : Pubkey) (amount : ℕ)
    (hookAccounts : List Pubkey) : Result Ledger := do
  requireTokenProgram tokenProgram
  Token2022.transferChecked TokenHook.invokeHook L (withTokenState signers tokenState) source
    mintKey destination authority hookAccounts amount tokenState.decimals

end Fracks.Token
