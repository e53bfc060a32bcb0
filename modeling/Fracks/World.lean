import Fracks.Authorities
import Fracks.ComplianceEffects
import Fracks.Token.Effects
import Fracks.Lib.Runs

/-!
# Steps of the whole system

One type for the instructions of all programs, the ledger they lead to, and the
steps of a history: an instruction under signatures that a transaction can
carry, or a change made by other programs to accounts of their own.  Each
instruction comes with the kinds of accounts it may touch.
-/

namespace Fracks

open Checked AccountType Ledger

/-! ## Instructions -/

inductive TokenInstruction
  | initializeToken (owner tokenState ownerState : Pubkey) (args : Token.InitializeTokenArgs)
  | initializeMintMetadata (accts : Token.OwnerAccounts)
      (tokenMintAccount token2022Program : Pubkey) (name symbol : String)
  | transfer (accts : Token.TransferEvaluation) (amount fromBalance toBalance : ℕ)
  | mint (operator : Token.OperatorAccounts) (accts : Token.ReceiverAccounts) (wallet : Pubkey)
      (amount toBalanceAfter : ℕ)
  | purchaseMint (purchase : Token.PurchaseAccounts) (accts : Token.ReceiverAccounts)
      (amount toBalanceAfter : ℕ)
  | depositSubscription (accts : Token.SubscriptionAccounts) (amount : ℕ)
  | settleSubscriptionMint (operator : Token.OperatorAccounts) (settle : Token.SettleAccounts)
      (accts : Token.ReceiverAccounts) (toBalanceAfter : ℕ)
  | burn (operator : Token.OperatorAccounts) (accts : Token.BurnAccounts) (wallet : Pubkey)
      (amount fromBalanceAfter : ℕ)
  | forcedTransfer (operator : Token.OperatorAccounts) (fromPartialFreeze : Pubkey)
      (accts : Token.ControllerTransferAccounts) (source destination : Pubkey)
      (amount fromBalance toBalance : ℕ)
  | recovery (operator : Token.OperatorAccounts) (irsProgram : Pubkey)
      (accts : Token.ControllerTransferAccounts) (lostWallet newWallet : Pubkey) (amount : ℕ)
  | finalizeRecovery (operator : Token.OperatorAccounts) (accts : Token.FinalizeAccounts)
      (lostWallet newWallet : Pubkey) (amount : ℕ)
  | pause (accts : Token.OwnerAccounts)
  | unpause (accts : Token.OwnerAccounts)
  | setIdentityRegistry (accts : Token.OwnerAccounts) (newIdentityRegistry : Pubkey)
  | setCompliance (accts : Token.OwnerAccounts) (newCompliance : Pubkey)
  | transferOwnership (accts : Token.OwnerAccounts) (newOwner : Pubkey)
  | addAgent (accts : Token.OwnerAccounts) (agentRole agent : Pubkey)
  | removeAgent (accts : Token.OwnerAccounts) (agentRole : Pubkey)
  | freezeWallet (accts : Token.OperatorAccounts) (wallet frozenWallet : Pubkey)
  | unfreezeWallet (accts : Token.OperatorAccounts) (frozenWallet : Pubkey)
  | freezePartial (accts : Token.OperatorAccounts) (wallet partialFreeze : Pubkey) (amount : ℕ)
  | unfreezePartial (accts : Token.OperatorAccounts) (wallet partialFreeze : Pubkey) (amount : ℕ)

inductive HookInstruction
  | initializeExtraAccountMetas (accts : TokenHook.MetasAccounts)
  | refreshExtraAccountMetas (accts : TokenHook.MetasAccounts)
  | approveTransfer (accts : TokenHook.ApproveTransferAccounts)
      (args : TokenHook.ApproveTransferArgs)
  | executeTransferHook (accts : TokenHook.ExecuteAccounts) (amount : ℕ)

inductive ComplianceInstruction
  | initializeCompliance (owner complianceState tokenMint : Pubkey)
  | bindModule (owner complianceState modulePubkey : Pubkey)
  | unbindModule (owner complianceState modulePubkey : Pubkey)
  | setModulesPaused (owner complianceState : Pubkey) (paused : Bool)
  | transferOwnership (owner complianceState newOwner : Pubkey)
  | canTransfer (complianceState : Pubkey) (remaining : List Pubkey) (source : Pubkey)
      (amount toBalance fromCountry toCountry : ℕ)
  | transferred (complianceState : Pubkey) (remaining : List Pubkey) (source : Pubkey)
      (amount fromBalanceAfter toBalanceAfter fromCountry toCountry : ℕ)
  | created (complianceState : Pubkey) (remaining : List Pubkey)
      (amount toBalanceAfter toCountry : ℕ)
  | destroyed (complianceState : Pubkey) (remaining : List Pubkey)
      (amount fromBalanceAfter fromCountry : ℕ)

/-- The instructions of the modules that write; their checks and the post-hooks
of the modules without counters do nothing. -/
inductive ModuleInstruction
  | initializeMaxInvestors (owner moduleState tokenMint : Pubkey) (maxInvestors : ℕ)
  | initializeSupplyCap (owner moduleState tokenMint : Pubkey) (maxSupply : ℕ)
  | initializeCountryCap (owner moduleState tokenMint : Pubkey) (caps : List CountryCapEntry)
  | initializeDailyLimit (owner moduleState tokenMint : Pubkey) (dailyLimit : ℕ)
  | initializeCountryRestrict (owner moduleState tokenMint : Pubkey) (countries : List ℕ)
  | initializeMaxBalance (owner moduleState tokenMint : Pubkey) (maxBalance : ℕ)
  | initializeMaxTransfer (owner moduleState tokenMint : Pubkey) (maxAmount : ℕ)
  | initializeLockup (owner moduleState tokenMint : Pubkey) (lockupEnd : ℤ)
  | setMaxInvestorsHookAuthority (owner moduleState hookAuthority : Pubkey)
  | setSupplyCapHookAuthority (owner moduleState hookAuthority : Pubkey)
  | setCountryCapHookAuthority (owner moduleState hookAuthority : Pubkey)
  | setDailyLimitHookAuthority (owner moduleState hookAuthority : Pubkey)
  | setMaxSupply (owner moduleState : Pubkey) (maxSupply : ℕ)
  | initializeCountryCount (owner moduleState countryCount : Pubkey) (country : ℕ)
  | initializeWalletUsage (owner moduleState walletUsage wallet : Pubkey)
  | maxInvestorsTransferred (authority moduleState : Pubkey)
      (amount fromBalanceAfter toBalanceAfter : ℕ)
  | maxInvestorsCreated (authority moduleState : Pubkey) (amount toBalanceAfter : ℕ)
  | maxInvestorsDestroyed (authority moduleState : Pubkey) (amount fromBalanceAfter : ℕ)
  | supplyCapCreated (authority moduleState : Pubkey) (amount : ℕ)
  | supplyCapDestroyed (authority moduleState : Pubkey) (amount : ℕ)
  | countryCapTransferred (authority moduleState fromCount toCount : Pubkey)
      (amount fromBalanceAfter toBalanceAfter fromCountry toCountry : ℕ)
  | countryCapCreated (authority moduleState count : Pubkey)
      (amount toBalanceAfter toCountry : ℕ)
  | countryCapDestroyed (authority moduleState count : Pubkey)
      (amount fromBalanceAfter fromCountry : ℕ)
  | dailyLimitTransferred (authority moduleState walletUsage wallet : Pubkey) (amount : ℕ)

/-- An instruction of one of the programs.  The owner of a compliance state may
also have the router forward one, under the signatures of the transaction. -/
inductive Instruction
  | token (i : TokenInstruction)
  | hook (i : HookInstruction)
  | compliance (i : ComplianceInstruction)
  | module (i : ModuleInstruction)
  | token2022 (i : Token2022.Instruction)
  | createTokenMint (accts : Factory.CreateTokenMint) (decimals : ℕ)
  | callModuleFunction (owner complianceState : Pubkey) (inner : Instruction)

section Process

variable [Borsh]

def TokenInstruction.process (L : Ledger) (signers : List Pubkey) :
    TokenInstruction → Result Ledger
  | .initializeToken owner tokenState ownerState args =>
      Token.initializeToken L signers owner tokenState ownerState args
  | .initializeMintMetadata accts tokenMintAccount token2022Program name symbol =>
      Token.initializeMintMetadata L signers accts tokenMintAccount token2022Program name symbol
  | .transfer accts amount fromBalance toBalance =>
      Token.transfer L signers accts amount fromBalance toBalance
  | .mint operator accts wallet amount toBalanceAfter =>
      Token.mint L signers operator accts wallet amount toBalanceAfter
  | .purchaseMint purchase accts amount toBalanceAfter =>
      Token.purchaseMint L signers purchase accts amount toBalanceAfter
  | .depositSubscription accts amount => Token.depositSubscription L signers accts amount
  | .settleSubscriptionMint operator settle accts toBalanceAfter =>
      Token.settleSubscriptionMint L signers operator settle accts toBalanceAfter
  | .burn operator accts wallet amount fromBalanceAfter =>
      Token.burn L signers operator accts wallet amount fromBalanceAfter
  | .forcedTransfer operator fromPartialFreeze accts source destination amount fromBalance
      toBalance =>
      Token.forcedTransfer L signers operator fromPartialFreeze accts source destination amount
        fromBalance toBalance
  | .recovery operator irsProgram accts lostWallet newWallet amount =>
      Token.recovery L signers operator irsProgram accts lostWallet newWallet amount
  | .finalizeRecovery operator accts lostWallet newWallet amount =>
      Token.finalizeRecovery L signers operator accts lostWallet newWallet amount
  | .pause accts => Token.pause L signers accts
  | .unpause accts => Token.unpause L signers accts
  | .setIdentityRegistry accts newIdentityRegistry =>
      Token.setIdentityRegistry L signers accts newIdentityRegistry
  | .setCompliance accts newCompliance => Token.setCompliance L signers accts newCompliance
  | .transferOwnership accts newOwner => Token.transferOwnership L signers accts newOwner
  | .addAgent accts agentRole agent => Token.addAgent L signers accts agentRole agent
  | .removeAgent accts agentRole => Token.removeAgent L signers accts agentRole
  | .freezeWallet accts wallet frozenWallet =>
      Token.freezeWallet L signers accts wallet frozenWallet
  | .unfreezeWallet accts frozenWallet => Token.unfreezeWallet L signers accts frozenWallet
  | .freezePartial accts wallet partialFreeze amount =>
      Token.freezePartial L signers accts wallet partialFreeze amount
  | .unfreezePartial accts wallet partialFreeze amount =>
      Token.unfreezePartial L signers accts wallet partialFreeze amount

def HookInstruction.process (L : Ledger) (signers : List Pubkey) :
    HookInstruction → Result Ledger
  | .initializeExtraAccountMetas accts => TokenHook.initializeExtraAccountMetas L signers accts
  | .refreshExtraAccountMetas accts => TokenHook.refreshExtraAccountMetas L signers accts
  | .approveTransfer accts args => TokenHook.approveTransfer L signers accts args
  | .executeTransferHook accts amount => TokenHook.executeTransferHook L accts amount

def ComplianceInstruction.process (L : Ledger) (signers : List Pubkey) :
    ComplianceInstruction → Result Ledger
  | .initializeCompliance owner complianceState tokenMint =>
      Compliance.initializeCompliance L signers owner complianceState tokenMint
  | .bindModule owner complianceState modulePubkey =>
      Compliance.bindModule L signers owner complianceState modulePubkey
  | .unbindModule owner complianceState modulePubkey =>
      Compliance.unbindModule L signers owner complianceState modulePubkey
  | .setModulesPaused owner complianceState paused =>
      Compliance.setModulesPaused L signers owner complianceState paused
  | .transferOwnership owner complianceState newOwner =>
      Compliance.transferOwnership L signers owner complianceState newOwner
  | .canTransfer complianceState remaining source amount toBalance fromCountry toCountry => do
      let _ ← Compliance.canTransfer L complianceState remaining source amount toBalance
        fromCountry toCountry
      .ok L
  | .transferred complianceState remaining source amount fromBalanceAfter toBalanceAfter
      fromCountry toCountry =>
      Compliance.transferred L complianceState remaining source amount fromBalanceAfter
        toBalanceAfter fromCountry toCountry
  | .created complianceState remaining amount toBalanceAfter toCountry =>
      Compliance.created L complianceState remaining amount toBalanceAfter toCountry
  | .destroyed complianceState remaining amount fromBalanceAfter fromCountry =>
      Compliance.destroyed L complianceState remaining amount fromBalanceAfter fromCountry

def ModuleInstruction.process (L : Ledger) (signers : List Pubkey) :
    ModuleInstruction → Result Ledger
  | .initializeMaxInvestors owner moduleState tokenMint maxInvestors =>
      ModMaxInvestors.initializeModule L signers owner moduleState tokenMint maxInvestors
  | .initializeSupplyCap owner moduleState tokenMint maxSupply =>
      ModSupplyCap.initializeModule L signers owner moduleState tokenMint maxSupply
  | .initializeCountryCap owner moduleState tokenMint caps =>
      ModCountryCap.initializeModule L signers owner moduleState tokenMint caps
  | .initializeDailyLimit owner moduleState tokenMint dailyLimit =>
      ModDailyLimit.initializeModule L signers owner moduleState tokenMint dailyLimit
  | .initializeCountryRestrict owner moduleState tokenMint countries =>
      ModCountryRestrict.initializeModule L signers owner moduleState tokenMint countries
  | .initializeMaxBalance owner moduleState tokenMint maxBalance =>
      ModMaxBalance.initializeModule L signers owner moduleState tokenMint maxBalance
  | .initializeMaxTransfer owner moduleState tokenMint maxAmount =>
      ModMaxTransfer.initializeModule L signers owner moduleState tokenMint maxAmount
  | .initializeLockup owner moduleState tokenMint lockupEnd =>
      ModLockup.initializeModule L signers owner moduleState tokenMint lockupEnd
  | .setMaxInvestorsHookAuthority owner moduleState hookAuthority =>
      ModMaxInvestors.setHookAuthority L signers owner moduleState hookAuthority
  | .setSupplyCapHookAuthority owner moduleState hookAuthority =>
      ModSupplyCap.setHookAuthority L signers owner moduleState hookAuthority
  | .setCountryCapHookAuthority owner moduleState hookAuthority =>
      ModCountryCap.setHookAuthority L signers owner moduleState hookAuthority
  | .setDailyLimitHookAuthority owner moduleState hookAuthority =>
      ModDailyLimit.setHookAuthority L signers owner moduleState hookAuthority
  | .setMaxSupply owner moduleState maxSupply =>
      ModSupplyCap.setMaxSupply L signers owner moduleState maxSupply
  | .initializeCountryCount owner moduleState countryCount country =>
      ModCountryCap.initializeCountryCount L signers owner moduleState countryCount country
  | .initializeWalletUsage owner moduleState walletUsage wallet =>
      ModDailyLimit.initializeWalletUsage L signers owner moduleState walletUsage wallet
  | .maxInvestorsTransferred authority moduleState amount fromBalanceAfter toBalanceAfter =>
      ModMaxInvestors.transferred L signers authority moduleState amount fromBalanceAfter
        toBalanceAfter
  | .maxInvestorsCreated authority moduleState amount toBalanceAfter =>
      ModMaxInvestors.created L signers authority moduleState amount toBalanceAfter
  | .maxInvestorsDestroyed authority moduleState amount fromBalanceAfter =>
      ModMaxInvestors.destroyed L signers authority moduleState amount fromBalanceAfter
  | .supplyCapCreated authority moduleState amount =>
      ModSupplyCap.created L signers authority moduleState amount
  | .supplyCapDestroyed authority moduleState amount =>
      ModSupplyCap.destroyed L signers authority moduleState amount
  | .countryCapTransferred authority moduleState fromCount toCount amount fromBalanceAfter
      toBalanceAfter fromCountry toCountry =>
      ModCountryCap.transferred L signers authority moduleState fromCount toCount amount
        fromBalanceAfter toBalanceAfter fromCountry toCountry
  | .countryCapCreated authority moduleState count amount toBalanceAfter toCountry =>
      ModCountryCap.created L signers authority moduleState count amount toBalanceAfter toCountry
  | .countryCapDestroyed authority moduleState count amount fromBalanceAfter fromCountry =>
      ModCountryCap.destroyed L signers authority moduleState count amount fromBalanceAfter
        fromCountry
  | .dailyLimitTransferred authority moduleState walletUsage wallet amount =>
      ModDailyLimit.transferred L signers authority moduleState walletUsage wallet amount

/-- The `ForwardModuleCall` accounts. -/
def forwardModuleCall (L : Ledger) (signers : List Pubkey) (owner complianceState : Pubkey) :
    Result Unit := do
  requireSigner signers owner
  let state ← Compliance.readCompliance L complianceState
  require (state.owner = owner) (.compliance .notOwner)

def process (L : Ledger) (signers : List Pubkey) : Instruction → Result Ledger
  | .token i => i.process L signers
  | .hook i => i.process L signers
  | .compliance i => i.process L signers
  | .module i => i.process L signers
  | .token2022 i => Token2022.process L signers i
  | .createTokenMint accts decimals => Factory.createTokenMint L signers accts decimals
  | .callModuleFunction owner complianceState inner => do
      forwardModuleCall L signers owner complianceState
      process L signers inner

end Process

/-! ## Forwarded instructions -/

/-- The instruction that is run in the end. -/
def Instruction.core : Instruction → Instruction
  | .callModuleFunction _ _ inner => inner.core
  | i => i

theorem process_core [Borsh] {L L' : Ledger} {signers : List Pubkey} {i : Instruction}
    (h : process L signers i = .ok L') : process L signers i.core = .ok L' := by
  induction i with
  | callModuleFunction owner complianceState inner ih =>
      obtain ⟨_, -, hinner⟩ := bind_eq_ok.1 h
      exact ih hinner
  | _ => exact h

/-! ## Kinds of accounts -/

def TokenInstruction.kinds : TokenInstruction → List AccountKind
  | .initializeToken .. => [.tokenState, .ownerState]
  | .initializeMintMetadata .. => []
  | .transfer .. => [.transferApproval]
  | .mint .. | .purchaseMint .. | .settleSubscriptionMint .. =>
      [.subscriptionEscrow, .maxInvestorsModule, .supplyCapModule, .countryInvestorCount, .mint,
        .tokenAccount]
  | .depositSubscription .. => [.subscriptionEscrow]
  | .burn .. =>
      [.maxInvestorsModule, .supplyCapModule, .countryInvestorCount, .mint, .tokenAccount]
  | .forcedTransfer .. | .recovery .. => .partialFreeze :: .tokenAccount :: TokenHook.hookKinds
  | .finalizeRecovery .. => Irs.identityKinds
  | .pause .. | .unpause .. | .setIdentityRegistry .. | .setCompliance .. => [.tokenState]
  | .transferOwnership .. => [.ownerState]
  | .addAgent .. | .removeAgent .. => [.agentRole]
  | .freezeWallet .. | .unfreezeWallet .. => [.frozenWallet]
  | .freezePartial .. | .unfreezePartial .. => [.partialFreeze]

def HookInstruction.kinds : HookInstruction → List AccountKind
  | .initializeExtraAccountMetas .. | .refreshExtraAccountMetas .. => [.extraAccountMetas]
  | .approveTransfer .. => [.transferApproval]
  | .executeTransferHook .. => TokenHook.hookKinds

def ComplianceInstruction.kinds : ComplianceInstruction → List AccountKind
  | .canTransfer .. => []
  | .transferred .. => Compliance.PostHook.transferred.kinds
  | .created .. => Compliance.PostHook.created.kinds
  | .destroyed .. => Compliance.PostHook.destroyed.kinds
  | _ => [.complianceState]

def ModuleInstruction.kinds : ModuleInstruction → List AccountKind
  | .initializeMaxInvestors .. | .setMaxInvestorsHookAuthority .. | .maxInvestorsTransferred ..
  | .maxInvestorsCreated .. | .maxInvestorsDestroyed .. => [.maxInvestorsModule]
  | .initializeSupplyCap .. | .setSupplyCapHookAuthority .. | .setMaxSupply ..
  | .supplyCapCreated .. | .supplyCapDestroyed .. => [.supplyCapModule]
  | .initializeCountryCap .. | .setCountryCapHookAuthority .. => [.investorCountryCapModule]
  | .initializeDailyLimit .. | .setDailyLimitHookAuthority .. => [.dailyTransferLimitModule]
  | .initializeCountryRestrict .. => [.countryRestrictModule]
  | .initializeMaxBalance .. => [.maxBalanceModule]
  | .initializeMaxTransfer .. => [.maxTransferModule]
  | .initializeLockup .. => [.lockupModule]
  | .initializeCountryCount .. | .countryCapTransferred .. | .countryCapCreated ..
  | .countryCapDestroyed .. => [.countryInvestorCount]
  | .initializeWalletUsage .. | .dailyLimitTransferred .. => [.dailyWalletUsage]

def Instruction.kinds : Instruction → List AccountKind
  | .token i => i.kinds
  | .hook i => i.kinds
  | .compliance i => i.kinds
  | .module i => i.kinds
  | .token2022 _ => .mint :: .tokenAccount :: TokenHook.hookKinds
  | .createTokenMint .. => [.mint]
  | .callModuleFunction _ _ inner => inner.kinds

/-- The kinds that belong to programs outside the core of the system. -/
def environmentKinds : List AccountKind :=
  [.foreign, .offeringTerms, .identityRegistryState, .identityRegistryStorageState,
    .walletIdentity, .onboardingApplication, .trustedIssuersState, .claimTopicsState, .fidAccount,
    .claimAccount, .claimTopicIndex, .issuerEntry, .factoryState, .tokenDeployment,
    .platformAuthority, .custodyMandate, .custodyAttestation, .assetRegistry, .successionClaim,
    .governanceState, .proposal, .voteRecord]

/-! ## Histories -/

inductive Label
  | instruction (signers : List Pubkey) (i : Instruction)
  | environment

/-- The instruction that a step carries out meets `P`, forwarded or not. -/
def Label.Core (P : Instruction → Prop) : Label → Prop
  | .instruction _ i => P i.core
  | .environment => True

/-- A step of a history. -/
inductive Step [Borsh] : Ledger → Label → Ledger → Prop
  | instruction {L L' : Ledger} (signers : List Pubkey) (i : Instruction) :
      (∀ k ∈ signers, k.External) → process L signers i = .ok L' →
        Step L (.instruction signers i) L'
  | environment {L L' : Ledger} : Frame environmentKinds L L' → Step L .environment L'

end Fracks
