import Fracks.Token.Checks

/-!
# Instructions of the token controller

`fracks_token`: the token and its operators, the approval of transfers, the
three ways of minting, burning, forced transfers and recoveries, the pause and
the freezes.
-/

namespace Fracks.Token

open Checked AccountType Ledger

def tokenStateSpace : ℕ :=
  8 + 32 + 32 + 32 + 1 + 1 + (4 + maxNameLen) + (4 + maxSymbolLen) + (4 + maxIsinLen) + 1

def ownerStateSpace : ℕ := 8 + 32 + 32 + 1

def agentRoleSpace : ℕ := 8 + 32 + 32 + 1 + 1

def frozenWalletSpace : ℕ := 8 + 32 + 32 + 32 + 8 + 1

def partialFreezeSpace : ℕ := 8 + 32 + 32 + 8 + 32 + 1

def subscriptionEscrowSpace : ℕ := 8 + 32 + 32 + 32 + 8 + 8 + 8 + 1 + 1

/-! ## The token and its owner -/

structure InitializeTokenArgs where
  tokenMint : Pubkey
  name : String
  symbol : String
  decimals : ℕ
  isin : String
  identityRegistry : Pubkey
  compliance : Pubkey

/-- Whoever comes first owns the token. -/
def initializeToken (L : Ledger) (signers : List Pubkey) (owner tokenState ownerState : Pubkey)
    (args : InitializeTokenArgs) : Result Ledger := do
  requireSigner signers owner
  validateMetadata args.name args.symbol args.isin
  let L ← L.initRecord owner tokenState (tokenStateAddress args.tokenMint) tokenStateSpace
    { tokenMint := args.tokenMint, identityRegistry := args.identityRegistry,
      compliance := args.compliance, paused := false, decimals := args.decimals,
      name := args.name, symbol := args.symbol, isin := args.isin : TokenState }
  L.initRecord owner ownerState (ownerAddress args.tokenMint) ownerStateSpace
    { owner, tokenMint := args.tokenMint : OwnerState }

/-- The accounts of `UpdateOwnerState`, of `AddAgent` and of `RemoveAgent`. -/
structure OwnerAccounts where
  owner : Pubkey
  tokenState : Pubkey
  ownerState : Pubkey

def OwnerAccounts.check (accts : OwnerAccounts) (L : Ledger) (signers : List Pubkey) :
    Result (TokenState × OwnerState) := do
  requireSigner signers accts.owner
  let tokenState ← loadTokenState L accts.tokenState
  let ownerState ← L.load OwnerState accts.ownerState
  requireSeeds accts.ownerState (ownerAddress ownerState.tokenMint)
  require (ownerState.tokenMint = tokenState.tokenMint) (.token .invalidRegistryReference)
  require (ownerState.owner = accts.owner) (.token .notOwner)
  .ok (tokenState, ownerState)

/-- The metadata is written by Token-2022 into the mint; nothing here reads it. -/
def initializeMintMetadata (L : Ledger) (signers : List Pubkey) (accts : OwnerAccounts)
    (tokenMintAccount token2022Program : Pubkey) (name symbol : String) : Result Ledger := do
  let (tokenState, _) ← accts.check L signers
  requireProgram token2022Program .token2022
  require (tokenMintAccount = tokenState.tokenMint) (.token .invalidTokenAccount)
  validateMetadata name symbol tokenState.isin
  validateTokenMintAccount L tokenMintAccount tokenState false
  .ok L

/-- The instructions of the owner that only write the token state. -/
def updateTokenState (L : Ledger) (signers : List Pubkey) (accts : OwnerAccounts)
    (f : TokenState → TokenState) : Result Ledger := do
  let (tokenState, _) ← accts.check L signers
  .ok (L.put accts.tokenState (f tokenState))

def pause (L : Ledger) (signers : List Pubkey) (accts : OwnerAccounts) : Result Ledger :=
  updateTokenState L signers accts fun state ↦ { state with paused := true }

def unpause (L : Ledger) (signers : List Pubkey) (accts : OwnerAccounts) : Result Ledger :=
  updateTokenState L signers accts fun state ↦ { state with paused := false }

def setIdentityRegistry (L : Ledger) (signers : List Pubkey) (accts : OwnerAccounts)
    (newIdentityRegistry : Pubkey) : Result Ledger :=
  updateTokenState L signers accts fun state ↦
    { state with identityRegistry := newIdentityRegistry }

def setCompliance (L : Ledger) (signers : List Pubkey) (accts : OwnerAccounts)
    (newCompliance : Pubkey) : Result Ledger :=
  updateTokenState L signers accts fun state ↦ { state with compliance := newCompliance }

def transferOwnership (L : Ledger) (signers : List Pubkey) (accts : OwnerAccounts)
    (newOwner : Pubkey) : Result Ledger := do
  let (_, ownerState) ← accts.check L signers
  require (newOwner ≠ .default) (.token .invalidOwner)
  .ok (L.put accts.ownerState { ownerState with owner := newOwner })

def addAgent (L : Ledger) (signers : List Pubkey) (accts : OwnerAccounts)
    (agentRole agent : Pubkey) : Result Ledger := do
  let (tokenState, _) ← accts.check L signers
  L.initRecord accts.owner agentRole (agentAddress tokenState.tokenMint agent) agentRoleSpace
    { agent, tokenMint := tokenState.tokenMint, isActive := true : AgentRole }

def removeAgent (L : Ledger) (signers : List Pubkey) (accts : OwnerAccounts)
    (agentRole : Pubkey) : Result Ledger := do
  let (tokenState, _) ← accts.check L signers
  let role ← L.load AgentRole agentRole
  requireSeeds agentRole (agentAddress tokenState.tokenMint role.agent)
  .ok (L.close agentRole accts.owner)

/-! ## Freezes -/

def freezeWallet (L : Ledger) (signers : List Pubkey) (accts : OperatorAccounts)
    (wallet frozenWallet : Pubkey) : Result Ledger := do
  let tokenState ← accts.check L signers
  L.initRecord accts.authority frozenWallet (frozenAddress tokenState.tokenMint wallet)
    frozenWalletSpace
    { wallet, tokenMint := tokenState.tokenMint, frozenBy := accts.authority,
      frozenAt := L.now : FrozenWallet }

def unfreezeWallet (L : Ledger) (signers : List Pubkey) (accts : OperatorAccounts)
    (frozenWallet : Pubkey) : Result Ledger := do
  let tokenState ← accts.check L signers
  let frozen ← L.load FrozenWallet frozenWallet
  requireSeeds frozenWallet (frozenAddress tokenState.tokenMint frozen.wallet)
  .ok (L.close frozenWallet accts.authority)

/-- The record that `init_if_needed` hands over: a new one is all zero. -/
def partialFreezeOrDefault (old : Option PartialFreeze) : PartialFreeze :=
  old.getD { wallet := .default, tokenMint := .default, frozenAmount := 0, frozenBy := .default }

def freezePartial (L : Ledger) (signers : List Pubkey) (accts : OperatorAccounts)
    (wallet partialFreeze : Pubkey) (amount : ℕ) : Result Ledger := do
  let tokenState ← accts.check L signers
  require (0 < amount) (.token .invalidFreezeAmount)
  let (L, old) ← L.initIfNeeded PartialFreeze accts.authority partialFreeze
    (partialFreezeAddress tokenState.tokenMint wallet) partialFreezeSpace
  let frozenAmount ← okOr (checkedAdd (partialFreezeOrDefault old).frozenAmount amount)
    (.token .arithmeticOverflow)
  .ok (L.put partialFreeze
    { wallet, tokenMint := tokenState.tokenMint, frozenAmount,
      frozenBy := accts.authority : PartialFreeze })

/-- A record whose amount reaches zero is closed. -/
def unfreezePartial (L : Ledger) (signers : List Pubkey) (accts : OperatorAccounts)
    (wallet partialFreeze : Pubkey) (amount : ℕ) : Result Ledger := do
  let tokenState ← accts.check L signers
  require (0 < amount) (.token .invalidFreezeAmount)
  let (L, old) ← L.initIfNeeded PartialFreeze accts.authority partialFreeze
    (partialFreezeAddress tokenState.tokenMint wallet) partialFreezeSpace
  let record := partialFreezeOrDefault old
  require (amount ≤ record.frozenAmount) (.token .invalidFreezeAmount)
  let frozenAmount := saturatingSub record.frozenAmount amount
  if frozenAmount = 0 then .ok (L.close partialFreeze accts.authority)
  else .ok (L.put partialFreeze { record with frozenAmount })

section Transfers

variable [Borsh]

/-! ## Approval of a transfer -/

/-- The accounts of a transfer. -/
structure TransferEvaluation extends RegistryAccounts where
  tokenState : Pubkey
  sourceTokenAccount : Pubkey
  tokenMintAccount : Pubkey
  destinationTokenAccount : Pubkey
  fromWallet : Pubkey
  toWallet : Pubkey
  controllerProgram : Pubkey
  hookProgram : Pubkey
  transferApproval : Pubkey
  systemProgram : Pubkey
  complianceState : Pubkey
  fromWalletIdentity : Pubkey
  toWalletIdentity : Pubkey
  fromFrozen : Pubkey
  toFrozen : Pubkey
  fromPartialFreeze : Pubkey
  remaining : List Pubkey

/-- The pause, the freezes, the identities and the compliance of a transfer;
the result is the two countries. -/
def evaluateTransferComponents (L : Ledger) (tokenState : TokenState)
    (accts : TransferEvaluation) (amount fromBalance toBalance : ℕ) : Result (ℕ × ℕ) := do
  require (tokenState.paused = false) (.token .tokenPaused)
  ensureWalletNotFrozen L accts.fromFrozen accts.fromWallet tokenState.tokenMint
  ensureWalletNotFrozen L accts.toFrozen accts.toWallet tokenState.tokenMint
  let frozenAmount ← readPartialFreezeAmount L accts.fromPartialFreeze accts.fromWallet
    tokenState.tokenMint
  let transferable := saturatingSub fromBalance frozenAmount
  require (amount ≤ transferable) (.token .insufficientBalance)
  let sender ← verifyWalletAgainstIrp L tokenState accts.fromWallet accts.toRegistryAccounts
    accts.fromWalletIdentity accts.remaining
  let receiver ← verifyWalletAgainstIrp L tokenState accts.toWallet accts.toRegistryAccounts
    accts.toWalletIdentity accts.remaining
  evaluateCompliance L tokenState accts.complianceState accts.remaining accts.fromWallet amount
    toBalance sender.country receiver.country
  .ok (sender.country, receiver.country)

/-- A transfer is checked and approved here; the tokens move when its owner
sends the transfer to Token-2022.  The token state is not tied to its seeds. -/
def transfer (L : Ledger) (signers : List Pubkey) (accts : TransferEvaluation)
    (amount fromBalance toBalance : ℕ) : Result Ledger := do
  requireSigner signers accts.fromWallet
  let tokenState ← L.load TokenState accts.tokenState
  require (accts.controllerProgram = controllerProgram) (.token .invalidTokenProgram)
  requireProgram accts.hookProgram .fracksTokenHook
  requireProgram accts.systemProgram .system
  validateTokenMintAccount L accts.tokenMintAccount tokenState true
  let source ← readTokenAccount L accts.sourceTokenAccount
  let destination ← readTokenAccount L accts.destinationTokenAccount
  require (source.amount = fromBalance) (.token .invalidTokenAccount)
  require (destination.amount = toBalance) (.token .invalidTokenAccount)
  validateTokenAccount source tokenState.tokenMint accts.fromWallet
  validateTokenAccount destination tokenState.tokenMint accts.toWallet
  let (senderCountry, receiverCountry) ←
    evaluateTransferComponents L tokenState accts amount fromBalance toBalance
  approveHookTransfer L signers tokenState
    { payer := accts.fromWallet
      controllerAuthority := accts.tokenState
      tokenState := accts.tokenState
      tokenMintAccount := accts.tokenMintAccount
      sourceTokenAccount := accts.sourceTokenAccount
      destinationTokenAccount := accts.destinationTokenAccount
      transferApproval := accts.transferApproval
      authoritySeed := accts.fromWallet }
    { sourceWallet := accts.fromWallet
      destinationWallet := accts.toWallet
      authority := accts.fromWallet
      amount, fromBalance, toBalance
      fromCountry := senderCountry
      toCountry := receiverCountry
      kind := TokenHook.transferApprovalKindTransfer }

/-! ## Minting -/

/-- The accounts about the receiver that the three ways of minting share. -/
structure ReceiverAccounts extends RegistryAccounts where
  complianceState : Pubkey
  complianceProgram : Pubkey
  walletIdentity : Pubkey
  toFrozen : Pubkey
  tokenMintAccount : Pubkey
  destinationTokenAccount : Pubkey
  tokenProgram : Pubkey
  remaining : List Pubkey

/-- The checks on the receiver of new tokens; the result is its country. -/
def checkReceiver (L : Ledger) (tokenState : TokenState) (accts : ReceiverAccounts)
    (wallet : Pubkey) (amount toBalanceAfter : ℕ) : Result ℕ := do
  let receiver ← verifyWalletAgainstIrp L tokenState wallet accts.toRegistryAccounts
    accts.walletIdentity accts.remaining
  validateTokenMintAccount L accts.tokenMintAccount tokenState true
  let destination ← readTokenAccount L accts.destinationTokenAccount
  validateTokenAccount destination tokenState.tokenMint wallet
  let expected ← okOr (checkedAdd destination.amount amount) (.token .arithmeticOverflow)
  require (expected = toBalanceAfter) (.token .invalidTokenAccount)
  evaluateCompliance L tokenState accts.complianceState accts.remaining .default amount
    destination.amount 0 receiver.country
  .ok receiver.country

/-- The post-hook `created` and then the mint itself. -/
def issueTokens (L : Ledger) (signers : List Pubkey) (tokenStateKey : Pubkey)
    (tokenState : TokenState) (accts : ReceiverAccounts)
    (amount toBalanceAfter country : ℕ) : Result Ledger := do
  let L ← invokeComplianceCreated L accts.complianceProgram accts.complianceState accts.remaining
    amount toBalanceAfter country
  invokeTokenMintToChecked L signers tokenState accts.tokenProgram accts.tokenMintAccount
    accts.destinationTokenAccount tokenStateKey amount

def mint (L : Ledger) (signers : List Pubkey) (operator : OperatorAccounts)
    (accts : ReceiverAccounts) (wallet : Pubkey) (amount toBalanceAfter : ℕ) : Result Ledger := do
  let tokenState ← operator.check L signers
  require (tokenState.paused = false) (.token .tokenPaused)
  ensureWalletNotFrozen L accts.toFrozen wallet tokenState.tokenMint
  let country ← checkReceiver L tokenState accts wallet amount toBalanceAfter
  issueTokens L signers operator.tokenState tokenState accts amount toBalanceAfter country

/-- The offering that a payment is for, which must be active and in lamports. -/
def checkOffering (L : Ledger) (tokenState : TokenState) (offeringTerms issuer : Pubkey) :
    Result OfferingTerms := do
  let terms ← readOfferingTerms L offeringTerms
  require (terms.active = true) (.token .offeringInactive)
  require (terms.tokenMint = tokenState.tokenMint) (.token .invalidOfferingTerms)
  require (terms.issuer = issuer) (.token .invalidIssuer)
  require (terms.paymentMint = none) (.token .unsupportedPaymentMint)
  .ok terms

/-- What the payer owes, which must be positive and at hand. -/
def lamportsDue (L : Ledger) (tokenState : TokenState) (terms : OfferingTerms) (payer : Pubkey)
    (amount : ℕ) : Result ℕ := do
  let due ← calculateSolPayment amount terms.pricePerToken tokenState.decimals
  require (0 < due) (.token .paymentRequired)
  require (due ≤ L.lamports payer) (.token .insufficientPaymentBalance)
  .ok due

structure PurchaseAccounts where
  buyer : Pubkey
  issuer : Pubkey
  offeringTerms : Pubkey
  tokenState : Pubkey
  systemProgram : Pubkey

def purchaseMint (L : Ledger) (signers : List Pubkey) (purchase : PurchaseAccounts)
    (accts : ReceiverAccounts) (amount toBalanceAfter : ℕ) : Result Ledger := do
  requireSigner signers purchase.buyer
  let tokenState ← loadTokenState L purchase.tokenState
  requireProgram purchase.systemProgram .system
  require (0 < amount) (.token .paymentRequired)
  require (tokenState.paused = false) (.token .tokenPaused)
  ensureWalletNotFrozen L accts.toFrozen purchase.buyer tokenState.tokenMint
  let terms ← checkOffering L tokenState purchase.offeringTerms purchase.issuer
  let due ← lamportsDue L tokenState terms purchase.buyer amount
  let country ← checkReceiver L tokenState accts purchase.buyer amount toBalanceAfter
  let L ← L.systemTransfer purchase.buyer purchase.issuer due
  issueTokens L signers purchase.tokenState tokenState accts amount toBalanceAfter country

structure SubscriptionAccounts where
  investor : Pubkey
  issuer : Pubkey
  offeringTerms : Pubkey
  tokenState : Pubkey
  subscriptionEscrow : Pubkey
  systemProgram : Pubkey

def depositSubscription (L : Ledger) (signers : List Pubkey) (accts : SubscriptionAccounts)
    (amount : ℕ) : Result Ledger := do
  requireSigner signers accts.investor
  let tokenState ← loadTokenState L accts.tokenState
  requireSeeds accts.subscriptionEscrow
    (subscriptionAddress tokenState.tokenMint accts.investor)
  let L ← L.createAccount accts.investor accts.subscriptionEscrow .fracksToken
    subscriptionEscrowSpace
  requireProgram accts.systemProgram .system
  require (0 < amount) (.token .paymentRequired)
  require (tokenState.paused = false) (.token .tokenPaused)
  let terms ← checkOffering L tokenState accts.offeringTerms accts.issuer
  let due ← lamportsDue L tokenState terms accts.investor amount
  let L := L.put accts.subscriptionEscrow
    { investor := accts.investor, tokenMint := tokenState.tokenMint, issuer := accts.issuer,
      amount, paidLamports := due, createdAt := L.now, settled := false : SubscriptionEscrow }
  L.systemTransfer accts.investor accts.subscriptionEscrow due

structure SettleAccounts where
  issuer : Pubkey
  subscriptionEscrow : Pubkey

/-- The lamports of the escrow go to the issuer without the system program. -/
def releaseEscrow (L : Ledger) (escrow issuer : Pubkey) (paidLamports : ℕ) : Result Ledger := do
  let left ← okOr (checkedSub (L.lamports escrow) paidLamports) (.system .arithmeticOverflow)
  let L := L.setLamports escrow left
  .ok (L.setLamports issuer (L.lamports issuer + paidLamports))

/-- The escrow keeps its record, marked as settled. -/
def settleSubscriptionMint (L : Ledger) (signers : List Pubkey) (operator : OperatorAccounts)
    (settle : SettleAccounts) (accts : ReceiverAccounts) (toBalanceAfter : ℕ) :
    Result Ledger := do
  let tokenState ← operator.check L signers
  let escrow ← L.load SubscriptionEscrow settle.subscriptionEscrow
  requireSeeds settle.subscriptionEscrow
    (subscriptionAddress tokenState.tokenMint escrow.investor)
  require (tokenState.paused = false) (.token .tokenPaused)
  require (escrow.settled = false) (.token .subscriptionAlreadySettled)
  require (escrow.tokenMint = tokenState.tokenMint) (.token .invalidSubscriptionEscrow)
  require (escrow.issuer = settle.issuer) (.token .invalidIssuer)
  require (0 < escrow.amount ∧ 0 < escrow.paidLamports) (.token .paymentRequired)
  ensureWalletNotFrozen L accts.toFrozen escrow.investor tokenState.tokenMint
  let country ← checkReceiver L tokenState accts escrow.investor escrow.amount toBalanceAfter
  let L ← releaseEscrow L settle.subscriptionEscrow settle.issuer escrow.paidLamports
  let L := L.put settle.subscriptionEscrow { escrow with settled := true }
  issueTokens L signers operator.tokenState tokenState accts escrow.amount toBalanceAfter country

/-! ## Burning -/

structure BurnAccounts where
  complianceState : Pubkey
  complianceProgram : Pubkey
  irsState : Pubkey
  fromWalletIdentity : Pubkey
  tokenMintAccount : Pubkey
  sourceTokenAccount : Pubkey
  tokenProgram : Pubkey
  remaining : List Pubkey

/-- The compliance state is the one the operator passes; it is not compared
with the one the token points to. -/
def burn (L : Ledger) (signers : List Pubkey) (operator : OperatorAccounts)
    (accts : BurnAccounts) (wallet : Pubkey) (amount fromBalanceAfter : ℕ) : Result Ledger := do
  let tokenState ← operator.check L signers
  require (tokenState.paused = false) (.token .tokenPaused)
  let sender ← requireWalletIdentity L accts.fromWalletIdentity wallet accts.irsState
  validateTokenMintAccount L accts.tokenMintAccount tokenState true
  let source ← readTokenAccount L accts.sourceTokenAccount
  validateTokenAccount source tokenState.tokenMint wallet
  let expected ← okOr (checkedSub source.amount amount) (.token .insufficientBalance)
  require (expected = fromBalanceAfter) (.token .invalidTokenAccount)
  let L ← invokeComplianceDestroyed L accts.complianceProgram accts.complianceState
    accts.remaining amount fromBalanceAfter sender.country
  invokeTokenBurnChecked L signers tokenState accts.tokenProgram accts.sourceTokenAccount
    accts.tokenMintAccount operator.tokenState amount

/-! ## Forced transfers and recoveries -/

/-- The accounts of a transfer that the controller makes itself. -/
structure ControllerTransferAccounts extends RegistryAccounts where
  complianceState : Pubkey
  complianceProgram : Pubkey
  fromWalletIdentity : Pubkey
  toWalletIdentity : Pubkey
  toFrozen : Pubkey
  tokenMintAccount : Pubkey
  sourceTokenAccount : Pubkey
  destinationTokenAccount : Pubkey
  extraAccountMetas : Pubkey
  controllerProgram : Pubkey
  hookProgram : Pubkey
  transferApproval : Pubkey
  systemProgram : Pubkey
  tokenProgram : Pubkey
  remaining : List Pubkey

/-- The approval, the account list for the hook, and the transfer. -/
def approveAndTransfer (L : Ledger) (signers : List Pubkey) (operator : OperatorAccounts)
    (tokenState : TokenState) (accts : ControllerTransferAccounts) (source destination : Pubkey)
    (amount fromBalance toBalance fromCountry toCountry kind : ℕ) : Result Ledger := do
  let L ← approveHookTransfer L signers tokenState
    { payer := operator.authority
      controllerAuthority := operator.tokenState
      tokenState := operator.tokenState
      tokenMintAccount := accts.tokenMintAccount
      sourceTokenAccount := accts.sourceTokenAccount
      destinationTokenAccount := accts.destinationTokenAccount
      transferApproval := accts.transferApproval
      authoritySeed := operator.tokenState }
    { sourceWallet := source
      destinationWallet := destination
      authority := operator.tokenState
      amount, fromBalance, toBalance, fromCountry, toCountry, kind }
  let hookAccounts ← buildTokenHookAccounts L accts.controllerProgram operator.tokenState
    accts.transferApproval accts.complianceState accts.complianceProgram accts.extraAccountMetas
    accts.hookProgram accts.remaining
  invokeTokenTransferChecked L signers tokenState accts.tokenProgram accts.sourceTokenAccount
    accts.tokenMintAccount accts.destinationTokenAccount operator.tokenState amount hookAccounts

/-- The programs that the two instructions name. -/
def ControllerTransferAccounts.checkPrograms (accts : ControllerTransferAccounts) :
    Result Unit := do
  require (accts.controllerProgram = .program .fracksToken) (.token .invalidTokenProgram)
  requireProgram accts.hookProgram .fracksTokenHook
  requireProgram accts.systemProgram .system

/-- The record of the partial freeze may be that of any wallet of the token;
its amount shrinks by what was moved. -/
def forcedTransfer (L : Ledger) (signers : List Pubkey) (operator : OperatorAccounts)
    (fromPartialFreeze : Pubkey) (accts : ControllerTransferAccounts)
    (source destination : Pubkey) (amount fromBalance toBalance : ℕ) : Result Ledger := do
  let tokenState ← operator.check L signers
  let record ← L.load PartialFreeze fromPartialFreeze
  requireSeeds fromPartialFreeze (partialFreezeAddress tokenState.tokenMint record.wallet)
  accts.checkPrograms
  require (tokenState.paused = false) (.token .tokenPaused)
  ensureWalletNotFrozen L accts.toFrozen destination tokenState.tokenMint
  let sender ← requireWalletIdentity L accts.fromWalletIdentity source accts.irsState
  let receiver ← verifyWalletAgainstIrp L tokenState destination accts.toRegistryAccounts
    accts.toWalletIdentity accts.remaining
  validateTokenMintAccount L accts.tokenMintAccount tokenState true
  let sourceAccount ← readTokenAccount L accts.sourceTokenAccount
  let destinationAccount ← readTokenAccount L accts.destinationTokenAccount
  require (sourceAccount.amount = fromBalance) (.token .invalidTokenAccount)
  require (destinationAccount.amount = toBalance) (.token .invalidTokenAccount)
  validateTokenAccount sourceAccount tokenState.tokenMint source
  validateTokenAccount destinationAccount tokenState.tokenMint destination
  evaluateCompliance L tokenState accts.complianceState accts.remaining source amount toBalance
    sender.country receiver.country
  let L ← approveAndTransfer L signers operator tokenState accts source destination amount
    fromBalance toBalance sender.country receiver.country TokenHook.transferApprovalKindForced
  .ok (L.put fromPartialFreeze
    { record with frozenAmount := saturatingSub record.frozenAmount amount })

/-- No compliance check is made here, only the hook's. -/
def recovery (L : Ledger) (signers : List Pubkey) (operator : OperatorAccounts)
    (irsProgram : Pubkey) (accts : ControllerTransferAccounts) (lostWallet newWallet : Pubkey)
    (amount : ℕ) : Result Ledger := do
  let tokenState ← operator.check L signers
  requireProgram irsProgram .fracksIrs
  accts.checkPrograms
  require (tokenState.paused = false) (.token .tokenPaused)
  require (lostWallet ≠ newWallet) (.token .invalidRecoveryTarget)
  ensureWalletNotFrozen L accts.toFrozen newWallet tokenState.tokenMint
  let receiver ← verifyWalletAgainstIrp L tokenState newWallet accts.toRegistryAccounts
    accts.toWalletIdentity accts.remaining
  let lost ← requireWalletIdentity L accts.fromWalletIdentity lostWallet accts.irsState
  validateTokenMintAccount L accts.tokenMintAccount tokenState true
  let sourceAccount ← readTokenAccount L accts.sourceTokenAccount
  let destinationAccount ← readTokenAccount L accts.destinationTokenAccount
  validateTokenAccount sourceAccount tokenState.tokenMint lostWallet
  validateTokenAccount destinationAccount tokenState.tokenMint newWallet
  require (amount ≤ sourceAccount.amount) (.token .insufficientBalance)
  approveAndTransfer L signers operator tokenState accts lostWallet newWallet amount
    sourceAccount.amount destinationAccount.amount lost.country receiver.country
    TokenHook.transferApprovalKindRecovery

structure FinalizeAccounts where
  irsState : Pubkey
  irpState : Pubkey
  newWalletIdentity : Pubkey
  lostWalletIdentity : Pubkey
  transferApproval : Pubkey
  irsProgram : Pubkey

/-- The identity of the lost wallet is carried over to the new one and removed.
The flag `finalized` is set in memory only: the approval is an account of the
hook program, and this program does not write it back. -/
def finalizeRecovery (L : Ledger) (signers : List Pubkey) (operator : OperatorAccounts)
    (accts : FinalizeAccounts) (lostWallet newWallet : Pubkey) (amount : ℕ) :
    Result Ledger := do
  let _ ← operator.check L signers
  let approval ← L.load TransferApproval accts.transferApproval
  requireProgram accts.irsProgram .fracksIrs
  require (approval.kind = TokenHook.transferApprovalKindRecovery ∧ approval.consumed = true ∧
    approval.finalized = false) (.token .missingTransferApproval)
  require (accts.transferApproval = TokenHook.approvalAddress approval.sourceTokenAccount
    approval.destinationTokenAccount operator.tokenState) (.token .missingTransferApproval)
  require (approval.sourceWallet = lostWallet) (.token .missingTransferApproval)
  require (approval.destinationWallet = newWallet) (.token .missingTransferApproval)
  require (approval.amount = amount) (.token .missingTransferApproval)
  let lost ← requireWalletIdentity L accts.lostWalletIdentity lostWallet accts.irsState
  let identity (walletIdentity : Pubkey) : Irs.IdentityAccounts :=
    { authority := operator.authority, irsState := accts.irsState
      registryState := accts.irpState, walletIdentity }
  let L ← Irs.updateIdentity L signers (identity accts.newWalletIdentity) lost.fid
  let L ← Irs.updateCountry L signers (identity accts.newWalletIdentity) lost.country
  Irs.removeIdentity L signers (identity accts.lostWalletIdentity)

end Transfers

end Fracks.Token
