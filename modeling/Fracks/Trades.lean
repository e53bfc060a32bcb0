import Fracks.Constraints
import Fracks.Lib.Runs

/-!
# Trades

`fracks_trade_escrow`: a seller opens a trade under a number, locks its tokens, the payment is
confirmed and the trade is settled, or it is cancelled before that.  The program only keeps the
record of the trade; the tokens and the payment move elsewhere.
-/

namespace Fracks.Trades

open Checked AccountType Ledger Runs

def tradeEscrowSpace : ℕ := 8 + 384

def institutionRoleSpace : ℕ := 8 + 160

def tradeAddress (tradeId : ℕ) : Pubkey :=
  .findProgramAddress .tradeEscrow [.num tradeId] (.program .fracksTradeEscrow)

def institutionAddress (tokenMint institutionWallet : Pubkey) : Pubkey :=
  .findProgramAddress .institution [.key tokenMint, .key institutionWallet]
    (.program .fracksTradeEscrow)

structure InitiateTradeArgs where
  tradeId : ℕ
  tokenMint : Pubkey
  buyer : Pubkey
  tokenAmount : ℕ
  pricePerToken : ℕ
  paymentReferenceHash : ℕ
  quickExit : Bool

/-! ## Institutions -/

def grantInstitutionRole (L : Ledger) (signers : List Pubkey)
    (owner institutionRole tokenMint institutionWallet : Pubkey) (maxBalanceOverride : ℕ) :
    Result Ledger := do
  requireSigner signers owner
  L.initRecord owner institutionRole (institutionAddress tokenMint institutionWallet)
    institutionRoleSpace
    { tokenMint, owner, institutionWallet, maxBalanceOverride, isActive := true,
      createdAt := L.now : InstitutionRole }

def revokeInstitutionRole (L : Ledger) (signers : List Pubkey) (owner institutionRole : Pubkey) :
    Result Ledger := do
  requireSigner signers owner
  L.modify institutionRole fun (role : InstitutionRole) ↦ do
    require (owner = role.owner) (.tradeEscrow .unauthorizedOwner)
    .ok { role with isActive := false }

/-! ## The trade -/

def initiateTrade (L : Ledger) (signers : List Pubkey) (seller tradeEscrow : Pubkey)
    (args : InitiateTradeArgs) : Result Ledger := do
  requireSigner signers seller
  require (0 < args.tokenAmount) (.tradeEscrow .invalidTokenAmount)
  require (0 < args.pricePerToken) (.tradeEscrow .invalidPrice)
  L.initRecord seller tradeEscrow (tradeAddress args.tradeId) tradeEscrowSpace
    { tradeId := args.tradeId
      tokenMint := args.tokenMint
      seller
      buyer := args.buyer
      tokenAmount := args.tokenAmount
      pricePerToken := args.pricePerToken
      paymentReferenceHash := args.paymentReferenceHash
      settlementHash := 0
      cancellationReasonHash := 0
      quickExit := args.quickExit
      status := .initiated
      createdAt := L.now
      lockedAt := 0
      paymentConfirmedAt := 0
      settledAt := 0
      cancelledAt := 0 : TradeEscrow }

/-- The accounts of `MutateTrade`. -/
def mutateTrade (L : Ledger) (signers : List Pubkey) (authority tradeEscrow : Pubkey)
    (f : TradeEscrow → Result TradeEscrow) : Result Ledger := do
  requireSigner signers authority
  L.modify tradeEscrow fun (escrow : TradeEscrow) ↦ do
    requireSeeds tradeEscrow (tradeAddress escrow.tradeId)
    f escrow

def lockTokens (L : Ledger) (signers : List Pubkey) (authority tradeEscrow : Pubkey) :
    Result Ledger :=
  mutateTrade L signers authority tradeEscrow fun escrow ↦ do
    require (authority = escrow.seller) (.tradeEscrow .unauthorizedSeller)
    require (escrow.status = .initiated) (.tradeEscrow .invalidTradeStatus)
    .ok { escrow with status := .tokensLocked, lockedAt := L.now }

def confirmBuyerPayment (L : Ledger) (signers : List Pubkey) (authority tradeEscrow : Pubkey)
    (paymentReferenceHash : ℕ) : Result Ledger :=
  mutateTrade L signers authority tradeEscrow fun escrow ↦ do
    require (escrow.status = .tokensLocked) (.tradeEscrow .invalidTradeStatus)
    require (escrow.buyer = .default ∨ authority = escrow.buyer ∨ authority = escrow.seller)
      (.tradeEscrow .unauthorizedPaymentConfirmer)
    .ok { escrow with
      paymentReferenceHash
      status := .paymentConfirmed
      paymentConfirmedAt := L.now }

def settleTrade (L : Ledger) (signers : List Pubkey) (authority tradeEscrow : Pubkey)
    (settlementHash : ℕ) : Result Ledger :=
  mutateTrade L signers authority tradeEscrow fun escrow ↦ do
    require (escrow.status = .paymentConfirmed) (.tradeEscrow .invalidTradeStatus)
    require (authority = escrow.seller ∨ escrow.buyer = .default ∨ authority = escrow.buyer)
      (.tradeEscrow .unauthorizedSettlement)
    .ok { escrow with settlementHash, status := .settled, settledAt := L.now }

def cancelTrade (L : Ledger) (signers : List Pubkey) (authority tradeEscrow : Pubkey)
    (reasonHash : ℕ) : Result Ledger :=
  mutateTrade L signers authority tradeEscrow fun escrow ↦ do
    require (escrow.status = .initiated ∨ escrow.status = .tokensLocked)
      (.tradeEscrow .invalidTradeStatus)
    require (authority = escrow.seller ∨ escrow.buyer = .default ∨ authority = escrow.buyer)
      (.tradeEscrow .unauthorizedCancellation)
    .ok { escrow with
      cancellationReasonHash := reasonHash
      status := .cancelled
      cancelledAt := L.now }

inductive Instruction
  | grantInstitutionRole (owner institutionRole tokenMint institutionWallet : Pubkey)
      (maxBalanceOverride : ℕ)
  | revokeInstitutionRole (owner institutionRole : Pubkey)
  | initiateTrade (seller tradeEscrow : Pubkey) (args : InitiateTradeArgs)
  | lockTokens (authority tradeEscrow : Pubkey)
  | confirmBuyerPayment (authority tradeEscrow : Pubkey) (paymentReferenceHash : ℕ)
  | settleTrade (authority tradeEscrow : Pubkey) (settlementHash : ℕ)
  | cancelTrade (authority tradeEscrow : Pubkey) (reasonHash : ℕ)

def process (L : Ledger) (signers : List Pubkey) : Instruction → Result Ledger
  | .grantInstitutionRole owner institutionRole tokenMint institutionWallet maxBalanceOverride =>
      Trades.grantInstitutionRole L signers owner institutionRole tokenMint institutionWallet
        maxBalanceOverride
  | .revokeInstitutionRole owner institutionRole =>
      Trades.revokeInstitutionRole L signers owner institutionRole
  | .initiateTrade seller tradeEscrow args => Trades.initiateTrade L signers seller tradeEscrow args
  | .lockTokens authority tradeEscrow => Trades.lockTokens L signers authority tradeEscrow
  | .confirmBuyerPayment authority tradeEscrow paymentReferenceHash =>
      Trades.confirmBuyerPayment L signers authority tradeEscrow paymentReferenceHash
  | .settleTrade authority tradeEscrow settlementHash =>
      Trades.settleTrade L signers authority tradeEscrow settlementHash
  | .cancelTrade authority tradeEscrow reasonHash =>
      Trades.cancelTrade L signers authority tradeEscrow reasonHash

/-! ## Histories -/

/-- The kinds of accounts of the program. -/
def tradeKinds : List AccountKind := [.tradeEscrow, .institutionRole]

inductive Label
  | instruction (signers : List Pubkey) (i : Instruction)
  | environment

/-- An instruction of the program, or time and other programs at work; the clock only goes
forward. -/
inductive Step : Ledger → Label → Ledger → Prop
  | instruction {L L' : Ledger} (signers : List Pubkey) (i : Instruction) :
      process L signers i = .ok L' → Step L (.instruction signers i) L'
  | environment {L L' : Ledger} (S : List AccountKind) : Frame S L L' →
      (∀ kind ∈ tradeKinds, kind ∉ S) → L.now ≤ L'.now → Step L .environment L'

end Fracks.Trades
