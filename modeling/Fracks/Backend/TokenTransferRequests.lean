import Fracks.Backend.Requests
import Fracks.Lib.Checked
import Fracks.Lib.Decimal
import Fracks.Lib.Keyed
import Fracks.Lib.Sessions

/-!
# Token transfer requests

The service of the backend for transfers that wait for the eligibility of their recipient.
A transfer that is already done may be reported as a new request; it then closes the open
one.
-/

namespace Fracks.Backend.TokenTransferRequests

open Checked Keyed Sessions

/-! ## Rows -/

inductive Status
  | draft
  | actionRequiredRecipientFid
  | pendingKyc
  | pendingAml
  | pendingIssuerWhitelist
  | pendingIssuerActivation
  | readyToTransfer
  | transferSimulationFailed
  | transferred
  | rejected
  | cancelled
  | senderNotEligible
  | senderFrozen
  | senderClaimExpired
  | insufficientTransferableBalance
  deriving DecidableEq

/-- VALID_STATUSES -/
def Status.ofText? (text : String) : Option Status :=
  List.lookup text [
    ("DRAFT", .draft),
    ("ACTION_REQUIRED_RECIPIENT_FID", .actionRequiredRecipientFid),
    ("PENDING_KYC", .pendingKyc),
    ("PENDING_AML", .pendingAml),
    ("PENDING_ISSUER_WHITELIST", .pendingIssuerWhitelist),
    ("PENDING_ISSUER_ACTIVATION", .pendingIssuerActivation),
    ("READY_TO_TRANSFER", .readyToTransfer),
    ("TRANSFER_SIMULATION_FAILED", .transferSimulationFailed),
    ("TRANSFERRED", .transferred),
    ("REJECTED", .rejected),
    ("CANCELLED", .cancelled),
    ("SENDER_NOT_ELIGIBLE", .senderNotEligible),
    ("SENDER_FROZEN", .senderFrozen),
    ("SENDER_CLAIM_EXPIRED", .senderClaimExpired),
    ("INSUFFICIENT_TRANSFERABLE_BALANCE", .insufficientTransferableBalance)]

/-- CLOSED_STATUSES -/
def Status.isClosed : Status → Bool
  | transferred => true
  | rejected => true
  | cancelled => true
  | _ => false

/-- A row of `TokenTransferRequest`. -/
structure TransferRequest where
  id : String
  assetId : Option String
  tokenContract : String
  fromWallet : String
  toWallet : String
  amount : Option Decimal.Number
  status : Status
  requiredClaimTopics : List String
  kycProvider : Option String
  amlProvider : Option String
  issuerWallet : Option String
  preflightFailure : Option String
  simulationError : Option String
  kycClaimTxHash : Option String := none
  kycClaimedAt : Option ℤ := none
  amlClaimTxHash : Option String := none
  amlClaimedAt : Option ℤ := none
  whitelistTxHash : Option String
  whitelistedAt : Option ℤ
  activationTxHash : Option String
  activatedAt : Option ℤ
  transferTxHash : Option String
  transferredAt : Option ℤ
  rejectionReason : Option String := none
  rejectedAt : Option ℤ := none
  rejectedBy : Option String := none
  createdAt : ℤ
  updatedAt : ℤ

structure Database where
  requests : Table TransferRequest.id

/-! ## Requests -/

/-- A field of type `Option (Option _)` may be missing or null. -/
structure CreateTokenTransferRequestDto where
  assetId : Option String := none
  tokenContract : String
  fromWallet : String
  toWallet : String
  amount : Decimal.Number
  status : Option String := none
  requiredClaimTopics : Option (List String) := none
  kycProvider : Option String := none
  amlProvider : Option String := none
  issuerWallet : Option String := none
  preflightFailure : Option (Option String) := none
  simulationError : Option (Option String) := none
  transferTxHash : Option String := none
  whitelistTxHash : Option String := none
  activationTxHash : Option String := none

structure UpdateTokenTransferRequestDto where
  status : Option String := none
  preflightFailure : Option (Option String) := none
  simulationError : Option (Option String) := none
  reviewerWallet : Option String := none
  rejectionReason : Option String := none
  transferTxHash : Option String := none
  claimTxHash : Option String := none
  whitelistTxHash : Option String := none
  activationTxHash : Option String := none

/-- A request to create, as the update reads it. -/
def CreateTokenTransferRequestDto.toUpdate (dto : CreateTokenTransferRequestDto) :
    UpdateTokenTransferRequestDto where
  status := dto.status
  preflightFailure := dto.preflightFailure
  simulationError := dto.simulationError
  transferTxHash := dto.transferTxHash
  whitelistTxHash := dto.whitelistTxHash
  activationTxHash := dto.activationTxHash

/-- Of the rows that a query without an order matches, any may come first. -/
structure TransferInput extends Input where
  scan : ℕ := 0

/-! ## Calls -/

/-- What remains of a call, by the statement that is next. -/
inductive Call
  | create (dto : CreateTokenTransferRequestDto)
  | insert (dto : CreateTokenTransferRequestDto) (status : Status)
  | updateStatus (id : String) (dto : UpdateTokenTransferRequestDto)
  | writeStatus (id : String) (dto : UpdateTokenTransferRequestDto) (status : Status)
      (existing : TransferRequest)

inductive Opens : Call → Prop
  | create (dto : CreateTokenTransferRequestDto) : Opens (.create dto)
  | updateStatus (id : String) (dto : UpdateTokenTransferRequestDto) : Opens (.updateStatus id dto)

abbrev Response := Except HttpError (Option TransferRequest)

abbrev Outcome := Database × (Call ⊕ Response)

/-! ### Creation -/

/-- An open request for the same sender, recipient and token. -/
def isDuplicate (dto : CreateTokenTransferRequestDto) (row : TransferRequest) : Bool :=
  row.tokenContract = dto.tokenContract ∧ row.fromWallet = dto.fromWallet ∧
    row.toWallet = dto.toWallet ∧ !row.status.isClosed

def findDuplicate (db : Database) (dto : CreateTokenTransferRequestDto) (scan : ℕ) :
    Option TransferRequest :=
  ((db.requests.rows.filter (isDuplicate dto)).rotate scan).head?

def planCreate (db : Database) (dto : CreateTokenTransferRequestDto) (scan : ℕ) :
    Except HttpError Call := do
  let status ← okOr (Status.ofText? ((orNull dto.status).getD "DRAFT"))
    (.conflict "Invalid token transfer request status.")
  match findDuplicate db dto scan with
  | some duplicate =>
      require (status = .transferred ∧ (orNull dto.transferTxHash).isSome) (.conflict
        "An open transfer request already exists for this sender, recipient, and token.")
      .ok (.updateStatus duplicate.id dto.toUpdate)
  | none => .ok (.insert dto status)

def newRequest (dto : CreateTokenTransferRequestDto) (status : Status) (input : Input) :
    TransferRequest where
  id := input.uuid
  assetId := orNull dto.assetId
  tokenContract := dto.tokenContract
  fromWallet := dto.fromWallet
  toWallet := dto.toWallet
  amount := some dto.amount
  status := status
  requiredClaimTopics := dto.requiredClaimTopics.getD []
  kycProvider := orNull dto.kycProvider
  amlProvider := orNull dto.amlProvider
  issuerWallet := orNull dto.issuerWallet
  preflightFailure := orNull dto.preflightFailure.join
  simulationError := orNull dto.simulationError.join
  whitelistTxHash := orNull dto.whitelistTxHash
  whitelistedAt := (orNull dto.whitelistTxHash).map fun _ ↦ input.now
  activationTxHash := orNull dto.activationTxHash
  activatedAt := (orNull dto.activationTxHash).map fun _ ↦ input.now
  transferTxHash := orNull dto.transferTxHash
  transferredAt := if status = .transferred then some input.now else none
  createdAt := input.databaseNow
  updatedAt := input.databaseNow

def insertRequest (db : Database) (row : TransferRequest) : Outcome :=
  conclude db ((db.requests.insert row).map fun requests ↦ ({ requests }, some row))

/-! ### The status of a request -/

def findOne (db : Database) (id : String) : Except HttpError TransferRequest :=
  okOr (db.requests.find id) (.notFound "Token transfer request not found")

/-- What an update sets, after the row `existing` was read. -/
def updates (dto : UpdateTokenTransferRequestDto) (status : Status) (existing : TransferRequest)
    (now : ℤ) (row : TransferRequest) : TransferRequest :=
  let claimed := fun pending ↦ (orNull dto.claimTxHash).filter fun _ ↦ existing.status = pending
  let date := fun (given : Option String) (stored : Option ℤ) ↦
    if given.isSome then some now else stored
  let kyc := claimed .pendingKyc
  let aml := claimed .pendingAml
  let whitelist := orNull dto.whitelistTxHash
  let activation := orNull dto.activationTxHash
  { row with
    status
    updatedAt := now
    preflightFailure := dto.preflightFailure.getD row.preflightFailure
    simulationError := dto.simulationError.getD row.simulationError
    kycClaimTxHash := kyc <|> row.kycClaimTxHash
    kycClaimedAt := date kyc row.kycClaimedAt
    amlClaimTxHash := aml <|> row.amlClaimTxHash
    amlClaimedAt := date aml row.amlClaimedAt
    whitelistTxHash := whitelist <|> row.whitelistTxHash
    whitelistedAt := date whitelist row.whitelistedAt
    activationTxHash := activation <|> row.activationTxHash
    activatedAt := date activation row.activatedAt
    transferTxHash :=
      if status = .transferred then orNull dto.transferTxHash else row.transferTxHash
    transferredAt := if status = .transferred then some now else row.transferredAt
    rejectionReason := if status = .rejected then
      some ((orNull dto.rejectionReason).getD "Rejected") else row.rejectionReason
    rejectedAt := if status = .rejected then some now else row.rejectedAt
    rejectedBy := if status = .rejected then orNull dto.reviewerWallet else row.rejectedBy }

theorem updates_id (dto : UpdateTokenTransferRequestDto) (status : Status)
    (existing : TransferRequest) (now : ℤ) (row : TransferRequest) :
    (updates dto status existing now row).id = row.id := rfl

/-! ### Statements -/

def advance (db : Database) (call : Call) (input : TransferInput) : Outcome :=
  match call with
  | .create dto => proceed db do
      let call ← planCreate db dto input.scan
      .ok (.inl call)
  | .insert dto status => insertRequest db (newRequest dto status input.toInput)
  | .updateStatus id dto => proceed db do
      let existing ← findOne db id
      let status ← okOr ((orNull dto.status).bind Status.ofText?)
        (.conflict "Invalid token transfer request status.")
      .ok (.inl (.writeStatus id dto status existing))
  | .writeStatus id dto status existing =>
      let requests := db.requests.update id (updates dto status existing input.databaseNow)
        (updates_id _ _ _ _)
      ({ requests }, .inr (.ok (requests.find id)))

end Fracks.Backend.TokenTransferRequests
