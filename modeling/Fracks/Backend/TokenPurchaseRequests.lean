import Fracks.Backend.Compliance
import Fracks.Lib.Checked
import Fracks.Lib.Keyed
import Fracks.Lib.Sessions

/-!
# Token purchase requests

The service of the backend for purchase requests.  A request is created after a check of
its compliance, which is a statement for each thing it reads; the indexer may write its
tables between any two statements.
-/

namespace Fracks.Backend.TokenPurchaseRequests

open Checked Json Keyed Sessions

/-! ## Rows -/

inductive Status
  | submitted
  | pendingKyc
  | pendingAml
  | pendingIssuerReview
  | approvedForMint
  | actionRequiredInvestorIdentity
  | rejected
  | cancelled
  | minted
  deriving DecidableEq

/-- VALID_STATUSES -/
def Status.ofText? (text : String) : Option Status :=
  List.lookup text [
    ("SUBMITTED", .submitted),
    ("PENDING_KYC", .pendingKyc),
    ("PENDING_AML", .pendingAml),
    ("PENDING_ISSUER_REVIEW", .pendingIssuerReview),
    ("APPROVED_FOR_MINT", .approvedForMint),
    ("ACTION_REQUIRED_INVESTOR_IDENTITY", .actionRequiredInvestorIdentity),
    ("REJECTED", .rejected),
    ("CANCELLED", .cancelled),
    ("MINTED", .minted)]

/-- CLOSED_STATUSES -/
def Status.isClosed : Status → Bool
  | rejected => true
  | cancelled => true
  | minted => true
  | _ => false

/-- ACTIVE_STATUSES -/
def Status.isActive : Status → Bool
  | submitted => true
  | pendingKyc => true
  | pendingAml => true
  | pendingIssuerReview => true
  | approvedForMint => true
  | actionRequiredInvestorIdentity => true
  | _ => false

/-- A row of `TokenPurchaseRequest`. -/
structure PurchaseRequest where
  id : String
  assetId : Option String
  tokenContract : String
  investorWallet : String
  amount : Option Decimal.Number
  fullName : Option String
  email : Option String
  nationality : Option String
  country : Option String
  idDocumentUrl : Option String
  proofOfAddressUrl : Option String
  kycProvider : Option String
  amlProvider : Option String
  issuerWallet : Option String
  requiredClaimTopics : List String
  documents : Option Value
  status : Status
  kycApprovedAt : Option ℤ := none
  kycApprovedBy : Option String := none
  kycClaimTxHash : Option String := none
  amlApprovedAt : Option ℤ := none
  amlApprovedBy : Option String := none
  amlClaimTxHash : Option String := none
  issuerApprovedAt : Option ℤ := none
  issuerApprovedBy : Option String := none
  whitelistTxHash : Option String := none
  whitelistedAt : Option ℤ := none
  activationTxHash : Option String := none
  activatedAt : Option ℤ := none
  mintTxHash : Option String := none
  mintedAt : Option ℤ := none
  rejectionReason : Option String := none
  rejectedAt : Option ℤ := none
  rejectedBy : Option String := none
  createdAt : ℤ
  updatedAt : ℤ

/-- A row of `TokenBalance`. -/
structure TokenBalance where
  tokenContract : String
  walletAddress : String
  balance : String

/-- The tables that the indexer writes. -/
structure Index where
  metadata : String → Option Value
  totalSupply : String → Option String
  balances : List TokenBalance

structure Database where
  requests : Table PurchaseRequest.id
  index : Index

/-! ## Requests -/

structure CreateTokenPurchaseRequestDto where
  assetId : Option String := none
  tokenContract : String
  investorWallet : String
  issuerWallet : String
  kycProvider : Option String := none
  amlProvider : Option String := none
  amount : Decimal.Number
  fullName : Option String := none
  email : Option String := none
  nationality : Option String := none
  country : Option String := none
  idDocumentUrl : Option String := none
  proofOfAddressUrl : Option String := none
  requiredClaimTopics : List String := []
  investorFidRegistered : Option Bool := none
  documents : Option Value := none

structure UpdateTokenPurchaseRequestDto where
  status : Option String := none
  reviewerWallet : Option String := none
  rejectionReason : Option String := none
  claimTxHash : Option String := none
  mintTxHash : Option String := none
  whitelistTxHash : Option String := none
  activationTxHash : Option String := none

/-- What a statement may find outside of the database. -/
structure PurchaseInput extends Input where
  liveBalance : Except String ℕ := .ok 0
  liveState : Except String MaxInvestorsState := .ok ⟨0, 0⟩

/-! ## Calls -/

/-- The statements of the creation of a request. -/
inductive Stage
  | asset
  | duplicate
  | balance
  | activeRequests
  | live
  | holders
  | countryWallets
  | tokenState
  | recheck
  | insert
  deriving DecidableEq

/-- What remains of a call, by the statement that is next. -/
inductive Call
  | create (stage : Stage) (dto : CreateTokenPurchaseRequestDto) (reads : Reads)
  | updateStatus (id : String) (dto : UpdateTokenPurchaseRequestDto)
  | writeStatus (id : String) (dto : UpdateTokenPurchaseRequestDto) (status : Status)
      (existing : PurchaseRequest)
  | resumeAfterIdentity (id : String)
  | writeResumed (id : String) (nextStatus : Status)
  | reindex (index : Index)

abbrev Response := Except HttpError (Option PurchaseRequest)

abbrev Outcome := Database × (Call ⊕ Response)

/-! ### Creation -/

def complianceData (dto : CreateTokenPurchaseRequestDto) : ComplianceData where
  tokenContract := dto.tokenContract
  investorWallet := dto.investorWallet
  country := dto.country.map .string
  amount := some (.number false dto.amount)

/-- An open request of the investor for the token. -/
def isDuplicate (tokenContract investorWallet : String) (row : PurchaseRequest) : Bool :=
  row.tokenContract = tokenContract ∧ row.investorWallet = investorWallet ∧ !row.status.isClosed

def hasActiveRequest (db : Database) (tokenContract investorWallet : String) : Bool :=
  db.requests.rows.any (isDuplicate tokenContract investorWallet)

def getActiveRequests (db : Database) (tokenContract : String) : List ActiveRequest :=
  (db.requests.rows.filter fun row ↦ row.tokenContract = tokenContract ∧ row.status.isActive).map
    fun row ↦ ⟨row.investorWallet, row.amount, row.country⟩

def getCountryRequestWallets (db : Database) (tokenContract : String) (country : ℤ) : List String :=
  ((db.requests.rows.filter fun row ↦ row.tokenContract = tokenContract ∧
    row.country = some (Decimal.textOf country) ∧
      (row.status.isActive ∨ row.status = .minted)).map (·.investorWallet)).dedup

def getBalance (index : Index) (tokenContract walletAddress : String) : Option String :=
  (index.balances.find? fun row ↦
    row.tokenContract = tokenContract ∧ row.walletAddress = walletAddress).map (·.balance)

def getHolders (index : Index) (tokenContract : String) : List String :=
  (index.balances.filter fun row ↦ row.tokenContract = tokenContract ∧ row.balance ≠ "0").map
    (·.walletAddress)

/-- The indexed supply; without one it is zero. -/
def currentSupply (totalSupply : Option String) : Except HttpError ℤ :=
  match orNull totalSupply with
  | none => .ok 0
  | some supply => okOr (Decimal.ofInteger? supply) .internal

def validateCompliance (dto : CreateTokenPurchaseRequestDto) (reads : Reads) :
    Except HttpError Unit := do
  let supply ← currentSupply reads.totalSupply
  let result := calculateCompliance (complianceData dto) reads supply
  match result.amountError, result.blockingReasons with
  | some message, _ => .error (.badRequest message)
  | none, reason :: _ => .error (.badRequest reason)
  | none, [] => .ok ()

def getInitialStatus (dto : CreateTokenPurchaseRequestDto) : Status :=
  if dto.investorFidRegistered = some false then .actionRequiredInvestorIdentity
  else if dto.requiredClaimTopics.contains "1" ∧ (orNull dto.kycProvider).isSome then .pendingKyc
  else if dto.requiredClaimTopics.contains "2" ∧ (orNull dto.amlProvider).isSome then .pendingAml
  else .pendingIssuerReview

def newRequest (dto : CreateTokenPurchaseRequestDto) (input : Input) : PurchaseRequest where
  id := input.uuid
  assetId := orNull dto.assetId
  tokenContract := dto.tokenContract
  investorWallet := dto.investorWallet
  amount := some dto.amount
  fullName := orNull dto.fullName
  email := orNull dto.email
  nationality := orNull dto.nationality
  country := orNull dto.country
  idDocumentUrl := orNull dto.idDocumentUrl
  proofOfAddressUrl := orNull dto.proofOfAddressUrl
  kycProvider := orNull dto.kycProvider
  amlProvider := orNull dto.amlProvider
  issuerWallet := some dto.issuerWallet
  requiredClaimTopics := dto.requiredClaimTopics
  documents := dto.documents
  status := getInitialStatus dto
  createdAt := input.databaseNow
  updatedAt := input.databaseNow

def insertRequest (db : Database) (row : PurchaseRequest) : Outcome :=
  conclude db ((db.requests.insert row).map fun requests ↦ ({ db with requests }, some row))

/-- A statement that reads, with what it adds to the reads and the one that follows. -/
def readStage (db : Database) (dto : CreateTokenPurchaseRequestDto) (reads : Reads)
    (input : PurchaseInput) : Stage → Reads × Stage
  | .asset => ({ reads with metadata := db.index.metadata dto.tokenContract }, .duplicate)
  | .duplicate =>
      ({ reads with duplicate := hasActiveRequest db dto.tokenContract dto.investorWallet },
        .balance)
  | .balance =>
      ({ reads with balance := getBalance db.index dto.tokenContract dto.investorWallet },
        .activeRequests)
  | .activeRequests =>
      ({ reads with activeRequests := getActiveRequests db dto.tokenContract }, .live)
  | .live => ({ reads with
      liveBalance := input.liveBalance
      liveState := input.liveState
      now := input.now }, .holders)
  | .holders => ({ reads with holders := getHolders db.index dto.tokenContract }, .countryWallets)
  | .countryWallets =>
      let wallets := fun country ↦ getCountryRequestWallets db dto.tokenContract (trunc country)
      ({ reads with
        countryWallets := ((investorCountry (complianceData dto)).map wallets).getD [] },
        .tokenState)
  | .tokenState => ({ reads with totalSupply := db.index.totalSupply dto.tokenContract }, .recheck)
  | .recheck => (reads, .insert)
  | .insert => (reads, .insert)

def createStage (db : Database) (stage : Stage) (dto : CreateTokenPurchaseRequestDto)
    (reads : Reads) (input : PurchaseInput) : Outcome :=
  let next := readStage db dto reads input stage
  match stage with
  | .tokenState => proceed db do
      validateCompliance dto next.1
      .ok (.inl (.create next.2 dto next.1))
  | .recheck => proceed db do
      require (¬ hasActiveRequest db dto.tokenContract dto.investorWallet)
        (.conflict "An open purchase request already exists for this investor and token.")
      .ok (.inl (.create next.2 dto next.1))
  | .insert => insertRequest db (newRequest dto input.toInput)
  | _ => (db, .inl (.create next.2 dto next.1))

/-! ### The status of a request -/

def findOne (db : Database) (id : String) : Except HttpError PurchaseRequest :=
  okOr (db.requests.find id) (.notFound "Token purchase request not found")

/-- What an update sets, after the row `existing` was read. -/
def updates (dto : UpdateTokenPurchaseRequestDto) (status : Status) (existing : PurchaseRequest)
    (input : Input) (row : PurchaseRequest) : PurchaseRequest :=
  let now := some input.now
  let reviewer := orNull dto.reviewerWallet
  let claim := orNull dto.claimTxHash
  let kyc := status = .pendingAml ∨ (status = .pendingIssuerReview ∧ existing.status = .pendingKyc)
  let aml := status = .pendingIssuerReview ∧ existing.status = .pendingAml
  let whitelist := orNull dto.whitelistTxHash
  let activation := orNull dto.activationTxHash
  { row with
    status
    updatedAt := input.databaseNow
    kycApprovedAt := if kyc then now else row.kycApprovedAt
    kycApprovedBy := if kyc then reviewer else row.kycApprovedBy
    kycClaimTxHash := if kyc then claim else row.kycClaimTxHash
    amlApprovedAt := if aml then now else row.amlApprovedAt
    amlApprovedBy := if aml then reviewer else row.amlApprovedBy
    amlClaimTxHash := if aml then claim else row.amlClaimTxHash
    issuerApprovedAt := if status = .approvedForMint then now else row.issuerApprovedAt
    issuerApprovedBy := if status = .approvedForMint ∨ status = .minted then reviewer
      else row.issuerApprovedBy
    whitelistTxHash := whitelist <|> row.whitelistTxHash
    whitelistedAt := if whitelist.isSome then now else row.whitelistedAt
    activationTxHash := activation <|> row.activationTxHash
    activatedAt := if activation.isSome then now else row.activatedAt
    mintedAt := if status = .minted then now else row.mintedAt
    mintTxHash := if status = .minted then orNull dto.mintTxHash else row.mintTxHash
    rejectedAt := if status = .rejected then now else row.rejectedAt
    rejectedBy := if status = .rejected then reviewer else row.rejectedBy
    rejectionReason := if status = .rejected then
      some ((orNull dto.rejectionReason).getD "Rejected") else row.rejectionReason }

theorem updates_id (dto : UpdateTokenPurchaseRequestDto) (status : Status)
    (existing : PurchaseRequest) (input : Input) (row : PurchaseRequest) :
    (updates dto status existing input row).id = row.id := rfl

def getResumeStatus (row : PurchaseRequest) : Status :=
  if row.requiredClaimTopics.contains "1" ∧ (orNull row.kycProvider).isSome then .pendingKyc
  else if row.requiredClaimTopics.contains "2" ∧ (orNull row.amlProvider).isSome then .pendingAml
  else .pendingIssuerReview

def resumed (status : Status) (input : Input) (row : PurchaseRequest) : PurchaseRequest :=
  { row with status, updatedAt := input.databaseNow }

theorem resumed_id (status : Status) (input : Input) (row : PurchaseRequest) :
    (resumed status input row).id = row.id := rfl

def writeRequest (db : Database) (id : String) (change : PurchaseRequest → PurchaseRequest)
    (hid : ∀ row, (change row).id = row.id) : Outcome :=
  let requests := db.requests.update id change hid
  ({ db with requests }, .inr (.ok (requests.find id)))

/-! ### Statements -/

def advance (db : Database) (call : Call) (input : PurchaseInput) : Outcome :=
  match call with
  | .create stage dto reads => createStage db stage dto reads input
  | .updateStatus id dto => proceed db do
      let existing ← findOne db id
      let status ← okOr ((orNull dto.status).bind Status.ofText?)
        (.conflict "Invalid token purchase request status.")
      .ok (.inl (.writeStatus id dto status existing))
  | .writeStatus id dto status existing =>
      writeRequest db id (updates dto status existing input.toInput) (updates_id _ _ _ _)
  | .resumeAfterIdentity id => proceed db do
      let existing ← findOne db id
      if existing.status = .actionRequiredInvestorIdentity then
        .ok (.inl (.writeResumed id (getResumeStatus existing)))
      else .ok (.inr (some existing))
  | .writeResumed id status => writeRequest db id (resumed status input.toInput) (resumed_id _ _)
  | .reindex index => ({ db with index }, .inr (.ok none))

end Fracks.Backend.TokenPurchaseRequests
