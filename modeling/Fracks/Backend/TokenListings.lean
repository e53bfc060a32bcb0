import Fracks.Backend.Requests
import Fracks.Lib.Checked
import Fracks.Lib.Decimal
import Fracks.Lib.Keyed
import Fracks.Lib.Sessions
import Mathlib.Data.Rat.Defs

/-!
# Token listings

The service of the backend for sell listings and buy intents.  Between two statements of
a call the statements of other calls may come.  The settlement of a buy intent is one
transaction: its rows stay locked from their update to the commit.
-/

namespace Fracks.Backend.TokenListings

open Checked Keyed Sessions

/-! ## Statuses -/

inductive ListingStatus
  | listed
  | partiallyFilled
  | filled
  | cancelled
  | expired
  deriving DecidableEq

def ListingStatus.ofText? (text : String) : Option ListingStatus :=
  List.lookup text [
    ("LISTED", .listed),
    ("PARTIALLY_FILLED", .partiallyFilled),
    ("FILLED", .filled),
    ("CANCELLED", .cancelled),
    ("EXPIRED", .expired)]

/-- OPEN_LISTING_STATUSES -/
def ListingStatus.isOpen : ListingStatus → Bool
  | listed => true
  | partiallyFilled => true
  | _ => false

inductive BuyIntentStatus
  | buyerInterested
  | buyerCheckingEligibility
  | actionRequiredBuyerFid
  | pendingKyc
  | pendingAml
  | pendingIssuerWhitelist
  | pendingIssuerActivation
  | buyerEligible
  | readyForSellerAcceptance
  | sellerAccepted
  | readyToTransfer
  | transferSimulationFailed
  | transferred
  | rejected
  | cancelled
  | expired
  | sellerNotEligible
  | sellerFrozen
  | sellerClaimExpired
  | insufficientTransferableBalance
  deriving DecidableEq

def BuyIntentStatus.ofText? (text : String) : Option BuyIntentStatus :=
  List.lookup text [
    ("BUYER_INTERESTED", .buyerInterested),
    ("BUYER_CHECKING_ELIGIBILITY", .buyerCheckingEligibility),
    ("ACTION_REQUIRED_BUYER_FID", .actionRequiredBuyerFid),
    ("PENDING_KYC", .pendingKyc),
    ("PENDING_AML", .pendingAml),
    ("PENDING_ISSUER_WHITELIST", .pendingIssuerWhitelist),
    ("PENDING_ISSUER_ACTIVATION", .pendingIssuerActivation),
    ("BUYER_ELIGIBLE", .buyerEligible),
    ("READY_FOR_SELLER_ACCEPTANCE", .readyForSellerAcceptance),
    ("SELLER_ACCEPTED", .sellerAccepted),
    ("READY_TO_TRANSFER", .readyToTransfer),
    ("TRANSFER_SIMULATION_FAILED", .transferSimulationFailed),
    ("TRANSFERRED", .transferred),
    ("REJECTED", .rejected),
    ("CANCELLED", .cancelled),
    ("EXPIRED", .expired),
    ("SELLER_NOT_ELIGIBLE", .sellerNotEligible),
    ("SELLER_FROZEN", .sellerFrozen),
    ("SELLER_CLAIM_EXPIRED", .sellerClaimExpired),
    ("INSUFFICIENT_TRANSFERABLE_BALANCE", .insufficientTransferableBalance)]

/-- BUY_INTENT_CLOSED_STATUSES -/
def BuyIntentStatus.isClosed : BuyIntentStatus → Bool
  | transferred => true
  | rejected => true
  | cancelled => true
  | expired => true
  | _ => false

/-- SELLER_ACCEPTANCE_STATUSES -/
def BuyIntentStatus.isSellerAcceptance : BuyIntentStatus → Bool
  | sellerAccepted => true
  | readyToTransfer => true
  | _ => false

/-! ## Rows -/

/-- A row of `TokenSellListing`. -/
structure Listing where
  id : String
  assetId : Option String
  tokenContract : String
  sellerWallet : String
  targetBuyerWallet : Option String
  amountBaseUnits : String
  amountRemaining : String
  price : Option ℚ
  currency : Option String
  status : ListingStatus
  settlementTerms : Option String
  expiresAt : Option ℤ
  createdAt : ℤ
  updatedAt : ℤ

/-- A row of `TokenBuyIntent`. -/
structure BuyIntent where
  id : String
  listingId : String
  assetId : Option String
  tokenContract : String
  sellerWallet : String
  buyerWallet : String
  amountBaseUnits : String
  fullName : Option String
  email : Option String
  nationality : Option String
  country : Option String
  idDocumentUrl : Option String
  proofOfAddressUrl : Option String
  status : BuyIntentStatus
  requiredClaimTopics : List String
  kycProvider : Option String
  amlProvider : Option String
  issuerWallet : Option String
  preflightFailure : Option String
  simulationError : Option String
  kycClaimTxHash : Option String := none
  kycClaimedAt : Option ℤ := none
  amlClaimTxHash : Option String := none
  amlClaimedAt : Option ℤ := none
  whitelistTxHash : Option String := none
  whitelistedAt : Option ℤ := none
  activationTxHash : Option String := none
  activatedAt : Option ℤ := none
  transferTxHash : Option String := none
  transferredAt : Option ℤ := none
  rejectionReason : Option String := none
  rejectedAt : Option ℤ := none
  rejectedBy : Option String := none
  createdAt : ℤ
  updatedAt : ℤ

/-- A row of `TokenTransferHistory`. -/
structure Transfer where
  id : String
  listingId : Option String
  buyIntentId : Option String
  tokenContract : String
  fromWallet : String
  toWallet : String
  amountBaseUnits : String
  txHash : String
  createdAt : ℤ

structure Database where
  listings : Table Listing.id
  intents : Table BuyIntent.id
  history : Table Transfer.id

def Database.empty : Database := ⟨.empty, .empty, .empty⟩

/-! ## Requests -/

structure CreateTokenSellListingDto where
  assetId : Option String := none
  tokenContract : String
  sellerWallet : String
  targetBuyerWallet : Option String := none
  amountBaseUnits : String
  price : Option ℚ := none
  currency : Option String := none
  settlementTerms : Option String := none
  expiresAt : Option ℤ := none

structure UpdateTokenSellListingDto where
  status : String

structure CreateTokenBuyIntentDto where
  buyerWallet : String
  amountBaseUnits : String
  fullName : Option String := none
  email : Option String := none
  nationality : Option String := none
  country : Option String := none
  idDocumentUrl : Option String := none
  proofOfAddressUrl : Option String := none
  status : Option String := none
  requiredClaimTopics : Option (List String) := none
  kycProvider : Option String := none
  amlProvider : Option String := none
  issuerWallet : Option String := none
  preflightFailure : Option String := none
  simulationError : Option String := none

/-- A field of type `Option (Option _)` may be missing or null. -/
structure UpdateTokenBuyIntentDto where
  status : String
  reviewerWallet : Option String := none
  rejectionReason : Option String := none
  preflightFailure : Option (Option String) := none
  simulationError : Option (Option String) := none
  transferTxHash : Option String := none
  claimTxHash : Option String := none
  whitelistTxHash : Option String := none
  activationTxHash : Option String := none

/-! ## Calls -/

/-- A settlement that has passed the checks, with the amounts as they were read. -/
structure Settlement where
  id : String
  dto : UpdateTokenBuyIntentDto
  transferTxHash : String
  intent : BuyIntent
  requested : ℕ
  remaining : ℕ
  parsed : Decimal.parse intent.amountBaseUnits = some requested
  fits : requested ≤ remaining

def Settlement.newRemaining (settlement : Settlement) : ℕ :=
  settlement.remaining - settlement.requested

/-- What remains of a call, by the statement that is next. -/
inductive Call
  | createListing (dto : CreateTokenSellListingDto)
  | updateListingStatus (id : String) (dto : UpdateTokenSellListingDto)
  | writeListingStatus (id : String) (status : ListingStatus)
  | createBuyIntent (listingId : String) (dto : CreateTokenBuyIntentDto)
  | checkDuplicate (listing : Listing) (dto : CreateTokenBuyIntentDto) (buyerWallet : String)
      (status : BuyIntentStatus)
  | insertBuyIntent (listing : Listing) (dto : CreateTokenBuyIntentDto) (buyerWallet : String)
      (status : BuyIntentStatus)
  | updateBuyIntentStatus (id : String) (dto : UpdateTokenBuyIntentDto)
  | readListing (id : String) (dto : UpdateTokenBuyIntentDto) (status : BuyIntentStatus)
      (intent : BuyIntent)
  | writeBuyIntent (id : String) (dto : UpdateTokenBuyIntentDto) (status : BuyIntentStatus)
      (intent : BuyIntent)
  | settle (settlement : Settlement)
  | resumeBuyIntentAfterIdentity (id : String)
  | writeResumed (id : String) (nextStatus : BuyIntentStatus)

/-- The calls that a client makes. -/
inductive Opens : Call → Prop
  | createListing (dto : CreateTokenSellListingDto) : Opens (.createListing dto)
  | updateListingStatus (id : String) (dto : UpdateTokenSellListingDto) :
      Opens (.updateListingStatus id dto)
  | createBuyIntent (listingId : String) (dto : CreateTokenBuyIntentDto) :
      Opens (.createBuyIntent listingId dto)
  | updateBuyIntentStatus (id : String) (dto : UpdateTokenBuyIntentDto) :
      Opens (.updateBuyIntentStatus id dto)
  | resumeBuyIntentAfterIdentity (id : String) : Opens (.resumeBuyIntentAfterIdentity id)

inductive Reply
  | listing (row : Option Listing)
  | intent (row : Option BuyIntent)

abbrev Response := Except HttpError Reply

/-- What a statement leaves: the database, and the rest of the call or its response. -/
abbrev Outcome := Database × (Call ⊕ Response)

def findListing (db : Database) (id : String) : Except HttpError Listing :=
  okOr (db.listings.find id) (.notFound "Token listing not found.")

def findBuyIntent (db : Database) (id : String) : Except HttpError BuyIntent :=
  okOr (db.intents.find id) (.notFound "Buy intent not found.")

def parseAmount (value label : String) : Except HttpError ℕ :=
  okOr (Decimal.parse value)
    (.conflict (label ++ " must be a non-negative base-unit integer string."))

/-- `publicKey` is the text of the address that a text stands for, if it does. -/
def normalizeWallet (publicKey : String → Option String) (value label : String) :
    Except HttpError String :=
  okOr (publicKey value) (.conflict (label ++ " must be a valid Solana wallet address."))

/-! ### Listings -/

def newListing (publicKey : String → Option String) (dto : CreateTokenSellListingDto)
    (input : Input) : Except HttpError Listing := do
  let amount ← parseAmount dto.amountBaseUnits "amountBaseUnits"
  require (amount > 0) (.conflict "Listing amount must be greater than zero.")
  let sellerWallet ← normalizeWallet publicKey dto.sellerWallet "sellerWallet"
  let targetBuyerWallet ← (orNull dto.targetBuyerWallet).mapM fun wallet ↦
    normalizeWallet publicKey wallet "targetBuyerWallet"
  require (targetBuyerWallet ≠ some sellerWallet)
    (.conflict "targetBuyerWallet must be different from sellerWallet.")
  .ok {
    id := input.uuid
    assetId := orNull dto.assetId
    tokenContract := dto.tokenContract
    sellerWallet
    targetBuyerWallet
    amountBaseUnits := dto.amountBaseUnits
    amountRemaining := dto.amountBaseUnits
    price := dto.price
    currency := orNull dto.currency
    status := .listed
    settlementTerms := orNull dto.settlementTerms
    expiresAt := dto.expiresAt
    createdAt := input.databaseNow
    updatedAt := input.databaseNow }

def insertListing (db : Database) (listing : Listing) : Outcome :=
  conclude db ((db.listings.insert listing).map fun listings ↦
    ({ db with listings }, .listing (some listing)))

def writeListingStatus (db : Database) (id : String) (status : ListingStatus) (input : Input) :
    Outcome :=
  let listings := db.listings.update id
    (fun row ↦ { row with status, updatedAt := input.databaseNow }) fun _ ↦ rfl
  ({ db with listings }, .inr (.ok (.listing (listings.find id))))

/-! ### Buy intents -/

/-- A date that went through a text has whole seconds. -/
def dateOfText (date : ℤ) : ℤ := date / 1000 * 1000

def checkBuyer (publicKey : String → Option String) (listing : Listing)
    (dto : CreateTokenBuyIntentDto) (input : Input) :
    Except HttpError (String × BuyIntentStatus) := do
  require listing.status.isOpen (.conflict "Listing is not open for buyer requests.")
  require (listing.expiresAt.all fun date ↦ dateOfText date > input.now)
    (.conflict "Listing is expired.")
  let buyerWallet ← normalizeWallet publicKey dto.buyerWallet "buyerWallet"
  require ((orNull listing.targetBuyerWallet).all fun wallet ↦ wallet = buyerWallet)
    (.conflict "This listing is reserved for another wallet.")
  let requested ← parseAmount dto.amountBaseUnits "amountBaseUnits"
  let remaining ← parseAmount listing.amountRemaining "amountRemaining"
  require (requested > 0) (.conflict "Requested amount must be greater than zero.")
  require (requested = remaining) (.conflict "Requested amount must match the listing amount.")
  let status ← okOr (BuyIntentStatus.ofText? ((orNull dto.status).getD "BUYER_INTERESTED"))
    (.conflict "Invalid buy intent status.")
  .ok (buyerWallet, status)

/-- An open request of this buyer for this listing. -/
def isDuplicate (listing : Listing) (buyerWallet : String) (intent : BuyIntent) : Bool :=
  intent.listingId = listing.id ∧ intent.buyerWallet = buyerWallet ∧ !intent.status.isClosed

def newBuyIntent (listing : Listing) (dto : CreateTokenBuyIntentDto) (buyerWallet : String)
    (status : BuyIntentStatus) (input : Input) : BuyIntent where
  id := input.uuid
  listingId := listing.id
  assetId := orNull listing.assetId
  tokenContract := listing.tokenContract
  sellerWallet := listing.sellerWallet
  buyerWallet := buyerWallet
  amountBaseUnits := dto.amountBaseUnits
  fullName := orNull dto.fullName
  email := orNull dto.email
  nationality := orNull dto.nationality
  country := orNull dto.country
  idDocumentUrl := orNull dto.idDocumentUrl
  proofOfAddressUrl := orNull dto.proofOfAddressUrl
  status := status
  requiredClaimTopics := dto.requiredClaimTopics.getD []
  kycProvider := orNull dto.kycProvider
  amlProvider := orNull dto.amlProvider
  issuerWallet := orNull dto.issuerWallet
  preflightFailure := orNull dto.preflightFailure
  simulationError := orNull dto.simulationError
  createdAt := input.databaseNow
  updatedAt := input.databaseNow

def insertBuyIntent (db : Database) (intent : BuyIntent) : Outcome :=
  conclude db ((db.intents.insert intent).map fun intents ↦
    ({ db with intents }, .intent (some intent)))

/-! ### The status of a buy intent -/

/-- What an update sets, after the row `intent` was read. -/
def updates (dto : UpdateTokenBuyIntentDto) (status : BuyIntentStatus) (intent : BuyIntent)
    (now : ℤ) (row : BuyIntent) : BuyIntent :=
  let claimed := fun pending ↦ (orNull dto.claimTxHash).filter fun _ ↦ intent.status = pending
  let hash := fun (given stored : Option String) ↦ given <|> stored
  let date := fun (given : Option String) (stored : Option ℤ) ↦
    if given.isSome then some now else stored
  let kyc := claimed .pendingKyc
  let aml := claimed .pendingAml
  let whitelist := orNull dto.whitelistTxHash
  let activation := orNull dto.activationTxHash
  let transfer := (orNull dto.transferTxHash).filter fun _ ↦ status = .transferred
  { row with
    status
    updatedAt := now
    preflightFailure := dto.preflightFailure.getD row.preflightFailure
    simulationError := dto.simulationError.getD row.simulationError
    kycClaimTxHash := hash kyc row.kycClaimTxHash
    kycClaimedAt := date kyc row.kycClaimedAt
    amlClaimTxHash := hash aml row.amlClaimTxHash
    amlClaimedAt := date aml row.amlClaimedAt
    whitelistTxHash := hash whitelist row.whitelistTxHash
    whitelistedAt := date whitelist row.whitelistedAt
    activationTxHash := hash activation row.activationTxHash
    activatedAt := date activation row.activatedAt
    transferTxHash := hash transfer row.transferTxHash
    transferredAt := date transfer row.transferredAt
    rejectionReason := if status = .rejected then
      some ((orNull dto.rejectionReason).getD "Rejected") else row.rejectionReason
    rejectedAt := if status = .rejected then some now else row.rejectedAt
    rejectedBy := if status = .rejected then orNull dto.reviewerWallet else row.rejectedBy }

theorem updates_id (dto : UpdateTokenBuyIntentDto) (status : BuyIntentStatus) (intent : BuyIntent)
    (now : ℤ) (row : BuyIntent) : (updates dto status intent now row).id = row.id := rfl

/-- The checks after both rows are read, and the statement that follows them. -/
def planUpdate (id : String) (dto : UpdateTokenBuyIntentDto) (status : BuyIntentStatus)
    (intent : BuyIntent) (listing : Listing) : Except HttpError Call :=
  match hparsed : Decimal.parse intent.amountBaseUnits with
  | none => .error (.conflict "amountBaseUnits must be a non-negative base-unit integer string.")
  | some requested => do
      let remaining ← parseAmount listing.amountRemaining "amountRemaining"
      require (status.isSellerAcceptance → listing.status.isOpen)
        (.conflict "Seller cannot accept because listing is not open.")
      require (status.isSellerAcceptance → requested ≤ remaining) (.conflict
        "Seller cannot accept because requested amount exceeds listing remaining amount.")
      if status = .transferred then
        let transferTxHash ← okOr (orNull dto.transferTxHash)
          (.conflict "transferTxHash is required when marking transferred.")
        if hfits : requested ≤ remaining then
          .ok (.settle ⟨id, dto, transferTxHash, intent, requested, remaining, hparsed, hfits⟩)
        else .error (.conflict "Transfer amount exceeds listing remaining amount.")
      else .ok (.writeBuyIntent id dto status intent)

/-- An accepted update is a plain one, or the settlement of the row that was read. -/
theorem planUpdate_ok {id : String} {dto : UpdateTokenBuyIntentDto} {status : BuyIntentStatus}
    {intent : BuyIntent} {listing : Listing} {call : Call}
    (h : planUpdate id dto status intent listing = .ok call) :
    call = .writeBuyIntent id dto status intent ∨
      ∃ settlement : Settlement, call = .settle settlement ∧ settlement.id = id ∧
        settlement.intent = intent := by
  rw [planUpdate] at h
  split at h
  · cases h
  · obtain ⟨remaining, -, h⟩ := bind_eq_ok.1 h
    obtain ⟨-, -, h⟩ := bind_eq_ok.1 h
    obtain ⟨-, -, h⟩ := bind_eq_ok.1 h
    split at h
    · obtain ⟨transferTxHash, -, h⟩ := bind_eq_ok.1 h
      split at h
      · cases h
        exact .inr ⟨_, rfl, rfl, rfl⟩
      · cases h
    · cases h
      exact .inl rfl

def writeBuyIntent (db : Database) (id : String) (change : BuyIntent → BuyIntent)
    (hid : ∀ row, (change row).id = row.id) : Database :=
  { db with intents := db.intents.update id change hid }

def Settlement.transfer (settlement : Settlement) (input : Input) : Transfer where
  id := input.uuid
  listingId := some settlement.intent.listingId
  buyIntentId := some settlement.id
  tokenContract := settlement.intent.tokenContract
  fromWallet := settlement.intent.sellerWallet
  toWallet := settlement.intent.buyerWallet
  amountBaseUnits := settlement.intent.amountBaseUnits
  txHash := settlement.transferTxHash
  createdAt := input.databaseNow

/-- The listing after the settlement: what remains is written, not subtracted. -/
def Settlement.revise (settlement : Settlement) (now : ℤ) (row : Listing) : Listing :=
  { row with
    amountRemaining := toString settlement.newRemaining
    status := if settlement.newRemaining = 0 then .filled else .partiallyFilled
    updatedAt := now }

theorem Settlement.revise_id (settlement : Settlement) (now : ℤ) (row : Listing) :
    (settlement.revise now row).id = row.id := rfl

def settle (db : Database) (settlement : Settlement) (input : Input) : Outcome :=
  conclude db ((db.history.insert (settlement.transfer input)).map fun history ↦
    let now := input.databaseNow
    let settled := writeBuyIntent db settlement.id
      (updates settlement.dto .transferred settlement.intent now) (updates_id _ _ _ _)
    let listings := db.listings.update settlement.intent.listingId (settlement.revise now)
      (settlement.revise_id now)
    ({ settled with listings, history }, .intent (settled.intents.find settlement.id)))

/-- The status after the identity of the buyer has been set up. -/
def nextStatus (intent : BuyIntent) : BuyIntentStatus :=
  if intent.requiredClaimTopics.contains "1" then .pendingKyc
  else if intent.requiredClaimTopics.contains "2" then .pendingAml
  else .pendingIssuerWhitelist

/-! ### Statements -/

def advance (publicKey : String → Option String) (db : Database) (call : Call) (input : Input) :
    Outcome :=
  match call with
  | .createListing dto =>
      match newListing publicKey dto input with
      | .ok listing => insertListing db listing
      | .error e => (db, .inr (.error e))
  | .updateListingStatus id dto => proceed db do
      let status ← okOr (ListingStatus.ofText? dto.status) (.conflict "Invalid listing status.")
      let _ ← findListing db id
      .ok (.inl (.writeListingStatus id status))
  | .writeListingStatus id status => writeListingStatus db id status input
  | .createBuyIntent listingId dto => proceed db do
      let listing ← findListing db listingId
      let (buyerWallet, status) ← checkBuyer publicKey listing dto input
      .ok (.inl (.checkDuplicate listing dto buyerWallet status))
  | .checkDuplicate listing dto buyerWallet status => proceed db do
      require (¬ db.intents.rows.any (isDuplicate listing buyerWallet))
        (.conflict "This buyer already has an open request for this listing.")
      .ok (.inl (.insertBuyIntent listing dto buyerWallet status))
  | .insertBuyIntent listing dto buyerWallet status =>
      insertBuyIntent db (newBuyIntent listing dto buyerWallet status input)
  | .updateBuyIntentStatus id dto => proceed db do
      let status ← okOr (BuyIntentStatus.ofText? dto.status)
        (.conflict "Invalid buy intent status.")
      let intent ← findBuyIntent db id
      .ok (.inl (.readListing id dto status intent))
  | .readListing id dto status intent => proceed db do
      let listing ← findListing db intent.listingId
      let call ← planUpdate id dto status intent listing
      .ok (.inl call)
  | .writeBuyIntent id dto status intent =>
      let written := writeBuyIntent db id (updates dto status intent input.databaseNow)
        (updates_id _ _ _ _)
      (written, .inr (.ok (.intent (written.intents.find id))))
  | .settle settlement => settle db settlement input
  | .resumeBuyIntentAfterIdentity id => proceed db do
      let intent ← findBuyIntent db id
      if intent.status = .actionRequiredBuyerFid then
        .ok (.inl (.writeResumed id (nextStatus intent)))
      else .ok (.inr (.intent (some intent)))
  | .writeResumed id status =>
      let written := writeBuyIntent db id (fun row ↦
        { row with status, preflightFailure := none, updatedAt := input.databaseNow }) fun _ ↦ rfl
      (written, .inr (.ok (.intent (written.intents.find id))))

def service (publicKey : String → Option String) : Service Database Call Input Response where
  Opens := Opens
  advance := advance publicKey

end Fracks.Backend.TokenListings
