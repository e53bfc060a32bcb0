import Fracks.Backend.Requests
import Fracks.Lib.Checked
import Fracks.Lib.Keyed
import Fracks.Lib.Sessions

/-!
# Issuance requests

Two services of the backend write the table of issuance requests.  The one decides a
request only while it is pending; the other sets any status.
-/

namespace Fracks.Backend.IssuanceRequests

open Checked Keyed Sessions

/-! ## Rows -/

/-- RequestStatus -/
def pending : String := "pending"

def approved : String := "approved"

def rejected : String := "rejected"

/-- A row of `IssuanceRequest`. -/
structure IssuanceRequest where
  id : String
  requestId : ℤ
  tokenContract : String
  assetId : ℤ
  recipient : String
  amount : String
  requester : String
  status : String := "PENDING"
  reason : Option String := none
  txHash : Option String := none
  createdAt : ℤ
  updatedAt : ℤ
  approvedAt : Option ℤ := none
  approvedBy : Option String := none
  rejectedAt : Option ℤ := none
  rejectedBy : Option String := none
  rejectionReason : Option String := none

structure Database where
  requests : Table IssuanceRequest.id

/-! ## Requests -/

structure CreateIssuanceRequestDto where
  requestId : ℤ
  tokenAddress : String
  assetId : ℤ
  recipient : String
  amount : String
  requester : String
  reason : Option String := none
  txHash : Option String := none

structure ApproveIssuanceRequestDto where
  approvedBy : String
  txHash : String

structure RejectIssuanceRequestDto where
  rejectedBy : String
  rejectionReason : String

structure CreateIssuanceDto where
  requestId : ℤ
  tokenContract : String
  assetId : ℤ
  recipient : String
  requester : String
  amount : String

structure UpdateIssuanceStatusDto where
  status : String
  txHash : String

/-! ## Calls -/

/-- What an update sets. -/
inductive Update
  | approve (dto : ApproveIssuanceRequestDto)
  | reject (dto : RejectIssuanceRequestDto)
  | status (dto : UpdateIssuanceStatusDto)
  | minted (txHash : String)

/-- What remains of a call, by the statement that is next. -/
inductive Call
  | create (dto : CreateIssuanceRequestDto)
  | insert (dto : CreateIssuanceRequestDto)
  | approve (id : String) (dto : ApproveIssuanceRequestDto)
  | reject (id : String) (dto : RejectIssuanceRequestDto)
  | createIssuance (dto : CreateIssuanceDto)
  | updateStatus (id : String) (dto : UpdateIssuanceStatusDto)
  | markMinted (id : String) (txHash : String)
  | write (id : String) (update : Update)

inductive Opens : Call → Prop
  | create (dto : CreateIssuanceRequestDto) : Opens (.create dto)
  | approve (id : String) (dto : ApproveIssuanceRequestDto) : Opens (.approve id dto)
  | reject (id : String) (dto : RejectIssuanceRequestDto) : Opens (.reject id dto)
  | createIssuance (dto : CreateIssuanceDto) : Opens (.createIssuance dto)
  | updateStatus (id : String) (dto : UpdateIssuanceStatusDto) : Opens (.updateStatus id dto)
  | markMinted (id : String) (txHash : String) : Opens (.markMinted id txHash)

abbrev Response := Except HttpError IssuanceRequest

abbrev Outcome := Database × (Call ⊕ Response)

/-- tokenContract_requestId -/
def findRequest (db : Database) (tokenContract : String) (requestId : ℤ) : Option IssuanceRequest :=
  db.requests.rows.find? fun row ↦ row.tokenContract = tokenContract ∧ row.requestId = requestId

def newRequest (dto : CreateIssuanceRequestDto) (input : Input) : IssuanceRequest where
  id := input.uuid
  requestId := dto.requestId
  tokenContract := dto.tokenAddress
  assetId := dto.assetId
  recipient := dto.recipient
  amount := dto.amount
  requester := dto.requester
  reason := dto.reason
  txHash := dto.txHash
  status := pending
  createdAt := input.databaseNow
  updatedAt := input.databaseNow

def newIssuance (dto : CreateIssuanceDto) (input : Input) : IssuanceRequest where
  id := input.uuid
  requestId := dto.requestId
  tokenContract := dto.tokenContract
  assetId := dto.assetId
  recipient := dto.recipient
  amount := dto.amount
  requester := dto.requester
  createdAt := input.databaseNow
  updatedAt := input.databaseNow

/-- Both the id and the number of a request of a token are unique. -/
def insertRequest (db : Database) (row : IssuanceRequest) : Outcome :=
  match findRequest db row.tokenContract row.requestId with
  | some _ => (db, .inr (.error .internal))
  | none => conclude db ((db.requests.insert row).map fun requests ↦ ({ requests }, row))

def findOne (db : Database) (id message : String) : Except HttpError IssuanceRequest :=
  okOr (db.requests.find id) (.notFound message)

/-- The check before a decision: only a pending request is decided. -/
def checkPending (db : Database) (id verb : String) : Except HttpError Unit := do
  let request ← findOne db id ("Issuance request " ++ id ++ " not found")
  require (request.status = pending)
    (.badRequest ("Cannot " ++ verb ++ " request with status " ++ request.status))

def Update.apply (update : Update) (input : Input) (row : IssuanceRequest) : IssuanceRequest :=
  match update with
  | .approve dto => { row with
      status := approved
      approvedBy := some dto.approvedBy
      approvedAt := some input.now
      txHash := some dto.txHash
      updatedAt := input.databaseNow }
  | .reject dto => { row with
      status := rejected
      rejectedBy := some dto.rejectedBy
      rejectedAt := some input.now
      rejectionReason := some dto.rejectionReason
      updatedAt := input.databaseNow }
  | .status dto => { row with
      status := dto.status
      txHash := some dto.txHash
      updatedAt := input.databaseNow }
  | .minted txHash => { row with
      status := "MINTED"
      txHash := some txHash
      updatedAt := input.databaseNow }

theorem Update.apply_id (update : Update) (input : Input) (row : IssuanceRequest) :
    (update.apply input row).id = row.id := by
  cases update <;> rfl

def writeRequest (db : Database) (id : String) (update : Update) (input : Input) : Outcome :=
  let requests := db.requests.update id (update.apply input) (update.apply_id input)
  ({ requests }, .inr (okOr (requests.find id) .internal))

/-! ### Statements -/

def advance (db : Database) (call : Call) (input : Input) : Outcome :=
  match call with
  | .create dto => proceed db do
      require (findRequest db dto.tokenAddress dto.requestId).isNone (.badRequest
        ("Issuance request " ++ toString dto.requestId ++ " for token " ++ dto.tokenAddress ++
          " already exists"))
      .ok (.inl (.insert dto))
  | .insert dto => insertRequest db (newRequest dto input)
  | .approve id dto => proceed db do
      checkPending db id "approve"
      .ok (.inl (.write id (.approve dto)))
  | .reject id dto => proceed db do
      checkPending db id "reject"
      .ok (.inl (.write id (.reject dto)))
  | .createIssuance dto => insertRequest db (newIssuance dto input)
  | .updateStatus id dto => proceed db do
      let _ ← findOne db id "Issuance request not found"
      .ok (.inl (.write id (.status dto)))
  | .markMinted id txHash => proceed db do
      let _ ← findOne db id "Issuance request not found"
      .ok (.inl (.write id (.minted txHash)))
  | .write id update => writeRequest db id update input

end Fracks.Backend.IssuanceRequests
