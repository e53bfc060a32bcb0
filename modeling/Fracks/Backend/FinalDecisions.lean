import Fracks.Backend.IssuanceRequests
import Fracks.Backend.TokenListings
import Fracks.Backend.TokenPurchaseRequests
import Fracks.Backend.TokenTransferRequests

/-!
# Final decisions

The status of a closed row and the transaction that it records last in every run in which
an update of a status finds its row open, or sets what the row has.  The services check
this nowhere in the statement that writes, and most of them nowhere at all.
-/

namespace Fracks.Backend

open Checked Keyed Runs Sessions

/-! ## Purchase requests -/

namespace TokenPurchaseRequests

/-- The status of a request and the transaction that it records. -/
def PurchaseRequest.decision (row : PurchaseRequest) : Status × Option String :=
  (row.status, row.mintTxHash)

def IsClosed (decision : Status × Option String) : Prop := decision.1.isClosed

/-- An update finds its row open or sets what the row has. -/
def Respects (db : Database) : Call → Prop
  | .writeStatus id dto status _ => ∀ row, db.requests.find id = some row → row.status.isClosed →
      status = row.status ∧ (status = .minted → orNull dto.mintTxHash = row.mintTxHash)
  | .writeResumed id status => ∀ row, db.requests.find id = some row → row.status.isClosed →
      status = row.status
  | _ => True

variable {db : Database} {call : Call} {input : PurchaseInput}

theorem lasts_of_stage {stage : Stage} {dto : CreateTokenPurchaseRequestDto} {reads : Reads} :
    db.requests.Lasts PurchaseRequest.decision IsClosed
      (createStage db stage dto reads input).1.requests := by
  cases stage with
  | insert =>
      rw [createStage, insertRequest, conclude_fst]
      cases hinsert : db.requests.insert (newRequest dto input.toInput) with
      | none => exact Table.Lasts.refl _
      | some requests => exact Table.Lasts.insert hinsert
  | tokenState => simpa only [createStage, proceed_fst] using Table.Lasts.refl _
  | recheck => simpa only [createStage, proceed_fst] using Table.Lasts.refl _
  | _ => exact Table.Lasts.refl _

theorem lasts_advance : db.requests.Lasts PurchaseRequest.decision IsClosed
    (advance db call input).1.requests ↔ Respects db call := by
  cases call with
  | create stage dto reads => exact iff_of_true lasts_of_stage trivial
  | updateStatus id dto =>
      rw [advance, proceed_fst]
      exact iff_of_true (.refl _) trivial
  | writeStatus id dto status existing =>
      refine (Table.lasts_update_iff (updates_id dto status existing input.toInput)).trans
        (forall₃_congr fun row hrow hclosed ↦ ?_)
      change (_, _) = (_, _) ↔ _
      rw [Prod.mk.injEq]
      refine and_congr_right fun hstatus ↦ ?_
      change (if status = .minted then _ else _) = _ ↔ _
      split <;> simp_all
  | resumeAfterIdentity id =>
      rw [advance, proceed_fst]
      exact iff_of_true (.refl _) trivial
  | writeResumed id status =>
      refine (Table.lasts_update_iff (resumed_id status input.toInput)).trans
        (forall₃_congr fun row hrow hclosed ↦ ?_)
      change (_, _) = (_, _) ↔ _
      rw [Prod.mk.injEq]
      exact and_iff_left rfl
  | reindex index => exact iff_of_true (Table.Lasts.refl _) trivial

end TokenPurchaseRequests

/-! ## Transfer requests -/

namespace TokenTransferRequests

def TransferRequest.decision (row : TransferRequest) : Status × Option String :=
  (row.status, row.transferTxHash)

def IsClosed (decision : Status × Option String) : Prop := decision.1.isClosed

def Respects (db : Database) : Call → Prop
  | .writeStatus id dto status _ => ∀ row, db.requests.find id = some row → row.status.isClosed →
      status = row.status ∧ (status = .transferred → orNull dto.transferTxHash = row.transferTxHash)
  | _ => True

variable {db : Database} {call : Call} {input : TransferInput}

theorem lasts_advance : db.requests.Lasts TransferRequest.decision IsClosed
    (advance db call input).1.requests ↔ Respects db call := by
  cases call with
  | create dto =>
      rw [advance, proceed_fst]
      exact iff_of_true (.refl _) trivial
  | insert dto status =>
      refine iff_of_true ?_ trivial
      rw [advance, insertRequest, conclude_fst]
      cases hinsert : db.requests.insert (newRequest dto status input.toInput) with
      | none => exact .refl _
      | some requests => exact .insert hinsert
  | updateStatus id dto =>
      rw [advance, proceed_fst]
      exact iff_of_true (.refl _) trivial
  | writeStatus id dto status existing =>
      refine (Table.lasts_update_iff (updates_id dto status existing input.databaseNow)).trans
        (forall₃_congr fun row hrow hclosed ↦ ?_)
      change (_, _) = (_, _) ↔ _
      rw [Prod.mk.injEq]
      refine and_congr_right fun hstatus ↦ ?_
      change (if status = .transferred then _ else _) = _ ↔ _
      split <;> simp_all

end TokenTransferRequests

/-! ## Buy intents -/

namespace TokenListings

def BuyIntent.decision (row : BuyIntent) : BuyIntentStatus × Option String :=
  (row.status, row.transferTxHash)

def IsClosed (decision : BuyIntentStatus × Option String) : Prop := decision.1.isClosed

/-- A settlement whose entry for the history is refused writes nothing. -/
def Respects (db : Database) (input : Input) : Call → Prop
  | .writeBuyIntent id dto status _ => ∀ row, db.intents.find id = some row →
      row.status.isClosed → status = row.status ∧ (status = .transferred →
        ∀ hash, orNull dto.transferTxHash = some hash → row.transferTxHash = some hash)
  | .settle settlement => db.history.find input.uuid = none → ∀ row,
      db.intents.find settlement.id = some row → row.status.isClosed →
        row.status = .transferred ∧ ∀ hash, orNull settlement.dto.transferTxHash = some hash →
          row.transferTxHash = some hash
  | .writeResumed id status => ∀ row, db.intents.find id = some row → row.status.isClosed →
      status = row.status
  | _ => True

variable {publicKey : String → Option String} {db : Database} {call : Call} {input : Input}

theorem orElse_eq_right {α : Type} {given stored : Option α} :
    (given <|> stored) = stored ↔ ∀ a, given = some a → stored = some a := by
  cases given with
  | none => simp
  | some a => simp [eq_comm]

theorem decision_updates {dto : UpdateTokenBuyIntentDto} {status : BuyIntentStatus}
    {intent row : BuyIntent} {now : ℤ} :
    (updates dto status intent now row).decision = row.decision ↔
      status = row.status ∧ (status = .transferred →
        ∀ hash, orNull dto.transferTxHash = some hash → row.transferTxHash = some hash) := by
  change (_, _) = (_, _) ↔ _
  rw [Prod.mk.injEq]
  refine and_congr_right fun _ ↦ ?_
  change (((orNull dto.transferTxHash).filter fun _ ↦ decide (status = .transferred)) <|>
    row.transferTxHash) = _ ↔ _
  rw [orElse_eq_right]
  constructor
  · intro h hstatus hash hhash
    exact h hash (Option.filter_eq_some_iff.2 ⟨hhash, decide_eq_true hstatus⟩)
  · intro h hash hhash
    obtain ⟨hgiven, hstatus⟩ := Option.filter_eq_some_iff.1 hhash
    exact h (of_decide_eq_true hstatus) hash hgiven

theorem lasts_updates {id : String} {dto : UpdateTokenBuyIntentDto} {status : BuyIntentStatus}
    {intent : BuyIntent} {now : ℤ} : db.intents.Lasts BuyIntent.decision IsClosed
      (db.intents.update id (updates dto status intent now) (updates_id dto status intent now)) ↔
    ∀ row, db.intents.find id = some row → row.status.isClosed → status = row.status ∧
      (status = .transferred →
        ∀ hash, orNull dto.transferTxHash = some hash → row.transferTxHash = some hash) :=
  (Table.lasts_update_iff _).trans (forall₃_congr fun _ _ _ ↦ decision_updates)

theorem lasts_advance : db.intents.Lasts BuyIntent.decision IsClosed
    (advance publicKey db call input).1.intents ↔ Respects db input call := by
  cases call with
  | createListing dto =>
      refine iff_of_true ?_ trivial
      rw [advance]
      cases newListing publicKey dto input with
      | error e => exact .refl _
      | ok listing =>
          change db.intents.Lasts _ _ (insertListing db listing).1.intents
          rw [insertListing, conclude_fst]
          cases db.listings.insert listing <;> exact .refl _
  | updateListingStatus id dto =>
      rw [advance, proceed_fst]
      exact iff_of_true (.refl _) trivial
  | writeListingStatus id status => exact iff_of_true (.refl _) trivial
  | createBuyIntent listingId dto =>
      rw [advance, proceed_fst]
      exact iff_of_true (.refl _) trivial
  | checkDuplicate listing dto buyerWallet status =>
      rw [advance, proceed_fst]
      exact iff_of_true (.refl _) trivial
  | insertBuyIntent listing dto buyerWallet status =>
      refine iff_of_true ?_ trivial
      rw [advance, insertBuyIntent, conclude_fst]
      cases hinsert : db.intents.insert (newBuyIntent listing dto buyerWallet status input) with
      | none => exact .refl _
      | some intents => exact .insert hinsert
  | updateBuyIntentStatus id dto =>
      rw [advance, proceed_fst]
      exact iff_of_true (.refl _) trivial
  | readListing id dto status intent =>
      rw [advance, proceed_fst]
      exact iff_of_true (.refl _) trivial
  | writeBuyIntent id dto status intent => exact lasts_updates
  | settle settlement =>
      rw [advance, settle, conclude_fst]
      cases hinsert : db.history.insert (settlement.transfer input) with
      | none =>
          refine iff_of_true (.refl _) fun hfree ↦ ?_
          exact absurd hfree (Table.insert_eq_none.1 hinsert)
      | some history =>
          have hfree : db.history.find input.uuid = none := (Table.insert_eq_some.1 hinsert).1
          refine lasts_updates.trans (Iff.trans ?_ (forall_prop_of_true hfree).symm)
          refine forall₃_congr fun row _ _ ↦ ?_
          exact and_congr eq_comm (forall_prop_of_true rfl)
  | resumeBuyIntentAfterIdentity id =>
      rw [advance, proceed_fst]
      exact iff_of_true (.refl _) trivial
  | writeResumed id status =>
      let resumed := fun row : BuyIntent ↦
        { row with status, preflightFailure := none, updatedAt := input.databaseNow }
      have hid : ∀ row, (resumed row).id = row.id := fun _ ↦ rfl
      refine (Table.lasts_update_iff hid).trans (forall₃_congr fun row hrow hclosed ↦ ?_)
      change (_, _) = (_, _) ↔ _
      rw [Prod.mk.injEq]
      exact and_iff_left rfl

end TokenListings

/-! ## Issuance requests -/

namespace IssuanceRequests

def IssuanceRequest.decision (row : IssuanceRequest) : String × Option String :=
  (row.status, row.txHash)

def IsClosed (decision : String × Option String) : Prop :=
  decision.1 = approved ∨ decision.1 = rejected

/-- The status that an update sets, and the transaction if it sets one. -/
def Update.decision : Update → String × Option String
  | .approve dto => (approved, some dto.txHash)
  | .reject _ => (rejected, none)
  | .status dto => (dto.status, some dto.txHash)
  | .minted txHash => ("MINTED", some txHash)

def Respects (db : Database) : Call → Prop
  | .write id update => ∀ row, db.requests.find id = some row →
      (row.status = approved ∨ row.status = rejected) →
        update.decision.1 = row.status ∧
          ∀ hash, update.decision.2 = some hash → row.txHash = some hash
  | _ => True

variable {db : Database} {call : Call} {input : Input}

theorem lasts_insertRequest {row : IssuanceRequest} : db.requests.Lasts IssuanceRequest.decision
    IsClosed (insertRequest db row).1.requests := by
  rw [insertRequest]
  cases findRequest db row.tokenContract row.requestId with
  | some other => exact .refl _
  | none =>
      change db.requests.Lasts _ _ (conclude db _).1.requests
      rw [conclude_fst]
      cases hinsert : db.requests.insert row with
      | none => exact .refl _
      | some requests => exact .insert hinsert

theorem decision_apply {update : Update} {row : IssuanceRequest} :
    (update.apply input row).decision = row.decision ↔ update.decision.1 = row.status ∧
      ∀ hash, update.decision.2 = some hash → row.txHash = some hash := by
  cases update <;>
    simp [IssuanceRequest.decision, Update.decision, Update.apply, eq_comm]

theorem lasts_advance : db.requests.Lasts IssuanceRequest.decision IsClosed
    (advance db call input).1.requests ↔ Respects db call := by
  cases call with
  | insert dto => exact iff_of_true lasts_insertRequest trivial
  | createIssuance dto => exact iff_of_true lasts_insertRequest trivial
  | write id update =>
      exact (Table.lasts_update_iff (update.apply_id input)).trans
        (forall₃_congr fun _ _ _ ↦ decision_apply)
  | _ =>
      rw [advance, proceed_fst]
      exact iff_of_true (.refl _) trivial

end IssuanceRequests

/-! ## All of them together -/

namespace FinalDecisions

structure Database where
  purchases : TokenPurchaseRequests.Database
  transfers : TokenTransferRequests.Database
  listings : TokenListings.Database
  issuances : IssuanceRequests.Database

inductive Call
  | purchase (call : TokenPurchaseRequests.Call)
  | transfer (call : TokenTransferRequests.Call)
  | listing (call : TokenListings.Call)
  | issuance (call : IssuanceRequests.Call)

inductive Response
  | purchase (response : TokenPurchaseRequests.Response)
  | transfer (response : TokenTransferRequests.Response)
  | listing (response : TokenListings.Response)
  | issuance (response : IssuanceRequests.Response)

structure StatementInput extends TokenPurchaseRequests.PurchaseInput where
  scan : ℕ := 0

inductive Opens : Call → Prop
  | create (dto : TokenPurchaseRequests.CreateTokenPurchaseRequestDto) :
      Opens (.purchase (.create .asset dto {}))
  | updateStatus (id : String) (dto : TokenPurchaseRequests.UpdateTokenPurchaseRequestDto) :
      Opens (.purchase (.updateStatus id dto))
  | resumeAfterIdentity (id : String) : Opens (.purchase (.resumeAfterIdentity id))
  | reindex (index : TokenPurchaseRequests.Index) : Opens (.purchase (.reindex index))
  | transfer {call : TokenTransferRequests.Call} :
      TokenTransferRequests.Opens call → Opens (.transfer call)
  | listing {call : TokenListings.Call} : TokenListings.Opens call → Opens (.listing call)
  | issuance {call : IssuanceRequests.Call} : IssuanceRequests.Opens call → Opens (.issuance call)

def advance (publicKey : String → Option String) (db : Database) (call : Call)
    (input : StatementInput) : Database × (Call ⊕ Response) :=
  match call with
  | .purchase call =>
      let (purchases, rest) := TokenPurchaseRequests.advance db.purchases call input.toPurchaseInput
      ({ db with purchases }, rest.map .purchase .purchase)
  | .transfer call =>
      let (transfers, rest) := TokenTransferRequests.advance db.transfers call
        ⟨input.toInput, input.scan⟩
      ({ db with transfers }, rest.map .transfer .transfer)
  | .listing call =>
      let (listings, rest) := TokenListings.advance publicKey db.listings call input.toInput
      ({ db with listings }, rest.map .listing .listing)
  | .issuance call =>
      let (issuances, rest) := IssuanceRequests.advance db.issuances call input.toInput
      ({ db with issuances }, rest.map .issuance .issuance)

def services (publicKey : String → Option String) :
    Service Database Call StatementInput Response where
  Opens := Opens
  advance := advance publicKey

/-- Every closed row keeps its status and the transaction that it records. -/
structure Final (before after : Database) : Prop where
  purchases : before.purchases.requests.Lasts TokenPurchaseRequests.PurchaseRequest.decision
    TokenPurchaseRequests.IsClosed after.purchases.requests
  transfers : before.transfers.requests.Lasts TokenTransferRequests.TransferRequest.decision
    TokenTransferRequests.IsClosed after.transfers.requests
  intents : before.listings.intents.Lasts TokenListings.BuyIntent.decision
    TokenListings.IsClosed after.listings.intents
  issuances : before.issuances.requests.Lasts IssuanceRequests.IssuanceRequest.decision
    IssuanceRequests.IsClosed after.issuances.requests

theorem Final.refl (db : Database) : Final db db := ⟨.refl _, .refl _, .refl _, .refl _⟩

theorem Final.trans {a b c : Database} (h : Final a b) (h' : Final b c) : Final a c where
  purchases := h.purchases.trans h'.purchases
  transfers := h.transfers.trans h'.transfers
  intents := h.intents.trans h'.intents
  issuances := h.issuances.trans h'.issuances

/-- An update of a status finds its row open, or sets what the row has. -/
def Respects (db : Database) (input : StatementInput) : Call → Prop
  | .purchase call => TokenPurchaseRequests.Respects db.purchases call
  | .transfer call => TokenTransferRequests.Respects db.transfers call
  | .listing call => TokenListings.Respects db.listings input.toInput call
  | .issuance call => IssuanceRequests.Respects db.issuances call

theorem final_advance {publicKey : String → Option String} {db : Database} {call : Call}
    {input : StatementInput} :
    Final db (advance publicKey db call input).1 ↔ Respects db input call := by
  cases call with
  | purchase call =>
      rw [Respects, ← @TokenPurchaseRequests.lasts_advance _ _ input.toPurchaseInput]
      exact ⟨fun h ↦ h.purchases, fun h ↦ ⟨h, .refl _, .refl _, .refl _⟩⟩
  | transfer call =>
      rw [Respects, ← @TokenTransferRequests.lasts_advance _ _ ⟨input.toInput, input.scan⟩]
      exact ⟨fun h ↦ h.transfers, fun h ↦ ⟨.refl _, h, .refl _, .refl _⟩⟩
  | listing call =>
      rw [Respects, ← @TokenListings.lasts_advance publicKey]
      exact ⟨fun h ↦ h.intents, fun h ↦ ⟨.refl _, .refl _, h, .refl _⟩⟩
  | issuance call =>
      rw [Respects, ← @IssuanceRequests.lasts_advance _ _ input.toInput]
      exact ⟨fun h ↦ h.issuances, fun h ↦ ⟨.refl _, .refl _, .refl _, h⟩⟩

def UpdatesOpen (p : Pool Database Call) (l : Label Call StatementInput) (_ : Pool Database Call) :
    Prop :=
  ∀ call input, l = .advance call input → Respects p.store input call

/-- In a run from any rows, whatever calls come side by side, the closed rows keep their
status and their transaction exactly if every update of a status respects them. -/
theorem decisions_final_iff (publicKey : String → Option String) (db : Database)
    (ls : List (Label Call StatementInput)) :
    Run.Kept (services publicKey).Step (fun p q ↦ Final p.store q.store) ⟨db, []⟩ ls ↔
      Run.AllSteps (services publicKey).Step UpdatesOpen ⟨db, []⟩ ls := by
  refine (Run.kept_iff (fun p ↦ .refl p.store) fun _ _ _ ↦ .trans).trans ?_
  refine Run.allSteps_congr (I := fun _ ↦ True) (fun _ _ _ _ _ ↦ trivial)
    (fun p l q _ hstep ↦ ?_) trivial
  cases hstep with
  | arrive hopens =>
      refine iff_of_true (.refl _) fun call input hl ↦ ?_
      cases hl
  | @advance store before after call input =>
      refine final_advance.trans ⟨fun h call' input' hl ↦ ?_, fun h ↦ h call input rfl⟩
      cases hl
      exact h

/-! ### A minted request -/

def minted : TokenPurchaseRequests.PurchaseRequest :=
  { TokenPurchaseRequests.newRequest
      { tokenContract := "2zfQv7RxmL5BAgXXFagZXBNby4Q41YGH6hnSJAcsXQeU"
        investorWallet := "4ChDAU375yPJXZLG5XqtbbKdirAr3xHU5vnhppUjgu2d"
        issuerWallet := "8MuWrtbZ1zPzrDhSKPjDd78SMQAMtBuprPnc1Zam1Gig"
        amount := ⟨6, 1⟩ } ⟨"request", 1000, 1000⟩ with
    status := .minted
    mintTxHash := some "3AsdoALgZFuq2oUVWrDYhg2pNeaLJKPLf8hU2mQ6U8qJ"
    mintedAt := some 1000 }

def mintedDatabase : Database where
  purchases := ⟨⟨[minted], List.nodup_singleton _⟩, ⟨fun _ ↦ none, fun _ ↦ none, []⟩⟩
  transfers := ⟨.empty⟩
  listings := .empty
  issuances := ⟨.empty⟩

/-- A minted request is minted again, with another transaction. -/
def mintAgain : List (Move Call StatementInput) :=
  let dto : TokenPurchaseRequests.UpdateTokenPurchaseRequestDto :=
    { status := some "MINTED", mintTxHash := some "4XRkJXFCXdVuHj3Zq8mD9fWq2tFkmbEvGYbYm5YkEdcP" }
  let input : StatementInput := { uuid := "", now := 2000, databaseNow := 2000 }
  [.arrive (.purchase (.updateStatus "request" dto)), .advance 0 input, .advance 0 input]

def storedTransaction (db : Database) : Option String :=
  (db.purchases.requests.find "request").bind (·.mintTxHash)

theorem minted_request_changes : ¬ ∀ (publicKey : String → Option String) (db : Database)
    (ls : List (Label Call StatementInput)),
    Run.Kept (services publicKey).Step (fun p q ↦ Final p.store q.store) ⟨db, []⟩ ls := by
  intro hclaim
  have hplay : (((services some).play ⟨mintedDatabase, []⟩ mintAgain).map
      fun played ↦ storedTransaction played.2.store) =
        some (some "4XRkJXFCXdVuHj3Zq8mD9fWq2tFkmbEvGYbYm5YkEdcP") := by
    decide +kernel
  obtain ⟨⟨ls, p⟩, hp, hstored⟩ := Option.map_eq_some_iff.1 hplay
  have hopens : ∀ call, .arrive call ∈ mintAgain → (services some).Opens call := by
    intro call hcall
    simp only [mintAgain, List.mem_cons, Move.arrive.injEq, reduceCtorEq, List.not_mem_nil,
      or_false] at hcall
    rw [hcall]
    exact .updateStatus _ _
  have hrun : Run (services some).Step ⟨mintedDatabase, []⟩ ls p := Service.run_of_play hopens hp
  have hfinal : Final mintedDatabase p.store :=
    hclaim some mintedDatabase ls [] ls [] _ p (by simp) (.nil _) hrun
  obtain ⟨row, hrow, hkey, hdecision⟩ := hfinal.purchases minted List.mem_cons_self rfl
  have hfound : p.store.purchases.requests.find "request" = some row :=
    Table.find_eq_some.2 ⟨hrow, hkey⟩
  have hhash : row.mintTxHash = minted.mintTxHash := congrArg Prod.snd hdecision
  have hsame : storedTransaction p.store = minted.mintTxHash := by
    rw [storedTransaction, hfound, ← hhash]
    rfl
  rw [hsame] at hstored
  exact absurd hstored (by decide +kernel)

end FinalDecisions

end Fracks.Backend
