import Fracks.Backend.Requests
import Fracks.Lib.Json
import Fracks.Lib.Upserts

/-!
# The ledger of transactions

`BlockchainTransactionsService`: every action on the chain is recorded under the hash of its
transaction, and a later record under that hash lies over the earlier one: its action replaces
the recorded one, and so does every column that it gives, but for the date, which stays that of
the first record.
-/

namespace Fracks.Backend.BlockchainTransactions

open Upserts

/-- How the database reads integers and the runtime reads dates; a text that is neither fails
the call. -/
structure Texts where
  bigint : String → Option ℤ
  date : String → Option ℤ

structure BlockchainTransactionEntry where
  txHash : String
  actionType : String
  actorWallet : Option String
  entityType : Option String
  entityId : Option String
  assetId : Option String
  tokenContract : Option String
  metadata : Option (Json.Record Json.Value)
  networkFeeLamports : Option String
  rentDepositLamports : Option String
  rentRefundLamports : Option String
  netSolChangeLamports : Option String
  occurredAt : Option String

/-- The columns that a record gives and a later record may change. -/
@[ext] structure Columns where
  actionType : String
  actorWallet : Option String
  entityType : Option String
  entityId : Option String
  assetId : Option String
  tokenContract : Option String
  metadata : Option Json.Binary
  networkFeeLamports : Option ℤ
  rentDepositLamports : Option ℤ
  rentRefundLamports : Option ℤ
  netSolChangeLamports : Option ℤ

/-- A time, and whether the call gave it or the clock. -/
inductive Timestamp
  | supplied (time : ℤ)
  | generated (time : ℤ)

/-- The time, if the call gave it. -/
def Timestamp.given : Timestamp → Option ℤ
  | supplied time => some time
  | generated _ => none

/-- A row, under its `txHash`. -/
structure BlockchainTransaction extends Columns where
  id : String
  occurredAt : Timestamp
  createdAt : ℤ

/-- The table, in which `txHash` is unique. -/
abbrev Rows := String → Option BlockchainTransaction

/-! ## The statement -/

/-- `${text || null}::bigint`. -/
def Texts.lamports (texts : Texts) (text : Option String) : Option (Option ℤ) :=
  match orNull text with
  | none => some none
  | some text => (texts.bigint text).map some

/-- The date given, or now. -/
def Texts.occurredAt (texts : Texts) (now : ℤ) (text : Option String) : Option Timestamp :=
  match orNull text with
  | none => some (.generated now)
  | some text => (texts.date text).map .supplied

/-- The columns of the `INSERT`. -/
def BlockchainTransactionEntry.columns (texts : Texts) (entry : BlockchainTransactionEntry) :
    Option Columns := do
  let networkFeeLamports ← texts.lamports entry.networkFeeLamports
  let rentDepositLamports ← texts.lamports entry.rentDepositLamports
  let rentRefundLamports ← texts.lamports entry.rentRefundLamports
  let netSolChangeLamports ← texts.lamports entry.netSolChangeLamports
  some
    { actionType := entry.actionType
      actorWallet := orNull entry.actorWallet
      entityType := orNull entry.entityType
      entityId := orNull entry.entityId
      assetId := orNull entry.assetId
      tokenContract := orNull entry.tokenContract
      metadata := entry.metadata.map fun entries ↦ (Json.Value.object entries).binary
      networkFeeLamports
      rentDepositLamports
      rentRefundLamports
      netSolChangeLamports }

/-- `ON CONFLICT ("txHash") DO UPDATE`. -/
def Columns.onConflict (existing excluded : Columns) : Columns where
  actionType := excluded.actionType
  actorWallet := excluded.actorWallet.or existing.actorWallet
  entityType := excluded.entityType.or existing.entityType
  entityId := excluded.entityId.or existing.entityId
  assetId := excluded.assetId.or existing.assetId
  tokenContract := excluded.tokenContract.or existing.tokenContract
  networkFeeLamports := excluded.networkFeeLamports.or existing.networkFeeLamports
  rentDepositLamports := excluded.rentDepositLamports.or existing.rentDepositLamports
  rentRefundLamports := excluded.rentRefundLamports.or existing.rentRefundLamports
  netSolChangeLamports := excluded.netSolChangeLamports.or existing.netSolChangeLamports
  metadata := excluded.metadata.or existing.metadata

def record (texts : Texts) (T : Rows) (input : Input) (entry : BlockchainTransactionEntry) :
    Option (Rows × BlockchainTransaction) := do
  let occurredAt ← texts.occurredAt input.now entry.occurredAt
  let columns ← entry.columns texts
  let row : BlockchainTransaction := match T entry.txHash with
    | none => { columns with id := input.uuid, occurredAt, createdAt := input.databaseNow }
    | some row => { row with toColumns := row.toColumns.onConflict columns }
  some (Function.update T entry.txHash (some row), row)

/-- It is irrelevant in which order a call lists its metadata. -/
theorem record_metadata_order {texts : Texts} {T : Rows} {input : Input}
    {entry : BlockchainTransactionEntry} {m m' : Json.Record Json.Value}
    (h : ∀ key, m.get key = m'.get key) :
    record texts T input { entry with metadata := some m } =
      record texts T input { entry with metadata := some m' } := by
  have hsame : (Json.Value.object m).binary = (Json.Value.object m').binary :=
    Json.Value.binary_object_of_get h
  simp only [record, BlockchainTransactionEntry.columns, Option.map_some, hsame]

/-- The table after the calls, one after the other; a call that fails leaves it alone. -/
def replay (texts : Texts) (T : Rows) (calls : List (Input × BlockchainTransactionEntry)) : Rows :=
  calls.foldl (fun T call ↦ ((record texts T call.1 call.2).map Prod.fst).getD T) T

/-! ## Columns over columns -/

/-- Where both give a value, it is the same. -/
def Compatible {α : Type} (x y : Option α) : Prop := ∀ a b, x = some a → y = some b → a = b

/-- Two records of one action that contradict each other nowhere. -/
structure Columns.Agree (c d : Columns) : Prop where
  actionType : c.actionType = d.actionType
  actorWallet : Compatible c.actorWallet d.actorWallet
  entityType : Compatible c.entityType d.entityType
  entityId : Compatible c.entityId d.entityId
  assetId : Compatible c.assetId d.assetId
  tokenContract : Compatible c.tokenContract d.tokenContract
  metadata : Compatible c.metadata d.metadata
  networkFeeLamports : Compatible c.networkFeeLamports d.networkFeeLamports
  rentDepositLamports : Compatible c.rentDepositLamports d.rentDepositLamports
  rentRefundLamports : Compatible c.rentRefundLamports d.rentRefundLamports
  netSolChangeLamports : Compatible c.netSolChangeLamports d.netSolChangeLamports

theorem or_comm_iff {α : Type} {x y : Option α} : y.or x = x.or y ↔ Compatible x y := by
  cases x with
  | none => simp [Compatible]
  | some a =>
      cases y with
      | none => simp [Compatible]
      | some b => simp [Compatible, eq_comm]

theorem or_cancel {α : Type} {x y z : Option α} (h : z.or (y.or x) = y.or (z.or x)) :
    z.or y = y.or z := by
  cases y with
  | none => simp
  | some b =>
      cases z with
      | none => simp
      | some c => simpa using h

theorem agree_iff {c d : Columns} : c.onConflict d = d.onConflict c ↔ c.Agree d := by
  simp only [Columns.onConflict, Columns.mk.injEq, or_comm_iff]
  constructor
  · rintro ⟨h₁, h₂, h₃, h₄, h₅, h₆, h₇, h₈, h₉, h₁₀, h₁₁⟩
    exact ⟨h₁.symm, h₂, h₃, h₄, h₅, h₆, h₇, h₈, h₉, h₁₀, h₁₁⟩
  · rintro ⟨h₁, h₂, h₃, h₄, h₅, h₆, h₇, h₈, h₉, h₁₀, h₁₁⟩
    exact ⟨h₁.symm, h₂, h₃, h₄, h₅, h₆, h₇, h₈, h₉, h₁₀, h₁₁⟩

theorem overlay_onConflict : Overlay Columns.onConflict where
  assoc r s t := by
    simp only [Columns.onConflict, Option.or_assoc]
  cancel r s t h := by
    simp only [Columns.onConflict, Columns.mk.injEq] at h ⊢
    obtain ⟨h₁, h₂, h₃, h₄, h₅, h₆, h₇, h₈, h₉, h₁₀, h₁₁⟩ := h
    exact ⟨h₁, or_cancel h₂, or_cancel h₃, or_cancel h₄, or_cancel h₅, or_cancel h₆, or_cancel h₇,
      or_cancel h₈, or_cancel h₉, or_cancel h₁₀, or_cancel h₁₁⟩

/-! ## Replays -/

/-- The rows up to what is generated: the identifiers, `createdAt`, and `occurredAt` where no call
gave it. -/
def contents (T : Rows) (txHash : String) : Option (Columns × Option ℤ) :=
  (T txHash).map fun row ↦ (row.toColumns, row.occurredAt.given)

/-- What a call records, unless it fails. -/
def recorded (texts : Texts) (call : Input × BlockchainTransactionEntry) :
    Option (String × (Columns × Option ℤ)) := do
  let occurredAt ← texts.occurredAt call.1.now call.2.occurredAt
  let columns ← call.2.columns texts
  some (call.2.txHash, columns, occurredAt.given)

variable {texts : Texts} {T : Rows} {calls : List (Input × BlockchainTransactionEntry)}
  {call : Input × BlockchainTransactionEntry} {columns : Columns} {given : Option ℤ}
  {txHash : String}

theorem recorded_eq_some :
    recorded texts call = some (txHash, columns, given) ↔
      (∃ occurredAt, texts.occurredAt call.1.now call.2.occurredAt = some occurredAt ∧
        occurredAt.given = given) ∧
        call.2.columns texts = some columns ∧ call.2.txHash = txHash := by
  simp only [recorded, Option.bind_eq_bind, Option.bind_eq_some_iff, Option.some.injEq,
    Prod.mk.injEq]
  constructor
  · rintro ⟨occurredAt, hdate, _, hcolumns, hhash, rfl, hgiven⟩
    exact ⟨⟨occurredAt, hdate, hgiven⟩, hcolumns, hhash⟩
  · rintro ⟨⟨occurredAt, hdate, hgiven⟩, hcolumns, hhash⟩
    exact ⟨occurredAt, hdate, columns, hcolumns, hhash, rfl, hgiven⟩

theorem columns_actionType {entry : BlockchainTransactionEntry}
    (h : entry.columns texts = some columns) : columns.actionType = entry.actionType := by
  simp only [BlockchainTransactionEntry.columns, Option.bind_eq_bind, Option.bind_eq_some_iff,
    Option.some.injEq] at h
  obtain ⟨_, -, _, -, _, -, _, -, rfl⟩ := h
  rfl

/-- A record posts its columns over those of the row, whose date stays. -/
theorem contents_record :
    contents (((record texts T call.1 call.2).map Prod.fst).getD T) =
      post (beside Columns.onConflict) (recorded texts) (contents T) call := by
  cases hrecorded : recorded texts call with
  | none =>
      have hfails : record texts T call.1 call.2 = none := by
        cases hdate : texts.occurredAt call.1.now call.2.occurredAt with
        | none => simp [record, hdate]
        | some occurredAt =>
            cases hcolumns : call.2.columns texts with
            | none => simp [record, hcolumns]
            | some columns => simp [recorded, hdate, hcolumns] at hrecorded
      rw [hfails, post_none hrecorded]
      rfl
  | some entry =>
      obtain ⟨txHash, columns, given⟩ := entry
      obtain ⟨⟨occurredAt, hdate, rfl⟩, hcolumns, rfl⟩ := recorded_eq_some.1 hrecorded
      rw [post_eq hrecorded]
      funext x
      by_cases hx : x = call.2.txHash
      · subst hx
        rw [upsert_self]
        cases hT : T call.2.txHash <;> simp [record, contents, beside, hdate, hcolumns, hT]
      · rw [upsert_of_ne hx]
        simp [record, contents, hdate, hcolumns, Function.update_of_ne hx]

theorem contents_replay :
    contents (replay texts T calls) =
      postAll (beside Columns.onConflict) (recorded texts) (contents T) calls := by
  induction calls generalizing T with
  | nil => rfl
  | cons call calls ih =>
      have hrest := ih (T := ((record texts T call.1 call.2).map Prod.fst).getD T)
      rw [contents_record] at hrest
      exact hrest

/-- The last call that records under a hash leaves its action there. -/
theorem contents_last (h : recorded texts call = some (txHash, columns, given)) :
    ∃ c, contents (replay texts T (calls ++ [call])) txHash = some c ∧
      c.1.actionType = columns.actionType := by
  have hlast : contents (replay texts T (calls ++ [call])) =
      upsert (beside Columns.onConflict) (contents (replay texts T calls)) txHash
        (columns, given) := by
    rw [contents_replay, postAll, List.foldl_concat, post_eq h, contents_replay]
    rfl
  rw [hlast, upsert_self]
  cases contents (replay texts T calls) txHash with
  | none => exact ⟨_, rfl, rfl⟩
  | some old => exact ⟨_, rfl, rfl⟩

/-- The calls that record under one hash record one action and contradict each other nowhere;
and unless the row is there already, all of them give one date or none gives any. -/
def Consistent (texts : Texts) (T : Rows) (calls : List (Input × BlockchainTransactionEntry)) :
    Prop :=
  ∀ a ∈ calls, ∀ b ∈ calls, ∀ txHash c d, recorded texts a = some (txHash, c) →
    recorded texts b = some (txHash, d) → c.1.Agree d.1 ∧ (T txHash = none → c.2 = d.2)

/-- The order of the calls is irrelevant, and every action recorded is in the ledger, exactly if
the calls are consistent. -/
theorem ledger_order_independent_iff (texts : Texts) (T : Rows)
    (calls : List (Input × BlockchainTransactionEntry)) :
    (∀ calls', calls'.Perm calls →
      contents (replay texts T calls') = contents (replay texts T calls) ∧
        ∀ call ∈ calls, ∀ txHash columns, recorded texts call = some (txHash, columns) →
          ∃ row, replay texts T calls' txHash = some row ∧
            row.actionType = call.2.actionType) ↔
      Consistent texts T calls := by
  have hvacant (txHash : String) : contents T txHash = none ↔ T txHash = none :=
    Option.map_eq_none_iff
  have horder : (∀ calls', calls'.Perm calls →
      contents (replay texts T calls') = contents (replay texts T calls)) ↔
        Consistent texts T calls := by
    simp only [contents_replay, postAll_beside_perm_iff overlay_onConflict, agree_iff, hvacant,
      Consistent]
  rw [← horder]
  constructor
  · exact fun h calls' hperm ↦ (h calls' hperm).1
  · intro h calls' hperm
    refine ⟨h calls' hperm, ?_⟩
    rintro call hcall txHash ⟨columns, given⟩ hrecorded
    obtain ⟨before, after, rfl⟩ := List.append_of_mem hcall
    have hmiddle : (call :: (before ++ after)).Perm (before ++ call :: after) :=
      List.perm_middle.symm
    have hlast : (before ++ after ++ [call]).Perm (before ++ call :: after) :=
      List.perm_append_comm.trans hmiddle
    have hsame : contents (replay texts T calls') =
        contents (replay texts T (before ++ after ++ [call])) :=
      (h calls' hperm).trans (h _ hlast).symm
    obtain ⟨c, hc, haction⟩ : ∃ c, contents (replay texts T (before ++ after ++ [call])) txHash =
        some c ∧ c.1.actionType = columns.actionType := contents_last hrecorded
    rw [← hsame, contents, Option.map_eq_some_iff] at hc
    obtain ⟨row, hrow, rfl⟩ := hc
    obtain ⟨-, hcolumns, -⟩ := recorded_eq_some.1 hrecorded
    exact ⟨row, hrow, haction.trans (columns_actionType hcolumns)⟩

/-! ## Two actions of one transaction -/

/-- An entry of a request under a transaction. -/
def requestEntry (txHash actionType : String) : BlockchainTransactionEntry where
  txHash
  actionType
  actorWallet := none
  entityType := some "token_buy_intent"
  entityId := some "1"
  assetId := none
  tokenContract := some "mint"
  metadata := none
  networkFeeLamports := none
  rentDepositLamports := none
  rentRefundLamports := none
  netSolChangeLamports := none
  occurredAt := none

def strictTexts : Texts where
  bigint := String.toInt?
  date _ := none

/-- The entries of a review that whitelists and activates a buyer in one transaction. -/
def identityEntries : List (Input × BlockchainTransactionEntry) :=
  [(⟨"a", 1, 1⟩, requestEntry "tx" "INVESTOR_WHITELISTED"),
    (⟨"b", 1, 1⟩, requestEntry "tx" "IDENTITY_ACTIVATED")]

/-- The whitelisting is no longer in the ledger after the activation. -/
theorem whitelisting_overwritten : ¬ ∀ (texts : Texts) (T : Rows)
    (calls calls' : List (Input × BlockchainTransactionEntry)), calls'.Perm calls →
      contents (replay texts T calls') = contents (replay texts T calls) ∧
        ∀ call ∈ calls, ∀ txHash columns, recorded texts call = some (txHash, columns) →
          ∃ row, replay texts T calls' txHash = some row ∧
            row.actionType = call.2.actionType := by
  intro hclaim
  obtain ⟨row, hrow, haction⟩ :=
    (hclaim strictTexts (fun _ ↦ none) identityEntries identityEntries (.refl _)).2
      (⟨"a", 1, 1⟩, requestEntry "tx" "INVESTOR_WHITELISTED") (List.mem_cons_self ..) "tx" _ rfl
  have hlast : (replay strictTexts (fun _ ↦ none) identityEntries "tx").map
      (fun row ↦ row.actionType) = some "IDENTITY_ACTIVATED" := rfl
  rw [hrow, Option.map_some, haction, Option.some.injEq] at hlast
  exact absurd hlast (by decide)

end Fracks.Backend.BlockchainTransactions
