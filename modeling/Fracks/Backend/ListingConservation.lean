import Fracks.Backend.TokenListings

/-!
# Conservation of listed amounts

What has been transferred of a listing and what remains of it make up the listed amount
as long as every settlement finds the amount that its call has read: the settlement
writes what remains instead of taking something off.
-/

namespace Fracks.Backend.TokenListings

open Checked Keyed Runs Sessions

/-! ## What a statement does -/

/-- The databases that the next statement of a call can leave. -/
inductive Effect (publicKey : String → Option String) (db : Database) (input : Input) :
    Call → Database → Prop
  | nothing {call : Call} : Effect publicKey db input call db
  | listed {dto : CreateTokenSellListingDto} {listing : Listing} {listings : Table Listing.id} :
      newListing publicKey dto input = .ok listing → db.listings.insert listing = some listings →
      Effect publicKey db input (.createListing dto) { db with listings }
  | listingStatus {id : String} {status : ListingStatus} :
      Effect publicKey db input (.writeListingStatus id status)
        (writeListingStatus db id status input).1
  | requested {listing : Listing} {dto : CreateTokenBuyIntentDto} {buyerWallet : String}
      {status : BuyIntentStatus} {intents : Table BuyIntent.id} :
      db.intents.insert (newBuyIntent listing dto buyerWallet status input) = some intents →
      Effect publicKey db input (.insertBuyIntent listing dto buyerWallet status)
        { db with intents }
  | written {id : String} {dto : UpdateTokenBuyIntentDto} {status : BuyIntentStatus}
      {intent : BuyIntent} :
      Effect publicKey db input (.writeBuyIntent id dto status intent)
        (writeBuyIntent db id (updates dto status intent input.databaseNow) (updates_id _ _ _ _))
  | settled {settlement : Settlement} {history : Table Transfer.id} :
      db.history.insert (settlement.transfer input) = some history →
      Effect publicKey db input (.settle settlement) (settle db settlement input).1
  | resumed {id : String} {status : BuyIntentStatus} :
      Effect publicKey db input (.writeResumed id status)
        (writeBuyIntent db id (fun row ↦
          { row with status, preflightFailure := none, updatedAt := input.databaseNow })
          fun _ ↦ rfl)

variable {publicKey : String → Option String} {db db' : Database} {call next : Call}
  {input : Input} {settlement : Settlement}

theorem settle_of_insert {history : Table Transfer.id}
    (h : db.history.insert (settlement.transfer input) = some history) :
    (settle db settlement input).1 = {
      listings := db.listings.update settlement.intent.listingId
        (settlement.revise input.databaseNow) (settlement.revise_id input.databaseNow)
      intents := db.intents.update settlement.id
        (updates settlement.dto .transferred settlement.intent input.databaseNow)
        (updates_id _ _ _ _)
      history } := by
  rw [settle, conclude_fst, h]
  rfl

theorem settle_of_taken (h : db.history.insert (settlement.transfer input) = none) :
    (settle db settlement input).1 = db := by
  rw [settle, conclude_fst, h]
  rfl

theorem advance_effect (publicKey : String → Option String) (db : Database) (call : Call)
    (input : Input) : Effect publicKey db input call (advance publicKey db call input).1 := by
  cases call with
  | createListing dto =>
      rw [advance]
      cases hnew : newListing publicKey dto input with
      | error e => exact .nothing
      | ok listing =>
          change Effect _ _ _ _ (insertListing db listing).1
          rw [insertListing, conclude_fst]
          cases hinsert : db.listings.insert listing with
          | none => exact .nothing
          | some listings => exact .listed hnew hinsert
  | writeListingStatus id status => exact .listingStatus
  | insertBuyIntent listing dto buyerWallet status =>
      rw [advance, insertBuyIntent, conclude_fst]
      cases hinsert : db.intents.insert (newBuyIntent listing dto buyerWallet status input) with
      | none => exact .nothing
      | some intents => exact .requested hinsert
  | writeBuyIntent id dto status intent => exact .written
  | settle settlement =>
      cases hinsert : db.history.insert (settlement.transfer input) with
      | none =>
          rw [advance, settle_of_taken hinsert]
          exact .nothing
      | some history => exact .settled hinsert
  | writeResumed id status => exact .resumed
  | updateListingStatus id dto => simpa only [advance, proceed_fst] using .nothing
  | createBuyIntent listingId dto => simpa only [advance, proceed_fst] using .nothing
  | checkDuplicate listing dto buyerWallet status =>
      simpa only [advance, proceed_fst] using .nothing
  | updateBuyIntentStatus id dto => simpa only [advance, proceed_fst] using .nothing
  | readListing id dto status intent => simpa only [advance, proceed_fst] using .nothing
  | resumeBuyIntentAfterIdentity id => simpa only [advance, proceed_fst] using .nothing

/-! ## Conservation -/

def Transfer.amount (transfer : Transfer) : ℕ :=
  (Decimal.parse transfer.amountBaseUnits).getD 0

/-- What the history records for a listing. -/
def transferred (db : Database) (id : String) : ℕ :=
  ((db.history.rows.filter fun transfer ↦ transfer.listingId = some id).map Transfer.amount).sum

/-- With `recorded` transferred, the rest of the listed amount remains. -/
def Listing.Balanced (recorded : ℕ) (listing : Listing) : Prop :=
  ∃ original remaining, Decimal.parse listing.amountBaseUnits = some original ∧
    Decimal.parse listing.amountRemaining = some remaining ∧ recorded + remaining = original

structure Conserved (db : Database) : Prop where
  amounts : ∀ transfer ∈ db.history.rows, (Decimal.parse transfer.amountBaseUnits).isSome
  listings : ∀ listing ∈ db.listings.rows, listing.Balanced (transferred db listing.id)

/-- The listing of every recorded transfer exists. -/
def Grounded (db : Database) : Prop :=
  ∀ transfer ∈ db.history.rows, ∀ id, transfer.listingId = some id →
    (db.listings.find id).isSome

/-- The listing that a settlement is about exists. -/
def Informed (db : Database) (call : Call) : Prop :=
  ∀ settlement, call = .settle settlement →
    (db.listings.find settlement.intent.listingId).isSome

theorem conserved_empty : Conserved .empty :=
  ⟨fun _ h ↦ absurd h List.not_mem_nil, fun _ h ↦ absurd h List.not_mem_nil⟩

theorem grounded_empty : Grounded .empty := fun _ h ↦ absurd h List.not_mem_nil

section Listings

variable {listings : Table Listing.id} {listing : Listing}

/-- A new listing has no transfers. -/
theorem transferred_eq_zero (hdb : Grounded db) {id : String} (h : db.listings.find id = none) :
    transferred db id = 0 := by
  have hnone : db.history.rows.filter (fun transfer ↦ transfer.listingId = some id) = [] := by
    rw [List.filter_eq_nil_iff]
    intro transfer htransfer hid
    have hfound := hdb transfer htransfer id (by simpa using hid)
    rw [h] at hfound
    cases hfound
  rw [transferred, hnone, List.map_nil, List.sum_nil]

/-- A new listing starts with all of its amount remaining. -/
theorem newListing_amounts {dto : CreateTokenSellListingDto}
    (h : newListing publicKey dto input = .ok listing) :
    (Decimal.parse listing.amountBaseUnits).isSome ∧
      listing.amountRemaining = listing.amountBaseUnits := by
  obtain ⟨amount, hamount, h⟩ := bind_eq_ok.1 h
  obtain ⟨-, -, h⟩ := bind_eq_ok.1 h
  obtain ⟨sellerWallet, -, h⟩ := bind_eq_ok.1 h
  obtain ⟨targetBuyerWallet, -, h⟩ := bind_eq_ok.1 h
  obtain ⟨-, -, h⟩ := bind_eq_ok.1 h
  cases h
  exact ⟨by rw [okOr_eq_ok.1 hamount, Option.isSome_some], rfl⟩

/-- Changes of other fields of a listing. -/
theorem Conserved.update {id : String} {change : Listing → Listing}
    {hid : ∀ row, (change row).id = row.id} (h : Conserved db)
    (hamount : ∀ row, (change row).amountBaseUnits = row.amountBaseUnits)
    (hremaining : ∀ row, (change row).amountRemaining = row.amountRemaining) :
    Conserved { db with listings := db.listings.update id change hid } := by
  refine ⟨h.amounts, fun revised hrevised ↦ ?_⟩
  obtain ⟨row, hrow, rfl⟩ := (Table.mem_update hid).1 hrevised
  have hbalanced := h.listings row hrow
  rw [Table.key_revised hid]
  rw [Table.revised]
  split
  · obtain ⟨original, remaining, horiginal, hrest, hsum⟩ := hbalanced
    exact ⟨original, remaining, by rw [hamount, horiginal], by rw [hremaining, hrest], hsum⟩
  · exact hbalanced

theorem Conserved.listed (hdb : Grounded db) (h : Conserved db)
    {dto : CreateTokenSellListingDto} (hnew : newListing publicKey dto input = .ok listing)
    (hinsert : db.listings.insert listing = some listings) :
    Conserved { db with listings } := by
  obtain ⟨hfresh, hrows⟩ := Table.insert_eq_some.1 hinsert
  refine ⟨h.amounts, fun row hrow ↦ ?_⟩
  rw [hrows] at hrow
  rcases List.mem_cons.1 hrow with rfl | hrow
  · obtain ⟨hamount, hremaining⟩ := newListing_amounts hnew
    obtain ⟨original, horiginal⟩ := Option.isSome_iff_exists.1 hamount
    have hzero : transferred { db with listings } row.id = 0 := transferred_eq_zero hdb hfresh
    rw [hzero]
    exact ⟨original, original, horiginal, by rw [hremaining, horiginal], Nat.zero_add original⟩
  · exact h.listings row hrow

end Listings

/-! ## The settlement -/

/-- The settlement finds the listing with what its call has read of it; it is refused
when its identifier is taken. -/
def FindsWhatItRead (db : Database) (settlement : Settlement) (input : Input) : Prop :=
  db.history.find input.uuid = none → ∀ listing,
    db.listings.find settlement.intent.listingId = some listing →
    Decimal.parse listing.amountRemaining = some settlement.remaining

theorem transferred_settle {history : Table Transfer.id}
    (h : db.history.insert (settlement.transfer input) = some history) (id : String) :
    transferred (settle db settlement input).1 id =
      (if settlement.intent.listingId = id then settlement.requested else 0) +
        transferred db id := by
  obtain ⟨-, hrows⟩ := Table.insert_eq_some.1 h
  have hamount : (settlement.transfer input).amount = settlement.requested := by
    rw [Transfer.amount, Settlement.transfer, settlement.parsed, Option.getD_some]
  rw [settle_of_insert h, transferred, transferred, hrows, List.filter_cons]
  by_cases hid : settlement.intent.listingId = id
  · simp [Settlement.transfer, hid] at hamount ⊢
    exact hamount
  · simp [Settlement.transfer, hid]

/-- The revised listing is balanced exactly if the amount that was read is the one that
remains. -/
theorem balanced_revise_iff {listing : Listing} {recorded : ℕ} {now : ℤ}
    (h : listing.Balanced recorded) :
    (settlement.revise now listing).Balanced (settlement.requested + recorded) ↔
      Decimal.parse listing.amountRemaining = some settlement.remaining := by
  obtain ⟨original, remaining, horiginal, hremaining, hsum⟩ := h
  have hfits := settlement.fits
  rw [hremaining, Option.some.injEq]
  constructor
  · rintro ⟨original', remaining', horiginal', hremaining', hsum'⟩
    have hsame : original' = original := Option.some.inj (horiginal'.symm.trans horiginal)
    have hnew : settlement.newRemaining = remaining' := by
      rw [Settlement.revise, Decimal.parse_toString] at hremaining'
      exact Option.some.inj hremaining'
    rw [Settlement.newRemaining] at hnew
    omega
  · intro hread
    refine ⟨original, settlement.newRemaining, horiginal, Decimal.parse_toString _, ?_⟩
    rw [Settlement.newRemaining]
    omega

theorem conserved_settle_iff (settlement : Settlement) (input : Input) (h : Conserved db) :
    Conserved (settle db settlement input).1 ↔ FindsWhatItRead db settlement input := by
  cases hinsert : db.history.insert (settlement.transfer input) with
  | none =>
      rw [settle_of_taken hinsert]
      exact ⟨fun _ hfresh ↦ absurd hfresh (Table.insert_eq_none.1 hinsert), fun _ ↦ h⟩
  | some history =>
      obtain ⟨hfresh, hrows⟩ := Table.insert_eq_some.1 hinsert
      have hamounts : ∀ transfer ∈ (settle db settlement input).1.history.rows,
          (Decimal.parse transfer.amountBaseUnits).isSome := by
        rw [settle_of_insert hinsert, hrows]
        intro transfer htransfer
        rcases List.mem_cons.1 htransfer with rfl | htransfer
        · rw [Settlement.transfer, settlement.parsed, Option.isSome_some]
        · exact h.amounts transfer htransfer
      have hsettled := transferred_settle hinsert
      have hlistings : (settle db settlement input).1.listings = db.listings.update
          settlement.intent.listingId (settlement.revise input.databaseNow)
            (settlement.revise_id input.databaseNow) := by
        rw [settle_of_insert hinsert]
      constructor
      · intro hconserved _ listing hlisting
        obtain ⟨hrow, hid⟩ := Table.find_eq_some.1 hlisting
        have hrevised : settlement.revise input.databaseNow listing ∈
            (settle db settlement input).1.listings.rows := by
          rw [hlistings]
          refine (Table.mem_update _).2 ?_
          exact ⟨listing, hrow, if_pos hid⟩
        have hbalanced := hconserved.listings _ hrevised
        have hrecorded := hsettled listing.id
        rw [if_pos hid.symm] at hrecorded
        change Listing.Balanced (transferred (settle db settlement input).1 listing.id) _
          at hbalanced
        rw [hrecorded] at hbalanced
        exact (balanced_revise_iff (h.listings listing hrow)).1 hbalanced
      · intro hfinds
        refine ⟨hamounts, fun revised hrevised ↦ ?_⟩
        rw [hlistings] at hrevised
        obtain ⟨listing, hrow, rfl⟩ := (Table.mem_update _).1 hrevised
        rw [Table.key_revised (settlement.revise_id input.databaseNow), hsettled, Table.revised]
        by_cases hid : listing.id = settlement.intent.listingId
        · rw [if_pos hid, if_pos hid.symm]
          have hread := hfinds hfresh listing (Table.find_eq_some.2 ⟨hrow, hid⟩)
          exact (balanced_revise_iff (h.listings listing hrow)).2 hread
        · rw [if_neg hid, if_neg (Ne.symm hid), Nat.zero_add]
          exact h.listings listing hrow

/-! ## Every interleaving -/

/-- No statement takes a listing away. -/
theorem Effect.find_listing (h : Effect publicKey db input call db') {id : String}
    (hid : (db.listings.find id).isSome) : (db'.listings.find id).isSome := by
  cases h with
  | nothing => exact hid
  | @listed dto listing listings hnew hinsert =>
      change (listings.find id).isSome
      rw [Table.find_insert hinsert]
      split
      · rfl
      · exact hid
  | listingStatus =>
      simp only [writeListingStatus, Table.find_update]
      split
      · rwa [Option.isSome_map]
      · exact hid
  | requested => exact hid
  | written => exact hid
  | settled hinsert =>
      simp only [settle_of_insert hinsert, Table.find_update]
      split
      · rwa [Option.isSome_map]
      · exact hid
  | resumed => exact hid

theorem Effect.grounded (h : Effect publicKey db input call db') (hdb : Grounded db)
    (hcall : Informed db call) : Grounded db' := by
  intro transfer htransfer id hid
  refine h.find_listing ?_
  cases h with
  | @settled settlement history hinsert =>
      rw [settle_of_insert hinsert, (Table.insert_eq_some.1 hinsert).2] at htransfer
      rcases List.mem_cons.1 htransfer with rfl | htransfer
      · cases hid
        exact hcall settlement rfl
      · exact hdb transfer htransfer id hid
  | nothing => exact hdb transfer htransfer id hid
  | listed => exact hdb transfer htransfer id hid
  | listingStatus => exact hdb transfer htransfer id hid
  | requested => exact hdb transfer htransfer id hid
  | written => exact hdb transfer htransfer id hid
  | resumed => exact hdb transfer htransfer id hid

/-- Only a call that has found the listing goes on to its settlement. -/
theorem informed_next (h : (advance publicKey db call input).2 = .inl next) :
    Informed (advance publicKey db call input).1 next := by
  rintro settlement rfl
  cases call with
  | readListing id dto status intent =>
      rw [advance] at h ⊢
      rw [proceed_fst]
      obtain ⟨listing, hlisting, h⟩ := bind_eq_ok.1 (proceed_inl.1 h)
      obtain ⟨planned, hplan, h⟩ := bind_eq_ok.1 h
      cases h
      rcases planUpdate_ok hplan with hwrite | ⟨settlement, hsettle, -, rfl⟩
      · cases hwrite
      · cases hsettle
        rw [okOr_eq_ok.1 hlisting, Option.isSome_some]
  | updateListingStatus id dto =>
      obtain ⟨status, -, h⟩ := bind_eq_ok.1 (proceed_inl.1 h)
      obtain ⟨listing, -, h⟩ := bind_eq_ok.1 h
      cases h
  | createBuyIntent listingId dto =>
      obtain ⟨listing, -, h⟩ := bind_eq_ok.1 (proceed_inl.1 h)
      obtain ⟨checked, -, h⟩ := bind_eq_ok.1 h
      cases h
  | checkDuplicate listing dto buyerWallet status =>
      obtain ⟨-, -, h⟩ := bind_eq_ok.1 (proceed_inl.1 h)
      cases h
  | updateBuyIntentStatus id dto =>
      obtain ⟨status, -, h⟩ := bind_eq_ok.1 (proceed_inl.1 h)
      obtain ⟨intent, -, h⟩ := bind_eq_ok.1 h
      cases h
  | resumeBuyIntentAfterIdentity id =>
      obtain ⟨intent, -, h⟩ := bind_eq_ok.1 (proceed_inl.1 h)
      split at h <;> cases h
  | createListing dto =>
      rw [advance] at h
      cases hnew : newListing publicKey dto input with
      | error e =>
          rw [hnew] at h
          cases h
      | ok listing =>
          rw [hnew] at h
          exact absurd h conclude_ne_inl
  | writeListingStatus id status => cases h
  | insertBuyIntent listing dto buyerWallet status => exact absurd h conclude_ne_inl
  | writeBuyIntent id dto status intent => cases h
  | settle settlement => exact absurd h conclude_ne_inl
  | writeResumed id status => cases h

theorem keeps_grounded (publicKey : String → Option String) :
    (service publicKey).Keeps Grounded Informed where
  opens db call _ hopens settlement hsettle := by
    rw [hsettle] at hopens
    cases hopens
  store db call input hdb hcall :=
    (advance_effect publicKey db call input).grounded hdb hcall
  call db call input next _ _ hnext := informed_next hnext
  others db call input other _ _ hother settlement hsettle :=
    (advance_effect publicKey db call input).find_listing (hother settlement hsettle)

/-- A statement other than a settlement keeps the amounts. -/
theorem Effect.conserved (h : Effect publicKey db input call db')
    (hcall : ∀ settlement, call ≠ .settle settlement) (hgrounded : Grounded db)
    (hdb : Conserved db) : Conserved db' := by
  cases h with
  | nothing => exact hdb
  | listed hnew hinsert => exact hdb.listed hgrounded hnew hinsert
  | listingStatus => exact hdb.update (fun _ ↦ rfl) fun _ ↦ rfl
  | requested => exact ⟨hdb.amounts, hdb.listings⟩
  | written => exact ⟨hdb.amounts, hdb.listings⟩
  | settled hinsert => exact absurd rfl (hcall _)
  | resumed => exact ⟨hdb.amounts, hdb.listings⟩

/-- The step, if it is a settlement, finds the amount that its call has read. -/
def SettlesWhatItRead (p : Pool Database Call) (l : Label Call Input) (_ : Pool Database Call) :
    Prop :=
  ∀ settlement input, l = .advance (.settle settlement) input →
    FindsWhatItRead p.store settlement input

theorem conserved_step_iff {p q : Pool Database Call} {l : Label Call Input}
    (hp : Service.Sound Grounded Informed p) (h : Conserved p.store)
    (hstep : (service publicKey).Step p l q) :
    Conserved q.store ↔ SettlesWhatItRead p l q := by
  cases l with
  | arrive call =>
      rw [Service.store_of_arrive hstep]
      refine ⟨fun _ settlement input hl ↦ ?_, fun _ ↦ h⟩
      cases hl
  | advance call input =>
      obtain ⟨hgrounded, -, hstore⟩ := hp.of_advance hstep
      rw [hstore]
      by_cases hsettle : ∃ settlement, call = .settle settlement
      · obtain ⟨settlement, rfl⟩ := hsettle
        have hsettled := conserved_settle_iff settlement input h
        constructor
        · intro hconserved other now hl
          cases hl
          exact hsettled.1 hconserved
        · intro hfinds
          exact hsettled.2 (hfinds settlement input rfl)
      · have hother : ∀ settlement, call ≠ .settle settlement := fun settlement hcall ↦
          hsettle ⟨settlement, hcall⟩
        constructor
        · intro _ settlement now hl
          cases hl
          exact absurd rfl (hother settlement)
        · intro _
          exact (advance_effect publicKey p.store call input).conserved hother hgrounded h

/-- From the empty database on, all amounts are conserved exactly if every settlement
finds the amount that its call has read. -/
theorem listing_conserved_iff (publicKey : String → Option String)
    (ls : List (Label Call Input)) :
    Run.Throughout (service publicKey).Step (fun p ↦ Conserved p.store) ⟨.empty, []⟩ ls ↔
      Run.AllSteps (service publicKey).Step SettlesWhatItRead ⟨.empty, []⟩ ls := by
  have hexact :
      Run.Throughout (service publicKey).Step (fun p ↦ Conserved p.store) ⟨.empty, []⟩ ls ↔
      Conserved .empty ∧ Run.AllSteps (service publicKey).Step SettlesWhatItRead ⟨.empty, []⟩ ls :=
    Run.throughout_iff (fun _ _ _ hp hstep ↦ (keeps_grounded publicKey).step hp hstep)
      (fun _ _ _ hp h hstep ↦ conserved_step_iff hp h hstep) (.empty grounded_empty)
  rw [hexact]
  exact and_iff_right conserved_empty

/-! ## Two buyers of one listing -/

def sellHundred : CreateTokenSellListingDto where
  tokenContract := "9bgANehpsEDdgyo5DwpY36wmnPdpCihSiAP9TLoBBf4L"
  sellerWallet := "8MuWrtbZ1zPzrDhSKPjDd78SMQAMtBuprPnc1Zam1Gig"
  amountBaseUnits := "100"

def buyHundred (buyerWallet : String) : CreateTokenBuyIntentDto where
  buyerWallet := buyerWallet
  amountBaseUnits := "100"

def markTransferred (transferTxHash : String) : UpdateTokenBuyIntentDto where
  status := "TRANSFERRED"
  transferTxHash := some transferTxHash

def inputOf (uuid : String) : Input := ⟨uuid, 1000, 1000⟩

/-- Both settlements have read their rows before the first of them commits. -/
def twoSettlements : List (Move Call Input) := [
  .arrive (.createListing sellHundred),
  .advance 0 (inputOf "listing"),
  .arrive (.createBuyIntent "listing" (buyHundred "2zfQv7RxmL5BAgXXFagZXBNby4Q41YGH6hnSJAcsXQeU")),
  .advance 0 (inputOf ""), .advance 0 (inputOf ""), .advance 0 (inputOf "first"),
  .arrive (.createBuyIntent "listing" (buyHundred "4ChDAU375yPJXZLG5XqtbbKdirAr3xHU5vnhppUjgu2d")),
  .advance 0 (inputOf ""), .advance 0 (inputOf ""), .advance 0 (inputOf "second"),
  .arrive (.updateBuyIntentStatus "first" (markTransferred "tx1")),
  .arrive (.updateBuyIntentStatus "second" (markTransferred "tx2")),
  .advance 0 (inputOf ""), .advance 0 (inputOf ""),
  .advance 1 (inputOf ""), .advance 1 (inputOf ""),
  .advance 0 (inputOf "transfer1"), .advance 0 (inputOf "transfer2")]

/-- Twice the listed amount is recorded as transferred. -/
theorem listing_sold_twice : ¬ ∀ (publicKey : String → Option String)
    (ls : List (Label Call Input)),
    Run.Throughout (service publicKey).Step (fun p ↦ Conserved p.store) ⟨.empty, []⟩ ls := by
  intro hclaim
  have hplay : (((service some).play ⟨.empty, []⟩ twoSettlements).map fun played ↦
      played.2.store.listings.rows.map fun listing ↦
        (listing.amountBaseUnits, transferred played.2.store listing.id)) =
      some [("100", 200)] := by
    decide +kernel
  obtain ⟨⟨ls, p⟩, hp, hrows⟩ := Option.map_eq_some_iff.1 hplay
  have hopens : ∀ call, .arrive call ∈ twoSettlements → (service some).Opens call := by
    intro call hcall
    simp only [twoSettlements, List.mem_cons, Move.arrive.injEq, reduceCtorEq, false_or,
      List.not_mem_nil, or_false] at hcall
    rcases hcall with rfl | rfl | rfl | rfl | rfl
    · exact .createListing _
    · exact .createBuyIntent _ _
    · exact .createBuyIntent _ _
    · exact .updateBuyIntentStatus _ _
    · exact .updateBuyIntentStatus _ _
  have hrun : Run (service some).Step ⟨.empty, []⟩ ls p := Service.run_of_play hopens hp
  have hconserved : Conserved p.store := hclaim some ls ls [] p (List.append_nil ls).symm hrun
  obtain ⟨listing, hlisting⟩ : ∃ listing, p.store.listings.rows = [listing] := by
    have hlength := congrArg List.length hrows
    rw [List.length_map] at hlength
    exact List.length_eq_one_iff.1 hlength
  simp only [hlisting, List.map_cons, List.map_nil, List.cons.injEq, Prod.mk.injEq, and_true]
    at hrows
  obtain ⟨original, remaining, horiginal, -, hsum⟩ :=
    hconserved.listings listing (by simp [hlisting])
  rw [hrows.1] at horiginal
  have hhundred : Decimal.parse "100" = some 100 := by decide +kernel
  rw [hhundred, Option.some.injEq] at horiginal
  omega

end Fracks.Backend.TokenListings
