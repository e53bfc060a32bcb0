import Fracks.Backend.TokenPurchaseRequests

/-!
# Reservations of purchase requests

An open request reserves a part of the supply.  While the indexed supply and the cap on it
stay as they are, the reservations stay below the cap in every run in which a request is
only inserted as long as the open requests are those that its call has read, and in which
every amount is counted for what it is worth.
-/

namespace Fracks.Backend.TokenPurchaseRequests

open Checked Json Keyed Runs Sessions

/-! ## Limits -/

/-- The indexed supply of a token and the cap on it, in base units. -/
structure SupplyLimits where
  decimals : ℕ
  maxSupply : Option ℕ
  supply : ℤ

def Index.reads (index : Index) (token : String) : Reads :=
  { metadata := index.metadata token, totalSupply := index.totalSupply token }

def Index.limits (index : Index) (token : String) : Option SupplyLimits :=
  match currentSupply (index.totalSupply token) with
  | .ok supply =>
      some ⟨(index.reads token).decimals, (index.reads token).amountParam "max_supply", supply⟩
  | .error _ => none

/-- The index has the limits that are held fixed; those of other tokens are free. -/
def Agrees (fixed : String → Option SupplyLimits) (index : Index) : Prop :=
  ∀ token limits, fixed token = some limits → index.limits token = some limits

/-- The creations of requests, next to an indexer that leaves the fixed limits alone. -/
inductive Creates (fixed : String → Option SupplyLimits) : Call → Prop
  | create (dto : CreateTokenPurchaseRequestDto) : Creates fixed (.create .asset dto {})
  | reindex {index : Index} : Agrees fixed index → Creates fixed (.reindex index)

def creation (fixed : String → Option SupplyLimits) :
    Service Database Call PurchaseInput Response where
  Opens := Creates fixed
  advance := advance

/-! ## Reservations -/

def PurchaseRequest.units (decimals : ℕ) (row : PurchaseRequest) : ℕ :=
  row.amount.elim 0 (Decimal.Number.units decimals)

def PurchaseRequest.isOpenFor (token : String) (row : PurchaseRequest) : Bool :=
  row.tokenContract = token ∧ row.status.isActive

/-- What the open requests of a token are worth. -/
def reserved (decimals : ℕ) (db : Database) (token : String) : ℕ :=
  ((db.requests.rows.filter (·.isOpenFor token)).map (·.units decimals)).sum

structure Reserved (fixed : String → Option SupplyLimits) (db : Database) : Prop where
  unique : ∀ row ∈ db.requests.rows, ∀ other ∈ db.requests.rows,
    !row.status.isClosed → !other.status.isClosed → row.tokenContract = other.tokenContract →
      row.investorWallet = other.investorWallet → row = other
  within : ∀ token limits maxSupply, fixed token = some limits →
    limits.maxSupply = some maxSupply →
      limits.supply + reserved limits.decimals db token ≤ maxSupply

/-- The conversion of the service finds in an amount what it is worth. -/
def Counted (decimals : ℕ) (amount : Decimal.Number) : Prop :=
  (decimalToBaseUnits (some (.number false amount)) decimals).getD 0 = amount.units decimals

/-- No request that the call does not know of is open when its own is inserted: none of
the same investor for the same token, and where the supply is limited none at all. -/
structure Undisturbed (fixed : String → Option SupplyLimits) (db : Database)
    (dto : CreateTokenPurchaseRequestDto) (reads : Reads) : Prop where
  alone : hasActiveRequest db dto.tokenContract dto.investorWallet = false
  known : ∀ limits maxSupply, fixed dto.tokenContract = some limits →
    limits.maxSupply = some maxSupply →
      getActiveRequests db dto.tokenContract = reads.activeRequests ∧
        Counted limits.decimals dto.amount

def InsertsUndisturbed (fixed : String → Option SupplyLimits) (p : Pool Database Call)
    (l : Label Call PurchaseInput) (_ : Pool Database Call) : Prop :=
  ∀ dto reads input, l = .advance (.create .insert dto reads) input →
    Undisturbed fixed p.store dto reads

/-! ## What a call knows -/

/-- The reads of a creation, by how far it has come. -/
structure Prepared (fixed : String → Option SupplyLimits) (stage : Stage)
    (dto : CreateTokenPurchaseRequestDto) (reads : Reads) : Prop where
  metadata : stage ≠ .asset → ∀ limits, fixed dto.tokenContract = some limits →
    reads.decimals = limits.decimals ∧ reads.amountParam "max_supply" = limits.maxSupply
  accepted : stage = .recheck ∨ stage = .insert → validateCompliance dto reads = .ok () ∧
    ∀ limits, fixed dto.tokenContract = some limits →
      currentSupply reads.totalSupply = .ok limits.supply

inductive Ready (fixed : String → Option SupplyLimits) : Call → Prop
  | create {stage : Stage} {dto : CreateTokenPurchaseRequestDto} {reads : Reads} :
      Prepared fixed stage dto reads → Ready fixed (.create stage dto reads)
  | reindex {index : Index} : Agrees fixed index → Ready fixed (.reindex index)

variable {fixed : String → Option SupplyLimits} {db : Database}
  {dto : CreateTokenPurchaseRequestDto} {reads : Reads} {input : PurchaseInput}

theorem limits_of_agrees {index : Index} (h : Agrees fixed index) {token : String}
    {limits : SupplyLimits} (hfixed : fixed token = some limits) :
    currentSupply (index.totalSupply token) = .ok limits.supply ∧
      (index.reads token).decimals = limits.decimals ∧
        (index.reads token).amountParam "max_supply" = limits.maxSupply := by
  have hlimits := h token limits hfixed
  rw [Index.limits] at hlimits
  split at hlimits
  · rename_i supply hsupply
    cases hlimits
    exact ⟨hsupply, rfl, rfl⟩
  · cases hlimits

theorem validateCompliance_ok (h : validateCompliance dto reads = .ok ()) :
    ∃ supply, currentSupply reads.totalSupply = .ok supply ∧
      amountError (complianceData dto) reads supply = none ∧
        blockingReasons (complianceData dto) reads supply = [] := by
  obtain ⟨supply, hsupply, h⟩ := bind_eq_ok.1 h
  refine ⟨supply, hsupply, ?_⟩
  dsimp only at h
  split at h
  · cases h
  · cases h
  · rename_i herror hreasons
    exact ⟨herror, hreasons⟩

/-- What an accepted request leaves of the supply. -/
theorem supply_of_accepted {limits : SupplyLimits} {maxSupply amount : ℕ}
    (h : validateCompliance dto reads = .ok ())
    (hsupply : currentSupply reads.totalSupply = .ok limits.supply)
    (hmax : reads.amountParam "max_supply" = some maxSupply)
    (hamount : amountBaseUnits (complianceData dto) reads = some amount) :
    limits.supply + reads.reservedSupply + amount ≤ maxSupply := by
  obtain ⟨supply, hread, herror, hreasons⟩ := validateCompliance_ok h
  rw [hsupply] at hread
  cases hread
  have hremaining : supplyRemaining reads limits.supply =
      some (maxSupply - limits.supply - reads.reservedSupply).toNat := by
    rw [supplyRemaining, hmax]
    rfl
  have hpositive : (maxSupply - limits.supply - reads.reservedSupply).toNat ≠ 0 := by
    intro hzero
    rw [hzero] at hremaining
    rw [blockingReasons, if_pos hremaining] at hreasons
    simp at hreasons
  have hsupplyError := (Option.or_eq_none_iff.1 herror).1
  rw [supplyError, hremaining] at hsupplyError
  have hle := le_of_above_eq_none _ _ hsupplyError hamount
  omega

/-- The next statement of a creation knows what it needs. -/
theorem ready_next {stage : Stage} {next : Call} (hdb : Agrees fixed db.index)
    (h : Prepared fixed stage dto reads)
    (hnext : (createStage db stage dto reads input).2 = .inl next) : Ready fixed next := by
  have hkeeps : ∀ (after : Reads) (later : Stage), stage ≠ .asset →
      after.metadata = reads.metadata →
      later ≠ .recheck → later ≠ .insert → Ready fixed (.create later dto after) := by
    intro after later hstage hmetadata hrecheck hinsert
    refine .create ⟨fun _ limits hlimits ↦ ?_, fun hlate ↦ ?_⟩
    · have hread := h.metadata hstage limits hlimits
      simpa only [Reads.decimals, Reads.amountParam, Reads.param, Reads.record, hmetadata]
        using hread
    · rcases hlate with hlate | hlate
      · exact absurd hlate hrecheck
      · exact absurd hlate hinsert
  cases stage with
  | asset =>
      cases hnext
      refine .create ⟨fun _ limits hlimits ↦ ?_, fun hlate ↦ ?_⟩
      · exact (limits_of_agrees hdb hlimits).2
      · rcases hlate with hlate | hlate <;> cases hlate
  | tokenState =>
      obtain ⟨valid, hvalid, hnext⟩ := bind_eq_ok.1 (proceed_inl.1 hnext)
      cases hnext
      refine .create ⟨fun _ limits hlimits ↦ ?_, fun _ ↦ ⟨hvalid, fun limits hlimits ↦ ?_⟩⟩
      · exact h.metadata (by decide) limits hlimits
      · exact (limits_of_agrees hdb hlimits).1
  | recheck =>
      obtain ⟨-, -, hnext⟩ := bind_eq_ok.1 (proceed_inl.1 hnext)
      cases hnext
      exact .create ⟨fun _ ↦ h.metadata (by decide), fun _ ↦ h.accepted (.inl rfl)⟩
  | insert => exact absurd hnext conclude_ne_inl
  | duplicate =>
      cases hnext
      exact hkeeps _ .balance (by decide) rfl (by decide) (by decide)
  | balance =>
      cases hnext
      exact hkeeps _ .activeRequests (by decide) rfl (by decide) (by decide)
  | activeRequests =>
      cases hnext
      exact hkeeps _ .live (by decide) rfl (by decide) (by decide)
  | live =>
      cases hnext
      exact hkeeps _ .holders (by decide) rfl (by decide) (by decide)
  | holders =>
      cases hnext
      exact hkeeps _ .countryWallets (by decide) rfl (by decide) (by decide)
  | countryWallets =>
      cases hnext
      exact hkeeps _ .tokenState (by decide) rfl (by decide) (by decide)

/-- Only the insertion of a request changes the requests, and only the indexer its
tables. -/
theorem create_index {stage : Stage} :
    (createStage db stage dto reads input).1.index = db.index := by
  cases stage with
  | insert =>
      rw [createStage, insertRequest, conclude_fst]
      cases db.requests.insert (newRequest dto input.toInput) <;> rfl
  | tokenState => rw [createStage, proceed_fst]
  | recheck => rw [createStage, proceed_fst]
  | _ => rfl

theorem create_store {stage : Stage} (h : stage ≠ .insert) :
    (createStage db stage dto reads input).1 = db := by
  cases stage with
  | insert => exact absurd rfl h
  | tokenState => rw [createStage, proceed_fst]
  | recheck => rw [createStage, proceed_fst]
  | _ => rfl

theorem keeps_ready (fixed : String → Option SupplyLimits) :
    (creation fixed).Keeps (fun db ↦ Agrees fixed db.index) fun _ call ↦ Ready fixed call where
  opens db call _ hopens := by
    cases hopens with
    | create dto =>
        refine .create ⟨fun hstage ↦ absurd rfl hstage, fun hlate ↦ ?_⟩
        rcases hlate with hlate | hlate <;> cases hlate
    | reindex hindex => exact .reindex hindex
  store db call input hdb hcall := by
    cases hcall with
    | create hprepared =>
        change Agrees fixed (createStage db _ _ _ input).1.index
        rw [create_index]
        exact hdb
    | reindex hindex => exact hindex
  call db call input next hdb hcall hnext := by
    cases hcall with
    | create hprepared => exact ready_next hdb hprepared hnext
    | reindex hindex => cases hnext
  others _ _ _ _ _ _ hother := hother

/-! ## The insertion of a request -/

/-- The amounts that count towards a fixed limit are counted for what they are worth. -/
def AllCounted (fixed : String → Option SupplyLimits) (db : Database) : Prop :=
  ∀ row ∈ db.requests.rows, ∀ limits maxSupply, fixed row.tokenContract = some limits →
    limits.maxSupply = some maxSupply → ∀ amount, row.amount = some amount →
      Counted limits.decimals amount

theorem reservedSupply_eq {limits : SupplyLimits} {maxSupply : ℕ} {token : String}
    (hcounted : AllCounted fixed db) (hfixed : fixed token = some limits)
    (hmax : limits.maxSupply = some maxSupply) (hdecimals : reads.decimals = limits.decimals)
    (hreads : getActiveRequests db token = reads.activeRequests) :
    reads.reservedSupply = reserved limits.decimals db token := by
  rw [Reads.reservedSupply, ← hreads, getActiveRequests, reserved, List.map_map]
  congr 1
  refine List.map_congr_left fun row hrow ↦ ?_
  obtain ⟨hmem, hopen⟩ := List.mem_filter.1 hrow
  have htoken : row.tokenContract = token := by
    simp only [decide_eq_true_eq] at hopen
    exact hopen.1
  simp only [Function.comp_apply, PurchaseRequest.units, hdecimals]
  cases hamount : row.amount with
  | none =>
      have hzero : (⟨0, 0⟩ : Decimal.Number).IsPlain := .inl rfl
      have hconverted := decimalToBaseUnits_number hzero limits.decimals
      simp only [Option.elim, Value.ofNat, hconverted]
      simp [Decimal.Number.units]
  | some amount =>
      exact hcounted row hmem limits maxSupply (by rw [htoken, hfixed]) hmax amount hamount

theorem isActive_getInitialStatus (dto : CreateTokenPurchaseRequestDto) :
    (getInitialStatus dto).isActive := by
  rw [getInitialStatus]
  split
  · rfl
  · split
    · rfl
    · split <;> rfl

theorem not_open_of_alone (h : hasActiveRequest db dto.tokenContract dto.investorWallet = false) :
    ∀ row ∈ db.requests.rows, !row.status.isClosed → row.tokenContract = dto.tokenContract →
      row.investorWallet ≠ dto.investorWallet := by
  intro row hrow hopen htoken hinvestor
  have hnone := List.any_eq_false.1 h row hrow
  simp [isDuplicate, htoken, hinvestor] at hnone
  simp [hnone] at hopen

/-- The inserted request stays below the cap of a fixed limit. -/
theorem within_insert {limits : SupplyLimits} {maxSupply : ℕ}
    (hprepared : Prepared fixed .insert dto reads) (hcounted : AllCounted fixed db)
    (hok : Undisturbed fixed db dto reads) (hfixed : fixed dto.tokenContract = some limits)
    (hmax : limits.maxSupply = some maxSupply)
    (hwithin : limits.supply + reserved limits.decimals db dto.tokenContract ≤ maxSupply) :
    limits.supply + ((dto.amount.units limits.decimals +
      reserved limits.decimals db dto.tokenContract : ℕ) : ℤ) ≤ maxSupply := by
  obtain ⟨hreads, hworth⟩ := hok.known limits maxSupply hfixed hmax
  obtain ⟨hvalid, hsupply⟩ := hprepared.accepted (.inr rfl)
  obtain ⟨hdecimals, hparam⟩ := hprepared.metadata (by decide) limits hfixed
  have hreserved := reservedSupply_eq hcounted hfixed hmax hdecimals hreads
  have hamount : amountBaseUnits (complianceData dto) reads =
      decimalToBaseUnits (some (.number false dto.amount)) limits.decimals := by
    rw [← hdecimals]
    rfl
  rw [Counted, ← hamount] at hworth
  cases hconverted : amountBaseUnits (complianceData dto) reads with
  | none =>
      rw [hconverted, Option.getD_none] at hworth
      rw [← hworth, Nat.zero_add]
      exact hwithin
  | some amount =>
      rw [hconverted, Option.getD_some] at hworth
      have hle := supply_of_accepted hvalid (hsupply limits hfixed) (hparam.trans hmax) hconverted
      omega

/-- What the runs keep: the reservations, and that all amounts are counted. -/
structure Kept (fixed : String → Option SupplyLimits) (db : Database) : Prop where
  reserved : Reserved fixed db
  counted : AllCounted fixed db

theorem kept_insert (hprepared : Prepared fixed .insert dto reads) (h : Kept fixed db)
    (hok : Undisturbed fixed db dto reads) :
    Kept fixed (createStage db .insert dto reads input).1 := by
  rw [createStage, insertRequest, conclude_fst]
  cases hinsert : db.requests.insert (newRequest dto input.toInput) with
  | none => exact h
  | some requests =>
      obtain ⟨-, hrows⟩ := Table.insert_eq_some.1 hinsert
      have hfree := not_open_of_alone hok.alone
      change Kept fixed { db with requests }
      refine ⟨⟨?_, ?_⟩, ?_⟩
      · intro row hrow other hother hopen hopen' htoken hinvestor
        rw [hrows] at hrow hother
        rcases List.mem_cons.1 hrow with rfl | hrow
        · rcases List.mem_cons.1 hother with rfl | hother
          · rfl
          · exact absurd hinvestor.symm (hfree other hother hopen' htoken.symm)
        · rcases List.mem_cons.1 hother with rfl | hother
          · exact absurd hinvestor (hfree row hrow hopen htoken)
          · exact h.reserved.unique row hrow other hother hopen hopen' htoken hinvestor
      · intro token limits maxSupply hfixed hmax
        have hwithin := h.reserved.within token limits maxSupply hfixed hmax
        by_cases htoken : dto.tokenContract = token
        · subst htoken
          have hopen : (newRequest dto input.toInput).isOpenFor dto.tokenContract := by
            simp [PurchaseRequest.isOpenFor, newRequest, isActive_getInitialStatus]
          have hsum : reserved limits.decimals { db with requests } dto.tokenContract =
              dto.amount.units limits.decimals + reserved limits.decimals db dto.tokenContract := by
            rw [reserved, hrows, List.filter_cons_of_pos hopen, List.map_cons, List.sum_cons]
            rfl
          change limits.supply + (reserved limits.decimals { db with requests } _ : ℤ) ≤ maxSupply
          rw [hsum]
          exact within_insert hprepared h.counted hok hfixed hmax hwithin
        · have hother : ¬ (newRequest dto input.toInput).isOpenFor token := by
            simp [PurchaseRequest.isOpenFor, newRequest, htoken]
          have hsame : reserved limits.decimals { db with requests } token =
              reserved limits.decimals db token := by
            rw [reserved, hrows, List.filter_cons_of_neg hother]
            rfl
          change limits.supply + (reserved limits.decimals { db with requests } _ : ℤ) ≤ maxSupply
          rw [hsame]
          exact hwithin
      · intro row hrow limits maxSupply hfixed hmax amount hamount
        rw [hrows] at hrow
        rcases List.mem_cons.1 hrow with rfl | hrow
        · cases hamount
          exact (hok.known limits maxSupply hfixed hmax).2
        · exact h.counted row hrow limits maxSupply hfixed hmax amount hamount

/-! ## Every interleaving -/

theorem kept_step {p q : Pool Database Call} {l : Label Call PurchaseInput}
    (hp : Service.Sound (fun db ↦ Agrees fixed db.index) (fun _ call ↦ Ready fixed call) p)
    (h : Kept fixed p.store) (hstep : (creation fixed).Step p l q)
    (hok : InsertsUndisturbed fixed p l q) : Kept fixed q.store := by
  cases l with
  | arrive call =>
      rw [Service.store_of_arrive hstep]
      exact h
  | advance call input =>
      obtain ⟨-, hcall, hstore⟩ := hp.of_advance hstep
      rw [hstore]
      cases hcall with
      | @create stage dto reads hprepared =>
          change Kept fixed (createStage p.store stage dto reads input).1
          by_cases hinsert : stage = .insert
          · subst hinsert
            exact kept_insert hprepared h (hok dto reads input rfl)
          · rw [create_store hinsert]
            exact h
      | reindex hindex => exact ⟨⟨h.reserved.unique, h.reserved.within⟩, h.counted⟩

/-- From no requests on, no investor has two open requests for a token, and where the
indexed limits stay fixed the supply and the open requests stay below the cap, as long as
every request is inserted undisturbed. -/
theorem reservations_kept (fixed : String → Option SupplyLimits) (index : Index)
    (hindex : Agrees fixed index)
    (hsupply : ∀ token limits maxSupply, fixed token = some limits →
      limits.maxSupply = some maxSupply → limits.supply ≤ maxSupply)
    (ls : List (Label Call PurchaseInput))
    (hok : Run.AllSteps (creation fixed).Step (InsertsUndisturbed fixed) ⟨⟨.empty, index⟩, []⟩ ls) :
    Run.Throughout (creation fixed).Step (fun p ↦ Reserved fixed p.store)
      ⟨⟨.empty, index⟩, []⟩ ls := by
  have hstart : Kept fixed ⟨.empty, index⟩ := by
    refine ⟨⟨fun row hrow ↦ ?_, fun token limits maxSupply hfixed hmax ↦ ?_⟩, fun row hrow ↦ ?_⟩
    · cases hrow
    · have hzero : reserved limits.decimals ⟨.empty, index⟩ token = 0 := rfl
      rw [hzero, Int.natCast_zero, Int.add_zero]
      exact hsupply token limits maxSupply hfixed hmax
    · cases hrow
  have hkept : Run.Throughout (creation fixed).Step (fun p ↦ Kept fixed p.store)
      ⟨⟨.empty, index⟩, []⟩ ls :=
    Run.throughout_of_allSteps (fun _ _ _ hp hstep ↦ (keeps_ready fixed).step hp hstep)
      (fun _ _ _ hp h hstep hok ↦ kept_step hp h hstep hok) (.empty hindex) hstart hok
  exact fun pre post p hls hrun ↦ (hkept pre post p hls hrun).reserved

/-! ## Creations of requests for one token -/

def token : String := "2zfQv7RxmL5BAgXXFagZXBNby4Q41YGH6hnSJAcsXQeU"

/-- A cap of hundred tokens without decimals. -/
def cappedIndex : Index where
  metadata := fun _ ↦ some (.object [("decimals", .ofNat 0), ("complianceModuleParams",
    .object [("supplyCap", .object [("max_supply", .string "100")])])])
  totalSupply := fun _ ↦ some "0"
  balances := []

def cappedLimits (name : String) : Option SupplyLimits :=
  if name = token then some ⟨0, some 100, 0⟩ else none

theorem agrees_cappedIndex : Agrees cappedLimits cappedIndex := by
  intro name limits hfixed
  rw [cappedLimits] at hfixed
  split at hfixed
  · rename_i hname
    have hsupply : currentSupply (cappedIndex.totalSupply token) = .ok 0 := by decide +kernel
    have hdecimals : (cappedIndex.reads token).decimals = 0 := by decide +kernel
    have hmax : (cappedIndex.reads token).amountParam "max_supply" = some 100 := by decide +kernel
    rw [hname, Index.limits, hsupply, hdecimals, hmax, ← hfixed]
  · cases hfixed

def buy (amount : Decimal.Number) (investorWallet : String) : CreateTokenPurchaseRequestDto where
  tokenContract := token
  investorWallet := investorWallet
  issuerWallet := "8MuWrtbZ1zPzrDhSKPjDd78SMQAMtBuprPnc1Zam1Gig"
  amount := amount

def inputOf (uuid : String) : PurchaseInput := { uuid, now := 1000, databaseNow := 1000 }

/-! ### One creation after the other -/

/-- The insertion of a request for forty by a call that has read the open requests. -/
def insertsKnown (db : Database) : Label Call PurchaseInput → Bool
  | .advance (.create .insert dto reads) _ =>
      hasActiveRequest db dto.tokenContract dto.investorWallet = false ∧ dto.amount = ⟨4, 1⟩ ∧
        getActiveRequests db dto.tokenContract = reads.activeRequests
  | _ => true

theorem counted_forty : Counted 0 ⟨4, 1⟩ := by
  rw [Counted]
  decide +kernel

theorem undisturbed_of_known {p q : Pool Database Call} {l : Label Call PurchaseInput}
    (h : insertsKnown p.store l) : InsertsUndisturbed cappedLimits p l q := by
  rintro dto reads input rfl
  obtain ⟨halone, hamount, hknown⟩ := of_decide_eq_true h
  refine ⟨halone, fun limits maxSupply hlimits _ ↦ ⟨hknown, ?_⟩⟩
  rw [cappedLimits] at hlimits
  split at hlimits
  · cases hlimits
    rw [hamount]
    exact counted_forty
  · cases hlimits

/-- The second investor's creation reads the request of the first. -/
def successiveCreations : List (Move Call PurchaseInput) :=
  .arrive (.create .asset (buy ⟨4, 1⟩ "4ChDAU375yPJXZLG5XqtbbKdirAr3xHU5vnhppUjgu2d") {}) ::
    List.replicate 10 (.advance 0 (inputOf "first")) ++
  .arrive (.create .asset (buy ⟨4, 1⟩ "8MuWrtbZ1zPzrDhSKPjDd78SMQAMtBuprPnc1Zam1Gig") {}) ::
    List.replicate 10 (.advance 0 (inputOf "second"))

theorem cappedLimits_hold (name : String) (limits : SupplyLimits) (maxSupply : ℕ)
    (hlimits : cappedLimits name = some limits) (hmax : limits.maxSupply = some maxSupply) :
    limits.supply ≤ maxSupply := by
  rw [cappedLimits] at hlimits
  split at hlimits
  · cases hlimits
    exact Int.natCast_nonneg maxSupply
  · cases hlimits

/-- Two investors reserve forty each. -/
theorem successive_creations_kept : ∃ ls p,
    Run (creation cappedLimits).Step ⟨⟨.empty, cappedIndex⟩, []⟩ ls p ∧
      reserved 0 p.store token = 80 ∧ Reserved cappedLimits p.store := by
  have hplay : (((creation cappedLimits).play ⟨⟨.empty, cappedIndex⟩, []⟩ successiveCreations).map
      fun played ↦ (creation cappedLimits).checks insertsKnown ⟨.empty, cappedIndex⟩ played.1 &&
        reserved 0 played.2.store token == 80) = some true := by
    decide +kernel
  obtain ⟨⟨ls, p⟩, hp, hplayed⟩ := Option.map_eq_some_iff.1 hplay
  obtain ⟨hchecks, hreserved⟩ := Bool.and_eq_true_iff.1 hplayed
  have hok : Run.AllSteps (creation cappedLimits).Step (InsertsUndisturbed cappedLimits)
      ⟨⟨.empty, cappedIndex⟩, []⟩ ls :=
    Service.allSteps_of_checks (fun _ _ _ h _ ↦ undisturbed_of_known h) hchecks
  have hopens : ∀ call, .arrive call ∈ successiveCreations →
      (creation cappedLimits).Opens call := by
    intro call hcall
    simp only [successiveCreations, List.mem_cons, List.mem_append, List.mem_replicate,
      List.cons_append, Move.arrive.injEq, reduceCtorEq, and_false, false_or, or_false] at hcall
    rcases hcall with rfl | rfl
    · exact .create _
    · exact .create _
  have hrun := Service.run_of_play hopens hp
  exact ⟨ls, p, hrun, beq_iff_eq.1 hreserved, reservations_kept cappedLimits cappedIndex
    agrees_cappedIndex cappedLimits_hold ls hok ls [] p (List.append_nil ls).symm hrun⟩

/-! ### Two creations side by side -/

/-- All statements of the one creation, then all of the other, but for the insertions. -/
def twoCreations : List (Move Call PurchaseInput) :=
  .arrive (.create .asset (buy ⟨6, 1⟩ "4ChDAU375yPJXZLG5XqtbbKdirAr3xHU5vnhppUjgu2d") {}) ::
  .arrive (.create .asset (buy ⟨6, 1⟩ "4ChDAU375yPJXZLG5XqtbbKdirAr3xHU5vnhppUjgu2d") {}) ::
  (List.replicate 9 (.advance 0 (inputOf "")) ++ List.replicate 9 (.advance 1 (inputOf "")) ++
    [.advance 0 (inputOf "first"), .advance 0 (inputOf "second")])

/-- An investor gets two open requests, of more than the cap together. -/
theorem two_open_requests : ¬ ∀ (fixed : String → Option SupplyLimits) (index : Index),
    Agrees fixed index →
    (∀ token limits maxSupply, fixed token = some limits → limits.maxSupply = some maxSupply →
      limits.supply ≤ maxSupply) →
    ∀ ls : List (Label Call PurchaseInput), Run.Throughout (creation fixed).Step
      (fun p ↦ Reserved fixed p.store) ⟨⟨.empty, index⟩, []⟩ ls := by
  intro hclaim
  have hplay : (((creation cappedLimits).play ⟨⟨.empty, cappedIndex⟩, []⟩ twoCreations).map
      fun played ↦ reserved 0 played.2.store token) = some 120 := by
    decide +kernel
  obtain ⟨⟨ls, p⟩, hp, hreserved⟩ := Option.map_eq_some_iff.1 hplay
  have hopens : ∀ call, .arrive call ∈ twoCreations → (creation cappedLimits).Opens call := by
    intro call hcall
    simp only [twoCreations, List.mem_cons, List.mem_append, List.mem_replicate, Move.arrive.injEq,
      reduceCtorEq, and_false, List.not_mem_nil, or_false] at hcall
    rcases hcall with rfl | rfl
    · exact .create _
    · exact .create _
  have hrun := Service.run_of_play hopens hp
  have hheld : Reserved cappedLimits p.store :=
    hclaim cappedLimits cappedIndex agrees_cappedIndex cappedLimits_hold ls ls [] p
      (List.append_nil ls).symm hrun
  have hwithin := hheld.within token ⟨0, some 100, 0⟩ 100 (if_pos rfl) rfl
  change (0 : ℤ) + (reserved 0 p.store token : ℤ) ≤ (100 : ℕ) at hwithin
  have hsum : reserved 0 p.store token = 120 := hreserved
  omega

end Fracks.Backend.TokenPurchaseRequests
