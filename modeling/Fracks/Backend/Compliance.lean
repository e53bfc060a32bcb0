import Fracks.Backend.Requests
import Fracks.Lib.Json

/-!
# Compliance of purchase requests

The backend checks a purchase request against the parameters of the compliance modules in
the indexed metadata, the indexed and the live balances and the requests that are open.
What the statements of the check read comes in as one record.
-/

namespace Fracks.Backend

open Json

/-! ## Values -/

/-- A value that is missing is not a number. -/
def finite (value : Option Value) : Option ℚ := value.bind Value.finite

def trunc (q : ℚ) : ℤ := q.num.tdiv q.den

def asRecord (value : Option Value) : Record Value := (value.bind Value.record?).getD []

def decimalsFromMetadata (metadata : Record Value) : ℕ :=
  match finite (metadata.get "decimals") with
  | some decimals =>
      if decimals.den = 1 ∧ 0 ≤ decimals.num ∧ decimals.num ≤ 18 then decimals.num.toNat else 6
  | none => 6

def trim (text : String) : String := String.ofList (Decimal.trim text.toList)

/-- Missing, null or the empty text. -/
def isBlank : Option Value → Bool
  | none => true
  | some .null => true
  | some (.string text) => text = ""
  | _ => false

def decimalToBaseUnits (value : Option Value) (decimals : ℕ) : Option ℕ :=
  if isBlank value then none
  else value.bind fun value ↦ Decimal.scaled decimals (trim value.text)

/-- A plain number is converted to what it is worth. -/
theorem decimalToBaseUnits_number {n : Decimal.Number} (h : n.IsPlain) (decimals : ℕ) :
    decimalToBaseUnits (some (.number false n)) decimals = some (n.units decimals) := by
  have htext : (Value.number false n).text = n.toText := by simp [Value.text]
  have htrim : trim n.toText = n.toText := by
    rw [trim, Decimal.Number.trim_toText h, String.ofList_toList]
  have hblank : ¬ isBlank (some (.number false n)) := Bool.false_ne_true
  rw [decimalToBaseUnits, if_neg hblank, Option.bind_some, htext, htrim,
    Decimal.Number.scaled_toText h]

def baseUnitsToDecimal (value decimals : ℕ) : String := Decimal.format decimals value

/-- The parts between runs of separators. -/
def splitRuns (isSeparator : Char → Bool) : List Char → List (List Char)
  | [] => [[]]
  | c :: cs =>
      if isSeparator c then
        if cs.head?.any isSeparator then splitRuns isSeparator cs
        else [] :: splitRuns isSeparator cs
      else (splitRuns isSeparator cs).modifyHead (c :: ·)

/-- `split(/[,\s]+/)` -/
def splitList (text : String) : List String :=
  (splitRuns (fun c ↦ c = ',' ∨ Decimal.isSpace c) text.toList).map String.ofList

mutual

def parseCountryList : Value → List ℤ
  | .array items => parseCountryLists items
  | .number negative n => [trunc (if negative then -n.rat else n.rat)]
  | .string text => (splitList text).filterMap fun entry ↦ (Decimal.ofText? entry).map trunc
  | _ => []

def parseCountryLists : List Value → List ℤ
  | [] => []
  | item :: items => parseCountryList item ++ parseCountryLists items

end

structure CountryCap where
  country : ℤ
  cap : ℤ
  deriving DecidableEq

/-- A cap of which both numbers are finite. -/
def countryCap? (country cap : Option ℚ) : Option CountryCap := do
  let country ← country
  let cap ← cap
  some ⟨trunc country, trunc cap⟩

def parseCountryCaps : Option Value → List CountryCap
  | some (.array items) => items.filterMap fun entry ↦
      let record := asRecord (some entry)
      countryCap? (finite (record.get "country")) (finite (record.get "cap"))
  | some (.string text) => (splitList text).filterMap fun entry ↦
      let parts := (entry.toList.splitOn ':').map fun part ↦ Decimal.ofText? (String.ofList part)
      countryCap? (parts[0]?.join) (parts[1]?.join)
  | _ => []

/-! ## What is read -/

structure ComplianceData where
  tokenContract : String
  investorWallet : String
  country : Option Value
  amount : Option Value

structure ActiveRequest where
  investorWallet : String
  amount : Option Decimal.Number
  country : Option String
  deriving DecidableEq

structure MaxInvestorsState where
  maxInvestors : ℕ
  holderCount : ℕ

/-- What the statements have read, and the clock of the service in milliseconds. -/
structure Reads where
  metadata : Option Value := none
  duplicate : Bool := false
  balance : Option String := none
  activeRequests : List ActiveRequest := []
  liveBalance : Except String ℕ := .ok 0
  liveState : Except String MaxInvestorsState := .ok ⟨0, 0⟩
  now : ℤ := 0
  holders : List String := []
  countryWallets : List String := []
  totalSupply : Option String := none

def getComplianceParamSets (metadata : Record Value) : List (Record Value) :=
  ((asRecord (metadata.get "complianceModuleParams")).map fun entry ↦
    asRecord (some entry.2)).filter fun params ↦ params.length > 0

def getParamValue (paramSets : List (Record Value)) (key : String) : Option Value :=
  paramSets.findSome? fun params ↦ params.get key

namespace Reads

variable (reads : Reads)

def record : Record Value := asRecord reads.metadata

def decimals : ℕ := decimalsFromMetadata reads.record

def param (key : String) : Option Value := getParamValue (getComplianceParamSets reads.record) key

def amountParam (key : String) : Option ℕ := decimalToBaseUnits (reads.param key) reads.decimals

/-- The indexed balance; a text that is no number counts as nothing. -/
def indexedBalance : ℤ := ((orNull reads.balance).bind Decimal.ofInteger?).getD 0

def checksInvestors : Bool := (finite (reads.param "max_investors")).any fun n ↦ 0 < n

/-- The live balance where the number of investors is limited and it could be read. -/
def currentBalance : ℤ :=
  if reads.checksInvestors then
    match reads.liveBalance with
    | .ok balance => balance
    | .error _ => reads.indexedBalance
  else reads.indexedBalance

/-- The state of the module, read after the live balance. -/
def liveInvestors : Except String (Option MaxInvestorsState) :=
  if reads.checksInvestors then do
    let _ ← reads.liveBalance
    let state ← reads.liveState
    .ok (some state)
  else .ok none

def reservedSupply : ℕ :=
  (reads.activeRequests.map fun request ↦ ((decimalToBaseUnits
    (some (request.amount.elim (.ofNat 0) (.number false))) reads.decimals).getD 0)).sum

/-- The clock in seconds. -/
def nowSeconds : ℤ := reads.now / 1000

end Reads

/-! ## The check -/

structure Verdict where
  ok : Bool
  canOpenForm : Bool
  amountOk : Bool
  amountError : Option String
  blockingReasons : List String
  countryAllowed : Bool
  investorCapReached : Bool
  countryCapReached : Bool
  supplyCapReached : Bool
  duplicateActiveRequest : Bool
  decimals : ℕ
  currentSupply : String
  reservedSupply : String
  supplyRemaining : Option String
  maxRequestableTokens : Option String

section Check

variable (data : ComplianceData) (reads : Reads)

def amountBaseUnits : Option ℕ :=
  if isBlank data.amount then none else decimalToBaseUnits data.amount reads.decimals

def investorCountry : Option ℚ := if isBlank data.country then none else finite data.country

def allowedCountries : List ℤ := ((reads.param "allowed_countries").map parseCountryList).getD []

/-- The reason why the country of the investor is refused. -/
def countryRefusal : Option String :=
  if (allowedCountries reads).length > 0 then
    match investorCountry data with
    | none => some "Investor country is required for this token."
    | some country =>
        if trunc country ∈ allowedCountries reads then none
        else some s!"Investor country {Decimal.textOf country} is not allowed by this token."
  else none

def liveRefusal : Option String :=
  match reads.liveInvestors with
  | .ok _ => none
  | .error message =>
      some s!"Unable to verify the live Max Investors compliance module: {message}"

def lockupRefusal : Option String :=
  (finite (reads.param "lockup_end")).bind fun lockupEnd ↦
    if (reads.nowSeconds : ℚ) < lockupEnd then
      some s!"This token is locked until Unix time {trunc lockupEnd}."
    else none

/-- The wallets of other open requests that hold nothing yet. -/
def activeNewInvestors : List String :=
  ((reads.activeRequests.map fun request ↦ request.investorWallet.toLower).filter fun wallet ↦
    wallet ≠ data.investorWallet.toLower ∧
      wallet ∉ reads.holders.map String.toLower).dedup

def investorCapReached : Option ℕ :=
  match reads.liveInvestors with
  | .ok (some state) =>
      if reads.currentBalance = 0 ∧
        state.holderCount + (activeNewInvestors data reads).length ≥ state.maxInvestors then
          some state.maxInvestors
      else none
  | _ => none

/-- The cap of the investor's country, where the investor holds nothing yet. -/
def countryCapFor : Option CountryCap :=
  if reads.currentBalance = 0 then
    (investorCountry data).bind fun country ↦
      (parseCountryCaps (reads.param "country_caps")).find? fun cap ↦ cap.country = trunc country
  else none

def reservedWallets : List String :=
  (data.investorWallet.toLower :: reads.countryWallets.map String.toLower).dedup

def countryCapReached : Option ℤ :=
  (countryCapFor data reads).bind fun cap ↦
    if ((reservedWallets data reads).length : ℤ) > cap.cap then some cap.country else none

def maxBalanceRemaining : Option ℕ :=
  (reads.amountParam "max_balance").map fun maxBalance ↦ (maxBalance - reads.currentBalance).toNat

/-- What remains of the supply besides the open requests. -/
def supplyRemaining (currentSupply : ℤ) : Option ℕ :=
  (reads.amountParam "max_supply").map fun maxSupply ↦
    (maxSupply - currentSupply - reads.reservedSupply).toNat

/-- An amount above a limit, with what is said about it. -/
def above (limit : Option ℕ) (message : String → String) : Option String := do
  let limit ← limit
  let amount ← amountBaseUnits data reads
  if amount > limit then some (message (baseUnitsToDecimal limit reads.decimals)) else none

theorem le_of_above_eq_none {limit amount : ℕ} {message : String → String}
    (h : above data reads (some limit) message = none)
    (hamount : amountBaseUnits data reads = some amount) : amount ≤ limit := by
  rw [above, hamount] at h
  by_contra hlt
  have hgt : amount > limit := Nat.lt_of_not_le hlt
  simp [hgt] at h

def positiveError : Option String :=
  if amountBaseUnits data reads = some 0 then some "Enter a positive token amount." else none

def maxAmountError : Option String :=
  above data reads (reads.amountParam "max_amount") fun tokens ↦
    s!"Requested amount exceeds this token's maximum mint/transfer amount of {tokens} tokens."

def maxBalanceError : Option String :=
  above data reads (maxBalanceRemaining reads) fun tokens ↦
    "Requested amount would exceed this token's maximum wallet balance. " ++
      s!"You can request up to {tokens} tokens."

def supplyError (currentSupply : ℤ) : Option String :=
  above data reads (supplyRemaining reads currentSupply) fun tokens ↦
    s!"Only {tokens} tokens remain available for request."

/-- The last error that the amount has met. -/
def amountError (currentSupply : ℤ) : Option String :=
  (supplyError data reads currentSupply).or ((maxBalanceError data reads).or
    ((maxAmountError data reads).or (positiveError data reads)))

def blockingReasons (currentSupply : ℤ) : List String :=
  (if reads.duplicate then
    ["An open purchase request already exists for this investor and token."] else []) ++
  (countryRefusal data reads).toList ++
  (liveRefusal reads).toList ++
  (lockupRefusal reads).toList ++
  ((investorCapReached data reads).map fun maxInvestors ↦
    s!"This token has reached its maximum investor count of {maxInvestors}.").toList ++
  ((countryCapReached data reads).map fun country ↦
    s!"This token has reached its investor cap for country {country}.").toList ++
  (if supplyRemaining reads currentSupply = some 0 then
    ["This token has reached its supply cap."] else [])

def calculateCompliance (currentSupply : ℤ) : Verdict :=
  let reasons := blockingReasons data reads currentSupply
  let error := amountError data reads currentSupply
  let supplyCap := supplyRemaining reads currentSupply
  let limits := [supplyCap, reads.amountParam "max_amount", maxBalanceRemaining reads].filterMap id
  { ok := reasons.isEmpty ∧ error = none
    canOpenForm := countryRefusal data reads = none ∧ investorCapReached data reads = none ∧
      countryCapReached data reads = none ∧ supplyCap ≠ some 0
    amountOk := (amountBaseUnits data reads).any (0 < ·) ∧ error = none
    amountError := error
    blockingReasons := reasons
    countryAllowed := countryRefusal data reads = none
    investorCapReached := (investorCapReached data reads).isSome
    countryCapReached := (countryCapReached data reads).isSome
    supplyCapReached := supplyCap = some 0
    duplicateActiveRequest := reads.duplicate
    decimals := reads.decimals
    currentSupply := baseUnitsToDecimal currentSupply.toNat reads.decimals
    reservedSupply := baseUnitsToDecimal reads.reservedSupply reads.decimals
    supplyRemaining := supplyCap.map fun units ↦ baseUnitsToDecimal units reads.decimals
    maxRequestableTokens := limits.min?.map fun units ↦ baseUnitsToDecimal units reads.decimals }

end Check

end Fracks.Backend
