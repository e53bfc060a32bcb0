import Fracks.Lib.Bytes
import Fracks.Lib.Decimal
import Fracks.Lib.Json

/-!
# Module parameters

The parameters that the indexer of the backend reads off a module account, as texts:
amounts of base units are written with a decimal point.
-/

namespace Fracks.Indexer

open Bytes

/-! ## Texts -/

/-- The alphabet of addresses. -/
def base58Alphabet : List Char :=
  "123456789ABCDEFGHJKLMNPQRSTUVWXYZabcdefghijkmnopqrstuvwxyz".toList

def base58Digits : ℕ → ℕ → List ℕ
  | 0, _ => []
  | fuel + 1, n => if n = 0 then [] else base58Digits fuel (n / 58) ++ [n % 58]

def toBase58 (bytes : List UInt8) : String :=
  String.ofList ((bytes.takeWhile (· = 0)).map (fun _ ↦ '1') ++
    (base58Digits (2 * bytes.length) (ofLE bytes.reverse)).map fun d ↦ base58Alphabet.getD d '1')

/-- `value` base units of a token with these decimals. -/
def formatBaseUnits (value decimals : ℕ) : String :=
  let scale := 10 ^ decimals
  if scale = 1 then toString value
  else
    let whole := value / scale
    let fraction := value % scale
    if fraction = 0 then toString whole
    else
      let fractionText := String.ofList
        (((toString fraction).toList.leftpad decimals '0').rdropWhile (· = '0'))
      toString whole ++ "." ++ fractionText

theorem formatBaseUnits_eq (value decimals : ℕ) :
    formatBaseUnits value decimals = Decimal.format decimals value := by
  rw [formatBaseUnits, Decimal.format]
  split
  · rename_i hscale
    simp [hscale, Nat.mod_one]
  · rfl

def join (texts : List String) : String :=
  String.ofList ([','].intercalate (texts.map String.toList))

/-! ## Accounts -/

structure Account where
  owner : List UInt8
  data : List UInt8

def readUInt (width : ℕ) (data : List UInt8) (offset : ℕ) : ℕ := ofLE (window data offset width)

def readUInt8 := readUInt 1

def readUInt16LE := readUInt 2

def readUInt32LE := readUInt 4

def readBigUInt64LE := readUInt 8

def readBigInt64LE (data : List UInt8) (offset : ℕ) : ℤ :=
  (BitVec.ofNat 64 (readBigUInt64LE data offset)).toInt

/-- The items of `width` bytes from `offset` on, as long as they fit. -/
def readFitting {α : Type*} (width : ℕ) (read : List UInt8 → ℕ → α) (data : List UInt8) :
    ℕ → ℕ → List α
  | 0, _ => []
  | count + 1, offset =>
      if data.length < offset + width then []
      else read data offset :: readFitting width read data count (offset + width)

/-- The items behind their number. -/
def readVector {α : Type*} (width : ℕ) (read : List UInt8 → ℕ → α) (data : List UInt8)
    (offset : ℕ) : List α :=
  if data.length < offset + 4 then []
  else readFitting width read data (readUInt32LE data offset) (offset + 4)

def readU16Vector := readVector 2 readUInt16LE

def readCountryCapVector := readVector 10 fun data offset ↦
  s!"{readUInt16LE data offset}:{readBigUInt64LE data (offset + 2)}"

/-! ## The parameters of a module -/

structure ModuleProgramIds where
  maxInvestors : String
  countryRestrict : String
  maxBalance : String
  maxTransfer : String
  lockup : String
  dailyLimit : String
  supplyCap : String
  countryCap : String

/-- The programs that are used when the environment names no others. -/
def moduleProgramIds : ModuleProgramIds where
  maxInvestors := "2zfQv7RxmL5BAgXXFagZXBNby4Q41YGH6hnSJAcsXQeU"
  countryRestrict := "4ChDAU375yPJXZLG5XqtbbKdirAr3xHU5vnhppUjgu2d"
  maxBalance := "HEjNS1GC9nffSdXbi6aQ9WNQBNFyJQBGUshyrSeLpE9j"
  maxTransfer := "4gJbGvgnBhJ91gByKNo7eEVmCbsUkK5opyeo3M1VEJsy"
  lockup := "EvDVqTUjs3ZsAUfPQdyVskYCzoPTbWybF5tcBtWYfAuz"
  dailyLimit := "5dfHskP5MijaDY2gYsE44CPAuomt1vWgbPdGi62cquoT"
  supplyCap := "6tfb66btx776wdsPS5EHDTwWnvPSLJQje7gFQ4EDGxGc"
  countryCap := "EcLffdKdSsCpNczazKsSeRw7FCN6vVjKAEMH5CZGBndr"

abbrev ModuleParams := Json.Record String

def parseComplianceModuleParams (ids : ModuleProgramIds) (account : Account) (decimals : ℕ) :
    Option ModuleParams :=
  let data := account.data
  let programId := toBase58 account.owner
  if programId = ids.countryRestrict then
    let countries := readU16Vector data 72
    if countries.length > 0 then some [("allowed_countries", join (countries.map toString))]
    else none
  else if programId = ids.countryCap then
    let caps := readCountryCapVector data 104
    if caps.length > 0 then some [("country_caps", join caps)] else none
  else if programId = ids.maxBalance ∧ data.length ≥ 80 then
    some [("max_balance", formatBaseUnits (readBigUInt64LE data 72) decimals)]
  else if programId = ids.maxTransfer ∧ data.length ≥ 80 then
    some [("max_amount", formatBaseUnits (readBigUInt64LE data 72) decimals)]
  else if programId = ids.lockup ∧ data.length ≥ 80 then
    some [("lockup_end", toString (readBigInt64LE data 72))]
  else if programId = ids.maxInvestors ∧ data.length ≥ 112 then
    some [("max_investors", toString (readBigUInt64LE data 104))]
  else if programId = ids.dailyLimit ∧ data.length ≥ 112 then
    some [("daily_limit", formatBaseUnits (readBigUInt64LE data 104) decimals)]
  else if programId = ids.supplyCap ∧ data.length ≥ 112 then
    some [("max_supply", formatBaseUnits (readBigUInt64LE data 104) decimals)]
  else none

end Fracks.Indexer
