import Fracks.Identity.Issuers
import Fracks.Identity.Topics
import Fracks.ModuleImages
import Fracks.Token.Instructions
import Fracks.Wire

/-!
# Reads of the indexer

The parsers of the indexer with every read checked: one that goes past the end of the
buffer ends in an exception.  The length checks of the parsers stand before their reads,
so on every byte string they return what the parsers without checked reads return.
-/

namespace Fracks.IndexerReads

open Bytes Decoders Indexer

/-! ## Reads -/

def readBytes (data : List UInt8) (start stop : ℕ) : Except JsError (List UInt8) :=
  if stop ≤ data.length then .ok (window data start (stop - start)) else .error .outOfRange

def readUInt (width : ℕ) (data : List UInt8) (offset : ℕ) : Except JsError ℕ := do
  let bytes ← readBytes data offset (offset + width)
  .ok (ofLE bytes)

def readUInt8 := readUInt 1

def readUInt16LE := readUInt 2

def readUInt32LE := readUInt 4

def readBigUInt64LE := readUInt 8

def readBigInt64LE (data : List UInt8) (offset : ℕ) : Except JsError ℤ := do
  let n ← readBigUInt64LE data offset
  .ok (BitVec.ofNat 64 n).toInt

def readPubkey (data : List UInt8) (offset : ℕ) : Except JsError (List UInt8) := do
  let bytes ← readBytes data offset (offset + 32)
  .ok (publicKey bytes)

/-! ## Parsers -/

section Lists

variable {α : Type} (width : ℕ) (read : List UInt8 → ℕ → Except JsError α)

/-- A loop over items of `width` bytes that breaks where one does not fit. -/
def readFitting (data : List UInt8) : ℕ → ℕ → Except JsError (List α)
  | 0, _ => .ok []
  | count + 1, offset =>
      if data.length < offset + width then .ok []
      else do
        let item ← read data offset
        let items ← readFitting data count (offset + width)
        .ok (item :: items)

def readVector (data : List UInt8) (offset : ℕ) : Except JsError (List α) :=
  if data.length < offset + 4 then .ok []
  else do
    let count ← readUInt32LE data offset
    readFitting width read data count (offset + 4)

end Lists

def readU16Vector := readVector 2 readUInt16LE

def readCountryCapVector := readVector 10 fun data offset ↦ do
  let country ← readUInt16LE data offset
  let cap ← readBigUInt64LE data (offset + 2)
  .ok s!"{country}:{cap}"

def readAnchorString (data : List UInt8) (offset : ℕ) : Except JsError (Option (String × ℕ)) :=
  if data.length < offset + 4 then .ok none
  else do
    let len ← readUInt32LE data offset
    let start := offset + 4
    let stop := start + len
    if data.length < stop then .ok none
    else do
      let bytes ← readBytes data start stop
      .ok (some (utf8ToString bytes, stop))

def parseTokenState (account : Indexer.Account) : Except JsError (Option ParsedTokenState) :=
  let data := account.data
  let offset := 8 + 32 + 32 + 32
  if data.length < offset + 2 then .ok none
  else do
    let paused ← readUInt8 data offset
    let decimals ← readUInt8 data (offset + 1)
    let nameResult ← readAnchorString data (offset + 2)
    let symbolResult ← match nameResult with
      | some name => readAnchorString data name.2
      | none => .ok none
    let isinResult ← match symbolResult with
      | some symbol => readAnchorString data symbol.2
      | none => .ok none
    .ok (some {
      paused := paused = 1
      decimals
      name := (nameResult.map Prod.fst).getD ""
      symbol := (symbolResult.map Prod.fst).getD ""
      isin := (isinResult.map Prod.fst).getD "" })

def parseComplianceState (account : Indexer.Account) : Except JsError (List (List UInt8)) :=
  readVector 32 readPubkey account.data (8 + 32 + 32)

def parseClaimTopicsState (account : Indexer.Account) : Except JsError (List String) := do
  let topics ← readVector 8 readBigUInt64LE account.data (8 + 32 + 32)
  .ok (topics.map toString)

/-- A loop that gives up where a topic does not fit, with the offset behind the topics. -/
def readTopics (data : List UInt8) : ℕ → ℕ → Except JsError (Option (List String × ℕ))
  | 0, offset => .ok (some ([], offset))
  | count + 1, offset =>
      if data.length < offset + 8 then .ok none
      else do
        let topic ← readBigUInt64LE data offset
        let rest ← readTopics data count (offset + 8)
        .ok (rest.map fun rest ↦ (toString topic :: rest.1, rest.2))

def parseIssuerEntry (account : Indexer.Account) : Except JsError (Option Indexer.IssuerEntry) :=
  let data := account.data
  if data.length < issuerEntrySize then .ok none
  else do
    let issuerFid ← readPubkey data 8
    let topicCount ← readUInt32LE data 72
    let read ← readTopics data topicCount 76
    match read with
    | none => .ok none
    | some (topics, offset) =>
        if data.length < offset + 1 + 4 then .ok none
        else do
          let active ← readUInt8 data offset
          let labelLength ← readUInt32LE data (offset + 1)
          if data.length < offset + 5 + labelLength then .ok none
          else do
            let bytes ← readBytes data (offset + 5) (offset + 5 + labelLength)
            .ok (some { issuerFid, topics, active := active = 1, label := utf8ToString bytes })

def parseComplianceModuleParams (ids : ModuleProgramIds) (account : Indexer.Account)
    (decimals : ℕ) :
    Except JsError (Option ModuleParams) :=
  let data := account.data
  let programId := toBase58 account.owner
  if programId = ids.countryRestrict then do
    let countries ← readU16Vector data 72
    .ok (if countries.length > 0 then some [("allowed_countries", join (countries.map toString))]
      else none)
  else if programId = ids.countryCap then do
    let caps ← readCountryCapVector data 104
    .ok (if caps.length > 0 then some [("country_caps", join caps)] else none)
  else if programId = ids.maxBalance ∧ data.length ≥ 80 then do
    let amount ← readBigUInt64LE data 72
    .ok (some [("max_balance", formatBaseUnits amount decimals)])
  else if programId = ids.maxTransfer ∧ data.length ≥ 80 then do
    let amount ← readBigUInt64LE data 72
    .ok (some [("max_amount", formatBaseUnits amount decimals)])
  else if programId = ids.lockup ∧ data.length ≥ 80 then do
    let lockupEnd ← readBigInt64LE data 72
    .ok (some [("lockup_end", toString lockupEnd)])
  else if programId = ids.maxInvestors ∧ data.length ≥ 112 then do
    let investors ← readBigUInt64LE data 104
    .ok (some [("max_investors", toString investors)])
  else if programId = ids.dailyLimit ∧ data.length ≥ 112 then do
    let limit ← readBigUInt64LE data 104
    .ok (some [("daily_limit", formatBaseUnits limit decimals)])
  else if programId = ids.supplyCap ∧ data.length ≥ 112 then do
    let supply ← readBigUInt64LE data 104
    .ok (some [("max_supply", formatBaseUnits supply decimals)])
  else .ok none

/-! ## No read goes past the end -/

section Safety

variable {data : List UInt8} {offset width : ℕ}

theorem readBytes_ok {start stop : ℕ} (h : stop ≤ data.length) :
    readBytes data start stop = .ok (window data start (stop - start)) := if_pos h

theorem readUInt_ok (h : offset + width ≤ data.length) :
    readUInt width data offset = .ok (Indexer.readUInt width data offset) := by
  rw [readUInt, readBytes_ok h, Nat.add_sub_cancel_left]
  rfl

theorem readBigInt64LE_ok (h : offset + 8 ≤ data.length) :
    readBigInt64LE data offset = .ok (Indexer.readBigInt64LE data offset) := by
  rw [readBigInt64LE, readBigUInt64LE, readUInt_ok h]
  rfl

theorem readPubkey_ok (h : offset + 32 ≤ data.length) :
    readPubkey data offset = .ok (Indexer.readPubkey data offset) := by
  rw [readPubkey, readBytes_ok h, Nat.add_sub_cancel_left]
  rfl

section Lists

variable {α : Type} {read : List UInt8 → ℕ → Except JsError α} {item : List UInt8 → ℕ → α}
  (hread : ∀ offset, offset + width ≤ data.length → read data offset = .ok (item data offset))

include hread

/-- The loop checks the length before each of its reads. -/
theorem readFitting_ok (count offset : ℕ) :
    readFitting width read data count offset =
      .ok (Indexer.readFitting width item data count offset) := by
  induction count generalizing offset with
  | zero => rfl
  | succ count ih =>
      rw [readFitting, Indexer.readFitting]
      split
      · rfl
      · rename_i hfits
        have hitem := hread offset (by omega)
        rw [hitem, ih]
        rfl

theorem readVector_ok (offset : ℕ) :
    readVector width read data offset = .ok (Indexer.readVector width item data offset) := by
  rw [readVector, Indexer.readVector]
  split
  · rfl
  · rename_i hfits
    have hcount : readUInt32LE data offset = .ok (Indexer.readUInt32LE data offset) :=
      readUInt_ok (by omega)
    rw [hcount]
    exact readFitting_ok hread _ _

end Lists

theorem readU16Vector_ok (data : List UInt8) (offset : ℕ) :
    readU16Vector data offset = .ok (Indexer.readU16Vector data offset) :=
  readVector_ok (fun _ h ↦ readUInt_ok h) offset

theorem readCountryCapVector_ok (data : List UInt8) (offset : ℕ) :
    readCountryCapVector data offset = .ok (Indexer.readCountryCapVector data offset) := by
  apply readVector_ok
  intro offset h
  have hcountry : readUInt16LE data offset = .ok (Indexer.readUInt16LE data offset) :=
    readUInt_ok (by omega)
  have hcap : readBigUInt64LE data (offset + 2) = .ok (Indexer.readBigUInt64LE data (offset + 2)) :=
    readUInt_ok (by omega)
  rw [hcountry, hcap]
  rfl

theorem readAnchorString_ok (data : List UInt8) (offset : ℕ) :
    readAnchorString data offset = .ok (Indexer.readAnchorString data offset) := by
  rw [readAnchorString, Indexer.readAnchorString]
  split
  · rfl
  · rename_i hlength
    have hlen : readUInt32LE data offset = .ok (Indexer.readUInt32LE data offset) :=
      readUInt_ok (by omega)
    rw [hlen, Checked.ok_bind]
    dsimp only
    split
    · rfl
    · rename_i hfits
      rw [readBytes_ok (by omega), Nat.add_sub_cancel_left]
      rfl

variable (account : Indexer.Account)

theorem parseTokenState_ok : parseTokenState account = .ok (Indexer.parseTokenState account) := by
  rw [parseTokenState, Indexer.parseTokenState]
  split
  · rfl
  · rename_i hlength
    have hpaused : readUInt8 account.data (8 + 32 + 32 + 32) =
        .ok (Indexer.readUInt8 account.data (8 + 32 + 32 + 32)) := readUInt_ok (by omega)
    have hdecimals : readUInt8 account.data (8 + 32 + 32 + 32 + 1) =
        .ok (Indexer.readUInt8 account.data (8 + 32 + 32 + 32 + 1)) := readUInt_ok (by omega)
    simp only [hpaused, hdecimals, readAnchorString_ok, Checked.ok_bind]
    cases hname : Indexer.readAnchorString account.data (8 + 32 + 32 + 32 + 2) with
    | none => rfl
    | some name =>
        simp only [Option.bind_some]
        cases Indexer.readAnchorString account.data name.2 with
        | none => rfl
        | some symbol => rfl

theorem parseComplianceState_ok :
    parseComplianceState account = .ok (Indexer.parseComplianceState account) :=
  readVector_ok (fun _ h ↦ readPubkey_ok h) _

theorem parseClaimTopicsState_ok :
    parseClaimTopicsState account = .ok (Indexer.parseClaimTopicsState account) := by
  have htopics : readVector 8 readBigUInt64LE account.data (8 + 32 + 32) =
      .ok (Indexer.readVector 8 Indexer.readBigUInt64LE account.data (8 + 32 + 32)) :=
    readVector_ok (fun _ h ↦ readUInt_ok h) _
  rw [parseClaimTopicsState, htopics]
  rfl

/-- The loop gives up exactly when fewer topics fit than there should be. -/
theorem readTopics_ok (data : List UInt8) (count offset : ℕ) :
    let topics := Indexer.readFitting 8 Indexer.readBigUInt64LE data count offset
    readTopics data count offset =
      .ok (if topics.length < count then none
        else some (topics.map toString, offset + 8 * count)) := by
  induction count generalizing offset with
  | zero => rfl
  | succ count ih =>
      dsimp only at ih ⊢
      rw [readTopics, Indexer.readFitting]
      split
      · rw [List.length_nil, if_pos (Nat.succ_pos count)]
      · rename_i hfits
        have htopic : readBigUInt64LE data offset = .ok (Indexer.readBigUInt64LE data offset) :=
          readUInt_ok (by omega)
        rw [htopic, Checked.ok_bind, ih (offset + 8), Checked.ok_bind, List.length_cons]
        by_cases hall : (Indexer.readFitting 8 Indexer.readBigUInt64LE data count
            (offset + 8)).length < count
        · rw [if_pos hall, if_pos (Nat.succ_lt_succ hall)]
          rfl
        · have hnext : offset + 8 + 8 * count = offset + 8 * (count + 1) := by omega
          rw [if_neg hall, if_neg (fun hlt ↦ hall (Nat.lt_of_succ_lt_succ hlt)), hnext]
          rfl

theorem parseIssuerEntry_ok :
    parseIssuerEntry account = .ok (Indexer.parseIssuerEntry account) := by
  rw [parseIssuerEntry, Indexer.parseIssuerEntry]
  split
  · rfl
  · rename_i hlength
    have hsize : issuerEntrySize ≤ account.data.length := by omega
    unfold issuerEntrySize at hsize
    have hfid : readPubkey account.data 8 = .ok (Indexer.readPubkey account.data 8) :=
      readPubkey_ok (by omega)
    have hcount : readUInt32LE account.data 72 = .ok (Indexer.readUInt32LE account.data 72) :=
      readUInt_ok (by omega)
    have htopics := readTopics_ok account.data (Indexer.readUInt32LE account.data 72) 76
    dsimp only at htopics ⊢
    rw [hfid, Checked.ok_bind, hcount, Checked.ok_bind, htopics, Checked.ok_bind]
    by_cases hall : (Indexer.readFitting 8 Indexer.readBigUInt64LE account.data
        (Indexer.readUInt32LE account.data 72) 76).length < Indexer.readUInt32LE account.data 72
    · rw [if_pos hall, if_pos hall]
    · rw [if_neg hall, if_neg hall]
      dsimp only
      split
      · rfl
      · rename_i hflag
        have hactive : readUInt8 account.data (76 + 8 * Indexer.readUInt32LE account.data 72) =
            .ok (Indexer.readUInt8 account.data (76 + 8 * Indexer.readUInt32LE account.data 72)) :=
          readUInt_ok (by omega)
        have hlabel : readUInt32LE account.data
            (76 + 8 * Indexer.readUInt32LE account.data 72 + 1) = .ok (Indexer.readUInt32LE
              account.data (76 + 8 * Indexer.readUInt32LE account.data 72 + 1)) :=
          readUInt_ok (by omega)
        rw [hactive, Checked.ok_bind, hlabel, Checked.ok_bind]
        split
        · rfl
        · rename_i htext
          rw [readBytes_ok (by omega), Nat.add_sub_cancel_left]
          rfl

/-- A branch at a time. -/
theorem ite_ok {α : Type} {c : Prop} [Decidable c] {x y : Except JsError α} {a b : α}
    (hx : c → x = .ok a) (hy : y = .ok b) :
    (if c then x else y) = .ok (if c then a else b) := by
  by_cases hc : c
  · rw [if_pos hc, if_pos hc, hx hc]
  · rw [if_neg hc, if_neg hc, hy]

theorem parseComplianceModuleParams_ok (ids : ModuleProgramIds) (decimals : ℕ) :
    parseComplianceModuleParams ids account decimals =
      .ok (Indexer.parseComplianceModuleParams ids account decimals) := by
  have hamount : account.data.length ≥ 80 →
      readBigUInt64LE account.data 72 = .ok (Indexer.readBigUInt64LE account.data 72) :=
    fun hlength ↦ readUInt_ok hlength
  have hlockup : account.data.length ≥ 80 →
      readBigInt64LE account.data 72 = .ok (Indexer.readBigInt64LE account.data 72) :=
    fun hlength ↦ readBigInt64LE_ok hlength
  have hhooked : account.data.length ≥ 112 →
      readBigUInt64LE account.data 104 = .ok (Indexer.readBigUInt64LE account.data 104) :=
    fun hlength ↦ readUInt_ok hlength
  rw [parseComplianceModuleParams, Indexer.parseComplianceModuleParams]
  refine ite_ok (fun _ ↦ ?_) (ite_ok (fun _ ↦ ?_) (ite_ok (fun h ↦ ?_) (ite_ok (fun h ↦ ?_)
    (ite_ok (fun h ↦ ?_) (ite_ok (fun h ↦ ?_) (ite_ok (fun h ↦ ?_) (ite_ok (fun h ↦ ?_) rfl)))))))
  · rw [readU16Vector_ok]
    rfl
  · rw [readCountryCapVector_ok]
    rfl
  · rw [hamount h.2]
    rfl
  · rw [hamount h.2]
    rfl
  · rw [hlockup h.2]
    rfl
  · rw [hhooked h.2]
    rfl
  · rw [hhooked h.2]
    rfl
  · rw [hhooked h.2]
    rfl

end Safety

/-! ## The fields of the accounts -/

section Exactness

open Layouts

variable {before after part bytes : List UInt8} {offset space : ℕ} {discriminator : Vector UInt8 8}
  {owner : List UInt8}

theorem readAnchorString_append {text : String} (h : FieldType.string.encode text = some part)
    (hoffset : before.length = offset) :
    Indexer.readAnchorString (before ++ (part ++ after)) offset =
      some (text, offset + part.length) := by
  obtain ⟨hlt, rfl⟩ := encode_string h
  have hlength : Indexer.readUInt32LE (before ++ ((toLE 4 text.toUTF8.data.toList.length ++
      text.toUTF8.data.toList) ++ after)) offset = text.toUTF8.data.toList.length := by
    rw [List.append_assoc (toLE 4 _)]
    exact readUInt_append hoffset hlt
  have hwindow := window_append (before ++ toLE 4 text.toUTF8.data.toList.length)
    text.toUTF8.data.toList after
  rw [List.length_append, length_toLE, hoffset] at hwindow
  simp only [List.append_assoc] at hlength hwindow ⊢
  rw [Indexer.readAnchorString, hlength, hwindow, utf8ToString_toUTF8]
  simp only [List.length_append, length_toLE, hoffset]
  rw [if_neg (by omega), if_neg (by omega), Nat.add_assoc]

theorem toNat_eq_one (b : Bool) : decide (b.toNat = 1) = b := by
  cases b <;> rfl

/-- The fields of a token state are read one behind the other. -/
theorem parseTokenState_append {front name symbol isin : List UInt8} {s : Wire.TokenState}
    (owner rest : List UInt8) (hfront : front.length = 8 + 32 + 32 + 32)
    (hname : FieldType.string.encode s.name = some name)
    (hsymbol : FieldType.string.encode s.symbol = some symbol)
    (hisin : FieldType.string.encode s.isin = some isin) :
    Indexer.parseTokenState ⟨owner, front ++ (toLE 1 s.paused.toNat ++ (toLE 1 s.decimals.toNat ++
      (name ++ (symbol ++ (isin ++ rest)))))⟩ = some {
        paused := s.paused
        decimals := s.decimals.toNat
        name := s.name
        symbol := s.symbol
        isin := s.isin } := by
  generalize hdata : front ++ (toLE 1 s.paused.toNat ++ (toLE 1 s.decimals.toNat ++
    (name ++ (symbol ++ (isin ++ rest))))) = data
  have hpaused : Indexer.readUInt8 data (8 + 32 + 32 + 32) = s.paused.toNat := by
    rw [← hdata]
    exact readUInt_append hfront (by cases s.paused <;> decide)
  have hdecimals : Indexer.readUInt8 data (8 + 32 + 32 + 32 + 1) = s.decimals.toNat := by
    have hsplit : data = (front ++ toLE 1 s.paused.toNat) ++ (toLE 1 s.decimals.toNat ++
        (name ++ (symbol ++ (isin ++ rest)))) := by
      rw [← hdata, List.append_assoc]
    rw [hsplit]
    exact readUInt_append (by rw [List.length_append, hfront, length_toLE]) s.decimals.toNat_lt
  have hfirst : Indexer.readAnchorString data (8 + 32 + 32 + 32 + 2) =
      some (s.name, 8 + 32 + 32 + 32 + 2 + name.length) := by
    have hsplit : data = (front ++ (toLE 1 s.paused.toNat ++ toLE 1 s.decimals.toNat)) ++
        (name ++ (symbol ++ (isin ++ rest))) := by
      rw [← hdata]
      simp only [List.append_assoc]
    rw [hsplit]
    apply readAnchorString_append hname
    simp only [List.length_append, hfront, length_toLE]
  have hsecond : Indexer.readAnchorString data (8 + 32 + 32 + 32 + 2 + name.length) =
      some (s.symbol, 8 + 32 + 32 + 32 + 2 + name.length + symbol.length) := by
    have hsplit : data = (front ++ (toLE 1 s.paused.toNat ++ (toLE 1 s.decimals.toNat ++ name))) ++
        (symbol ++ (isin ++ rest)) := by
      rw [← hdata]
      simp only [List.append_assoc]
    rw [hsplit]
    apply readAnchorString_append hsymbol
    simp only [List.length_append, hfront, length_toLE]
    omega
  have hthird : Indexer.readAnchorString data
      (8 + 32 + 32 + 32 + 2 + name.length + symbol.length) =
        some (s.isin, 8 + 32 + 32 + 32 + 2 + name.length + symbol.length + isin.length) := by
    have hsplit : data = (front ++ (toLE 1 s.paused.toNat ++ (toLE 1 s.decimals.toNat ++
        (name ++ symbol)))) ++ (isin ++ rest) := by
      rw [← hdata]
      simp only [List.append_assoc]
    rw [hsplit]
    apply readAnchorString_append hisin
    simp only [List.length_append, hfront, length_toLE]
    omega
  have hlength : ¬ data.length < 8 + 32 + 32 + 32 + 2 := by
    rw [← hdata]
    simp only [List.length_append, hfront, length_toLE]
    omega
  rw [Indexer.parseTokenState]
  simp only [if_neg hlength, hpaused, hdecimals, hfirst, hsecond, hthird, Option.bind_some,
    Option.map_some, Option.getD_some, toNat_eq_one]

theorem parseTokenState_stored {s : Wire.TokenState}
    (h : accountData discriminator space tokenState s.record = some bytes) :
    Indexer.parseTokenState ⟨owner, bytes⟩ = some {
      paused := s.paused
      decimals := s.decimals.toNat
      name := s.name
      symbol := s.symbol
      isin := s.isin } := by
  obtain ⟨-, bs, padding, hbs, rfl⟩ := accountData_parts h
  obtain ⟨name, symbol, isin, hname, hsymbol, hisin, rfl⟩ := encode_tokenState hbs
  have hfront : (discriminator.toList ++ (s.tokenMint.toList ++ (s.identityRegistry.toList ++
      s.compliance.toList))).length = 8 + 32 + 32 + 32 := by
    simp only [List.length_append, Vector.length_toList]
  have hparse := parseTokenState_append owner (toLE 1 s.bump.toNat ++ padding) hfront hname hsymbol
    hisin
  simp only [List.append_assoc, List.append_nil] at hparse ⊢
  exact hparse

theorem parseComplianceState_stored {s : Wire.ComplianceState}
    (h : accountData discriminator space complianceState s.record = some bytes) :
    Indexer.parseComplianceState ⟨owner, bytes⟩ = s.modules.map Vector.toList := by
  obtain ⟨-, bs, padding, hbs, rfl⟩ := accountData_parts h
  obtain ⟨part, hpart⟩ := bytesOf_of_encode hbs (show Field.modules ∈ _ by decide)
  obtain ⟨left, right, rfl, hleft⟩ :=
    encode_split hbs (show offset .modules complianceState = some 64 from rfl) hpart
  obtain ⟨hlt, rfl⟩ := encode_vecPubkey hpart
  have hfront : (discriminator.toList ++ left).length = 8 + 32 + 32 := by
    rw [List.length_append, Vector.length_toList, hleft]
  have hsplit : discriminator.toList ++ (left ++ (toLE 4 s.modules.length ++
      s.modules.flatMap Vector.toList ++ right) ++ padding) = (discriminator.toList ++ left) ++
        ((toLE 4 s.modules.length ++ s.modules.flatMap Vector.toList) ++ (right ++ padding)) := by
    simp only [List.append_assoc]
  rw [Indexer.parseComplianceState, hsplit]
  exact readVector_append hfront hlt (fun key _ ↦ Vector.length_toList)
    fun key _ _ _ ↦ readPubkey_append key

theorem readTopic_append (topic : UInt64) (before after : List UInt8) :
    Indexer.readBigUInt64LE (before ++ (toLE 8 topic.toNat ++ after)) before.length =
      topic.toNat :=
  readUInt_append rfl topic.toNat_lt

theorem parseClaimTopicsState_stored {s : Wire.ClaimTopicsState}
    (h : accountData discriminator space claimTopicsState s.record = some bytes) :
    Indexer.parseClaimTopicsState ⟨owner, bytes⟩ =
      s.topics.map fun topic ↦ toString topic.toNat := by
  obtain ⟨-, bs, padding, hbs, rfl⟩ := accountData_parts h
  obtain ⟨part, hpart⟩ := bytesOf_of_encode hbs (show Field.topics ∈ _ by decide)
  obtain ⟨left, right, rfl, hleft⟩ :=
    encode_split hbs (show offset .topics claimTopicsState = some 64 from rfl) hpart
  obtain ⟨hlt, rfl⟩ := encode_vecU64 hpart
  have hfront : (discriminator.toList ++ left).length = 8 + 32 + 32 := by
    rw [List.length_append, Vector.length_toList, hleft]
  have hsplit : discriminator.toList ++ (left ++ (toLE 4 s.topics.length ++
      (s.topics.flatMap fun topic ↦ toLE 8 topic.toNat) ++ right) ++ padding) =
        (discriminator.toList ++ left) ++ ((toLE 4 s.topics.length ++
          s.topics.flatMap fun topic ↦ toLE 8 topic.toNat) ++ (right ++ padding)) := by
    simp only [List.append_assoc]
  have hread : Indexer.readVector 8 Indexer.readBigUInt64LE (discriminator.toList ++ (left ++
      (toLE 4 s.topics.length ++ (s.topics.flatMap fun topic ↦ toLE 8 topic.toNat) ++ right) ++
        padding)) (8 + 32 + 32) = s.topics.map UInt64.toNat := by
    rw [hsplit]
    exact readVector_append hfront hlt (fun topic _ ↦ length_toLE 8 _)
      fun topic _ ↦ readTopic_append topic
  rw [Indexer.parseClaimTopicsState, hread, List.map_map]
  rfl

/-- The fields of an entry are read one behind the other. -/
theorem parseIssuerEntry_append {front topics label data : List UInt8} {e : Wire.IssuerEntry}
    (owner rest : List UInt8) (hfront : front.length = 8)
    (htopics : FieldType.vecU64.encode e.allowedTopics = some topics)
    (hlabel : FieldType.string.encode e.label = some label)
    (hdata : data = front ++ (e.issuerFid.toList ++ (e.tir.toList ++
      (topics ++ (toLE 1 e.isActive.toNat ++ (label ++ rest))))))
    (hsize : issuerEntrySize ≤ data.length) :
    Indexer.parseIssuerEntry ⟨owner, data⟩ = some {
        issuerFid := e.issuerFid.toList
        topics := e.allowedTopics.map fun topic ↦ toString topic.toNat
        active := e.isActive
        label := e.label } := by
  obtain ⟨hfew, htopics⟩ := encode_vecU64 htopics
  obtain ⟨hshort, hlabel⟩ := encode_string hlabel
  generalize hitems : (e.allowedTopics.flatMap fun topic ↦ toLE 8 topic.toNat) = items at htopics
  generalize htext : e.label.toUTF8.data.toList = text at hlabel hshort
  have hitemsLength : items.length = e.allowedTopics.length * 8 := by
    rw [← hitems]
    exact length_items (fun topic ↦ length_toLE 8 _) _
  have hfid : Indexer.readPubkey data 8 = e.issuerFid.toList := by
    rw [hdata, ← hfront]
    exact readPubkey_append e.issuerFid
  have hcount : Indexer.readUInt32LE data 72 = e.allowedTopics.length := by
    have hsplit : data = (front ++ (e.issuerFid.toList ++ e.tir.toList)) ++
        (toLE 4 e.allowedTopics.length ++
          (items ++ (toLE 1 e.isActive.toNat ++ (label ++ rest)))) := by
      simp only [hdata, htopics, List.append_assoc]
    rw [hsplit]
    apply readUInt_append _ hfew
    simp only [List.length_append, hfront, Vector.length_toList]
  have hread : Indexer.readFitting 8 Indexer.readBigUInt64LE data e.allowedTopics.length 76 =
      e.allowedTopics.map UInt64.toNat := by
    have hsplit : data = (front ++ (e.issuerFid.toList ++ (e.tir.toList ++
        toLE 4 e.allowedTopics.length))) ++ ((e.allowedTopics.flatMap fun topic ↦
          toLE 8 topic.toNat) ++ (toLE 1 e.isActive.toNat ++ (label ++ rest))) := by
      simp only [hdata, htopics, hitems, List.append_assoc]
    rw [hsplit]
    apply readFitting_append
    · simp only [List.length_append, hfront, Vector.length_toList, length_toLE]
    · exact fun topic _ ↦ length_toLE 8 _
    · exact fun topic _ ↦ readTopic_append topic
  have hbehind : (front ++ (e.issuerFid.toList ++ (e.tir.toList ++ topics))).length =
      76 + 8 * e.allowedTopics.length := by
    simp only [List.length_append, hfront, Vector.length_toList, htopics, length_toLE,
      hitemsLength]
    omega
  generalize htail : 76 + 8 * e.allowedTopics.length = tail at hbehind
  have hactive : Indexer.readUInt8 data tail = e.isActive.toNat := by
    have hsplit : data = (front ++ (e.issuerFid.toList ++ (e.tir.toList ++ topics))) ++
        (toLE 1 e.isActive.toNat ++ (label ++ rest)) := by
      simp only [hdata, List.append_assoc]
    rw [hsplit]
    exact readUInt_append hbehind (by cases e.isActive <;> decide)
  have hlength : Indexer.readUInt32LE data (tail + 1) = text.length := by
    have hsplit : data = ((front ++ (e.issuerFid.toList ++ (e.tir.toList ++ topics))) ++
        toLE 1 e.isActive.toNat) ++ (toLE 4 text.length ++ (text ++ rest)) := by
      simp only [hdata, hlabel, List.append_assoc]
    rw [hsplit]
    exact readUInt_append (by rw [List.length_append, hbehind, length_toLE]) hshort
  have hwindow : window data (tail + 5) text.length = text := by
    have hsplit : data = ((front ++ (e.issuerFid.toList ++ (e.tir.toList ++ topics))) ++
        (toLE 1 e.isActive.toNat ++ toLE 4 text.length)) ++ (text ++ rest) := by
      simp only [hdata, hlabel, List.append_assoc]
    have hstart : tail + 5 = ((front ++ (e.issuerFid.toList ++ (e.tir.toList ++ topics))) ++
        (toLE 1 e.isActive.toNat ++ toLE 4 text.length)).length := by
      rw [List.length_append, hbehind, List.length_append, length_toLE, length_toLE]
    rw [hsplit, hstart]
    exact window_append _ text rest
  have hfits : tail + 5 + text.length ≤ data.length := by
    have hsplit : data = (front ++ (e.issuerFid.toList ++ (e.tir.toList ++ topics))) ++
        (toLE 1 e.isActive.toNat ++ (toLE 4 text.length ++ (text ++ rest))) := by
      simp only [hdata, hlabel, List.append_assoc]
    rw [hsplit, List.length_append, hbehind]
    simp only [List.length_append, length_toLE]
    omega
  have hutf8 : utf8ToString text = e.label := by
    rw [← htext]
    exact utf8ToString_toUTF8 e.label
  have hwhole : ¬ data.length < issuerEntrySize := by omega
  have hflag : ¬ data.length < tail + 1 + 4 := by omega
  have hlabelled : ¬ data.length < tail + 5 + text.length := by omega
  rw [Indexer.parseIssuerEntry]
  simp only [if_neg hwhole, hcount, hread, List.length_map, if_neg (Nat.lt_irrefl _), htail,
    if_neg hflag, hlength, if_neg hlabelled, hactive, hfid, hwindow, hutf8, toNat_eq_one,
    List.map_map]
  rfl

theorem parseIssuerEntry_stored {e : Wire.IssuerEntry}
    (h : accountData discriminator Tir.issuerEntrySpace issuerEntry e.record = some bytes) :
    Indexer.parseIssuerEntry ⟨owner, bytes⟩ = some {
        issuerFid := e.issuerFid.toList
        topics := e.allowedTopics.map fun topic ↦ toString topic.toNat
        active := e.isActive
        label := e.label } := by
  obtain ⟨hsize, bs, padding, hbs, rfl⟩ := accountData_parts h
  obtain ⟨topics, label, htopics, hlabel, rfl⟩ := encode_issuerEntry hbs
  apply parseIssuerEntry_append owner (toLE 1 e.bump.toNat ++ padding)
    (show discriminator.toList.length = 8 from Vector.length_toList) htopics hlabel
  · simp only [List.append_assoc, List.append_nil]
  · exact hsize

end Exactness

/-- No parser reads past the end of a byte string, and each one gives back the fields of
what is stored in the space of its account. -/
theorem indexer_parsers_exact :
    (∀ (account : Indexer.Account) (ids : ModuleProgramIds) (decimals : ℕ),
      (∃ parsed, parseTokenState account = .ok parsed) ∧
      (∃ parsed, parseComplianceState account = .ok parsed) ∧
      (∃ parsed, parseClaimTopicsState account = .ok parsed) ∧
      (∃ parsed, parseIssuerEntry account = .ok parsed) ∧
      ∃ parsed, parseComplianceModuleParams ids account decimals = .ok parsed) ∧
    ∀ (discriminator : Vector UInt8 8) (owner bytes : List UInt8),
      (∀ s : Wire.TokenState, Layouts.accountData discriminator Token.tokenStateSpace
          Layouts.tokenState s.record = some bytes →
        parseTokenState ⟨owner, bytes⟩ = .ok (some {
          paused := s.paused
          decimals := s.decimals.toNat
          name := s.name
          symbol := s.symbol
          isin := s.isin })) ∧
      (∀ s : Wire.ComplianceState, Layouts.accountData discriminator Compliance.complianceSpace
          Layouts.complianceState s.record = some bytes →
        parseComplianceState ⟨owner, bytes⟩ = .ok (s.modules.map Vector.toList)) ∧
      (∀ s : Wire.ClaimTopicsState, Layouts.accountData discriminator Ctr.ctrSpace
          Layouts.claimTopicsState s.record = some bytes →
        parseClaimTopicsState ⟨owner, bytes⟩ =
          .ok (s.topics.map fun topic ↦ toString topic.toNat)) ∧
      (∀ e : Wire.IssuerEntry, Layouts.accountData discriminator Tir.issuerEntrySpace
          Layouts.issuerEntry e.record = some bytes →
        parseIssuerEntry ⟨owner, bytes⟩ = .ok (some {
          issuerFid := e.issuerFid.toList
          topics := e.allowedTopics.map fun topic ↦ toString topic.toNat
          active := e.isActive
          label := e.label })) ∧
      ∀ (ids : ModuleProgramIds) (addr : Pubkey → Layouts.Key) (data : AccountData) (rule : Rule)
        (decimals : ℕ), Function.Injective ids.of → Rule.of? data = some rule →
        toBase58 owner = ids.of rule → Serialized addr data bytes →
          parseComplianceModuleParams ids ⟨owner, bytes⟩ decimals =
            .ok ((indexedText decimals data).map fun text ↦ [(rule.key, text)]) := by
  refine ⟨fun account ids decimals ↦ ⟨⟨_, parseTokenState_ok account⟩,
    ⟨_, parseComplianceState_ok account⟩, ⟨_, parseClaimTopicsState_ok account⟩,
    ⟨_, parseIssuerEntry_ok account⟩, ⟨_, parseComplianceModuleParams_ok account ids decimals⟩⟩,
    fun discriminator owner bytes ↦ ⟨fun s h ↦ ?_, fun s h ↦ ?_, fun s h ↦ ?_, fun e h ↦ ?_, ?_⟩⟩
  · rw [parseTokenState_ok, parseTokenState_stored h]
  · rw [parseComplianceState_ok, parseComplianceState_stored h]
  · rw [parseClaimTopicsState_ok, parseClaimTopicsState_stored h]
  · rw [parseIssuerEntry_ok, parseIssuerEntry_stored h]
  · intro ids addr data rule decimals hids hrule howner h
    rw [parseComplianceModuleParams_ok, parse_serialized hids hrule howner h]

/-! ### A module with two countries -/

/-- The key `4ChDAU375yPJXZLG5XqtbbKdirAr3xHU5vnhppUjgu2d`. -/
def countryRestrictProgram : List UInt8 :=
  [47, 145, 234, 57, 188, 175, 236, 73, 48, 160, 225, 61, 110, 152, 110, 214, 47, 212, 240, 158,
    161, 70, 4, 136, 247, 16, 255, 252, 242, 214, 197, 134]

def restrictModule : AccountData :=
  .countryRestrictModule
    { owner := .address 1, tokenMint := .address 2, allowedCountries := [276, 840] }

def restrictModuleBytes : List UInt8 :=
  List.replicate 8 7 ++ (List.replicate 32 1 ++ List.replicate 32 1) ++
    ((toLE 4 2 ++ (toLE 2 276 ++ toLE 2 840)) ++ [255])

theorem moduleProgramIds_injective : Function.Injective moduleProgramIds.of := by
  intro rule rule' h
  cases rule <;> cases rule' <;> first | rfl | exact absurd h (by decide)

theorem restrict_module_parsed :
    parseComplianceModuleParams moduleProgramIds ⟨countryRestrictProgram, restrictModuleBytes⟩ 6 =
      .ok (some [("allowed_countries", "276,840")]) := by
  have hserialized : Serialized (fun _ ↦ .replicate 32 1) restrictModule restrictModuleBytes := by
    refine ⟨by decide, by decide, List.replicate 8 7, [255], rfl, ?_⟩
    decide
  have hprogram : toBase58 countryRestrictProgram = moduleProgramIds.of .countryRestrict := by
    decide +kernel
  have htext : indexedText 6 restrictModule = some "276,840" := by decide +kernel
  have hparsed := (indexer_parsers_exact.2 (.replicate 8 7) _ _).2.2.2.2 _ _ restrictModule
    .countryRestrict 6 moduleProgramIds_injective rfl hprogram hserialized
  rw [htext] at hparsed
  exact hparsed

end Fracks.IndexerReads
