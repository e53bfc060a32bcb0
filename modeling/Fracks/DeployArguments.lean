import Fracks.Layouts
import Fracks.Lib.Checked
import Mathlib.Data.Rat.Defs

/-!
# Arguments of a suite deployment

The frontend encodes the arguments of `deploy_token_suite` by hand, the factory
decodes them in the Borsh format.  The encoder leaves out the asset id, so that what
it writes never decodes back; with the id put in after the issuer it always does.
-/

namespace Fracks.DeployArguments

open Bytes Layouts Checked

/-! ## The encoder of the frontend -/

/-- The numbers of the client. -/
inductive JsNumber
  | finite (q : ℚ)
  | infinite (negative : Bool)
  | nan
  deriving DecidableEq

inductive EncodeError
  | outOfRange
  | notAnInteger
  | expectedBytes (len got : ℕ)
  deriving DecidableEq

abbrev Encoded := Except EncodeError (List UInt8)

/-- The bits of the integral part, as the bitwise operators take them. -/
def JsNumber.toInt32 : JsNumber → ℤ
  | finite q => Int.tdiv q.num q.den % 2 ^ 32
  | infinite _ | nan => 0

/-- `BigInt(value)`. -/
def JsNumber.toBigInt : JsNumber → Except EncodeError ℤ
  | finite q => if q.den = 1 then .ok q.num else .error .notAnInteger
  | infinite _ | nan => .error .notAnInteger

structure TrustedIssuerInputArg where
  issuerFid : Key
  topics : List JsNumber
  label : String

structure DeployTokenSuiteArgsArg where
  issuer : Key
  tokenMint : Key
  tokenName : String
  tokenSymbol : String
  decimals : JsNumber
  isin : String
  claimTopics : List JsNumber
  trustedIssuers : List TrustedIssuerInputArg
  complianceModules : List Key
  sharedIrs : Option Key
  salt : List UInt8

def encodeU8 (value : JsNumber) : List UInt8 := [UInt8.ofNat (value.toInt32 % 256).toNat]

def encodeU32 (value : ℕ) : Encoded :=
  if value < 2 ^ 32 then .ok (toLE 4 value) else .error .outOfRange

/-- `setBigUint64` keeps the lowest 64 bits. -/
def encodeU64 (value : JsNumber) : Encoded := do
  let v ← value.toBigInt
  .ok (toLE 8 (v % 2 ^ 64).toNat)

def encodePubkey (value : Key) : List UInt8 := value.toList

def encodeString (value : String) : Encoded := do
  let bytes := value.toUTF8.data.toList
  let size ← encodeU32 bytes.length
  .ok (size ++ bytes)

def encodeFixedBytes (bytes : List UInt8) (len : ℕ) : Encoded :=
  if bytes.length = len then .ok bytes else .error (.expectedBytes len bytes.length)

def encodeVecU64 (values : List JsNumber) : Encoded := do
  let size ← encodeU32 values.length
  let items ← values.mapM encodeU64
  .ok (size ++ items.flatten)

def encodeVecPubkey (values : List Key) : Encoded := do
  let size ← encodeU32 values.length
  .ok (size ++ values.flatMap encodePubkey)

def encodeOptionPubkey : Option Key → List UInt8
  | none => [0]
  | some value => 1 :: encodePubkey value

def encodeTrustedIssuerInput (arg : TrustedIssuerInputArg) : Encoded := do
  let topics ← encodeVecU64 arg.topics
  let label ← encodeString arg.label
  .ok (encodePubkey arg.issuerFid ++ (topics ++ label))

def encodeDeployTokenSuiteArgsArg (arg : DeployTokenSuiteArgsArg) : Encoded := do
  let salt ← encodeFixedBytes arg.salt 32
  let tokenName ← encodeString arg.tokenName
  let tokenSymbol ← encodeString arg.tokenSymbol
  let isin ← encodeString arg.isin
  let claimTopics ← encodeVecU64 arg.claimTopics
  let trustedIssuers ← encodeU32 arg.trustedIssuers.length
  let issuers ← arg.trustedIssuers.mapM encodeTrustedIssuerInput
  let complianceModules ← encodeVecPubkey arg.complianceModules
  .ok (encodePubkey arg.issuer ++ (encodePubkey arg.tokenMint ++ (tokenName ++ (tokenSymbol ++
    (encodeU8 arg.decimals ++ (isin ++ (claimTopics ++ ((trustedIssuers ++ issuers.flatten) ++
      (complianceModules ++ (encodeOptionPubkey arg.sharedIrs ++ salt))))))))))

/-! ## The decoder of the factory -/

inductive BorshError
  | unexpectedEof
  | invalidData
  deriving DecidableEq

abbrev Decoder := Reader BorshError

structure TrustedIssuerInput where
  issuerFid : Key
  topics : List UInt64
  label : String

structure DeployTokenSuiteArgs where
  issuer : Key
  assetId : UInt64
  tokenMint : Key
  tokenName : String
  tokenSymbol : String
  decimals : UInt8
  isin : String
  claimTopics : List UInt64
  trustedIssuers : List TrustedIssuerInput
  complianceModules : List Key
  sharedIrs : Option Key
  salt : Vector UInt8 32

def readPubkey : Decoder Key := .array .unexpectedEof 32

def readU8 : Decoder UInt8 := (Reader.word .unexpectedEof 1).bind fun n ↦ .pure (UInt8.ofNat n)

def readU32 : Decoder ℕ := .word .unexpectedEof 4

def readU64 : Decoder UInt64 := (Reader.word .unexpectedEof 8).bind fun n ↦ .pure (UInt64.ofNat n)

def fromUtf8 (bytes : List UInt8) : Decoder String :=
  match String.fromUTF8? ⟨bytes.toArray⟩ with
  | some s => .pure s
  | none => .fail .invalidData

def readString : Decoder String :=
  readU32.bind fun size ↦ (Reader.array .unexpectedEof size).bind fun bs ↦ fromUtf8 bs.toList

def readVec {α : Type} (item : Decoder α) : Decoder (List α) := readU32.bind item.many

def readOption {α : Type} (item : Decoder α) : Decoder (Option α) :=
  readU8.bind fun tag ↦
    if tag = 0 then .pure none
    else if tag = 1 then item.bind fun a ↦ .pure (some a)
    else .fail .invalidData

def readTrustedIssuerInput : Decoder TrustedIssuerInput :=
  readPubkey.bind fun issuerFid ↦ (readVec readU64).bind fun topics ↦
    readString.bind fun label ↦ .pure { issuerFid, topics, label }

def readDeployTokenSuiteArgs : Decoder DeployTokenSuiteArgs :=
  readPubkey.bind fun issuer ↦ readU64.bind fun assetId ↦ readPubkey.bind fun tokenMint ↦
    readString.bind fun tokenName ↦ readString.bind fun tokenSymbol ↦ readU8.bind fun decimals ↦
      readString.bind fun isin ↦ (readVec readU64).bind fun claimTopics ↦
        (readVec readTrustedIssuerInput).bind fun trustedIssuers ↦
          (readVec readPubkey).bind fun complianceModules ↦
            (readOption readPubkey).bind fun sharedIrs ↦
              (Reader.array .unexpectedEof 32).bind fun salt ↦
                .pure { issuer, assetId, tokenMint, tokenName, tokenSymbol, decimals, isin,
                        claimTopics, trustedIssuers, complianceModules, sharedIrs, salt }

/-! ## Round trips -/

open Reader hiding bind_eq_ok pure_eq_ok

structure TrustedIssuerInput.Is (d : TrustedIssuerInput) (arg : TrustedIssuerInputArg) : Prop where
  issuerFid : d.issuerFid = arg.issuerFid
  topics : arg.topics = d.topics.map fun n ↦ .finite n.toNat
  label : d.label = arg.label

/-- The decoded arguments are those of the client; it has no asset id. -/
structure DeployTokenSuiteArgs.Is (d : DeployTokenSuiteArgs) (arg : DeployTokenSuiteArgsArg) :
    Prop where
  issuer : d.issuer = arg.issuer
  tokenMint : d.tokenMint = arg.tokenMint
  tokenName : d.tokenName = arg.tokenName
  tokenSymbol : d.tokenSymbol = arg.tokenSymbol
  decimals : arg.decimals = .finite d.decimals.toNat
  isin : d.isin = arg.isin
  claimTopics : arg.claimTopics = d.claimTopics.map fun n ↦ .finite n.toNat
  trustedIssuers : List.Forall₂ TrustedIssuerInput.Is d.trustedIssuers arg.trustedIssuers
  complianceModules : d.complianceModules = arg.complianceModules
  sharedIrs : d.sharedIrs = arg.sharedIrs
  salt : d.salt.toList = arg.salt

/-- The encoder writes bytes that decode to its arguments, with none left over. -/
def RoundTrips (arg : DeployTokenSuiteArgsArg) : Prop :=
  ∃ bytes d, encodeDeployTokenSuiteArgsArg arg = .ok bytes ∧
    readDeployTokenSuiteArgs bytes 0 = .ok (d, bytes.length) ∧ d.Is arg

/-! ### What is written is read -/

theorem readPubkey_readsOff (key : Key) : ReadsOff readPubkey (encodePubkey key) key :=
  readsOff_array _ key

theorem encodeU32_eq_ok {n : ℕ} {bs : List UInt8} :
    encodeU32 n = .ok bs ↔ n < 2 ^ 32 ∧ bs = toLE 4 n := by
  rw [encodeU32]
  split
  case isTrue h => simp only [h, Except.ok.injEq, true_and, eq_comm]
  case isFalse h => simp only [h, false_and, reduceCtorEq]

theorem readU32_readsOff {n : ℕ} {bs : List UInt8} (h : encodeU32 n = .ok bs) :
    ReadsOff readU32 bs n := by
  obtain ⟨hn, rfl⟩ := encodeU32_eq_ok.1 h
  exact readsOff_word _ (by omega)

theorem encodeU64_word (n : UInt64) :
    encodeU64 (.finite n.toNat) = .ok (toLE 8 n.toNat) := by
  have hlt : n.toNat < 2 ^ 64 := n.toNat_lt
  have hmod : ((n.toNat : ℤ) % 2 ^ 64).toNat = n.toNat := by omega
  have hint : (JsNumber.finite (n.toNat : ℚ)).toBigInt = .ok n.toNat := by
    rw [JsNumber.toBigInt, Rat.den_natCast, Rat.num_natCast, if_pos rfl]
  rw [encodeU64, hint, ok_bind, hmod]

theorem readU64_readsOff (n : UInt64) : ReadsOff readU64 (toLE 8 n.toNat) n := by
  have hword := (readsOff_word BorshError.unexpectedEof (w := 8) n.toNat_lt).map
    (g := UInt64.ofNat)
  rwa [UInt64.ofNat_toNat] at hword

theorem readU8_readsOff (n : UInt8) : ReadsOff readU8 (encodeU8 (.finite n.toNat)) n := by
  have hlt : n.toNat < 256 := n.toNat_lt
  have hbits : (JsNumber.finite (n.toNat : ℚ)).toInt32 = n.toNat := by
    have hwhole : Int.tdiv n.toNat (1 : ℕ) = n.toNat := Int.tdiv_one _
    rw [JsNumber.toInt32, Rat.num_natCast, Rat.den_natCast, hwhole]
    omega
  have hbyte : encodeU8 (.finite n.toNat) = toLE 1 n.toNat := by
    have hmod : ((n.toNat : ℤ) % 256).toNat = n.toNat := by omega
    rw [encodeU8, hbits, hmod]
    rfl
  have hword := (readsOff_word BorshError.unexpectedEof (w := 1) (by simpa using hlt)).map
    (g := UInt8.ofNat) (a := n.toNat)
  rw [hbyte]
  rwa [UInt8.ofNat_toNat] at hword

theorem fromUtf8_toUTF8 (s : String) : fromUtf8 s.toUTF8.data.toList = .pure s := by
  have hbytes : (⟨s.toUTF8.data.toList.toArray⟩ : ByteArray) = s.toUTF8 := rfl
  have hvalid : s.toUTF8.IsValidUTF8 := s.isValidUTF8
  rw [fromUtf8, hbytes, String.fromUTF8?, dif_pos hvalid]
  rfl

theorem readString_readsOff {s : String} {bs : List UInt8} (h : encodeString s = .ok bs) :
    ReadsOff readString bs s := by
  simp only [encodeString, bind_eq_ok, Except.ok.injEq] at h
  obtain ⟨size, hsize, rfl⟩ := h
  let text : Vector UInt8 s.toUTF8.data.toList.length := ⟨s.toUTF8.data, rfl⟩
  have hpure : ReadsOff (fromUtf8 text.toList) [] s := by
    change ReadsOff (fromUtf8 s.toUTF8.data.toList) [] s
    rw [fromUtf8_toUTF8]
    exact readsOff_pure s
  have hrest := (readsOff_array BorshError.unexpectedEof text).bind
    (f := fun bs ↦ fromUtf8 bs.toList) hpure
  rw [List.append_nil] at hrest
  exact (readU32_readsOff hsize).bind hrest

theorem readVec_readsOff {α : Type} {item : Decoder α} {size : List UInt8}
    {items : List (List UInt8)} {as : List α} (hsize : encodeU32 as.length = .ok size)
    (h : List.Forall₂ (ReadsOff item) items as) :
    ReadsOff (readVec item) (size ++ items.flatten) as :=
  (readU32_readsOff hsize).bind (.items h)

theorem readVecU64_readsOff {ns : List UInt64} {bs : List UInt8}
    (h : encodeVecU64 (ns.map fun n ↦ .finite n.toNat) = .ok bs) :
    ReadsOff (readVec readU64) bs ns := by
  simp only [encodeVecU64, bind_eq_ok, mapM_eq_ok, Except.ok.injEq, List.length_map,
    List.forall₂_map_left_iff, encodeU64_word] at h
  obtain ⟨size, hsize, items, hitems, rfl⟩ := h
  refine readVec_readsOff hsize (hitems.flip.imp fun bs n hbs ↦ ?_)
  subst hbs
  exact readU64_readsOff n

theorem readVecPubkey_readsOff {keys : List Key} {bs : List UInt8}
    (h : encodeVecPubkey keys = .ok bs) : ReadsOff (readVec readPubkey) bs keys := by
  simp only [encodeVecPubkey, bind_eq_ok, Except.ok.injEq] at h
  obtain ⟨size, hsize, rfl⟩ := h
  have hitems : ReadsOff (readPubkey.many keys.length) (keys.flatMap encodePubkey) (keys.map id) :=
    .many readPubkey_readsOff
  rw [List.map_id] at hitems
  exact (readU32_readsOff hsize).bind hitems

theorem readOptionPubkey_readsOff (key : Option Key) :
    ReadsOff (readOption readPubkey) (encodeOptionPubkey key) key := by
  have htag : ∀ n : UInt8, ReadsOff readU8 [n] n := fun n ↦ by
    have hword := (readsOff_word BorshError.unexpectedEof (w := 1)
      (by simpa using n.toNat_lt)).map (g := UInt8.ofNat) (a := n.toNat)
    rw [UInt8.ofNat_toNat] at hword
    have hbyte : toLE 1 n.toNat = [n] := by simp [toLE]
    rwa [hbyte] at hword
  cases key with
  | none => exact (htag 0).bind (readsOff_pure none)
  | some key =>
      have hkey : ReadsOff (readPubkey.bind fun key ↦ .pure (some key)) (encodePubkey key)
          (some key) := (readPubkey_readsOff key).map
      exact (htag 1).bind hkey

theorem readTrustedIssuerInput_readsOff {d : TrustedIssuerInput} {arg : TrustedIssuerInputArg}
    {bs : List UInt8} (h : encodeTrustedIssuerInput arg = .ok bs) (hd : d.Is arg) :
    ReadsOff readTrustedIssuerInput bs d := by
  simp only [encodeTrustedIssuerInput, bind_eq_ok, Except.ok.injEq] at h
  obtain ⟨topics, htopics, label, hlabel, rfl⟩ := h
  rw [hd.topics] at htopics
  rw [← hd.label] at hlabel
  rw [← hd.issuerFid]
  unfold readTrustedIssuerInput
  refine (readPubkey_readsOff d.issuerFid).bind ((readVecU64_readsOff htopics).bind ?_)
  exact (readString_readsOff hlabel).map (g := fun label ↦
    TrustedIssuerInput.mk d.issuerFid d.topics label)

theorem forall₂_readsOff {ds : List TrustedIssuerInput} {args : List TrustedIssuerInputArg}
    {issuers : List (List UInt8)}
    (h : List.Forall₂ (fun arg bs ↦ encodeTrustedIssuerInput arg = .ok bs) args issuers)
    (hd : List.Forall₂ TrustedIssuerInput.Is ds args) :
    List.Forall₂ (ReadsOff readTrustedIssuerInput) issuers ds := by
  induction hd generalizing issuers with
  | nil =>
      cases h
      exact .nil
  | cons hfirst _ ih =>
      cases h with
      | cons hencode hrest =>
          exact .cons (readTrustedIssuerInput_readsOff hencode hfirst) (ih hrest)

/-- With the asset id after the issuer the bytes of the encoder decode to its
arguments. -/
theorem decode_with_assetId {d : DeployTokenSuiteArgs} {arg : DeployTokenSuiteArgsArg}
    {bytes : List UInt8} (h : encodeDeployTokenSuiteArgsArg arg = .ok bytes) (hd : d.Is arg) :
    readDeployTokenSuiteArgs (bytes.take 32 ++ (toLE 8 d.assetId.toNat ++ bytes.drop 32)) 0 =
      .ok (d, bytes.length + 8) := by
  simp only [encodeDeployTokenSuiteArgsArg, bind_eq_ok, mapM_eq_ok, Except.ok.injEq] at h
  obtain ⟨salt, hsalt, tokenName, hname, tokenSymbol, hsymbol, isin, hisin, claimTopics, htopics,
    size, hsize, issuers, hissuers, modules, hmodules, rfl⟩ := h
  have hlength : (encodePubkey arg.issuer).length = 32 := Vector.length_toList
  have hsalted : salt = d.salt.toList := by
    rw [encodeFixedBytes] at hsalt
    split at hsalt
    · exact (Except.ok.inj hsalt).symm.trans hd.salt.symm
    · cases hsalt
  rw [← hd.tokenName] at hname
  rw [← hd.tokenSymbol] at hsymbol
  rw [← hd.isin] at hisin
  rw [hd.claimTopics] at htopics
  rw [← hd.complianceModules] at hmodules
  rw [← hd.trustedIssuers.length_eq] at hsize
  have hinputs : List.Forall₂ (ReadsOff readTrustedIssuerInput) issuers d.trustedIssuers :=
    forall₂_readsOff hissuers hd.trustedIssuers
  have hread : ReadsOff readDeployTokenSuiteArgs (encodePubkey arg.issuer ++
      (toLE 8 d.assetId.toNat ++ (encodePubkey arg.tokenMint ++ (tokenName ++ (tokenSymbol ++
        (encodeU8 arg.decimals ++ (isin ++ (claimTopics ++ ((size ++ issuers.flatten) ++
          (modules ++ (encodeOptionPubkey arg.sharedIrs ++ salt))))))))))) d := by
    rw [← hd.issuer, ← hd.tokenMint, hd.decimals, ← hd.sharedIrs, hsalted]
    unfold readDeployTokenSuiteArgs
    refine (readPubkey_readsOff _).bind <| (readU64_readsOff _).bind <|
      (readPubkey_readsOff _).bind <| (readString_readsOff hname).bind <|
      (readString_readsOff hsymbol).bind <| (readU8_readsOff _).bind <|
      (readString_readsOff hisin).bind <| (readVecU64_readsOff htopics).bind <|
      (readVec_readsOff hsize hinputs).bind <| (readVecPubkey_readsOff hmodules).bind <|
      (readOptionPubkey_readsOff _).bind ?_
    exact (readsOff_array _ d.salt).map (g := fun salt ↦ DeployTokenSuiteArgs.mk d.issuer
      d.assetId d.tokenMint d.tokenName d.tokenSymbol d.decimals d.isin d.claimTopics
      d.trustedIssuers d.complianceModules d.sharedIrs salt)
  have hwhole := hread.whole []
  rw [List.append_nil] at hwhole
  rw [List.take_left' hlength, List.drop_left' hlength, hwhole]
  simp only [List.length_append, length_toLE]
  congr 2
  omega

/-! ### What the decoder takes -/

def stringSize (s : String) : ℕ := 4 + s.toUTF8.data.toList.length

def vecSize {α : Type} (size : α → ℕ) (as : List α) : ℕ := 4 + (as.map size).sum

def optionSize {α : Type} (size : α → ℕ) : Option α → ℕ
  | none => 1
  | some a => 1 + size a

def TrustedIssuerInput.size (d : TrustedIssuerInput) : ℕ :=
  32 + vecSize (fun _ ↦ 8) d.topics + stringSize d.label

def DeployTokenSuiteArgs.size (d : DeployTokenSuiteArgs) : ℕ :=
  32 + 8 + 32 + stringSize d.tokenName + stringSize d.tokenSymbol + 1 + stringSize d.isin +
    vecSize (fun _ ↦ 8) d.claimTopics + vecSize TrustedIssuerInput.size d.trustedIssuers +
      vecSize (fun _ ↦ 32) d.complianceModules + optionSize (fun _ ↦ 32) d.sharedIrs + 32

theorem takes_pubkey : Takes readPubkey fun _ ↦ 32 := takes_array _ 32

theorem takes_u8 : Takes readU8 fun _ ↦ 1 := .map (takes_word _ 1) fun _ ↦ rfl

theorem takes_u64 : Takes readU64 fun _ ↦ 8 := .map (takes_word _ 8) fun _ ↦ rfl

theorem takes_string : Takes readString stringSize := by
  intro data cursor s next h
  obtain ⟨size, mid, hsize, h⟩ := Reader.bind_eq_ok.1 h
  obtain ⟨bs, last, hbs, htext⟩ := Reader.bind_eq_ok.1 h
  have hmid : mid = cursor + 4 := takes_word _ 4 hsize
  have hlast : last = mid + size := takes_array _ size hbs
  have hlength : bs.toList.length = size := Vector.length_toList
  cases ht : String.fromUTF8? ⟨bs.toList.toArray⟩ with
  | none =>
      rw [fromUtf8, ht] at htext
      cases htext
  | some t =>
      rw [fromUtf8, ht] at htext
      obtain ⟨rfl, rfl⟩ := Reader.pure_eq_ok.1 htext
      rw [String.fromUTF8?] at ht
      split at ht
      · obtain rfl := Option.some.inj ht
        change last = cursor + (4 + bs.toList.length)
        omega
      · cases ht

theorem takes_vec {α : Type} {item : Decoder α} {size : α → ℕ} (h : Takes item size) :
    Takes (readVec item) (vecSize size) := by
  intro data cursor as next hread
  obtain ⟨n, mid, hn, hitems⟩ := Reader.bind_eq_ok.1 hread
  have hmid : mid = cursor + 4 := takes_word _ 4 hn
  have hnext : next = mid + (as.map size).sum := h.many n hitems
  rw [vecSize]
  omega

theorem takes_option {α : Type} {item : Decoder α} {size : α → ℕ} (h : Takes item size) :
    Takes (readOption item) (optionSize size) := by
  intro data cursor a next hread
  obtain ⟨tag, mid, htag, hread⟩ := Reader.bind_eq_ok.1 hread
  have hmid : mid = cursor + 1 := takes_u8 htag
  split at hread
  · obtain ⟨rfl, rfl⟩ := Reader.pure_eq_ok.1 hread
    exact hmid
  split at hread
  · obtain ⟨b, last, hb, hpure⟩ := Reader.bind_eq_ok.1 hread
    obtain ⟨rfl, rfl⟩ := Reader.pure_eq_ok.1 hpure
    have hlast := h hb
    rw [optionSize]
    omega
  · cases hread

theorem takes_trustedIssuerInput : Takes readTrustedIssuerInput TrustedIssuerInput.size := by
  intro data cursor d next h
  obtain ⟨issuerFid, c₁, h₁, h⟩ := Reader.bind_eq_ok.1 h
  obtain ⟨topics, c₂, h₂, h⟩ := Reader.bind_eq_ok.1 h
  obtain ⟨label, c₃, h₃, h⟩ := Reader.bind_eq_ok.1 h
  obtain ⟨rfl, rfl⟩ := Reader.pure_eq_ok.1 h
  have hfid : c₁ = cursor + 32 := takes_pubkey h₁
  have htopics : c₂ = c₁ + vecSize (fun _ ↦ 8) topics := takes_vec takes_u64 h₂
  have hlabel : c₃ = c₂ + stringSize label := takes_string h₃
  simp only [TrustedIssuerInput.size]
  omega

theorem takes_deployTokenSuiteArgs :
    Takes readDeployTokenSuiteArgs DeployTokenSuiteArgs.size := by
  intro data cursor d next h
  obtain ⟨issuer, c₁, h₁, h⟩ := Reader.bind_eq_ok.1 h
  obtain ⟨assetId, c₂, h₂, h⟩ := Reader.bind_eq_ok.1 h
  obtain ⟨tokenMint, c₃, h₃, h⟩ := Reader.bind_eq_ok.1 h
  obtain ⟨tokenName, c₄, h₄, h⟩ := Reader.bind_eq_ok.1 h
  obtain ⟨tokenSymbol, c₅, h₅, h⟩ := Reader.bind_eq_ok.1 h
  obtain ⟨decimals, c₆, h₆, h⟩ := Reader.bind_eq_ok.1 h
  obtain ⟨isin, c₇, h₇, h⟩ := Reader.bind_eq_ok.1 h
  obtain ⟨claimTopics, c₈, h₈, h⟩ := Reader.bind_eq_ok.1 h
  obtain ⟨trustedIssuers, c₉, h₉, h⟩ := Reader.bind_eq_ok.1 h
  obtain ⟨modules, c₁₀, h₁₀, h⟩ := Reader.bind_eq_ok.1 h
  obtain ⟨sharedIrs, c₁₁, h₁₁, h⟩ := Reader.bind_eq_ok.1 h
  obtain ⟨salt, c₁₂, h₁₂, h⟩ := Reader.bind_eq_ok.1 h
  obtain ⟨rfl, rfl⟩ := Reader.pure_eq_ok.1 h
  have hissuer : c₁ = cursor + 32 := takes_pubkey h₁
  have hid : c₂ = c₁ + 8 := takes_u64 h₂
  have hmint : c₃ = c₂ + 32 := takes_pubkey h₃
  have hname : c₄ = c₃ + stringSize tokenName := takes_string h₄
  have hsymbol : c₅ = c₄ + stringSize tokenSymbol := takes_string h₅
  have hdecimals : c₆ = c₅ + 1 := takes_u8 h₆
  have hisin : c₇ = c₆ + stringSize isin := takes_string h₇
  have htopics : c₈ = c₇ + vecSize (fun _ ↦ 8) claimTopics := takes_vec takes_u64 h₈
  have hissuers : c₉ = c₈ + vecSize TrustedIssuerInput.size trustedIssuers :=
    takes_vec takes_trustedIssuerInput h₉
  have hmodules : c₁₀ = c₉ + vecSize (fun _ ↦ 32) modules := takes_vec takes_pubkey h₁₀
  have hirs : c₁₁ = c₁₀ + optionSize (fun _ ↦ 32) sharedIrs := takes_option takes_pubkey h₁₁
  have hsalt : c₁₂ = c₁₁ + 32 := takes_array _ 32 h₁₂
  simp only [DeployTokenSuiteArgs.size]
  omega

/-- No arguments round-trip: the bytes are eight short of what the decoder takes for
them. -/
theorem deploy_arguments_never_round_trip (arg : DeployTokenSuiteArgsArg) : ¬ RoundTrips arg := by
  rintro ⟨bytes, d, hencode, hdecode, hd⟩
  have hshort : bytes.length = 0 + d.size := takes_deployTokenSuiteArgs hdecode
  have hfull : bytes.length + 8 = 0 + d.size :=
    takes_deployTokenSuiteArgs (decode_with_assetId hencode hd)
  omega

/-- The arguments of a token with one claim topic and one trusted issuer. -/
def plainArgs : DeployTokenSuiteArgsArg where
  issuer := .replicate 32 1
  tokenMint := .replicate 32 2
  tokenName := "Tower"
  tokenSymbol := "TWR"
  decimals := .finite 6
  isin := "PK0000000001"
  claimTopics := [.finite 1]
  trustedIssuers := [⟨.replicate 32 3, [.finite 1], "KYC"⟩]
  complianceModules := []
  sharedIrs := none
  salt := .replicate 32 0

/-- Where the decoder expects the length of the name it finds eight bytes of it and
what follows. -/
theorem plain_arguments_lost : ¬ ∀ arg, RoundTrips arg := by
  intro h
  obtain ⟨bytes, d, hencode, hdecode, -⟩ := h plainArgs
  have hfails : ((encodeDeployTokenSuiteArgsArg plainArgs).toOption.bind fun bytes ↦
      (readDeployTokenSuiteArgs bytes 0).toOption).isNone = true := by
    decide +kernel
  rw [hencode] at hfails
  change (readDeployTokenSuiteArgs bytes 0).toOption.isNone = true at hfails
  rw [hdecode] at hfails
  cases hfails

end Fracks.DeployArguments
