import Fracks.Layouts

/-!
# Account decoders of the frontend

The decoders of `lib/solana`, written by hand: each one reads its fields one after
the other behind the discriminator.  A decoder that reads the fields of the layout
gives back the record, with any padding behind it; four of them read others.
-/

namespace Fracks.Decoders

open Bytes Layouts

/-! ## Reads -/

inductive JsError
  | outOfRange
  deriving DecidableEq

inductive JsValue
  | publicKey (bytes : List UInt8)
  | boolean (b : Bool)
  | number (n : ℕ)
  | bigint (z : ℤ)
  | string (s : String)
  | publicKeys (keys : List (List UInt8))
  | bigints (zs : List ℤ)
  | buffer (bytes : List UInt8)
  deriving DecidableEq

/-- The state of the UTF-8 decoder inside a character. -/
structure Utf8State where
  needed : ℕ
  codePoint : ℕ
  lower : ℕ
  upper : ℕ

def Utf8State.start : Utf8State := ⟨0, 0, 0x80, 0xBF⟩

def replacement : Char := Char.ofNat 0xFFFD

/-- A byte at the start of a character. -/
def utf8Lead (b : ℕ) : List Char × Utf8State :=
  if b < 0x80 then ([Char.ofNat b], .start)
  else if 0xC2 ≤ b ∧ b ≤ 0xDF then ([], ⟨1, b % 0x20, 0x80, 0xBF⟩)
  else if 0xE0 ≤ b ∧ b ≤ 0xEF then
    ([], ⟨2, b % 0x10, if b = 0xE0 then 0xA0 else 0x80, if b = 0xED then 0x9F else 0xBF⟩)
  else if 0xF0 ≤ b ∧ b ≤ 0xF4 then
    ([], ⟨3, b % 0x08, if b = 0xF0 then 0x90 else 0x80, if b = 0xF4 then 0x8F else 0xBF⟩)
  else ([replacement], .start)

def utf8Step (s : Utf8State) (b : ℕ) : List Char × Utf8State :=
  if s.needed = 0 then utf8Lead b
  else if s.lower ≤ b ∧ b ≤ s.upper then
    let codePoint := s.codePoint * 0x40 + b % 0x40
    if s.needed = 1 then ([Char.ofNat codePoint], .start)
    else ([], ⟨s.needed - 1, codePoint, 0x80, 0xBF⟩)
  else
    let (chars, next) := utf8Lead b
    (replacement :: chars, next)

/-- Malformed parts become replacement characters. -/
def utf8Lossy : Utf8State → List UInt8 → List Char
  | s, [] => if s.needed = 0 then [] else [replacement]
  | s, b :: bs =>
      let (chars, next) := utf8Step s b.toNat
      chars ++ utf8Lossy next bs

/-- `toString('utf8')` of a buffer. -/
def utf8ToString (bytes : List UInt8) : String :=
  (String.fromUTF8? ⟨bytes.toArray⟩).getD (String.ofList (utf8Lossy .start bytes))

/-- A key made of at most 32 bytes, as a big-endian number. -/
def publicKey (bytes : List UInt8) : List UInt8 := List.replicate (32 - bytes.length) 0 ++ bytes

/-- The reads return the value and the offset behind it. -/
def readPubkey : Reader JsError (List UInt8) := (Reader.bytes 32).bind fun bs ↦ .pure (publicKey bs)

def readU8 : Reader JsError ℕ := .word .outOfRange 1

def readU16 : Reader JsError ℕ := .word .outOfRange 2

def readU32 : Reader JsError ℕ := .word .outOfRange 4

def readU64 : Reader JsError ℕ := .word .outOfRange 8

def readI64 : Reader JsError ℤ := readU64.bind fun n ↦ .pure (BitVec.ofNat 64 n).toInt

def readString : Reader JsError String :=
  readU32.bind fun size ↦ (Reader.bytes size).bind fun bs ↦ .pure (utf8ToString bs)

def readVecPubkey : Reader JsError (List (List UInt8)) :=
  readU32.bind fun size ↦ readPubkey.many size

def readVecU64 : Reader JsError (List ℕ) := readU32.bind fun size ↦ readU64.many size

/-- The read of one field, with the conversion that goes with its type. -/
def readField : FieldType → Reader JsError JsValue
  | .pubkey => readPubkey.bind fun key ↦ .pure (.publicKey key)
  | .bool => readU8.bind fun n ↦ .pure (.boolean (n = 1))
  | .u8 => readU8.bind fun n ↦ .pure (.number n)
  | .u16 => readU16.bind fun n ↦ .pure (.number n)
  | .u32 => readU32.bind fun n ↦ .pure (.number n)
  | .u64 => readU64.bind fun n ↦ .pure (.bigint n)
  | .i64 => readI64.bind fun z ↦ .pure (.bigint z)
  | .string => readString.bind fun s ↦ .pure (.string s)
  | .vecPubkey => readVecPubkey.bind fun keys ↦ .pure (.publicKeys keys)
  | .vecU64 => readVecU64.bind fun ns ↦ .pure (.bigints (ns.map (↑)))
  | .bytes n => (Reader.bytes n).bind fun bs ↦ .pure (.buffer bs)

/-- An object, as the list of its entries. -/
abbrev JsObject := List (Field × JsValue)

def readFields : Layout → Reader JsError JsObject
  | [] => .pure []
  | (field, t) :: fields => (readField t).bind fun value ↦
      (readFields fields).bind fun entries ↦ .pure ((field, value) :: entries)

/-- The decoder that reads `fields` behind the discriminator. -/
def decode (fields : Layout) (data : List UInt8) : Except JsError JsObject :=
  (readFields fields data 8).map Prod.fst

/-! ## The decoders -/

abbrev Decoder := List UInt8 → Except JsError JsObject

def decodeTokenState : Decoder := decode
  [(.tokenMint, .pubkey), (.identityRegistry, .pubkey), (.compliance, .pubkey), (.paused, .bool),
    (.decimals, .u8), (.name, .string), (.symbol, .string), (.isin, .string), (.bump, .u8)]

def decodeOwnerState : Decoder := decode
  [(.owner, .pubkey), (.pendingOwner, .pubkey), (.tokenMint, .pubkey), (.bump, .u8)]

def decodeAgentRole : Decoder := decode
  [(.agent, .pubkey), (.tokenMint, .pubkey), (.isActive, .bool), (.bump, .u8)]

def decodeFrozenWallet : Decoder := decode
  [(.wallet, .pubkey), (.tokenMint, .pubkey), (.frozenBy, .pubkey), (.frozenAt, .i64), (.bump, .u8)]

def decodePartialFreeze : Decoder := decode
  [(.wallet, .pubkey), (.tokenMint, .pubkey), (.frozenAmount, .u64), (.frozenBy, .pubkey),
    (.bump, .u8)]

def decodeIdentityRegistryState : Decoder := decode
  [(.tokenMint, .pubkey), (.owner, .pubkey), (.irsAccount, .pubkey), (.tirAccount, .pubkey),
    (.ctrAccount, .pubkey), (.identityAgents, .vecPubkey), (.registeredCount, .u64), (.bump, .u8)]

def decodeIdentityRegistryStorageState : Decoder := decode
  [(.owner, .pubkey), (.boundRegistries, .vecPubkey), (.registeredCount, .u64), (.bump, .u8)]

def decodeWalletIdentity : Decoder := decode
  [(.wallet, .pubkey), (.fid, .pubkey), (.country, .u16), (.irs, .pubkey), (.bump, .u8)]

def decodeTrustedIssuersState : Decoder := decode
  [(.owner, .pubkey), (.tokenMint, .pubkey), (.issuerCount, .u32), (.bump, .u8)]

def decodeIssuerEntry : Decoder := decode
  [(.issuerFid, .pubkey), (.tir, .pubkey), (.allowedTopics, .vecU64), (.isActive, .bool),
    (.label, .string), (.bump, .u8)]

def decodeClaimTopicsState : Decoder := decode
  [(.owner, .pubkey), (.tokenMint, .pubkey), (.topics, .vecU64), (.bump, .u8)]

def decodeComplianceState : Decoder := decode
  [(.owner, .pubkey), (.tokenMint, .pubkey), (.modules, .vecPubkey), (.modulesPaused, .bool),
    (.bump, .u8)]

def decodeFidAccount : Decoder := decode
  [(.owner, .pubkey), (.managementKey, .pubkey), (.signerKey, .pubkey), (.claimCount, .u32),
    (.isIssuer, .bool), (.country, .u16), (.bump, .u8)]

def decodeClaimAccount : Decoder := decode
  [(.fid, .pubkey), (.claimId, .u32), (.topic, .u64), (.issuerFid, .pubkey),
    (.dataHash, .bytes 32), (.signerKey, .pubkey), (.signature, .bytes 64), (.issuedAt, .i64),
    (.expiresAt, .i64), (.revoked, .bool), (.bump, .u8)]

def decodeFactoryState : Decoder := decode
  [(.owner, .pubkey), (.tokenProgramId, .pubkey), (.fidProgramId, .pubkey),
    (.irpProgramId, .pubkey), (.irsProgramId, .pubkey), (.tirProgramId, .pubkey),
    (.ctrProgramId, .pubkey), (.complianceProgramId, .pubkey), (.deploymentCount, .u64),
    (.bump, .u8)]

def decodeTokenDeployment : Decoder := decode
  [(.deploymentId, .u64), (.issuer, .pubkey), (.salt, .bytes 32), (.tokenMint, .pubkey),
    (.tokenState, .pubkey), (.ownerState, .pubkey), (.irpState, .pubkey), (.irsState, .pubkey),
    (.tirState, .pubkey), (.ctrState, .pubkey), (.complianceState, .pubkey), (.deployedAt, .i64),
    (.bump, .u8)]

def decodeTransferApproval : Decoder := decode
  [(.tokenState, .pubkey), (.sourceTokenAccount, .pubkey), (.destinationTokenAccount, .pubkey),
    (.authority, .pubkey), (.sourceWallet, .pubkey), (.destinationWallet, .pubkey),
    (.amount, .u64), (.fromBalance, .u64), (.toBalance, .u64), (.fromCountry, .u16),
    (.toCountry, .u16), (.kind, .u8), (.consumed, .bool), (.finalized, .bool), (.bump, .u8)]

/-! ## What a read gives back -/

/-- A value as the client has it. -/
def toJs : (t : FieldType) → t.Value → JsValue
  | .pubkey, key => .publicKey (Vector.toList (α := UInt8) (n := 32) key)
  | .bool, b => .boolean b
  | .u8, n => .number (UInt8.toNat n)
  | .u16, n => .number (UInt16.toNat n)
  | .u32, n => .number (UInt32.toNat n)
  | .u64, n => .bigint (UInt64.toNat n)
  | .i64, z => .bigint (Int64.toInt z)
  | .string, s => .string s
  | .vecPubkey, keys => .publicKeys (List.map (α := Key) Vector.toList keys)
  | .vecU64, ns => .bigints (List.map (α := UInt64) (fun n ↦ (n.toNat : ℤ)) ns)
  | .bytes n, bs => .buffer (Vector.toList (α := UInt8) (n := n) bs)

/-- The object with every field of a record. -/
def entries : (fields : Layout) → Record fields → JsObject
  | [], () => []
  | (field, t) :: fields, (value, rest) => (field, toJs t value) :: entries fields rest

open Reader

theorem publicKey_toList (key : Key) : publicKey key.toList = key.toList := by
  simp [publicKey]

theorem readPubkey_readsOff (key : Key) : ReadsOff readPubkey key.toList key.toList := by
  have hbytes : ReadsOff (Reader.bytes 32 : Reader JsError _) key.toList key.toList := by
    have hread := readsOff_bytes (ε := JsError) key.toList
    rwa [Vector.length_toList] at hread
  have hmap := hbytes.map (g := publicKey)
  rwa [publicKey_toList] at hmap

theorem utf8ToString_toUTF8 (s : String) : utf8ToString s.toUTF8.data.toList = s := by
  have hbytes : (⟨s.toUTF8.data.toList.toArray⟩ : ByteArray) = s.toUTF8 := rfl
  have hvalid : s.toUTF8.IsValidUTF8 := s.isValidUTF8
  rw [utf8ToString, hbytes, String.fromUTF8?, dif_pos hvalid]
  rfl

theorem readLength_readsOff {n : ℕ} {bs : List UInt8} (h : encodeLength n = some bs) :
    ReadsOff readU32 bs n := by
  simp only [encodeLength, Option.ite_none_right_eq_some, Option.some.injEq] at h
  obtain ⟨hn, rfl⟩ := h
  exact readsOff_word _ (by omega)

theorem readI64_readsOff (z : Int64) : ReadsOff readI64 (toLE 8 z.toUInt64.toNat) z.toInt := by
  have hword : ReadsOff readU64 (toLE 8 z.toUInt64.toNat) z.toUInt64.toNat :=
    readsOff_word _ z.toUInt64.toNat_lt
  have hmap := hword.map (g := fun n ↦ (BitVec.ofNat 64 n).toInt)
  have hbits : BitVec.ofNat 64 z.toBitVec.toNat = z.toBitVec := by simp
  have hz : (BitVec.ofNat 64 z.toUInt64.toNat).toInt = z.toInt := congrArg BitVec.toInt hbits
  rwa [hz] at hmap

theorem readString_readsOff {s : String} {length : List UInt8}
    (h : encodeLength s.toUTF8.data.toList.length = some length) :
    ReadsOff readString (length ++ s.toUTF8.data.toList) s := by
  have htext := (readsOff_bytes (ε := JsError) s.toUTF8.data.toList).map (g := utf8ToString)
  rw [utf8ToString_toUTF8] at htext
  exact (readLength_readsOff h).bind htext

theorem readVecU64_readsOff {ns : List UInt64} {length : List UInt8}
    (h : encodeLength ns.length = some length) :
    ReadsOff (readVecU64.bind fun words ↦ .pure (JsValue.bigints (words.map (↑))))
      (length ++ ns.flatMap fun n ↦ toLE 8 n.toNat)
      (.bigints (ns.map fun n ↦ (n.toNat : ℤ))) := by
  have hwords : ReadsOff readVecU64 (length ++ ns.flatMap fun n ↦ toLE 8 n.toNat)
      (ns.map UInt64.toNat) :=
    (readLength_readsOff h).bind (ReadsOff.many fun n ↦ readsOff_word _ n.toNat_lt)
  have hmap := hwords.map (g := fun words ↦ JsValue.bigints (words.map fun n : ℕ ↦ (n : ℤ)))
  rwa [List.map_map] at hmap

theorem readBool_readsOff (b : Bool) :
    ReadsOff (readU8.bind fun n ↦ .pure (JsValue.boolean (n = 1))) (toLE 1 b.toNat)
      (.boolean b) := by
  have hbyte : ReadsOff readU8 (toLE 1 b.toNat) b.toNat := by
    refine readsOff_word _ ?_
    cases b <;> decide
  have hmap := hbyte.map (g := fun n ↦ JsValue.boolean (n = 1))
  cases b <;> exact hmap

theorem readBytes_readsOff {n : ℕ} (bs : Vector UInt8 n) :
    ReadsOff (Reader.bytes n : Reader JsError _) bs.toList bs.toList := by
  have hread := readsOff_bytes (ε := JsError) bs.toList
  rwa [Vector.length_toList] at hread

/-- Every read gives back the value that was written. -/
theorem readField_readsOff {t : FieldType} {value : t.Value} {bs : List UInt8}
    (h : t.encode value = some bs) : ReadsOff (readField t) bs (toJs t value) := by
  cases t with
  | pubkey =>
      obtain rfl := Option.some.inj h
      exact (readPubkey_readsOff value).map
  | bool =>
      obtain rfl := Option.some.inj h
      exact readBool_readsOff value
  | u8 =>
      obtain rfl := Option.some.inj h
      exact (readsOff_word _ (UInt8.toNat_lt value)).map
  | u16 =>
      obtain rfl := Option.some.inj h
      exact (readsOff_word _ (UInt16.toNat_lt value)).map
  | u32 =>
      obtain rfl := Option.some.inj h
      exact (readsOff_word _ (UInt32.toNat_lt value)).map
  | u64 =>
      obtain rfl := Option.some.inj h
      exact (readsOff_word _ (UInt64.toNat_lt value)).map (g := fun n : ℕ ↦ JsValue.bigint n)
  | i64 =>
      obtain rfl := Option.some.inj h
      exact (readI64_readsOff value).map
  | string =>
      obtain ⟨length, hlength, htext⟩ := Option.bind_eq_some_iff.1 h
      obtain rfl := Option.some.inj htext
      exact (readString_readsOff hlength).map
  | vecPubkey =>
      obtain ⟨length, hlength, hkeys⟩ := Option.bind_eq_some_iff.1 h
      obtain rfl := Option.some.inj hkeys
      have hread : ReadsOff readVecPubkey _ _ :=
        (readLength_readsOff hlength).bind (ReadsOff.many readPubkey_readsOff)
      exact hread.map
  | vecU64 =>
      obtain ⟨length, hlength, hwords⟩ := Option.bind_eq_some_iff.1 h
      obtain rfl := Option.some.inj hwords
      exact readVecU64_readsOff hlength
  | bytes n =>
      obtain rfl := Option.some.inj h
      exact (readBytes_readsOff value).map

theorem readFields_readsOff {fields : Layout} {record : Record fields} {bs : List UInt8}
    (h : Record.encode fields record = some bs) :
    ReadsOff (readFields fields) bs (entries fields record) := by
  induction fields generalizing bs with
  | nil =>
      obtain rfl := Option.some.inj h
      exact readsOff_pure []
  | cons first fields ih =>
      obtain ⟨field, t⟩ := first
      obtain ⟨value, rest⟩ := record
      obtain ⟨here, hhere, h⟩ := Option.bind_eq_some_iff.1 h
      obtain ⟨others, hothers, h⟩ := Option.bind_eq_some_iff.1 h
      obtain rfl := Option.some.inj h
      exact (readField_readsOff hhere).bind (ih hothers).map

/-- A decoder that reads the fields of the layout gives back every field, whatever
stands behind the record. -/
theorem decode_serialize {fields : Layout} {record : Record fields} {data : List UInt8}
    {discriminator : Vector UInt8 8} (h : serialize discriminator fields record = some data)
    (after : List UInt8) : decode fields (data ++ after) = .ok (entries fields record) := by
  obtain ⟨bs, hbs, rfl⟩ := Option.map_eq_some_iff.1 h
  have hread := readFields_readsOff hbs discriminator.toList after
  rw [Vector.length_toList, ← List.append_assoc] at hread
  rw [decode, hread]
  rfl

theorem fields_of_readFields {fields : Layout} {data : List UInt8} {cursor next : ℕ}
    {object : JsObject} (h : readFields fields data cursor = .ok (object, next)) :
    object.map Prod.fst = fields.map Prod.fst := by
  induction fields generalizing cursor next object with
  | nil =>
      obtain ⟨rfl, -⟩ := pure_eq_ok.1 h
      rfl
  | cons first fields ih =>
      obtain ⟨value, mid, -, h⟩ := bind_eq_ok.1 h
      obtain ⟨rest, last, hrest, h⟩ := bind_eq_ok.1 h
      obtain ⟨rfl, -⟩ := pure_eq_ok.1 h
      rw [List.map_cons, List.map_cons, ih hrest]

/-- A decoder returns the fields that it reads. -/
theorem fields_of_decode {fields : Layout} {data : List UInt8} {object : JsObject}
    (h : decode fields data = .ok object) : object.map Prod.fst = fields.map Prod.fst := by
  cases hread : readFields fields data 8 with
  | error e =>
      rw [decode, hread] at h
      exact nomatch h
  | ok result =>
      rw [decode, hread] at h
      obtain rfl := Except.ok.inj h
      exact fields_of_readFields hread

/-! ## The account kinds -/

inductive Kind
  | tokenState
  | ownerState
  | agentRole
  | frozenWallet
  | partialFreeze
  | identityRegistryState
  | identityRegistryStorageState
  | walletIdentity
  | trustedIssuersState
  | issuerEntry
  | claimTopicsState
  | complianceState
  | fidAccount
  | claimAccount
  | factoryState
  | tokenDeployment
  | transferApproval
  deriving DecidableEq

namespace Kind

def layout : Kind → Layout
  | tokenState => Layouts.tokenState
  | ownerState => Layouts.ownerState
  | agentRole => Layouts.agentRole
  | frozenWallet => Layouts.frozenWallet
  | partialFreeze => Layouts.partialFreeze
  | identityRegistryState => Layouts.identityRegistryState
  | identityRegistryStorageState => Layouts.identityRegistryStorageState
  | walletIdentity => Layouts.walletIdentity
  | trustedIssuersState => Layouts.trustedIssuersState
  | issuerEntry => Layouts.issuerEntry
  | claimTopicsState => Layouts.claimTopicsState
  | complianceState => Layouts.complianceState
  | fidAccount => Layouts.fidAccount
  | claimAccount => Layouts.claimAccount
  | factoryState => Layouts.factoryState
  | tokenDeployment => Layouts.tokenDeployment
  | transferApproval => Layouts.transferApproval

def decoder : Kind → Decoder
  | tokenState => decodeTokenState
  | ownerState => decodeOwnerState
  | agentRole => decodeAgentRole
  | frozenWallet => decodeFrozenWallet
  | partialFreeze => decodePartialFreeze
  | identityRegistryState => decodeIdentityRegistryState
  | identityRegistryStorageState => decodeIdentityRegistryStorageState
  | walletIdentity => decodeWalletIdentity
  | trustedIssuersState => decodeTrustedIssuersState
  | issuerEntry => decodeIssuerEntry
  | claimTopicsState => decodeClaimTopicsState
  | complianceState => decodeComplianceState
  | fidAccount => decodeFidAccount
  | claimAccount => decodeClaimAccount
  | factoryState => decodeFactoryState
  | tokenDeployment => decodeTokenDeployment
  | transferApproval => decodeTransferApproval

/-- The kinds whose decoder reads other fields than the account has. -/
def outdated : List Kind :=
  [ownerState, identityRegistryStorageState, walletIdentity, tokenDeployment]

theorem decoder_eq {kind : Kind} (h : kind ∉ outdated) : kind.decoder = decode kind.layout := by
  cases kind with
  | ownerState | identityRegistryStorageState | walletIdentity | tokenDeployment =>
      simp [outdated] at h
  | _ => rfl

end Kind

/-- The decoder of a kind gives back every field of a record. -/
def Inverts (kind : Kind) (record : Record kind.layout) (data : List UInt8) : Prop :=
  ∃ object, kind.decoder data = .ok object ∧ entries kind.layout record ⊆ object

theorem fields_of_entries {fields : Layout} (record : Record fields) :
    (entries fields record).map Prod.fst = fields.map Prod.fst := by
  induction fields with
  | nil => rfl
  | cons first fields ih =>
      have hrest := ih record.2
      rw [List.map_cons, ← hrest]
      rfl

/-- A field that the decoder does not read is not in its object. -/
theorem not_inverts_of_missing {kind : Kind} {record : Record kind.layout} {data : List UInt8}
    {fields : Layout} (field : Field) (hdecoder : kind.decoder = decode fields)
    (hfield : field ∈ kind.layout.map Prod.fst) (hmissing : field ∉ fields.map Prod.fst) :
    ¬ Inverts kind record data := by
  rintro ⟨object, hobject, hsubset⟩
  rw [hdecoder] at hobject
  rw [← fields_of_decode hobject] at hmissing
  rw [← fields_of_entries record] at hfield
  exact hmissing (List.map_subset Prod.fst hsubset hfield)

/-- The pending owner of another layout takes the decoder over the end. -/
theorem decodeOwnerState_throws {data : List UInt8} (h : data.length = 73) :
    decodeOwnerState data = .error .outOfRange := by
  have hbump : readU8 data 104 = .error .outOfRange := by
    have hover : ¬ 104 + 1 ≤ data.length := by omega
    rw [readU8, word, if_neg hover]
  -- three keys are read before it, and a read of a key cannot fail
  simp only [decodeOwnerState, decode, readFields, readField, readPubkey, Reader.bind, bytes,
    Reader.pure, bind, Except.bind, hbump]
  rfl

/-- The decoders give back every field of every record of their kind, except the
four that read other fields than the account has, which never do. -/
theorem decoders_invert_iff {kind : Kind} {discriminator : Vector UInt8 8}
    {record : Record kind.layout} {data : List UInt8}
    (h : serialize discriminator kind.layout record = some data) :
    Inverts kind record data ↔ kind ∉ Kind.outdated := by
  constructor
  · intro hinverts houtdated
    have hkinds : kind = .ownerState ∨ kind = .identityRegistryStorageState ∨
        kind = .walletIdentity ∨ kind = .tokenDeployment := by
      simpa [Kind.outdated] using houtdated
    rcases hkinds with rfl | rfl | rfl | rfl
    · obtain ⟨data', hdata, hlength⟩ := length_serialize (n := 65) rfl discriminator record
      obtain rfl := Option.some.inj (hdata.symm.trans h)
      obtain ⟨object, hobject, -⟩ := hinverts
      change decodeOwnerState data' = .ok object at hobject
      rw [decodeOwnerState_throws hlength] at hobject
      exact nomatch hobject
    · exact not_inverts_of_missing .authoritySeed rfl (by decide) (by decide) hinverts
    · exact not_inverts_of_missing .isActive rfl (by decide) (by decide) hinverts
    · exact not_inverts_of_missing .assetId rfl (by decide) (by decide) hinverts
  · intro hkind
    have hobject := decode_serialize h []
    rw [List.append_nil, ← Kind.decoder_eq hkind] at hobject
    exact ⟨_, hobject, List.Subset.refl _⟩

/-! ## An owner and a role -/

def discriminator : Vector UInt8 8 := .replicate 8 7

def key (b : UInt8) : Key := .replicate 32 b

def owner : Record ownerState := (key 1, key 2, (255 : UInt8), ())

theorem owner_serialized : ∃ data, serialize discriminator ownerState owner = some data := ⟨_, rfl⟩

/-- The decoder of the owner state throws on the state of an owner. -/
theorem ownerState_not_decoded : ¬ ∀ (kind : Kind) (discriminator : Vector UInt8 8)
    (record : Record kind.layout) (data : List UInt8),
    serialize discriminator kind.layout record = some data → Inverts kind record data := by
  intro hclaim
  obtain ⟨data, hdata⟩ := owner_serialized
  obtain ⟨object, hobject, -⟩ := hclaim .ownerState discriminator owner data hdata
  obtain ⟨data', hdata', hlength⟩ := length_serialize (n := 65) rfl discriminator owner
  obtain rfl := Option.some.inj (hdata.symm.trans hdata')
  have hthrows : Kind.ownerState.decoder data = .error .outOfRange :=
    decodeOwnerState_throws hlength
  rw [hthrows] at hobject
  exact nomatch hobject

def role : Record agentRole := (key 1, key 2, true, (255 : UInt8), ())

theorem agentRole_decoded : ∃ data, serialize discriminator agentRole role = some data ∧
    Inverts .agentRole role data := by
  have hdata : ∃ data, serialize discriminator agentRole role = some data := ⟨_, rfl⟩
  obtain ⟨data, hdata⟩ := hdata
  have hinverts : Inverts .agentRole role data ↔ Kind.agentRole ∉ Kind.outdated :=
    decoders_invert_iff hdata
  exact ⟨data, hdata, hinverts.2 (by decide)⟩

end Fracks.Decoders
