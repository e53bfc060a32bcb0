import Fracks.Layouts

/-!
# Fields on the wire

The accounts as values of their structs, each with the record that is serialised, and
the offsets of their fields: a field that has only fields of fixed width before it starts
at one offset in every serialisation of its account.
-/

namespace Fracks.Layouts

open Bytes

/-! ## Offsets -/

/-- Where a field starts behind the discriminator, if one offset serves every record. -/
def offset (wanted : Field) : Layout → Option ℕ
  | [] => none
  | (field, t) :: fields =>
      if field = wanted then some 0
      else do
        let first ← t.width
        let others ← offset wanted fields
        some (first + others)

/-- The bytes of a field. -/
def Record.bytesOf (wanted : Field) : (fields : Layout) → Record fields → Option (List UInt8)
  | [], () => none
  | (field, t) :: fields, (value, rest) =>
      if field = wanted then t.encode value else Record.bytesOf wanted fields rest

/-- The fewest bytes of a record: a string or a list has at least its length. -/
def leastSize (fields : Layout) : ℕ := (fields.map fun field ↦ field.2.width.getD 4).sum

variable {wanted : Field} {t : FieldType} {fields : Layout} {record : Record fields}
  {bs part data : List UInt8} {start : ℕ}

/-- The bytes of a record are those of its first field and of the others. -/
theorem encode_cons {field : Field} {value : t.Value}
    (h : Record.encode ((field, t) :: fields) (value, record) = some bs) : ∃ first others,
      t.encode value = some first ∧ Record.encode fields record = some others ∧
        bs = first ++ others := by
  obtain ⟨first, hfirst, h⟩ := Option.bind_eq_some_iff.1 h
  obtain ⟨others, hothers, h⟩ := Option.bind_eq_some_iff.1 h
  cases h
  exact ⟨first, others, hfirst, hothers, rfl⟩

theorem encodeLength_eq {n : ℕ} (h : encodeLength n = some bs) : n < 2 ^ 32 ∧ bs = toLE 4 n := by
  rw [encodeLength] at h
  split at h
  · rename_i hn
    cases h
    exact ⟨hn, rfl⟩
  · cases h

theorem least_le_encode {value : t.Value} (h : t.encode value = some bs) :
    t.width.getD 4 ≤ bs.length := by
  cases hwidth : t.width with
  | some w =>
      obtain ⟨bs', hbs', hlength⟩ := length_encode hwidth value
      rw [h] at hbs'
      cases hbs'
      exact Nat.le_of_eq hlength.symm
  | none =>
      cases t with
      | string | vecPubkey | vecU64 =>
          obtain ⟨length, hlength, hbs⟩ := Option.bind_eq_some_iff.1 h
          obtain ⟨-, rfl⟩ := encodeLength_eq hlength
          cases hbs
          rw [List.length_append, length_toLE]
          exact Nat.le_add_right 4 _
      | pubkey | bool | u8 | u16 | u32 | u64 | i64 | bytes n => cases hwidth

theorem leastSize_le_encode (h : Record.encode fields record = some bs) :
    leastSize fields ≤ bs.length := by
  induction fields generalizing bs with
  | nil => exact Nat.zero_le _
  | cons first fields ih =>
      obtain ⟨field, t⟩ := first
      obtain ⟨value, rest⟩ := record
      obtain ⟨here, others, hhere, hothers, rfl⟩ := encode_cons h
      have hfirst := least_le_encode hhere
      have hrest := ih hothers
      rw [leastSize] at hrest ⊢
      rw [List.map_cons, List.sum_cons, List.length_append]
      exact Nat.add_le_add hfirst hrest

/-- Every field of a record that is serialised has its bytes. -/
theorem bytesOf_of_encode (h : Record.encode fields record = some bs)
    (hfield : wanted ∈ fields.map Prod.fst) :
    ∃ part, Record.bytesOf wanted fields record = some part := by
  induction fields generalizing bs with
  | nil => cases hfield
  | cons first fields ih =>
      obtain ⟨field, t⟩ := first
      obtain ⟨value, rest⟩ := record
      obtain ⟨here, others, hhere, hothers, -⟩ := encode_cons h
      by_cases hname : field = wanted
      · refine ⟨here, ?_⟩
        rw [Record.bytesOf, if_pos hname, hhere]
      · have hrest : wanted ∈ fields.map Prod.fst := by
          cases hfield with
          | head => exact absurd rfl hname
          | tail _ hrest => exact hrest
        obtain ⟨part, hpart⟩ := ih hothers hrest
        refine ⟨part, ?_⟩
        rw [Record.bytesOf, if_neg hname, hpart]

/-- A field splits the bytes of its record at its offset. -/
theorem encode_split (h : Record.encode fields record = some bs)
    (hstart : offset wanted fields = some start)
    (hpart : Record.bytesOf wanted fields record = some part) :
    ∃ left right, bs = left ++ (part ++ right) ∧ left.length = start := by
  induction fields generalizing bs start with
  | nil => cases hstart
  | cons first fields ih =>
      obtain ⟨field, t⟩ := first
      obtain ⟨value, rest⟩ := record
      obtain ⟨here, others, hhere, hothers, rfl⟩ := encode_cons h
      by_cases hname : field = wanted
      · rw [offset, if_pos hname] at hstart
        rw [Record.bytesOf, if_pos hname, hhere] at hpart
        cases hstart
        cases hpart
        exact ⟨[], others, rfl, rfl⟩
      · rw [offset, if_neg hname] at hstart
        rw [Record.bytesOf, if_neg hname] at hpart
        obtain ⟨w, hw, hstart⟩ := Option.bind_eq_some_iff.1 hstart
        obtain ⟨start', hstart', hsum⟩ := Option.bind_eq_some_iff.1 hstart
        cases hsum
        obtain ⟨left, right, rfl, hleft⟩ := ih hothers hstart' hpart
        obtain ⟨here', hhere', hlength⟩ := length_encode hw value
        rw [hhere] at hhere'
        cases hhere'
        refine ⟨here ++ left, right, ?_, ?_⟩
        · rw [List.append_assoc]
        · rw [List.length_append, hlength, hleft]

section Serialized

variable {discriminator : Vector UInt8 8}

theorem serialize_split (h : serialize discriminator fields record = some data)
    (hstart : offset wanted fields = some start)
    (hpart : Record.bytesOf wanted fields record = some part) :
    ∃ left right, data = left ++ (part ++ right) ∧ left.length = 8 + start := by
  obtain ⟨bs, hbs, rfl⟩ := Option.map_eq_some_iff.1 h
  obtain ⟨left, right, rfl, hleft⟩ := encode_split hbs hstart hpart
  refine ⟨discriminator.toList ++ left, right, ?_, ?_⟩
  · rw [List.append_assoc]
  · rw [List.length_append, Vector.length_toList, hleft]

variable (h : serialize discriminator fields record = some data)
  (after : List UInt8)

include h

theorem leastSize_le : 8 + leastSize fields ≤ (data ++ after).length := by
  obtain ⟨bs, hbs, rfl⟩ := Option.map_eq_some_iff.1 h
  have hleast := leastSize_le_encode hbs
  rw [List.length_append, List.length_append, Vector.length_toList]
  omega

theorem window_discriminator : window (data ++ after) 0 8 = discriminator.toList := by
  obtain ⟨bs, hbs, rfl⟩ := Option.map_eq_some_iff.1 h
  have hwindow := window_append [] discriminator.toList (bs ++ after)
  rw [Vector.length_toList] at hwindow
  rw [List.append_assoc]
  exact hwindow

end Serialized

/-- The data of an account: the discriminator, the record and at least its space. -/
theorem accountData_parts {discriminator : Vector UInt8 8} {space : ℕ}
    (h : accountData discriminator space fields record = some data) :
    space ≤ data.length ∧ ∃ bs padding, Record.encode fields record = some bs ∧
      data = discriminator.toList ++ (bs ++ padding) := by
  obtain ⟨written, hwritten, rfl⟩ := Option.map_eq_some_iff.1 h
  obtain ⟨bs, hbs, rfl⟩ := Option.map_eq_some_iff.1 hwritten
  refine ⟨?_, bs, _, hbs, List.append_assoc ..⟩
  rw [List.length_append, List.length_replicate]
  omega

end Fracks.Layouts

namespace Fracks.Wire

open Layouts

/-! ## The structs -/

structure TokenState where
  tokenMint : Key
  identityRegistry : Key
  compliance : Key
  paused : Bool
  decimals : UInt8
  name : String
  symbol : String
  isin : String
  bump : UInt8

def TokenState.record (s : TokenState) : Record tokenState :=
  (s.tokenMint, s.identityRegistry, s.compliance, s.paused, s.decimals, s.name, s.symbol, s.isin,
    s.bump, ())

structure OwnerState where
  owner : Key
  tokenMint : Key
  bump : UInt8

def OwnerState.record (s : OwnerState) : Record ownerState := (s.owner, s.tokenMint, s.bump, ())

structure ComplianceState where
  owner : Key
  tokenMint : Key
  modules : List Key
  modulesPaused : Bool
  bump : UInt8

def ComplianceState.record (s : ComplianceState) : Record complianceState :=
  (s.owner, s.tokenMint, s.modules, s.modulesPaused, s.bump, ())

structure ClaimTopicsState where
  owner : Key
  tokenMint : Key
  topics : List UInt64
  bump : UInt8

def ClaimTopicsState.record (s : ClaimTopicsState) : Record claimTopicsState :=
  (s.owner, s.tokenMint, s.topics, s.bump, ())

structure IssuerEntry where
  issuerFid : Key
  tir : Key
  allowedTopics : List UInt64
  isActive : Bool
  label : String
  bump : UInt8

def IssuerEntry.record (e : IssuerEntry) : Record issuerEntry :=
  (e.issuerFid, e.tir, e.allowedTopics, e.isActive, e.label, e.bump, ())

structure TransferApproval where
  tokenState : Key
  sourceTokenAccount : Key
  destinationTokenAccount : Key
  authority : Key
  sourceWallet : Key
  destinationWallet : Key
  amount : UInt64
  fromBalance : UInt64
  toBalance : UInt64
  fromCountry : UInt16
  toCountry : UInt16
  kind : UInt8
  consumed : Bool
  finalized : Bool
  bump : UInt8

def TransferApproval.record (a : TransferApproval) : Record transferApproval :=
  (a.tokenState, a.sourceTokenAccount, a.destinationTokenAccount, a.authority, a.sourceWallet,
    a.destinationWallet, a.amount, a.fromBalance, a.toBalance, a.fromCountry, a.toCountry, a.kind,
    a.consumed, a.finalized, a.bump, ())

end Fracks.Wire

namespace Fracks.Layouts

open Bytes

/-! ## Their bytes -/

variable {bs : List UInt8}

theorem encode_string {text : String} (h : FieldType.string.encode text = some bs) :
    text.toUTF8.data.toList.length < 2 ^ 32 ∧
      bs = toLE 4 text.toUTF8.data.toList.length ++ text.toUTF8.data.toList := by
  obtain ⟨length, hlength, h⟩ := Option.bind_eq_some_iff.1 h
  obtain ⟨hlt, rfl⟩ := encodeLength_eq hlength
  cases h
  exact ⟨hlt, rfl⟩

theorem encode_vecPubkey {keys : List Key} (h : FieldType.vecPubkey.encode keys = some bs) :
    keys.length < 2 ^ 32 ∧ bs = toLE 4 keys.length ++ keys.flatMap Vector.toList := by
  obtain ⟨length, hlength, h⟩ := Option.bind_eq_some_iff.1 h
  obtain ⟨hlt, rfl⟩ := encodeLength_eq hlength
  cases h
  exact ⟨hlt, rfl⟩

theorem encode_vecU64 {ns : List UInt64} (h : FieldType.vecU64.encode ns = some bs) :
    ns.length < 2 ^ 32 ∧ bs = toLE 4 ns.length ++ ns.flatMap fun n ↦ toLE 8 n.toNat := by
  obtain ⟨length, hlength, h⟩ := Option.bind_eq_some_iff.1 h
  obtain ⟨hlt, rfl⟩ := encodeLength_eq hlength
  cases h
  exact ⟨hlt, rfl⟩

theorem encode_tokenState {s : Wire.TokenState} (h : Record.encode tokenState s.record = some bs) :
    ∃ name symbol isin, FieldType.string.encode s.name = some name ∧
      FieldType.string.encode s.symbol = some symbol ∧ FieldType.string.encode s.isin = some isin ∧
        bs = s.tokenMint.toList ++ (s.identityRegistry.toList ++ (s.compliance.toList ++
          (toLE 1 s.paused.toNat ++ (toLE 1 s.decimals.toNat ++ (name ++ (symbol ++ (isin ++
            (toLE 1 s.bump.toNat ++ [])))))))) := by
  obtain ⟨_, _, hmint, h₁, rfl⟩ := encode_cons h
  obtain ⟨_, _, hregistry, h₂, rfl⟩ := encode_cons h₁
  obtain ⟨_, _, hcompliance, h₃, rfl⟩ := encode_cons h₂
  obtain ⟨_, _, hpaused, h₄, rfl⟩ := encode_cons h₃
  obtain ⟨_, _, hdecimals, h₅, rfl⟩ := encode_cons h₄
  obtain ⟨name, _, hname, h₆, rfl⟩ := encode_cons h₅
  obtain ⟨symbol, _, hsymbol, h₇, rfl⟩ := encode_cons h₆
  obtain ⟨isin, _, hisin, h₈, rfl⟩ := encode_cons h₇
  obtain ⟨_, _, hbump, h₉, rfl⟩ := encode_cons h₈
  cases hmint
  cases hregistry
  cases hcompliance
  cases hpaused
  cases hdecimals
  cases hbump
  cases h₉
  exact ⟨name, symbol, isin, hname, hsymbol, hisin, rfl⟩

theorem encode_issuerEntry {e : Wire.IssuerEntry}
    (h : Record.encode issuerEntry e.record = some bs) :
    ∃ topics label, FieldType.vecU64.encode e.allowedTopics = some topics ∧
      FieldType.string.encode e.label = some label ∧
        bs = e.issuerFid.toList ++ (e.tir.toList ++ (topics ++ (toLE 1 e.isActive.toNat ++
          (label ++ (toLE 1 e.bump.toNat ++ []))))) := by
  obtain ⟨_, _, hfid, h₁, rfl⟩ := encode_cons h
  obtain ⟨_, _, htir, h₂, rfl⟩ := encode_cons h₁
  obtain ⟨topics, _, htopics, h₃, rfl⟩ := encode_cons h₂
  obtain ⟨_, _, hactive, h₄, rfl⟩ := encode_cons h₃
  obtain ⟨label, _, hlabel, h₅, rfl⟩ := encode_cons h₄
  obtain ⟨_, _, hbump, h₆, rfl⟩ := encode_cons h₅
  cases hfid
  cases htir
  cases hactive
  cases hbump
  cases h₆
  exact ⟨topics, label, htopics, hlabel, rfl⟩

end Fracks.Layouts
