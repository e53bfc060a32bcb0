import Fracks.Lib.Bytes

/-!
# Account layouts

The byte layout of the accounts: after a discriminator of eight bytes come the
fields of the struct in their order, in the Borsh format.  A layout is the list of
the fields with their types, and a record has a value for each of them.
-/

namespace Fracks.Layouts

open Bytes

/-- The fields of the accounts, by the names that the clients give them. -/
inductive Field
  | activatedAt | activatedBy | agent | allowedTopics | amount | assetId | authority | authoritySeed
  | boundRegistries | bump | claimCount | claimId | compliance | complianceProgramId
  | complianceState | consumed | country | ctrAccount | ctrProgramId | ctrState
  | custodyAttestation | custodyMandate | dataHash | decimals | deployedAt | deploymentCount
  | deploymentId | destinationTokenAccount | destinationWallet | expiresAt | fid | fidProgramId
  | finalized | fromBalance | fromCountry | frozenAmount | frozenAt | frozenBy | identityAgents
  | identityRegistry | irpProgramId | irpState | irs | irsAccount | irsProgramId | irsState
  | isActive | isIssuer | isin | issuedAt | issuer | issuerCount | issuerFid | kind | label
  | managementKey | modules | modulesPaused | name | owner | ownerState | paused | pendingOwner
  | registeredCount | revoked | salt | signature | signerKey | sourceTokenAccount | sourceWallet
  | symbol | tir | tirAccount | tirProgramId | tirState | toBalance | toCountry | tokenMint
  | tokenProgramId | tokenState | topic | topics | wallet
  deriving DecidableEq

inductive FieldType
  | pubkey
  | bool
  | u8
  | u16
  | u32
  | u64
  | i64
  | string
  | vecPubkey
  | vecU64
  | bytes (n : ℕ)
  deriving DecidableEq

abbrev Layout := List (Field × FieldType)

/-! ## Values -/

abbrev Key := Vector UInt8 32

def FieldType.Value : FieldType → Type
  | pubkey => Key
  | bool => Bool
  | u8 => UInt8
  | u16 => UInt16
  | u32 => UInt32
  | u64 => UInt64
  | i64 => Int64
  | string => String
  | vecPubkey => List Key
  | vecU64 => List UInt64
  | bytes n => Vector UInt8 n

/-- A value for every field of a layout. -/
def Record : Layout → Type
  | [] => Unit
  | (_, t) :: fields => t.Value × Record fields

/-! ## Borsh -/

/-- The length in front of a string or a list, which is a `u32`. -/
def encodeLength (n : ℕ) : Option (List UInt8) := if n < 2 ^ 32 then some (toLE 4 n) else none

def FieldType.encode : (t : FieldType) → t.Value → Option (List UInt8)
  | pubkey, key => some (Vector.toList (α := UInt8) (n := 32) key)
  | bool, b => some (toLE 1 (Bool.toNat b))
  | u8, n => some (toLE 1 (UInt8.toNat n))
  | u16, n => some (toLE 2 (UInt16.toNat n))
  | u32, n => some (toLE 4 (UInt32.toNat n))
  | u64, n => some (toLE 8 (UInt64.toNat n))
  | i64, z => some (toLE 8 (Int64.toUInt64 z).toNat)
  | string, s => do
      let text : List UInt8 := (String.toUTF8 s).data.toList
      let length ← encodeLength text.length
      some (length ++ text)
  | vecPubkey, keys => do
      let keys : List Key := keys
      let length ← encodeLength keys.length
      some (length ++ keys.flatMap Vector.toList)
  | vecU64, ns => do
      let ns : List UInt64 := ns
      let length ← encodeLength ns.length
      some (length ++ ns.flatMap fun n ↦ toLE 8 n.toNat)
  | bytes n, bs => some (Vector.toList (α := UInt8) (n := n) bs)

def Record.encode : (fields : Layout) → Record fields → Option (List UInt8)
  | [], () => some []
  | (_, t) :: fields, (value, rest) => do
      let first ← t.encode value
      let others ← Record.encode fields rest
      some (first ++ others)

/-- The serialisation of a record behind its discriminator. -/
def serialize (discriminator : Vector UInt8 8) (fields : Layout) (record : Record fields) :
    Option (List UInt8) :=
  (Record.encode fields record).map (discriminator.toList ++ ·)

/-- The data of an account with `space` bytes, the rest of them zero. -/
def accountData (discriminator : Vector UInt8 8) (space : ℕ) (fields : Layout)
    (record : Record fields) : Option (List UInt8) :=
  (serialize discriminator fields record).map fun data ↦
    data ++ List.replicate (space - data.length) 0

/-! ## Sizes -/

/-- The bytes of a value, where they do not depend on it. -/
def FieldType.width : FieldType → Option ℕ
  | pubkey => some 32
  | bool | u8 => some 1
  | u16 => some 2
  | u32 => some 4
  | u64 | i64 => some 8
  | bytes n => some n
  | string | vecPubkey | vecU64 => none

def fixedSize : Layout → Option ℕ
  | [] => some 0
  | (_, t) :: fields => do
      let first ← t.width
      let others ← fixedSize fields
      some (first + others)

theorem length_encode {t : FieldType} {w : ℕ} (ht : t.width = some w) (value : t.Value) :
    ∃ bs, t.encode value = some bs ∧ bs.length = w := by
  cases t with
  | pubkey | bytes =>
      obtain rfl := Option.some.inj ht
      exact ⟨_, rfl, Vector.length_toList⟩
  | bool | u8 | u16 | u32 | u64 | i64 =>
      obtain rfl := Option.some.inj ht
      exact ⟨_, rfl, length_toLE ..⟩
  | string | vecPubkey | vecU64 => exact nomatch ht

theorem length_encode_record {fields : Layout} {n : ℕ} (h : fixedSize fields = some n)
    (record : Record fields) : ∃ bs, Record.encode fields record = some bs ∧ bs.length = n := by
  induction fields generalizing n with
  | nil =>
      obtain rfl := Option.some.inj h
      exact ⟨[], rfl, rfl⟩
  | cons first fields ih =>
      obtain ⟨field, t⟩ := first
      obtain ⟨value, rest⟩ := record
      obtain ⟨w, hw, h⟩ := Option.bind_eq_some_iff.1 h
      obtain ⟨m, hm, h⟩ := Option.bind_eq_some_iff.1 h
      obtain rfl := Option.some.inj h
      obtain ⟨here, hhere, hlength⟩ := length_encode hw value
      obtain ⟨others, hothers, hlength'⟩ := ih hm rest
      refine ⟨here ++ others, ?_, ?_⟩
      · simp [Record.encode, hhere, hothers]
      · rw [List.length_append, hlength, hlength']

theorem length_serialize {fields : Layout} {n : ℕ} (h : fixedSize fields = some n)
    (discriminator : Vector UInt8 8) (record : Record fields) :
    ∃ data, serialize discriminator fields record = some data ∧ data.length = 8 + n := by
  obtain ⟨bs, hbs, hlength⟩ := length_encode_record h record
  refine ⟨discriminator.toList ++ bs, ?_, ?_⟩
  · rw [serialize, hbs, Option.map_some]
  · rw [List.length_append, Vector.length_toList, hlength]

/-! ## The accounts of the programs -/

def tokenState : Layout :=
  [(.tokenMint, .pubkey), (.identityRegistry, .pubkey), (.compliance, .pubkey), (.paused, .bool),
    (.decimals, .u8), (.name, .string), (.symbol, .string), (.isin, .string), (.bump, .u8)]

def ownerState : Layout := [(.owner, .pubkey), (.tokenMint, .pubkey), (.bump, .u8)]

def agentRole : Layout :=
  [(.agent, .pubkey), (.tokenMint, .pubkey), (.isActive, .bool), (.bump, .u8)]

def frozenWallet : Layout :=
  [(.wallet, .pubkey), (.tokenMint, .pubkey), (.frozenBy, .pubkey), (.frozenAt, .i64), (.bump, .u8)]

def partialFreeze : Layout :=
  [(.wallet, .pubkey), (.tokenMint, .pubkey), (.frozenAmount, .u64), (.frozenBy, .pubkey),
    (.bump, .u8)]

def identityRegistryState : Layout :=
  [(.tokenMint, .pubkey), (.owner, .pubkey), (.irsAccount, .pubkey), (.tirAccount, .pubkey),
    (.ctrAccount, .pubkey), (.identityAgents, .vecPubkey), (.registeredCount, .u64), (.bump, .u8)]

def identityRegistryStorageState : Layout :=
  [(.owner, .pubkey), (.authoritySeed, .pubkey), (.boundRegistries, .vecPubkey),
    (.registeredCount, .u64), (.bump, .u8)]

def walletIdentity : Layout :=
  [(.wallet, .pubkey), (.fid, .pubkey), (.country, .u16), (.irs, .pubkey), (.isActive, .bool),
    (.activatedBy, .pubkey), (.activatedAt, .i64), (.bump, .u8)]

def trustedIssuersState : Layout :=
  [(.owner, .pubkey), (.tokenMint, .pubkey), (.issuerCount, .u32), (.bump, .u8)]

def issuerEntry : Layout :=
  [(.issuerFid, .pubkey), (.tir, .pubkey), (.allowedTopics, .vecU64), (.isActive, .bool),
    (.label, .string), (.bump, .u8)]

def claimTopicsState : Layout :=
  [(.owner, .pubkey), (.tokenMint, .pubkey), (.topics, .vecU64), (.bump, .u8)]

def complianceState : Layout :=
  [(.owner, .pubkey), (.tokenMint, .pubkey), (.modules, .vecPubkey), (.modulesPaused, .bool),
    (.bump, .u8)]

def fidAccount : Layout :=
  [(.owner, .pubkey), (.managementKey, .pubkey), (.signerKey, .pubkey), (.claimCount, .u32),
    (.isIssuer, .bool), (.country, .u16), (.bump, .u8)]

def claimAccount : Layout :=
  [(.fid, .pubkey), (.claimId, .u32), (.topic, .u64), (.issuerFid, .pubkey),
    (.dataHash, .bytes 32), (.signerKey, .pubkey), (.signature, .bytes 64), (.issuedAt, .i64),
    (.expiresAt, .i64), (.revoked, .bool), (.bump, .u8)]

def factoryState : Layout :=
  [(.owner, .pubkey), (.tokenProgramId, .pubkey), (.fidProgramId, .pubkey),
    (.irpProgramId, .pubkey), (.irsProgramId, .pubkey), (.tirProgramId, .pubkey),
    (.ctrProgramId, .pubkey), (.complianceProgramId, .pubkey), (.deploymentCount, .u64),
    (.bump, .u8)]

def tokenDeployment : Layout :=
  [(.deploymentId, .u64), (.assetId, .u64), (.issuer, .pubkey), (.salt, .bytes 32),
    (.tokenMint, .pubkey), (.tokenState, .pubkey), (.ownerState, .pubkey), (.irpState, .pubkey),
    (.irsState, .pubkey), (.tirState, .pubkey), (.ctrState, .pubkey), (.complianceState, .pubkey),
    (.custodyMandate, .pubkey), (.custodyAttestation, .pubkey), (.deployedAt, .i64), (.bump, .u8)]

def transferApproval : Layout :=
  [(.tokenState, .pubkey), (.sourceTokenAccount, .pubkey), (.destinationTokenAccount, .pubkey),
    (.authority, .pubkey), (.sourceWallet, .pubkey), (.destinationWallet, .pubkey),
    (.amount, .u64), (.fromBalance, .u64), (.toBalance, .u64), (.fromCountry, .u16),
    (.toCountry, .u16), (.kind, .u8), (.consumed, .bool), (.finalized, .bool), (.bump, .u8)]

end Fracks.Layouts
