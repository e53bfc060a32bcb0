import Fracks.TokenHook
import Fracks.Wire

/-!
# Raw reads of the transfer hook

The transfer hook does not load the accounts of the other programs by their types: it
cuts keys out of their bytes at offsets of its own, and the entries that it stores for
Token-2022 name such offsets too.  Each of them is the offset of the field it stands for.
-/

namespace Fracks.HookReaders

open Bytes Checked Layouts

/-! ## The readers -/

/-- An instruction ends with an error of the program, or the program aborts. -/
inductive Failure
  | error (e : FracksTokenHookError)
  | panicked
  deriving DecidableEq

abbrev Result := Except Failure

structure AccountInfo where
  key : Key
  owner : Key
  data : List UInt8

/-- `6Naj8HsuNdUJQyyzmPssm1mZRDF7F5VMQ91n9QyMoyGj` -/
def fracksTokenProgramId : Key :=
  #v[79, 209, 196, 29, 164, 99, 79, 172, 12, 207, 200, 85, 30, 14, 115, 175, 74, 59, 4, 113, 151,
    36, 239, 20, 181, 135, 5, 85, 189, 116, 159, 160]

/-- `HnJiNrmDeVFZksgEXaQwyVqHXQLRcyqXEksbYhkiPFFV` -/
def fracksComplianceProgramId : Key :=
  #v[249, 86, 39, 228, 98, 234, 150, 62, 2, 97, 156, 153, 213, 135, 119, 171, 20, 139, 94, 80, 136,
    217, 169, 60, 24, 70, 211, 115, 241, 94, 189, 160]

def tokenStateComplianceOffset : ℕ := 72

def ownerStateOwnerOffset : ℕ := 8

def ownerStateTokenMintOffset : ℕ := 40

def complianceModulesOffset : ℕ := 76

def transferApprovalSourceWalletOffset : ℕ := 136

def transferApprovalFromCountryOffset : ℕ := 224

def transferApprovalToCountryOffset : ℕ := 226

/-- `data.get(start..stop)` -/
def get (data : List UInt8) (start stop : ℕ) : Option (List UInt8) :=
  if start ≤ stop ∧ stop ≤ data.length then some (window data start (stop - start)) else none

/-- `data[start..stop]` -/
def slice (data : List UInt8) (start stop : ℕ) : Result (List UInt8) :=
  okOr (get data start stop) .panicked

def tryInto (n : ℕ) (bs : List UInt8) (e : FracksTokenHookError) : Result (Vector UInt8 n) :=
  if h : bs.length = n then .ok ⟨bs.toArray, h⟩ else .error (.error e)

/-- A key out of a part of the data. -/
def sliceKey (data : List UInt8) (start stop : ℕ) (e : FracksTokenHookError) : Result Key := do
  let bs ← slice data start stop
  tryInto 32 bs e

section Hash

-- SHA-256
variable (hash : List UInt8 → Vector UInt8 32)

def accountDiscriminator (name : String) : Vector UInt8 8 :=
  (hash ("account:" ++ name).toUTF8.data.toList).take 8

structure TokenStateView where
  tokenMint : Key
  compliance : Key

def readTokenState (account : AccountInfo) : Result TokenStateView := do
  require (account.owner = fracksTokenProgramId) (.error .invalidTokenState)
  let data := account.data
  require (data.length ≥ 106) (.error .invalidTokenState)
  let discriminator ← slice data 0 8
  require (discriminator = (accountDiscriminator hash "TokenState").toList)
    (.error .invalidTokenState)
  let tokenMint ← sliceKey data 8 40 .invalidTokenState
  let compliance ← sliceKey data 72 104 .invalidTokenState
  .ok { tokenMint, compliance }

def validateOwnerState (account : AccountInfo) (owner tokenMint : Key) : Result Unit := do
  require (account.owner = fracksTokenProgramId) (.error .invalidOwnerState)
  let data := account.data
  require (data.length ≥ 73) (.error .invalidOwnerState)
  let discriminator ← slice data 0 8
  require (discriminator = (accountDiscriminator hash "OwnerState").toList)
    (.error .invalidOwnerState)
  let storedOwner ← sliceKey data ownerStateOwnerOffset (ownerStateOwnerOffset + 32)
    .invalidOwnerState
  let storedMint ← sliceKey data ownerStateTokenMintOffset (ownerStateTokenMintOffset + 32)
    .invalidOwnerState
  require (storedOwner = owner) (.error .notOwner)
  require (storedMint = tokenMint) (.error .invalidOwnerState)

def validateComplianceState (account : AccountInfo) (expectedCompliance tokenMint : Key) :
    Result Unit := do
  require (account.owner = fracksComplianceProgramId) (.error .invalidCompliance)
  require (account.key = expectedCompliance) (.error .invalidCompliance)
  let data := account.data
  require (data.length ≥ 76) (.error .invalidCompliance)
  let discriminator ← slice data 0 8
  require (discriminator = (accountDiscriminator hash "ComplianceState").toList)
    (.error .invalidCompliance)
  let storedMint ← sliceKey data 40 72 .invalidCompliance
  require (storedMint = tokenMint) (.error .invalidCompliance)

end Hash

def readComplianceModuleKey (complianceState : AccountInfo) (index : ℕ) : Result Key := do
  let data := complianceState.data
  let moduleCountBytes ← okOr (get data 72 76) (.error .invalidCompliance)
  let moduleCount ← tryInto 4 moduleCountBytes .invalidCompliance
  let moduleCount := ofLE moduleCount.toList
  require (index < moduleCount ∧ moduleCount ≤ 15) (.error .invalidComplianceModule)
  let shift ← okOr (checkedMul index 32) (.error .arithmeticOverflow)
  let start := complianceModulesOffset + shift
  let stop ← okOr (checkedAdd start 32) (.error .arithmeticOverflow)
  let bs ← okOr (get data start stop) (.error .invalidComplianceModule)
  tryInto 32 bs .invalidComplianceModule

/-- The bytes that a seed or an entry with an offset into an account stands for. -/
def accountData (data : List UInt8) (dataIndex length : ℕ) : Option (List UInt8) :=
  get data dataIndex (dataIndex + length)

/-! ## Reads of a part -/

section Reads

variable {data : List UInt8} {start stop n : ℕ} {part : List UInt8} {key : Key}
  {e : FracksTokenHookError}

theorem get_eq (hwindow : window data start part.length = part) (hstop : stop = start + part.length)
    (hfits : stop ≤ data.length) : get data start stop = some part := by
  have hstart : start ≤ stop := by omega
  have hlength : stop - start = part.length := by omega
  rw [get, if_pos ⟨hstart, hfits⟩, hlength, hwindow]

theorem slice_eq (hwindow : window data start part.length = part)
    (hstop : stop = start + part.length) (hfits : stop ≤ data.length) :
    slice data start stop = .ok part := by
  rw [slice, get_eq hwindow hstop hfits, okOr]

theorem tryInto_toList (v : Vector UInt8 n) : tryInto n v.toList e = .ok v := by
  have hlength : v.toList.length = n := Vector.length_toList
  rw [tryInto, dif_pos hlength]
  rfl

theorem sliceKey_eq (hwindow : window data start key.toList.length = key.toList)
    (hstop : stop = start + 32) (hfits : stop ≤ data.length) :
    sliceKey data start stop e = .ok key := by
  have hlength : key.toList.length = 32 := Vector.length_toList
  have hslice : slice data start stop = .ok key.toList := by
    apply slice_eq hwindow
    · rw [hlength, hstop]
    · exact hfits
  rw [sliceKey, hslice]
  exact tryInto_toList key

end Reads

/-! ## Reads of a serialised account -/

/-- The account data of a record: its serialisation and what the space is filled with. -/
def Stored (hash : List UInt8 → Vector UInt8 32) (name : String) {fields : Layout}
    (record : Record fields) (bytes : List UInt8) : Prop :=
  ∃ data after, serialize (accountDiscriminator hash name) fields record = some data ∧
    bytes = data ++ after

namespace Stored

variable {hash : List UInt8 → Vector UInt8 32} {name : String} {fields : Layout}
  {record : Record fields} {bytes part : List UInt8} {wanted : Field} {start stop : ℕ} {key : Key}
  {e : FracksTokenHookError}

theorem length (h : Stored hash name record bytes) : 8 + leastSize fields ≤ bytes.length := by
  obtain ⟨data, after, hdata, rfl⟩ := h
  exact leastSize_le hdata after

theorem discriminator (h : Stored hash name record bytes) :
    slice bytes 0 8 = .ok (accountDiscriminator hash name).toList := by
  have hlength := h.length
  obtain ⟨data, after, hdata, rfl⟩ := h
  have hwindow := window_discriminator hdata after
  have height : (accountDiscriminator hash name).toList.length = 8 := Vector.length_toList
  apply slice_eq
  · rw [height]
    exact hwindow
  · rw [height]
  · omega

theorem bytesOf (h : Stored hash name record bytes) (hfield : wanted ∈ fields.map Prod.fst) :
    ∃ part, Record.bytesOf wanted fields record = some part := by
  obtain ⟨data, after, hdata, rfl⟩ := h
  obtain ⟨bs, hbs, rfl⟩ := Option.map_eq_some_iff.1 hdata
  exact bytesOf_of_encode hbs hfield

/-- A field splits the bytes at its offset. -/
theorem split (h : Stored hash name record bytes) (hstart : offset wanted fields = some start)
    (hpart : Record.bytesOf wanted fields record = some part) :
    ∃ left right, bytes = left ++ (part ++ right) ∧ left.length = 8 + start := by
  obtain ⟨data, after, hdata, rfl⟩ := h
  obtain ⟨left, right, rfl, hleft⟩ := serialize_split hdata hstart hpart
  refine ⟨left, right ++ after, ?_, hleft⟩
  rw [List.append_assoc, List.append_assoc]

theorem window_field (h : Stored hash name record bytes)
    (hstart : offset wanted fields = some start)
    (hpart : Record.bytesOf wanted fields record = some part) :
    window bytes (8 + start) part.length = part := by
  obtain ⟨left, right, rfl, hleft⟩ := h.split hstart hpart
  rw [← hleft, window_append]

theorem get_field (h : Stored hash name record bytes) (hstart : offset wanted fields = some start)
    (hpart : Record.bytesOf wanted fields record = some part)
    (hstop : stop = 8 + start + part.length) (hfits : stop ≤ 8 + leastSize fields) :
    get bytes (8 + start) stop = some part :=
  get_eq (h.window_field hstart hpart) hstop (Nat.le_trans hfits h.length)

theorem sliceKey_field (h : Stored hash name record bytes)
    (hstart : offset wanted fields = some start)
    (hpart : Record.bytesOf wanted fields record = some key.toList)
    (hstop : stop = 8 + start + 32) (hfits : stop ≤ 8 + leastSize fields) :
    sliceKey bytes (8 + start) stop e = .ok key :=
  sliceKey_eq (h.window_field hstart hpart) hstop (Nat.le_trans hfits h.length)

end Stored

section Readers

variable {hash : List UInt8 → Vector UInt8 32} {account : AccountInfo}

theorem readTokenState_stored {s : Wire.TokenState}
    (h : Stored hash "TokenState" s.record account.data)
    (howner : account.owner = fracksTokenProgramId) :
    readTokenState hash account = .ok ⟨s.tokenMint, s.compliance⟩ := by
  have hlength : account.data.length ≥ 106 := Nat.le_trans (by decide) h.length
  have hmint : sliceKey account.data 8 40 .invalidTokenState = .ok s.tokenMint :=
    h.sliceKey_field (show offset .tokenMint tokenState = some 0 from rfl) rfl rfl (by decide)
  have hcompliance : sliceKey account.data 72 104 .invalidTokenState = .ok s.compliance :=
    h.sliceKey_field (show offset .compliance tokenState = some 64 from rfl) rfl rfl (by decide)
  simp only [readTokenState, require_of howner, require_of hlength, h.discriminator, ok_bind,
    require_of trivial, hmint, hcompliance]

theorem validateOwnerState_stored {s : Wire.OwnerState}
    (h : Stored hash "OwnerState" s.record account.data)
    (howner : account.owner = fracksTokenProgramId) (owner tokenMint : Key) :
    validateOwnerState hash account owner tokenMint = (do
      require (s.owner = owner) (.error .notOwner)
      require (s.tokenMint = tokenMint) (.error .invalidOwnerState)) := by
  have hlength : account.data.length ≥ 73 := Nat.le_trans (by decide) h.length
  have hstored : sliceKey account.data ownerStateOwnerOffset (ownerStateOwnerOffset + 32)
      .invalidOwnerState = .ok s.owner :=
    h.sliceKey_field (show offset .owner ownerState = some 0 from rfl) rfl rfl (by decide)
  have hmint : sliceKey account.data ownerStateTokenMintOffset (ownerStateTokenMintOffset + 32)
      .invalidOwnerState = .ok s.tokenMint :=
    h.sliceKey_field (show offset .tokenMint ownerState = some 32 from rfl) rfl rfl (by decide)
  simp only [validateOwnerState, require_of howner, require_of hlength, h.discriminator, ok_bind,
    require_of trivial, hstored, hmint]

theorem validateComplianceState_stored {s : Wire.ComplianceState}
    (h : Stored hash "ComplianceState" s.record account.data)
    (howner : account.owner = fracksComplianceProgramId) (expectedCompliance tokenMint : Key) :
    validateComplianceState hash account expectedCompliance tokenMint = (do
      require (account.key = expectedCompliance) (.error .invalidCompliance)
      require (s.tokenMint = tokenMint) (.error .invalidCompliance)) := by
  have hlength : account.data.length ≥ 76 := Nat.le_trans (by decide) h.length
  have hmint : sliceKey account.data 40 72 .invalidCompliance = .ok s.tokenMint :=
    h.sliceKey_field (show offset .tokenMint complianceState = some 32 from rfl) rfl rfl (by decide)
  simp only [validateComplianceState, require_of howner, require_of hlength, h.discriminator,
    ok_bind, require_of trivial, hmint]

/-- The modules of a serialised compliance state: their number and their keys. -/
theorem modules_stored {s : Wire.ComplianceState}
    (h : Stored hash "ComplianceState" s.record bytes) :
    s.modules.length < 2 ^ 32 ∧
      window bytes 72 4 = toLE 4 s.modules.length ∧
        ∀ index (hindex : index < s.modules.length),
          window bytes (76 + index * 32) 32 = (s.modules[index]).toList ∧
            76 + index * 32 + 32 ≤ bytes.length := by
  have hmodules : Field.modules ∈ complianceState.map Prod.fst := by decide
  obtain ⟨part, hpart⟩ := h.bytesOf hmodules
  obtain ⟨left, right, rfl, hleft⟩ :=
    h.split (show offset .modules complianceState = some 64 from rfl) hpart
  obtain ⟨hlt, rfl⟩ := encode_vecPubkey hpart
  have hbytes : ∀ key : Key, key.toList.length = 32 := fun _ ↦ Vector.length_toList
  refine ⟨hlt, ?_, fun index hindex ↦ ⟨?_, ?_⟩⟩
  · have hwindow := window_append left (toLE 4 s.modules.length)
      (s.modules.flatMap Vector.toList ++ right)
    rw [hleft, length_toLE] at hwindow
    simpa only [List.append_assoc] using hwindow
  · have hwindow := window_item hbytes hindex (left ++ toLE 4 s.modules.length) right
    rw [List.length_append, hleft, length_toLE] at hwindow
    simpa only [List.append_assoc] using hwindow
  · have hsize := length_items hbytes s.modules
    simp only [List.length_append, hleft, length_toLE, hsize]
    omega

/-- The number of the modules limits the index, and fifteen limits their number. -/
theorem readComplianceModuleKey_stored {s : Wire.ComplianceState}
    (h : Stored hash "ComplianceState" s.record account.data) (index : ℕ) :
    readComplianceModuleKey account index =
      if hindex : index < s.modules.length ∧ s.modules.length ≤ 15 then .ok s.modules[index]
      else .error (.error .invalidComplianceModule) := by
  obtain ⟨hlt, hnumber, hkeys⟩ := modules_stored h
  have hlength : 78 ≤ account.data.length := h.length
  have hget : get account.data 72 76 = some (toLE 4 s.modules.length) := by
    apply get_eq
    · rw [length_toLE, hnumber]
    · rw [length_toLE]
    · omega
  have hcount : tryInto 4 (toLE 4 s.modules.length) .invalidCompliance =
      .ok ⟨(toLE 4 s.modules.length).toArray, length_toLE 4 _⟩ := dif_pos (length_toLE 4 _)
  have hvalue : ofLE (toLE 4 s.modules.length) = s.modules.length := ofLE_toLE_of_lt hlt
  simp only [readComplianceModuleKey, hget, okOr, ok_bind, hcount, Vector.toList_mk, hvalue]
  by_cases hindex : index < s.modules.length ∧ s.modules.length ≤ 15
  · obtain ⟨hbound, hfew⟩ := hindex
    obtain ⟨hwindow, hfits⟩ := hkeys index hbound
    have hkey : s.modules[index].toList.length = 32 := Vector.length_toList
    have hshift : checkedMul index 32 = some (index * 32) := by
      rw [checkedMul_eq_some]
      refine ⟨?_, rfl⟩
      unfold u64Max
      omega
    have hstop : checkedAdd (complianceModulesOffset + index * 32) 32 =
        some (76 + index * 32 + 32) := by
      rw [checkedAdd_eq_some]
      refine ⟨?_, rfl⟩
      unfold u64Max complianceModulesOffset
      omega
    have hitem : get account.data (complianceModulesOffset + index * 32) (76 + index * 32 + 32) =
        some s.modules[index].toList := by
      apply get_eq
      · rw [hkey]
        exact hwindow
      · rw [hkey, complianceModulesOffset]
      · exact hfits
    simp only [require_of (And.intro hbound hfew), ok_bind, hshift, hstop, hitem,
      dif_pos (And.intro hbound hfew)]
    exact tryInto_toList _
  · rw [require, if_neg hindex, dif_neg hindex]
    rfl

theorem accountData_stored {name : String} {fields : Layout} {record : Record fields}
    {bytes part : List UInt8} {wanted : Field} {start : ℕ}
    (h : Stored hash name record bytes) (hstart : offset wanted fields = some start)
    (hpart : Record.bytesOf wanted fields record = some part)
    (hfits : 8 + start + part.length ≤ 8 + leastSize fields) :
    accountData bytes (8 + start) part.length = some part :=
  h.get_field hstart hpart rfl hfits

end Readers

theorem accountData_key {hash : List UInt8 → Vector UInt8 32} {bytes : List UInt8}
    {name : String} {fields : Layout} {record : Record fields} {wanted : Field} {start : ℕ}
    {key : Key} (h : Stored hash name record bytes)
    (hstart : offset wanted fields = some start)
    (hpart : Record.bytesOf wanted fields record = some key.toList)
    (hfits : 8 + start + 32 ≤ 8 + leastSize fields) :
    accountData bytes (8 + start) 32 = some key.toList := by
  have hkey : key.toList.length = 32 := Vector.length_toList
  have hread := accountData_stored h hstart hpart (by rw [hkey]; exact hfits)
  rwa [hkey] at hread

/-! ## The readers are exact -/

/-- The raw reads and the offsets select the fields they stand for; the modules of a
compliance state are read by their indices when there are at most fifteen. -/
theorem hook_readers_exact (hash : List UInt8 → Vector UInt8 32) (account : AccountInfo) :
    (∀ s : Wire.TokenState, Stored hash "TokenState" s.record account.data →
      (account.owner = fracksTokenProgramId →
        readTokenState hash account = .ok ⟨s.tokenMint, s.compliance⟩) ∧
      accountData account.data tokenStateComplianceOffset 32 = some s.compliance.toList) ∧
    (∀ s : Wire.OwnerState, Stored hash "OwnerState" s.record account.data →
      account.owner = fracksTokenProgramId → ∀ owner tokenMint,
        validateOwnerState hash account owner tokenMint = (do
          require (s.owner = owner) (.error .notOwner)
          require (s.tokenMint = tokenMint) (.error .invalidOwnerState))) ∧
    (∀ s : Wire.ComplianceState, Stored hash "ComplianceState" s.record account.data →
      (account.owner = fracksComplianceProgramId → ∀ expectedCompliance tokenMint,
        validateComplianceState hash account expectedCompliance tokenMint = (do
          require (account.key = expectedCompliance) (.error .invalidCompliance)
          require (s.tokenMint = tokenMint) (.error .invalidCompliance))) ∧
      ∀ index, readComplianceModuleKey account index =
        if hindex : index < s.modules.length ∧ s.modules.length ≤ 15 then .ok s.modules[index]
        else .error (.error .invalidComplianceModule)) ∧
    ∀ a : Wire.TransferApproval, Stored hash "TransferApproval" a.record account.data →
      accountData account.data transferApprovalSourceWalletOffset 32 =
          some a.sourceWallet.toList ∧
        accountData account.data transferApprovalFromCountryOffset 2 =
          some (toLE 2 a.fromCountry.toNat) ∧
        accountData account.data transferApprovalToCountryOffset 2 =
          some (toLE 2 a.toCountry.toNat) := by
  refine ⟨fun s h ↦ ⟨readTokenState_stored h, ?_⟩, fun s h ↦ validateOwnerState_stored h,
    fun s h ↦ ⟨validateComplianceState_stored h, readComplianceModuleKey_stored h⟩,
    fun a h ↦ ⟨?_, ?_, ?_⟩⟩
  · exact accountData_key h (show offset .compliance tokenState = some 64 from rfl) rfl (by decide)
  · exact accountData_key h (show offset .sourceWallet transferApproval = some 128 from rfl) rfl
      (by decide)
  · have hread := accountData_stored h
      (show offset .fromCountry transferApproval = some 216 from rfl)
      (show Record.bytesOf .fromCountry transferApproval a.record =
        some (toLE 2 a.fromCountry.toNat) from rfl)
      (by rw [length_toLE]; decide)
    rwa [length_toLE] at hread
  · have hread := accountData_stored h
      (show offset .toCountry transferApproval = some 218 from rfl)
      (show Record.bytesOf .toCountry transferApproval a.record =
        some (toLE 2 a.toCountry.toNat) from rfl)
      (by rw [length_toLE]; decide)
    rwa [length_toLE] at hread

/-! ### A list of sixteen modules -/

/-- The hash of `account:ComplianceState`. -/
def complianceHash : List UInt8 → Vector UInt8 32 := fun _ ↦
  #v[79, 72, 68, 139, 194, 24, 136, 48, 202, 179, 118, 131, 178, 16, 61, 164, 167, 15, 203, 49,
    205, 71, 61, 10, 182, 108, 36, 36, 99, 103, 16, 104]

def modulesState (n : ℕ) : Wire.ComplianceState where
  owner := .replicate 32 1
  tokenMint := .replicate 32 2
  modules := List.replicate n (.replicate 32 3)
  modulesPaused := false
  bump := 255

def modulesData (n : ℕ) : List UInt8 :=
  (serialize (accountDiscriminator complianceHash "ComplianceState") complianceState
    (modulesState n).record).getD []

def modulesAccount (n : ℕ) : AccountInfo where
  key := .replicate 32 4
  owner := fracksComplianceProgramId
  data := modulesData n

theorem modulesData_stored (n : ℕ) (hn : n < 2 ^ 32) :
    Stored complianceHash "ComplianceState" (modulesState n).record (modulesData n) := by
  have hlength : encodeLength (modulesState n).modules.length = some (toLE 4 n) := by
    rw [modulesState, List.length_replicate, encodeLength, if_pos hn]
  have hencode : ∃ data, serialize (accountDiscriminator complianceHash "ComplianceState")
      complianceState (modulesState n).record = some data := by
    simp only [serialize, complianceState, Wire.ComplianceState.record, Record.encode,
      FieldType.encode, hlength]
    exact ⟨_, rfl⟩
  obtain ⟨data, hdata⟩ := hencode
  refine ⟨data, [], hdata, ?_⟩
  rw [modulesData, hdata, Option.getD_some, List.append_nil]

theorem two_modules_read :
    Stored complianceHash "ComplianceState" (modulesState 2).record (modulesAccount 2).data ∧
      readComplianceModuleKey (modulesAccount 2) 1 = .ok (.replicate 32 3) := by
  have hstored : Stored complianceHash "ComplianceState" (modulesState 2).record
      (modulesAccount 2).data := modulesData_stored 2 (by decide)
  have hread := ((hook_readers_exact complianceHash (modulesAccount 2)).2.2.1 _ hstored).2 1
  have hindex : 1 < (modulesState 2).modules.length ∧ (modulesState 2).modules.length ≤ 15 := by
    decide
  rw [dif_pos hindex] at hread
  exact ⟨hstored, hread⟩

/-- The reader refuses a list of sixteen modules. -/
theorem sixteen_modules_refused : ¬ ∀ (hash : List UInt8 → Vector UInt8 32) (account : AccountInfo)
    (s : Wire.ComplianceState), Stored hash "ComplianceState" s.record account.data →
      account.owner = fracksComplianceProgramId →
        ∀ index (hindex : index < s.modules.length),
          readComplianceModuleKey account index = .ok s.modules[index] := by
  intro hall
  have hread := hall complianceHash (modulesAccount 16) (modulesState 16)
    (modulesData_stored 16 (by decide)) rfl 0 (by decide)
  have hrefused : readComplianceModuleKey (modulesAccount 16) 0 = _ :=
    readComplianceModuleKey_stored (modulesData_stored 16 (by decide)) 0
  rw [hread] at hrefused
  cases hrefused

end Fracks.HookReaders
