import Fracks.IndexedMetadata
import Fracks.Layouts
import Fracks.Ledger

/-!
# What the indexer reads off a module

The accounts of the modules as bytes, and what the indexer makes of them: the text of the
one parameter that a module has, under the key of its rule.
-/

namespace Fracks.Indexer

open Bytes Json Layouts

/-! ## Rules -/

/-- The modules that the indexer knows, by what they limit. -/
inductive Rule
  | countryRestrict
  | countryCap
  | maxBalance
  | maxTransfer
  | lockup
  | maxInvestors
  | dailyLimit
  | supplyCap
  deriving DecidableEq

namespace Rule

def key : Rule → String
  | countryRestrict => "allowed_countries"
  | countryCap => "country_caps"
  | maxBalance => "max_balance"
  | maxTransfer => "max_amount"
  | lockup => "lockup_end"
  | maxInvestors => "max_investors"
  | dailyLimit => "daily_limit"
  | supplyCap => "max_supply"

def program : Rule → ProgramName
  | countryRestrict => .modCountryRestrict
  | countryCap => .modCountryCap
  | maxBalance => .modMaxBalance
  | maxTransfer => .modMaxTransfer
  | lockup => .modLockup
  | maxInvestors => .modMaxInvestors
  | dailyLimit => .modDailyLimit
  | supplyCap => .modSupplyCap

def of? : AccountData → Option Rule
  | .countryRestrictModule _ => some countryRestrict
  | .investorCountryCapModule _ => some countryCap
  | .maxBalanceModule _ => some maxBalance
  | .maxTransferModule _ => some maxTransfer
  | .lockupModule _ => some lockup
  | .maxInvestorsModule _ => some maxInvestors
  | .dailyTransferLimitModule _ => some dailyLimit
  | .supplyCapModule _ => some supplyCap
  | _ => none

def all : List Rule :=
  [countryRestrict, countryCap, maxBalance, maxTransfer, lockup, maxInvestors, dailyLimit,
    supplyCap]

theorem mem_all (rule : Rule) : rule ∈ all := by
  cases rule <;> decide

theorem key_injective {rule rule' : Rule} (h : rule.key = rule'.key) : rule = rule' := by
  cases rule <;> cases rule' <;> first | rfl | exact absurd h (by decide)

end Rule

def ModuleProgramIds.of (ids : ModuleProgramIds) : Rule → String
  | .countryRestrict => ids.countryRestrict
  | .countryCap => ids.countryCap
  | .maxBalance => ids.maxBalance
  | .maxTransfer => ids.maxTransfer
  | .lockup => ids.lockup
  | .maxInvestors => ids.maxInvestors
  | .dailyLimit => ids.dailyLimit
  | .supplyCap => ids.supplyCap

def countryCapText (entry : CountryCapEntry) : String := s!"{entry.country}:{entry.cap}"

/-- The text that is indexed for a module. -/
def indexedText (decimals : ℕ) : AccountData → Option String
  | .countryRestrictModule m =>
      if m.allowedCountries.length > 0 then some (join (m.allowedCountries.map toString)) else none
  | .investorCountryCapModule m =>
      if m.countryCaps.length > 0 then some (join (m.countryCaps.map countryCapText)) else none
  | .maxBalanceModule m => some (formatBaseUnits m.maxBalance decimals)
  | .maxTransferModule m => some (formatBaseUnits m.maxAmount decimals)
  | .lockupModule m => some (toString m.lockupEnd)
  | .maxInvestorsModule m => some (toString m.maxInvestors)
  | .dailyTransferLimitModule m => some (formatBaseUnits m.dailyLimit decimals)
  | .supplyCapModule m => some (formatBaseUnits m.maxSupply decimals)
  | _ => none

/-! ## Accounts as bytes -/

/-- A discriminator, the keys of the account, its body and what the space is filled with. -/
def Image (addr : Pubkey → Key) (keys : List Pubkey) (body bytes : List UInt8) : Prop :=
  ∃ discriminator rest, discriminator.length = 8 ∧
    bytes = discriminator ++ (keys.flatMap fun k ↦ (addr k).toList) ++ (body ++ rest)

def CountryCapEntry.bytes (entry : CountryCapEntry) : List UInt8 :=
  toLE 2 entry.country ++ toLE 8 entry.cap

/-- The bytes are those of the module. -/
def Serialized (addr : Pubkey → Key) (data : AccountData) (bytes : List UInt8) : Prop :=
  match data with
  | .countryRestrictModule m => m.allowedCountries.length < 2 ^ 32 ∧
      (∀ country ∈ m.allowedCountries, country < 2 ^ 16) ∧
        Image addr [m.owner, m.tokenMint]
          (toLE 4 m.allowedCountries.length ++ m.allowedCountries.flatMap (toLE 2)) bytes
  | .investorCountryCapModule m => m.countryCaps.length < 2 ^ 32 ∧
      (∀ entry ∈ m.countryCaps, entry.country < 2 ^ 16 ∧ entry.cap < 2 ^ 64) ∧
        Image addr [m.owner, m.tokenMint, m.hookAuthority]
          (toLE 4 m.countryCaps.length ++ m.countryCaps.flatMap CountryCapEntry.bytes) bytes
  | .maxBalanceModule m => m.maxBalance < 2 ^ 64 ∧
      Image addr [m.owner, m.tokenMint] (toLE 8 m.maxBalance) bytes
  | .maxTransferModule m => m.maxAmount < 2 ^ 64 ∧
      Image addr [m.owner, m.tokenMint] (toLE 8 m.maxAmount) bytes
  | .lockupModule m => -2 ^ 63 ≤ m.lockupEnd ∧ m.lockupEnd < 2 ^ 63 ∧
      Image addr [m.owner, m.tokenMint] (toLE 8 (BitVec.ofInt 64 m.lockupEnd).toNat) bytes
  | .maxInvestorsModule m => m.maxInvestors < 2 ^ 64 ∧
      Image addr [m.owner, m.tokenMint, m.hookAuthority]
        (toLE 8 m.maxInvestors ++ toLE 8 m.holderCount) bytes
  | .dailyTransferLimitModule m => m.dailyLimit < 2 ^ 64 ∧
      Image addr [m.owner, m.tokenMint, m.hookAuthority] (toLE 8 m.dailyLimit) bytes
  | .supplyCapModule m => m.maxSupply < 2 ^ 64 ∧
      Image addr [m.owner, m.tokenMint, m.hookAuthority]
        (toLE 8 m.maxSupply ++ toLE 8 m.totalSupply) bytes
  | _ => True

/-! ## Reading -/

section Reading

variable {before after : List UInt8} {offset w n : ℕ}

theorem readUInt_append (hoffset : before.length = offset) (hn : n < 256 ^ w) :
    readUInt w (before ++ (toLE w n ++ after)) offset = n := by
  have hwindow := window_append before (toLE w n) after
  rw [length_toLE, hoffset] at hwindow
  rw [readUInt, hwindow, ofLE_toLE_of_lt hn]

theorem readPubkey_append (key : Key) :
    readPubkey (before ++ (key.toList ++ after)) before.length = key.toList := by
  have hwindow := window_append before key.toList after
  rw [Vector.length_toList] at hwindow
  rw [readPubkey, hwindow, Decoders.publicKey, Vector.length_toList]
  rfl

variable {α β : Type*} {read : List UInt8 → ℕ → α} {encode : β → List UInt8} {f : β → α}

theorem readFitting_append {items : List β} (hoffset : before.length = offset)
    (hwidth : ∀ b ∈ items, (encode b).length = w)
    (hread : ∀ b ∈ items, ∀ before after : List UInt8,
      read (before ++ (encode b ++ after)) before.length = f b) :
    readFitting w read (before ++ (items.flatMap encode ++ after)) items.length offset =
      items.map f := by
  induction items generalizing before offset with
  | nil => rfl
  | cons b items ih =>
      subst hoffset
      have hhead := hwidth b List.mem_cons_self
      have hsplit : before ++ ((b :: items).flatMap encode ++ after) =
          before ++ (encode b ++ (items.flatMap encode ++ after)) := by
        simp [List.flatMap_cons]
      have hshift : before ++ (encode b ++ (items.flatMap encode ++ after)) =
          (before ++ encode b) ++ (items.flatMap encode ++ after) := by
        rw [List.append_assoc]
      rw [List.length_cons, readFitting, if_neg (by simp [hhead]), hsplit,
        hread b List.mem_cons_self, hshift, ih (by simp [hhead])
          (fun c hc ↦ hwidth c (List.mem_cons_of_mem b hc))
          (fun c hc ↦ hread c (List.mem_cons_of_mem b hc)), List.map_cons]

theorem readVector_append {items : List β} (hoffset : before.length = offset)
    (hlength : items.length < 2 ^ 32) (hwidth : ∀ b ∈ items, (encode b).length = w)
    (hread : ∀ b ∈ items, ∀ before after : List UInt8,
      read (before ++ (encode b ++ after)) before.length = f b) :
    readVector w read (before ++ ((toLE 4 items.length ++ items.flatMap encode) ++ after)) offset =
      items.map f := by
  have hcount : readUInt32LE (before ++ ((toLE 4 items.length ++ items.flatMap encode) ++ after))
      offset = items.length := by
    rw [List.append_assoc (toLE 4 _)]
    exact readUInt_append hoffset hlength
  have hshift : before ++ ((toLE 4 items.length ++ items.flatMap encode) ++ after) =
      (before ++ toLE 4 items.length) ++ (items.flatMap encode ++ after) := by
    simp
  rw [readVector, if_neg (by simp [hoffset]), hcount, hshift]
  exact readFitting_append (by simp [hoffset]) hwidth hread

end Reading

/-! ## The parameter of a module -/

section Parameters

variable {addr : Pubkey → Key} {keys : List Pubkey} {body bytes : List UInt8}

theorem Image.parts (h : Image addr keys body bytes) : ∃ before rest : List UInt8,
    before.length = 8 + 32 * keys.length ∧ bytes = before ++ (body ++ rest) := by
  obtain ⟨discriminator, rest, hlength, rfl⟩ := h
  refine ⟨discriminator ++ keys.flatMap fun k ↦ (addr k).toList, rest, ?_, rfl⟩
  have hkeys : (keys.flatMap fun k ↦ (addr k).toList).length = keys.length * 32 :=
    length_items (fun k ↦ Vector.length_toList) keys
  rw [List.length_append, hlength, hkeys, Nat.mul_comm]

/-- An amount behind the keys is read, and the account is long enough for it. -/
theorem Image.amount {n offset : ℕ} {rest : List UInt8}
    (h : Image addr keys (toLE 8 n ++ rest) bytes)
    (hn : n < 2 ^ 64) (hoffset : offset = 8 + 32 * keys.length) :
    readBigUInt64LE bytes offset = n ∧ bytes.length ≥ offset + 8 := by
  obtain ⟨before, after, hlength, rfl⟩ := h.parts
  rw [← hoffset] at hlength
  constructor
  · rw [List.append_assoc]
    exact readUInt_append hlength hn
  · simp only [List.length_append, length_toLE, hlength]
    omega

theorem readU16Vector_image {countries : List ℕ} {offset : ℕ}
    (h : Image addr keys (toLE 4 countries.length ++ countries.flatMap (toLE 2)) bytes)
    (hlength : countries.length < 2 ^ 32) (hfits : ∀ country ∈ countries, country < 2 ^ 16)
    (hoffset : offset = 8 + 32 * keys.length) : readU16Vector bytes offset = countries := by
  obtain ⟨before, after, hbefore, rfl⟩ := h.parts
  rw [readU16Vector, readVector_append (f := id) (hbefore.trans hoffset.symm) hlength
    (fun country _ ↦ length_toLE 2 country), List.map_id]
  intro country hcountry before after
  exact readUInt_append rfl (hfits country hcountry)

theorem length_countryCap (entry : CountryCapEntry) :
    (CountryCapEntry.bytes entry).length = 10 := by
  rw [CountryCapEntry.bytes, List.length_append, length_toLE, length_toLE]

theorem readCountryCapVector_image {caps : List CountryCapEntry} {offset : ℕ}
    (h : Image addr keys (toLE 4 caps.length ++ caps.flatMap CountryCapEntry.bytes) bytes)
    (hlength : caps.length < 2 ^ 32)
    (hfits : ∀ entry ∈ caps, entry.country < 2 ^ 16 ∧ entry.cap < 2 ^ 64)
    (hoffset : offset = 8 + 32 * keys.length) :
    readCountryCapVector bytes offset = caps.map countryCapText := by
  obtain ⟨before, after, hbefore, rfl⟩ := h.parts
  rw [readCountryCapVector, readVector_append (f := countryCapText) (hbefore.trans hoffset.symm)
    hlength fun entry _ ↦ length_countryCap entry]
  intro entry hentry before after
  obtain ⟨hcountry, hcap⟩ := hfits entry hentry
  have hread : readUInt16LE (before ++ (CountryCapEntry.bytes entry ++ after)) before.length =
      entry.country := by
    rw [CountryCapEntry.bytes, List.append_assoc]
    exact readUInt_append rfl hcountry
  have hshift : before ++ (CountryCapEntry.bytes entry ++ after) =
      (before ++ toLE 2 entry.country) ++ (toLE 8 entry.cap ++ after) := by
    simp [CountryCapEntry.bytes]
  have hreadCap : readBigUInt64LE (before ++ (CountryCapEntry.bytes entry ++ after))
      (before.length + 2) = entry.cap := by
    rw [hshift]
    exact readUInt_append (by simp) hcap
  rw [hread, hreadCap, countryCapText]

theorem ofInt_toInt {z : ℤ} (hlow : -2 ^ 63 ≤ z) (hhigh : z < 2 ^ 63) :
    (BitVec.ofNat 64 (BitVec.ofInt 64 z).toNat).toInt = z := by
  rw [BitVec.ofNat_toNat, BitVec.setWidth_eq, BitVec.toInt_ofInt, Int.bmod_eq_of_le] <;> omega

variable {ids : ModuleProgramIds} {data : AccountData} {rule : Rule} {owner : List UInt8}

/-- The text of the parameter at its place in the account. -/
def readText (decimals : ℕ) (data : List UInt8) : Rule → Option String
  | .countryRestrict =>
      let countries := readU16Vector data 72
      if countries.length > 0 then some (join (countries.map toString)) else none
  | .countryCap =>
      let caps := readCountryCapVector data 104
      if caps.length > 0 then some (join caps) else none
  | .maxBalance | .maxTransfer =>
      if data.length ≥ 80 then some (formatBaseUnits (readBigUInt64LE data 72) decimals) else none
  | .lockup => if data.length ≥ 80 then some (toString (readBigInt64LE data 72)) else none
  | .maxInvestors => if data.length ≥ 112 then some (toString (readBigUInt64LE data 104)) else none
  | .dailyLimit | .supplyCap =>
      if data.length ≥ 112 then some (formatBaseUnits (readBigUInt64LE data 104) decimals) else none

/-- The program decides which parameter is read. -/
theorem parse_of_program (hids : Function.Injective ids.of) (howner : toBase58 owner = ids.of rule)
    (decimals : ℕ) : parseComplianceModuleParams ids ⟨owner, bytes⟩ decimals =
      (readText decimals bytes rule).map fun text ↦ [(rule.key, text)] := by
  have hprogram : ∀ rule' : Rule, toBase58 owner = ids.of rule' ↔ rule = rule' := by
    intro rule'
    rw [howner]
    exact hids.eq_iff
  have hcountryRestrict : toBase58 owner = ids.countryRestrict ↔ rule = .countryRestrict :=
    hprogram .countryRestrict
  have hcountryCap : toBase58 owner = ids.countryCap ↔ rule = .countryCap := hprogram .countryCap
  have hmaxBalance : toBase58 owner = ids.maxBalance ↔ rule = .maxBalance := hprogram .maxBalance
  have hmaxTransfer : toBase58 owner = ids.maxTransfer ↔ rule = .maxTransfer :=
    hprogram .maxTransfer
  have hlockup : toBase58 owner = ids.lockup ↔ rule = .lockup := hprogram .lockup
  have hmaxInvestors : toBase58 owner = ids.maxInvestors ↔ rule = .maxInvestors :=
    hprogram .maxInvestors
  have hdailyLimit : toBase58 owner = ids.dailyLimit ↔ rule = .dailyLimit := hprogram .dailyLimit
  have hsupplyCap : toBase58 owner = ids.supplyCap ↔ rule = .supplyCap := hprogram .supplyCap
  simp only [parseComplianceModuleParams, hcountryRestrict, hcountryCap, hmaxBalance, hmaxTransfer,
    hlockup, hmaxInvestors, hdailyLimit, hsupplyCap]
  cases rule <;> simp only [reduceCtorEq, if_true, if_false, true_and, false_and, readText,
    Rule.key] <;> split <;> rfl

theorem Image.append_nil (h : Image addr keys body bytes) : Image addr keys (body ++ []) bytes := by
  rw [List.append_nil]
  exact h

theorem Image.readText {n offset : ℕ} {rest : List UInt8} (text : ℕ → String)
    (h : Image addr keys (toLE 8 n ++ rest) bytes) (hn : n < 2 ^ 64)
    (hoffset : offset = 8 + 32 * keys.length) :
    (if bytes.length ≥ offset + 8 then some (text (readBigUInt64LE bytes offset)) else none) =
      some (text n) := by
  obtain ⟨hread, hlength⟩ := h.amount hn hoffset
  rw [if_pos hlength, hread]

/-- The indexer knows a module by its program, and reads its parameter off the bytes. -/
theorem parse_serialized (hids : Function.Injective ids.of) (hrule : Rule.of? data = some rule)
    (howner : toBase58 owner = ids.of rule) (h : Serialized addr data bytes) (decimals : ℕ) :
    parseComplianceModuleParams ids ⟨owner, bytes⟩ decimals =
      (indexedText decimals data).map fun text ↦ [(rule.key, text)] := by
  rw [parse_of_program hids howner]
  refine congrArg (Option.map _) ?_
  cases data <;> cases hrule
  case countryRestrictModule m =>
    obtain ⟨hlength, hfits, himage⟩ := h
    have hread : readU16Vector bytes 72 = m.allowedCountries :=
      readU16Vector_image himage hlength hfits rfl
    rw [Indexer.readText, hread]
    rfl
  case investorCountryCapModule m =>
    obtain ⟨hlength, hfits, himage⟩ := h
    have hread : readCountryCapVector bytes 104 = m.countryCaps.map countryCapText :=
      readCountryCapVector_image himage hlength hfits rfl
    rw [Indexer.readText, hread, List.length_map]
    rfl
  case maxBalanceModule m =>
    obtain ⟨hfits, himage⟩ := h
    exact Image.readText (formatBaseUnits · decimals) himage.append_nil hfits rfl
  case maxTransferModule m =>
    obtain ⟨hfits, himage⟩ := h
    exact Image.readText (formatBaseUnits · decimals) himage.append_nil hfits rfl
  case lockupModule m =>
    obtain ⟨hlow, hhigh, himage⟩ := h
    have hread := Image.readText (fun n ↦ toString (BitVec.ofNat 64 n).toInt) himage.append_nil
      (BitVec.isLt _) rfl
    rw [ofInt_toInt hlow hhigh] at hread
    exact hread
  case maxInvestorsModule m =>
    obtain ⟨hfits, himage⟩ := h
    exact Image.readText toString himage hfits rfl
  case dailyTransferLimitModule m =>
    obtain ⟨hfits, himage⟩ := h
    exact Image.readText (formatBaseUnits · decimals) himage.append_nil hfits rfl
  case supplyCapModule m =>
    obtain ⟨hfits, himage⟩ := h
    exact Image.readText (formatBaseUnits · decimals) himage hfits rfl

end Parameters

/-! ## The parameters of a deployment -/

section Deployment

variable {config : Config} {chain : Chain} {addr : Pubkey → Key} {L : Ledger}
  {modules : List Pubkey} {M : Pubkey} {decimals : ℕ} {entry : String × ModuleParams}

/-- The chain answers for the account of a module with its program and its bytes. -/
structure ModuleAnswered (config : Config) (chain : Chain) (addr : Pubkey → Key) (L : Ledger)
    (M : Pubkey) (rule : Rule) : Prop where
  known : Rule.of? (L.accounts M).data = some rule
  program : toBase58 (addr (L.accounts M).owner).toList = config.moduleIds.of rule
  answer : ∃ bytes, chain.getAccountInfo (addr M).toList =
      some ⟨(addr (L.accounts M).owner).toList, bytes⟩ ∧ Serialized addr (L.accounts M).data bytes

/-- What is recorded for a module. -/
def RecordedFor (config : Config) (L : Ledger) (decimals : ℕ) (M : Pubkey)
    (entry : String × ModuleParams) : Prop :=
  ∃ rule text, Rule.of? (L.accounts M).data = some rule ∧
    indexedText decimals (L.accounts M).data = some text ∧
    entry = (config.moduleIds.of rule, [(rule.key, text)])

/-- No other of the modules has the same rule. -/
def OnlyOfItsRule (L : Ledger) (modules : List Pubkey) (M : Pubkey) : Prop :=
  ∀ M' ∈ modules, Rule.of? (L.accounts M').data = Rule.of? (L.accounts M).data → M' = M

theorem readModule_answered {rule : Rule} (hids : Function.Injective config.moduleIds.of)
    (h : ModuleAnswered config chain addr L M rule) :
    readModule config chain decimals (addr M).toList =
      (indexedText decimals (L.accounts M).data).map fun text ↦
        (config.moduleIds.of rule, [(rule.key, text)]) := by
  obtain ⟨bytes, hanswer, hbytes⟩ := h.answer
  have hparse := parse_serialized hids h.known h.program hbytes decimals
  rw [readModule, hanswer]
  simp only [Option.bind_eq_bind, Option.bind_some, hparse, h.program]
  cases indexedText decimals (L.accounts M).data <;> rfl

/-- A module adds its own entry, in the place of one of the same program. -/
theorem mem_addModule_iff {rule : Rule} {metadata : ComplianceMetadata}
    (hids : Function.Injective config.moduleIds.of)
    (h : ModuleAnswered config chain addr L M rule) :
    entry ∈ (addModule config chain decimals metadata (addr M).toList).complianceModuleParams ↔
      RecordedFor config L decimals M entry ∨ entry ∈ metadata.complianceModuleParams ∧
        (indexedText decimals (L.accounts M).data = none ∨ entry.1 ≠ config.moduleIds.of rule) := by
  rw [addModule, readModule_answered hids h, RecordedFor, h.known]
  cases indexedText decimals (L.accounts M).data with
  | none => simp
  | some text =>
      simp only [Option.map_some, Record.mem_set]
      simp

variable (hids : Function.Injective config.moduleIds.of)
  (hanswered : ∀ M ∈ modules, ∃ rule, ModuleAnswered config chain addr L M rule)

include hids hanswered

theorem recorded_of_mem (h : entry ∈ (modules.foldl (fun metadata M ↦
    addModule config chain decimals metadata (addr M).toList) ⟨[], []⟩).complianceModuleParams) :
    ∃ M ∈ modules, RecordedFor config L decimals M entry := by
  induction modules using List.reverseRecOn with
  | nil => cases h
  | append_singleton modules M ih =>
      obtain ⟨rule, hM⟩ := hanswered M (by simp)
      rw [List.foldl_concat, mem_addModule_iff hids hM] at h
      rcases h with h | ⟨h, -⟩
      · exact ⟨M, by simp, h⟩
      · have hrest := ih (fun M' hM' ↦ hanswered M' (by simp [hM'])) h
        obtain ⟨M', hM', hrecorded⟩ := hrest
        exact ⟨M', by simp [hM'], hrecorded⟩

/-- The parameter of a module stays if no other module of its rule is bound. -/
theorem mem_of_recorded (hmem : M ∈ modules) (honly : OnlyOfItsRule L modules M)
    (h : RecordedFor config L decimals M entry) :
    entry ∈ (modules.foldl (fun metadata M ↦
      addModule config chain decimals metadata (addr M).toList)
        ⟨[], []⟩).complianceModuleParams := by
  induction modules using List.reverseRecOn with
  | nil => cases hmem
  | append_singleton modules M' ih =>
      obtain ⟨rule', hM'⟩ := hanswered M' (by simp)
      rw [List.foldl_concat, mem_addModule_iff hids hM']
      by_cases hsame : M' = M
      · exact .inl (hsame ▸ h)
      · have hrest : M ∈ modules := by
          rcases List.mem_append.1 hmem with hmem | hmem
          · exact hmem
          · exact absurd (List.mem_singleton.1 hmem).symm hsame
        refine .inr ⟨ih (fun N hN ↦ hanswered N (by simp [hN])) hrest
          fun N hN ↦ honly N (by simp [hN]), .inr ?_⟩
        obtain ⟨rule, text, hrule, -, rfl⟩ := h
        intro hkey
        have hrules : rule = rule' := hids hkey
        exact hsame (honly M' (by simp) (by rw [hM'.known, hrule, hrules]))

end Deployment

end Fracks.Indexer
