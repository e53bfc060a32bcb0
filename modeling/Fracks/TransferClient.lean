import Fracks.Lib.FirstSeen
import Fracks.MetaCoverage

/-!
# The accounts that the client supplies

The frontend builds the instruction of a transfer: after the four accounts of
the transfer itself it appends what it expects the hook to ask for, and drops
repeated keys.  It reads the modules from the chain but derives their support
accounts on its own.
-/

namespace Fracks.TransferService

open Checked AccountType Ledger Token TokenHook Runs FirstSeen

/-- An account of an instruction. -/
structure AccountMeta where
  pubkey : Pubkey
  isSigner : Bool
  isWritable : Bool
  deriving DecidableEq

/-- The configured programs that the builder needs. -/
structure TransferProgramIds where
  token : Pubkey
  compliance : Pubkey

def modulePrograms : List ProgramName :=
  [.modMaxInvestors, .modCountryRestrict, .modMaxBalance, .modMaxTransfer, .modLockup,
    .modDailyLimit, .modSupplyCap, .modCountryCap]

def moduleProgramIds : List Pubkey := modulePrograms.map .program

/-- What the node answers for an address: nothing when there is no account. -/
def getAccountInfo (L : Ledger) (k : Pubkey) : Option Account :=
  if L.accounts k = .vacant ∧ L.lamports k = 0 then none else some (L.accounts k)

def appendModuleProgramAccount (accounts : List AccountMeta) (moduleProgramId : Pubkey) :
    List AccountMeta :=
  if moduleProgramId ∈ moduleProgramIds then accounts ++ [⟨moduleProgramId, false, false⟩]
  else accounts

/-- The accounts for one module; a module that does not exist is skipped. -/
def appendModule (L : Ledger) (fromWallet : Pubkey) (fromCountry toCountry : Option ℕ)
    (appended : List AccountMeta) (moduleAccount : Pubkey) : List AccountMeta :=
  match getAccountInfo L moduleAccount with
  | none => appended
  | some info =>
      let appended := appended ++ [⟨moduleAccount, false, true⟩]
      let appended := appendModuleProgramAccount appended info.owner
      let appended :=
        if info.owner = .program .modDailyLimit then
          appended ++ [⟨ModDailyLimit.usageAddress moduleAccount fromWallet
            (.program .modDailyLimit), false, true⟩]
        else appended
      if info.owner = .program .modCountryCap then
        appended ++ [fromCountry, toCountry].filterMap fun country ↦ country.map fun country ↦
          ⟨ModCountryCap.countAddress moduleAccount country (.program .modCountryCap), false, true⟩
      else appended

/-- The accounts of the transfer instruction with those for its hook. -/
def appendTransferHookAccounts (L : Ledger) (keys : List AccountMeta)
    (extraAccountMetas tokenState transferApproval complianceState fromWallet : Pubkey)
    (fromCountry toCountry : Option ℕ) (ids : TransferProgramIds) : Option (List AccountMeta) := do
  let compliance ← decode (α := ComplianceState) (L.accounts complianceState).data
  let appended : List AccountMeta :=
    [⟨extraAccountMetas, false, false⟩, ⟨ids.token, false, false⟩, ⟨tokenState, false, false⟩,
      ⟨transferApproval, false, true⟩, ⟨complianceState, false, false⟩,
      ⟨ids.compliance, false, false⟩]
  let appended :=
    compliance.modules.foldl (appendModule L fromWallet fromCountry toCountry) appended
  let appended := appended ++ [⟨hookProgram, false, false⟩]
  let baseKeys := keys.take 4
  let hookKeys := keepFirst AccountMeta.pubkey (baseKeys.map AccountMeta.pubkey) appended
  some (baseKeys ++ hookKeys)

/-! ## The accounts of one module -/

/-- A module that its program has set up at a derived address. -/
structure SuiteModule (L : Ledger) (k : Pubkey) : Prop where
  module : IsModule L k
  derived : k.derivedFrom = some (L.accounts k).owner

def entryWritable : ExtraAccountMeta → Bool
  | .fixed _ w | .ownPda _ w | .externalPda _ _ w | .pubkeyData _ _ w => w

/-- The key is among the accounts, writable if the stored entry says so. -/
def Supplies (accounts : List AccountMeta) (entry : ExtraAccountMeta) (key : Pubkey) : Prop :=
  ∃ m ∈ accounts, m.pubkey = key ∧ (entryWritable entry = true → m.isWritable = true)

section Modules

variable {L L' : Ledger} {k fromWallet : Pubkey} {fromCountry toCountry : Option ℕ}
  {appended accounts : List AccountMeta} {modules : List Pubkey} {a : TransferApproval}
  {place index : ℕ}

theorem appendModule_eq :
    appendModule L fromWallet fromCountry toCountry appended k =
      appended ++ appendModule L fromWallet fromCountry toCountry [] k := by
  unfold appendModule appendModuleProgramAccount
  split
  · simp
  · split_ifs <;> simp

theorem foldl_appendModule :
    modules.foldl (appendModule L fromWallet fromCountry toCountry) appended =
      appended ++ modules.flatMap (appendModule L fromWallet fromCountry toCountry []) := by
  induction modules generalizing appended with
  | nil => simp
  | cons k ks ih =>
      rw [List.foldl_cons, ih, appendModule_eq, List.flatMap_cons, List.append_assoc]

theorem isModule_owner_kind (h : IsModule L k) :
    (L.accounts k).kind ∈ moduleKinds ∧
      (L.accounts k).owner = .program (L.accounts k).kind.program ∧
      routedBy L k = routedKind (L.accounts k).kind := by
  have hkind := kind_of_isModule h
  refine ⟨h, ?_, ?_⟩
  · rw [hkind]
    exact (isModule_owner h).2
  · rw [routedBy, hkind]

/-- What is appended for a module that is there. -/
theorem appendModule_of_isModule (h : IsModule L k) :
    appendModule L fromWallet fromCountry toCountry [] k =
      [⟨k, false, true⟩, ⟨.program (L.accounts k).kind.program, false, false⟩] ++
      (if (L.accounts k).kind = .dailyTransferLimitModule then
        [⟨ModDailyLimit.usageAddress k fromWallet (.program .modDailyLimit), false, true⟩]
        else []) ++
      (if (L.accounts k).kind = .investorCountryCapModule then
        [fromCountry, toCountry].filterMap fun country ↦ country.map fun country ↦
          ⟨ModCountryCap.countAddress k country (.program .modCountryCap), false, true⟩
        else []) := by
  obtain ⟨hkind, howner, -⟩ := isModule_owner_kind h
  have hthere : L.accounts k ≠ .vacant := by
    intro hvacant
    rw [hvacant] at hkind
    exact absurd hkind (by decide)
  rw [appendModule, getAccountInfo, if_neg fun hgone ↦ hthere hgone.1]
  simp only [howner, appendModuleProgramAccount]
  generalize (L.accounts k).kind = K at hkind
  simp only [moduleKinds, List.mem_cons, List.not_mem_nil, or_false] at hkind
  rcases hkind with rfl | rfl | rfl | rfl | rfl | rfl | rfl | rfl <;>
    simp [AccountKind.program, moduleProgramIds, modulePrograms]

/-- The client supplies what the entries of a module resolve to. -/
theorem supplies_module (h : IsModule L k) :
    List.Forall₂
      (Supplies (appendModule L a.sourceWallet (some a.fromCountry) (some a.toCountry) [] k))
      (moduleEntries L place index k) (k :: supportAccounts L a k) := by
  obtain ⟨hkind, -, hrouted⟩ := isModule_owner_kind h
  rw [appendModule_of_isModule h, moduleEntries, supportAccounts_eq, hrouted]
  generalize (L.accounts k).kind = K at hkind
  simp only [moduleKinds, List.mem_cons, List.not_mem_nil, or_false] at hkind
  rcases hkind with rfl | rfl | rfl | rfl | rfl | rfl | rfl | rfl <;>
    simp [Supplies, entryWritable, routedKind, AccountKind.program]

theorem Supplies.mono {entry : ExtraAccountMeta} {key : Pubkey} (h : Supplies accounts entry key)
    (hsub : ∀ m ∈ accounts, m ∈ appended) : Supplies appended entry key := by
  obtain ⟨m, hm, hkey, hflag⟩ := h
  exact ⟨m, hsub m hm, hkey, hflag⟩

/-- The client supplies what the entries of stored modules resolve to. -/
theorem supplies_modules (hmodules : ∀ k ∈ modules, IsModule L k)
    (haccounts : ∀ k ∈ modules, ∀ m ∈ appendModule L a.sourceWallet (some a.fromCountry)
      (some a.toCountry) [] k, m ∈ accounts) :
    List.Forall₂ (Supplies accounts) (listEntries L place index modules)
      (moduleAccounts L a modules) := by
  induction modules generalizing place index with
  | nil => exact .nil
  | cons k ks ih =>
      obtain ⟨hk, hks⟩ := List.forall_mem_cons.1 hmodules
      obtain ⟨hin, hins⟩ := List.forall_mem_cons.1 haccounts
      rw [listEntries, moduleAccounts, List.flatMap_cons]
      refine List.rel_append ?_ (ih hks hins)
      exact (supplies_module hk).imp fun entry key h ↦ h.mono hin

/-! ## Repeated keys -/

/-- The keys of the accounts that a transfer writes for its hook. -/
def WrittenKey (transferApproval key : Pubkey) : Prop :=
  key = transferApproval ∨ ∃ name ∈ modulePrograms, key.derivedFrom = some (.program name)

/-- The flag of an account is a matter of its key. -/
def FlagsByKey (transferApproval : Pubkey) (accounts : List AccountMeta) : Prop :=
  ∀ m ∈ accounts, m.isWritable = true ↔ WrittenKey transferApproval m.pubkey

theorem program_mem_modulePrograms {K : AccountKind} (hK : K ∈ moduleKinds) :
    K.program ∈ modulePrograms := by
  revert K
  decide

theorem flags_appendModule {source destination authority : Pubkey} (h : SuiteModule L k) :
    FlagsByKey (approvalAddress source destination authority)
      (appendModule L fromWallet fromCountry toCountry [] k) := by
  obtain ⟨hkind, howner, -⟩ := isModule_owner_kind h.module
  have hprogram := program_mem_modulePrograms hkind
  have hderived := h.derived
  rw [howner] at hderived
  rw [appendModule_of_isModule h.module]
  intro m hm
  simp only [List.mem_append, List.mem_cons, List.not_mem_nil, or_false] at hm
  rcases hm with ((rfl | rfl) | husage) | hcount
  · exact iff_of_true rfl (.inr ⟨_, hprogram, hderived⟩)
  · refine iff_of_false Bool.false_ne_true ?_
    rintro (hkey | ⟨name, -, hname⟩)
    · exact absurd hkey (by simp [approvalAddress, Pubkey.findProgramAddress, Pubkey.addSeed])
    · cases hname
  · split at husage
    · obtain rfl := List.mem_singleton.1 husage
      exact iff_of_true rfl (.inr ⟨.modDailyLimit, by decide,
        Pubkey.derivedFrom_findProgramAddress ..⟩)
    · cases husage
  · split at hcount
    · obtain ⟨country, -, hcountry⟩ := List.mem_filterMap.1 hcount
      obtain ⟨c, -, rfl⟩ := Option.map_eq_some_iff.1 hcountry
      exact iff_of_true rfl (.inr ⟨.modCountryCap, by decide,
        Pubkey.derivedFrom_findProgramAddress ..⟩)
    · cases hcount

end Modules

/-! ## The whole list -/

def suiteIds : TransferProgramIds where
  token := .program .fracksToken
  compliance := .program .fracksCompliance

/-- What is appended before repeated keys are dropped. -/
def appendedAccounts (L : Ledger) (modules : List Pubkey)
    (mint source destination authority complianceState : Pubkey) (a : TransferApproval) :
    List AccountMeta :=
  [⟨extraAccountMetasAddress mint hookProgram, false, false⟩, ⟨.program .fracksToken, false, false⟩,
    ⟨tokenStateAddress mint, false, false⟩,
    ⟨approvalAddress source destination authority, false, true⟩,
    ⟨complianceState, false, false⟩, ⟨.program .fracksCompliance, false, false⟩] ++
  modules.flatMap (appendModule L a.sourceWallet (some a.fromCountry) (some a.toCountry) []) ++
  [⟨hookProgram, false, false⟩]

section Client

variable {L L' L'' L₀ : Ledger} {mint source destination authority tokenMint : Pubkey}
  {a : TransferApproval} {modules : List Pubkey} {keys : List AccountMeta}
  {state : ComplianceState}

theorem appendTransferHookAccounts_eq (mint source destination authority : Pubkey)
    (a : TransferApproval) {complianceState : Pubkey}
    (hstate : L.accounts complianceState = account state) (hkeys : keys.length = 4) :
    appendTransferHookAccounts L keys (extraAccountMetasAddress mint hookProgram)
        (tokenStateAddress mint) (approvalAddress source destination authority) complianceState
        a.sourceWallet (some a.fromCountry) (some a.toCountry) suiteIds =
      some (keys ++ keepFirst AccountMeta.pubkey (keys.map AccountMeta.pubkey)
        (appendedAccounts L state.modules mint source destination authority complianceState
          a)) := by
  have hdecode : decode (α := ComplianceState) (L.accounts complianceState).data = some state := by
    rw [decode_eq_some, hstate, account_data]
  have htake : keys.take 4 = keys := by rw [← hkeys, List.take_length]
  simp only [appendTransferHookAccounts, hdecode, htake, foldl_appendModule]
  rfl

theorem flags_appended (hmodules : ∀ k ∈ modules, SuiteModule L k) :
    FlagsByKey (approvalAddress source destination authority)
      (appendedAccounts L modules mint source destination authority
        (Compliance.complianceAddress tokenMint) a) := by
  intro m hm
  simp only [appendedAccounts, List.mem_append, List.mem_cons, List.not_mem_nil, or_false] at hm
  rcases hm with ((rfl | rfl | rfl | rfl | rfl | rfl) | hm) | rfl
  case inl.inr =>
    obtain ⟨k, hk, hm⟩ := List.mem_flatMap.1 hm
    exact flags_appendModule (hmodules k hk) m hm
  case inl.inl.inr.inr.inr.inl => exact iff_of_true rfl (.inl rfl)
  all_goals
    refine iff_of_false Bool.false_ne_true ?_
    rintro (hkey | ⟨name, hname, hderived⟩)
    · simp [extraAccountMetasAddress, approvalAddress, tokenStateAddress, hookProgram,
        Compliance.complianceAddress, Pubkey.findProgramAddress, Pubkey.addSeed] at hkey
    · simp only [extraAccountMetasAddress, tokenStateAddress, hookProgram, controllerProgram,
        Compliance.complianceAddress, Pubkey.derivedFrom_findProgramAddress, Pubkey.derivedFrom,
        Option.some.injEq, Pubkey.program.injEq, reduceCtorEq] at hderived
      try
        subst hderived
        exact absurd hname (by decide)

/-- None of the appended keys can sign, so none is among the accounts of the
transfer itself. -/
theorem appended_not_external (hmodules : ∀ k ∈ modules, SuiteModule L k) :
    ∀ m ∈ appendedAccounts L modules mint source destination authority
      (Compliance.complianceAddress tokenMint) a, ¬ m.pubkey.External := by
  have hwritten : ∀ key, WrittenKey (approvalAddress source destination authority) key →
      ¬ key.External := by
    rintro key (rfl | ⟨name, -, hderived⟩)
    · exact Pubkey.not_external_findProgramAddress _ _ _
    · exact Pubkey.not_external_of_derivedFrom hderived
  intro m hm
  by_cases hflag : m.isWritable = true
  · exact hwritten _ ((flags_appended hmodules m hm).1 hflag)
  · simp only [appendedAccounts, List.mem_append, List.mem_cons, List.not_mem_nil, or_false] at hm
    rcases hm with ((rfl | rfl | rfl | rfl | rfl | rfl) | hm) | rfl
    case inl.inr =>
      obtain ⟨k, hk, hm⟩ := List.mem_flatMap.1 hm
      rw [appendModule_of_isModule (hmodules k hk).module] at hm
      simp only [List.mem_append, List.mem_cons, List.not_mem_nil, or_false] at hm
      rcases hm with ((rfl | rfl) | husage) | hcount
      · exact absurd rfl hflag
      · exact id
      · split at husage
        · obtain rfl := List.mem_singleton.1 husage
          exact absurd rfl hflag
        · cases husage
      · split at hcount
        · obtain ⟨country, -, hcountry⟩ := List.mem_filterMap.1 hcount
          obtain ⟨c, -, rfl⟩ := Option.map_eq_some_iff.1 hcountry
          exact absurd rfl hflag
        · cases hcount
    all_goals
      first
        | exact id
        | exact Pubkey.not_external_findProgramAddress _ _ _

/-- Dropping repeated keys keeps every appended account with its flag. -/
theorem supplied_of_appended (hmodules : ∀ k ∈ modules, SuiteModule L k)
    (hexternal : ∀ m ∈ keys, m.pubkey.External) {m : AccountMeta}
    (hm : m ∈ appendedAccounts L modules mint source destination authority
      (Compliance.complianceAddress tokenMint) a) :
    ∃ m' ∈ keepFirst AccountMeta.pubkey (keys.map AccountMeta.pubkey)
        (appendedAccounts L modules mint source destination authority
          (Compliance.complianceAddress tokenMint) a),
      m'.pubkey = m.pubkey ∧ m'.isWritable = m.isWritable := by
  have hflags : FlagsByKey (approvalAddress source destination authority)
      (appendedAccounts L modules mint source destination authority
        (Compliance.complianceAddress tokenMint) a) :=
    flags_appended hmodules
  refine exists_mem_keepFirst_eq (fun x hx y hy hkey ↦ ?_) hm fun hseen ↦ ?_
  · rw [Bool.eq_iff_iff, hflags y hy, hflags x hx, hkey]
  · obtain ⟨m₀, hm₀, hkey⟩ := List.mem_map.1 hseen
    exact appended_not_external hmodules m hm (hkey ▸ hexternal m₀ hm₀)

theorem Supplies.of_appended (hmodules : ∀ k ∈ modules, SuiteModule L k)
    (hexternal : ∀ m ∈ keys, m.pubkey.External) {entry : ExtraAccountMeta} {key : Pubkey}
    (h : Supplies (appendedAccounts L modules mint source destination authority
      (Compliance.complianceAddress tokenMint) a) entry key) :
    Supplies (keepFirst AccountMeta.pubkey (keys.map AccountMeta.pubkey)
      (appendedAccounts L modules mint source destination authority
        (Compliance.complianceAddress tokenMint) a)) entry key := by
  obtain ⟨m, hm, rfl, hflag⟩ := h
  obtain ⟨m', hm', hkey, hsame⟩ := supplied_of_appended hmodules hexternal hm
  exact ⟨m', hm', hkey, hsame ▸ hflag⟩

/-- What the fixed entries resolve to is appended. -/
theorem supplies_base :
    List.Forall₂ (Supplies (appendedAccounts L modules mint source destination authority
        (Compliance.complianceAddress tokenMint) a)) baseMetas
      (fixedAccounts mint source destination authority
        (Compliance.complianceAddress tokenMint)) := by
  simp [baseMetas, fixedAccounts, Supplies, appendedAccounts, entryWritable]

/-- A module keeps the kind and the program of its record. -/
theorem SuiteModule.kept {k : Pubkey} (h : SuiteModule L k) (hkept : ModulesKept L L') :
    SuiteModule L' k ∧ routedBy L' k = routedBy L k := by
  have hmodule' := hkept.isModule h.module
  obtain ⟨-, howner, hrouted⟩ := isModule_owner_kind h.module
  obtain ⟨-, howner', hrouted'⟩ := isModule_owner_kind hmodule'
  rw [hkept k h.module] at howner' hrouted'
  refine ⟨⟨hmodule', ?_⟩, hrouted'.trans hrouted.symm⟩
  rw [h.derived, howner, howner']

theorem mem_of_supplies {accounts : List AccountMeta} {metas : List ExtraAccountMeta}
    {resolved : List Pubkey} (h : List.Forall₂ (Supplies accounts) metas resolved) :
    ∀ k ∈ resolved, k ∈ accounts.map AccountMeta.pubkey := by
  induction h with
  | nil => exact fun _ hk ↦ nomatch hk
  | cons hfirst _ ih =>
      obtain ⟨m, hm, hkey, -⟩ := hfirst
      exact List.forall_mem_cons.2 ⟨List.mem_map.2 ⟨m, hm, hkey⟩, ih⟩

/-- For every list that the hook program has stored for modules of the suite, and
in every later state with that list and the same modules, the client supplies
each account that the list resolves to in a transfer under an approval with the
wallet and the countries it was given: after the four accounts of the transfer,
and writable where the list says so.  So the hook call gets its accounts. -/
theorem client_supplies_resolved [Borsh] {signers : List Pubkey} {accts : MetasAccounts}
    {state' : ComplianceState} {list : ExtraAccountMetaList} {labels : List Suite.Label}
    {ts : TokenState} (amount : ℕ)
    (h : initializeExtraAccountMetas L₀ signers accts = .ok L ∨
      refreshExtraAccountMetas L₀ signers accts = .ok L)
    (hstate : L₀.accounts accts.complianceState = account state)
    (hmodules : ∀ k ∈ state.modules, SuiteModule L₀ k)
    (hlist : L.accounts (extraAccountMetasAddress accts.tokenMintAccount hookProgram) =
      account list)
    (hrun : Run Suite.Step L labels L')
    (hlater : L'.accounts (extraAccountMetasAddress accts.tokenMintAccount hookProgram) =
      account list)
    (hframe : Frame transferKinds L' L'')
    (hcall : HookCallAt L'' accts.tokenMintAccount source destination authority ts state' a)
    (hhome : ts.compliance = Compliance.complianceAddress tokenMint)
    (hsame : state'.modules = state.modules)
    (hkeys : keys.map AccountMeta.pubkey = [source, accts.tokenMintAccount, destination, authority])
    (hexternal : ∀ m ∈ keys, m.pubkey.External) :
    ∃ hookKeys resolved,
      appendTransferHookAccounts L' keys
          (extraAccountMetasAddress accts.tokenMintAccount hookProgram)
          (tokenStateAddress accts.tokenMintAccount) (approvalAddress source destination authority)
          ts.compliance a.sourceWallet (some a.fromCountry) (some a.toCountry) suiteIds =
        some (keys ++ hookKeys) ∧
      resolveMetas L'' hookProgram list.metas
          (callAccounts accts.tokenMintAccount source destination authority) = some resolved ∧
      List.Forall₂ (Supplies hookKeys) list.metas resolved ∧
      hookAccounts L'' ⟨hookProgram, source, accts.tokenMintAccount, destination, authority,
          hookKeys.map AccountMeta.pubkey, amount⟩ =
        .ok (callAccounts accts.tokenMintAccount source destination authority ++ resolved) := by
  obtain ⟨built, hbuilt, haddress, hput⟩ := metas_stored h hstate
  rw [haddress, hlist] at hput
  obtain rfl := account_inj.1 hput
  -- the modules are still modules of the same kinds when the client reads them
  have hstored : ModulesKept L₀ L := by
    refine .of_frame (S := [.extraAccountMetas]) ?_ (by decide)
    exact h.elim frame_initializeExtraAccountMetas frame_refreshExtraAccountMetas
  have hkept : ModulesKept L₀ L' := by
    refine hstored.trans ?_
    exact hrun.invariant (P := fun M ↦ ModulesKept L M)
      (fun _ _ _ hM hstep ↦ hM.trans hstep.seen.seen.modulesKept) (.refl L)
  have hmodules' : ∀ k ∈ state.modules, SuiteModule L' k := fun k hk ↦
    ((hmodules k hk).kept hkept).1
  have hstate' : L'.accounts ts.compliance = account state' := by
    rw [← view_eq_some, ← hframe.view_eq (by decide), view_eq_some]
    exact hcall.complianceAt
  have hsub : ∀ k ∈ accts.remaining, k ∈ state.modules := by
    simp only [buildMetas, bind_eq_ok, require_eq_ok, exists_const, Except.ok.injEq] at hbuilt
    obtain ⟨-, metas, hpush, -⟩ := hbuilt
    exact stored_subset hpush
  have hbuilt' : buildMetas L₀ state' accts.remaining = .ok list := by
    rw [buildMetas_congr hsame]
    exact hbuilt
  have hresolved := resolve_stored hcall hbuilt'
  have hlength : keys.length = 4 := by
    rw [← List.length_map (f := AccountMeta.pubkey), hkeys]
    rfl
  have hclient := appendTransferHookAccounts_eq accts.tokenMintAccount source destination
    authority a
    hstate' hlength
  rw [hsame, hhome] at hclient
  rw [hhome] at hresolved ⊢
  -- entry by entry, what is resolved has been appended
  have hsupplied : List.Forall₂ (Supplies (appendedAccounts L' state.modules accts.tokenMintAccount
      source destination authority (Compliance.complianceAddress tokenMint) a)) list.metas
      (fixedAccounts accts.tokenMintAccount source destination authority
        (Compliance.complianceAddress tokenMint) ++ moduleAccounts L₀ a accts.remaining) := by
    obtain ⟨-, -, rfl⟩ := buildMetas_ok hbuilt
    have hrouted : ∀ k ∈ accts.remaining, routedBy L' k = routedBy L₀ k := fun k hk ↦
      ((hmodules k (hsub k hk)).kept hkept).2
    rw [← listEntries_congr hrouted, ← moduleAccounts_congr hrouted]
    refine List.rel_append supplies_base (supplies_modules (fun k hk ↦
      (hmodules' k (hsub k hk)).module) fun k hk m hm ↦ ?_)
    simp only [appendedAccounts, List.mem_append]
    exact .inl (.inr (List.mem_flatMap.2 ⟨k, hsub k hk, hm⟩))
  have hkeptAll := hsupplied.imp fun _ _ hs ↦ hs.of_appended hmodules' hexternal
  refine ⟨_, _, hclient, hresolved, hkeptAll, ?_⟩
  have hfirst : (⟨extraAccountMetasAddress accts.tokenMintAccount hookProgram, false, false⟩ :
      AccountMeta) ∈ appendedAccounts L' state.modules accts.tokenMintAccount source destination
        authority (Compliance.complianceAddress tokenMint) a :=
    List.mem_append_left _ (List.mem_append_left _ List.mem_cons_self)
  obtain ⟨m, hm, hkey, -⟩ := supplied_of_appended hmodules' hexternal hfirst
  have hvalidation : extraAccountMetasAddress accts.tokenMintAccount hookProgram ∈
      (keepFirst AccountMeta.pubkey (keys.map AccountMeta.pubkey)
        (appendedAccounts L' state.modules accts.tokenMintAccount source destination authority
          (Compliance.complianceAddress tokenMint) a)).map AccountMeta.pubkey :=
    List.mem_map.2 ⟨m, hm, hkey⟩
  have hdecode : decode (α := ExtraAccountMetaList)
      (L''.accounts (extraAccountMetasAddress accts.tokenMintAccount hookProgram)).data =
        some list := by
    rw [decode_eq_some, hframe.accounts_eq (by decide) hlater, account_data]
  simp only [hookAccounts, if_pos hvalidation, hdecode, bind_eq_ok, okOr_eq_ok, Option.some.injEq,
    exists_eq_left']
  exact addExtraAccounts_eq_ok.2 ⟨_, hresolved, mem_of_supplies hkeptAll, rfl⟩

end Client

/-! ## A transfer of the token with an investor cap -/

/-- The approval of a transfer of three tokens by the holder. -/
def ownApproval : TransferApproval :=
  { forcedApproval with
    authority := TokenHook.lostHolding.wallet
    kind := transferApprovalKindTransfer }

def ownTransferLedger : Ledger :=
  TokenHook.cappedDeployment.ledger
    [(investorCap, account (⟨TokenHook.cappedDeployment.issuer,
        TokenHook.cappedDeployment.tokenMint, TokenHook.cappedDeployment.compliance, 5, 1⟩ :
        MaxInvestorsModule)),
      (approvalAddress TokenHook.lostHolding.key freshHolding.key TokenHook.lostHolding.wallet,
        account ownApproval)]

/-- The keys of a checked transfer by the holder. -/
def ownTransferKeys : List AccountMeta :=
  [⟨TokenHook.lostHolding.key, false, true⟩, ⟨TokenHook.cappedDeployment.tokenMint, false, false⟩,
    ⟨freshHolding.key, false, true⟩, ⟨TokenHook.lostHolding.wallet, true, false⟩]

theorem own_transfer_supplied : ∃ L list hookKeys resolved,
    refreshExtraAccountMetas ownTransferLedger [TokenHook.cappedDeployment.issuer]
        (deploymentMetasAccounts TokenHook.cappedDeployment TokenHook.cappedDeployment.issuer
          [investorCap]) = .ok L ∧
    L.accounts (extraAccountMetasAddress TokenHook.cappedDeployment.tokenMint hookProgram) =
      account (list : ExtraAccountMetaList) ∧
    appendTransferHookAccounts L ownTransferKeys
        (extraAccountMetasAddress TokenHook.cappedDeployment.tokenMint hookProgram)
        (tokenStateAddress TokenHook.cappedDeployment.tokenMint)
        (approvalAddress TokenHook.lostHolding.key freshHolding.key TokenHook.lostHolding.wallet)
        TokenHook.cappedDeployment.compliance TokenHook.lostHolding.wallet (some 276) (some 276)
        suiteIds =
      some (ownTransferKeys ++ hookKeys) ∧
    List.Forall₂ (Supplies hookKeys) list.metas resolved ∧
    hookAccounts L ⟨hookProgram, TokenHook.lostHolding.key, TokenHook.cappedDeployment.tokenMint,
        freshHolding.key, TokenHook.lostHolding.wallet, hookKeys.map AccountMeta.pubkey, 3⟩ =
      .ok (callAccounts TokenHook.cappedDeployment.tokenMint TokenHook.lostHolding.key
        freshHolding.key TokenHook.lostHolding.wallet ++ resolved) := by
  have hrefresh : ∃ L, refreshExtraAccountMetas ownTransferLedger
        [TokenHook.cappedDeployment.issuer] (deploymentMetasAccounts TokenHook.cappedDeployment
          TokenHook.cappedDeployment.issuer [investorCap]) = .ok L ∧
      L.accounts (extraAccountMetasAddress TokenHook.cappedDeployment.tokenMint hookProgram) =
        account (⟨TokenHook.cappedDeployment.metas⟩ : ExtraAccountMetaList) ∧
      HookCallAt L TokenHook.cappedDeployment.tokenMint TokenHook.lostHolding.key freshHolding.key
        TokenHook.lostHolding.wallet TokenHook.cappedDeployment.tokenStateRecord
        TokenHook.cappedDeployment.complianceRecord ownApproval := by
    refine ⟨_, rfl, ?_, ?_⟩
    · rfl
    · exact ⟨rfl, rfl, rfl⟩
  obtain ⟨L, hstored, hlist, hcall⟩ := hrefresh
  have hstate : ownTransferLedger.accounts TokenHook.cappedDeployment.compliance =
      account TokenHook.cappedDeployment.complianceRecord := rfl
  have hmodules : ∀ k ∈ TokenHook.cappedDeployment.complianceRecord.modules,
      SuiteModule ownTransferLedger k := by
    intro k hk
    obtain rfl : k = investorCap := List.mem_singleton.1 hk
    exact ⟨by decide, rfl⟩
  have hexternal : ∀ m ∈ ownTransferKeys, m.pubkey.External := by
    intro m hm
    simp only [ownTransferKeys, List.mem_cons, List.not_mem_nil, or_false] at hm
    rcases hm with rfl | rfl | rfl | rfl <;> exact Pubkey.external_address _
  obtain ⟨hookKeys, resolved, hkeys, -, hsupplied, hhook⟩ :=
    @client_supplies_resolved L L L ownTransferLedger TokenHook.lostHolding.key freshHolding.key
      TokenHook.lostHolding.wallet TokenHook.cappedDeployment.tokenMint ownApproval ownTransferKeys
      TokenHook.cappedDeployment.complianceRecord strictBorsh [TokenHook.cappedDeployment.issuer]
      (deploymentMetasAccounts TokenHook.cappedDeployment TokenHook.cappedDeployment.issuer
        [investorCap])
      TokenHook.cappedDeployment.complianceRecord ⟨TokenHook.cappedDeployment.metas⟩ []
      TokenHook.cappedDeployment.tokenStateRecord 3 (.inr hstored) hstate hmodules hlist (.nil L)
      hlist (.refl _ L) hcall rfl rfl rfl hexternal
  exact ⟨L, ⟨TokenHook.cappedDeployment.metas⟩, hookKeys, resolved, hstored, hlist, hkeys,
    hsupplied, hhook⟩

end Fracks.TransferService
