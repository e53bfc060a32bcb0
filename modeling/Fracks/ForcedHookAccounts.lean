import Fracks.Deployment

/-!
# The accounts of a forced transfer

The hook needs every account that the stored list resolves to.  A forced
transfer or a recovery builds its own list, with one account for each bound
module.  The stored list has more entries for the modules that the router calls
in a transfer: the program of the module and its usage or count records.
-/

namespace Fracks.TokenHook

open Checked AccountType Ledger Token

/-! ## Resolution of a list of entries -/

/-- The accounts that a list of entries resolves to, given those before it. -/
def resolveMetas (L : Ledger) (program : Pubkey) :
    List ExtraAccountMeta → List Pubkey → Option (List Pubkey)
  | [], _ => some []
  | entry :: rest, accounts => do
      let k ← resolveMeta L program accounts entry
      let ks ← resolveMetas L program rest (accounts ++ [k])
      some (k :: ks)

section Resolution

variable {L : Ledger} {program : Pubkey} {additional accounts resolved ks ks' : List Pubkey}
  {metas metas' : List ExtraAccountMeta}

theorem resolveMetas_cons {entry : ExtraAccountMeta} {k : Pubkey}
    (hk : resolveMeta L program accounts entry = some k)
    (hks : resolveMetas L program metas (accounts ++ [k]) = some ks) :
    resolveMetas L program (entry :: metas) accounts = some (k :: ks) := by
  simp [resolveMetas, hk, hks]

theorem resolveMetas_append (h : resolveMetas L program metas accounts = some ks)
    (h' : resolveMetas L program metas' (accounts ++ ks) = some ks') :
    resolveMetas L program (metas ++ metas') accounts = some (ks ++ ks') := by
  induction metas generalizing accounts ks with
  | nil =>
      obtain rfl : [] = ks := by simpa [resolveMetas] using h
      simpa using h'
  | cons entry rest ih =>
      simp only [resolveMetas, Option.bind_eq_bind, Option.bind_eq_some_iff] at h
      obtain ⟨k, hk, ks, hks, heq⟩ := h
      obtain rfl := Option.some.inj heq
      exact resolveMetas_cons hk (ih hks (by simpa using h'))

theorem resolveMetas_length (h : resolveMetas L program metas accounts = some ks) :
    ks.length = metas.length := by
  induction metas generalizing accounts ks with
  | nil =>
      obtain rfl : [] = ks := by simpa [resolveMetas] using h
      rfl
  | cons entry rest ih =>
      simp only [resolveMetas, Option.bind_eq_bind, Option.bind_eq_some_iff] at h
      obtain ⟨k, -, ks, hks, heq⟩ := h
      obtain rfl := Option.some.inj heq
      simp [ih hks]

/-- The hook call goes through when every account the list resolves to has been
passed. -/
theorem addExtraAccounts_eq_ok :
    addExtraAccounts L program additional metas accounts = .ok resolved ↔
      ∃ ks, resolveMetas L program metas accounts = some ks ∧ (∀ k ∈ ks, k ∈ additional) ∧
        resolved = accounts ++ ks := by
  induction metas generalizing accounts with
  | nil => simp [addExtraAccounts, resolveMetas, eq_comm]
  | cons entry rest ih =>
      simp only [addExtraAccounts, resolveMetas, bind_eq_ok, okOr_eq_ok, require_eq_ok,
        exists_const, Option.bind_eq_bind, Option.bind_eq_some_iff, ih]
      constructor
      · rintro ⟨k, hk, hmem, ks, hks, hpassed, rfl⟩
        refine ⟨k :: ks, ⟨k, hk, ks, hks, rfl⟩, fun x hx ↦ ?_, by simp⟩
        rcases List.mem_cons.1 hx with rfl | hx
        · exact hmem
        · exact hpassed x hx
      · rintro ⟨_, ⟨k, hk, ks, hks, heq⟩, hpassed, rfl⟩
        obtain rfl := Option.some.inj heq
        exact ⟨k, hk, hpassed k (by simp), ks, hks,
          fun x hx ↦ hpassed x (List.mem_cons_of_mem k hx), by simp⟩

end Resolution

/-! ## What the stored list of a mint resolves to -/

/-- The accounts besides its own that the router needs for a module in a
transfer under the given approval. -/
def supportAccounts (L : Ledger) (a : TransferApproval) (moduleKey : Pubkey) : List Pubkey :=
  match (L.accounts moduleKey).data with
  | .maxInvestorsModule _ => [.program .modMaxInvestors]
  | .dailyTransferLimitModule _ =>
      [.program .modDailyLimit,
        ModDailyLimit.usageAddress moduleKey a.sourceWallet (.program .modDailyLimit)]
  | .investorCountryCapModule _ =>
      [.program .modCountryCap,
        ModCountryCap.countAddress moduleKey a.fromCountry (.program .modCountryCap),
        ModCountryCap.countAddress moduleKey a.toCountry (.program .modCountryCap)]
  | _ => []

/-- A transfer under way: the records that the resolution of the stored list
reads, and the accounts of the hook call that come first. -/
structure HookCallAt (L : Ledger) (mint source destination authority : Pubkey) (ts : TokenState)
    (state : ComplianceState) (a : TransferApproval) : Prop where
  tokenStateAt : L.accounts (tokenStateAddress mint) = account ts
  complianceAt : L.accounts ts.compliance = account state
  approvalAt : L.accounts (approvalAddress source destination authority) = account a

/-- The accounts of the hook call before the stored ones. -/
def callAccounts (mint source destination authority : Pubkey) : List Pubkey :=
  [source, mint, destination, authority, extraAccountMetasAddress mint hookProgram]

/-- What the fixed entries of the stored list resolve to. -/
def fixedAccounts (mint source destination authority compliance : Pubkey) : List Pubkey :=
  [.program .fracksToken, tokenStateAddress mint, approvalAddress source destination authority,
    compliance, .program .fracksCompliance]

section Stored

variable {L L₀ : Ledger} {mint source destination authority : Pubkey} {ts : TokenState}
  {state : ComplianceState} {a : TransferApproval}

theorem resolve_baseMetas (h : HookCallAt L mint source destination authority ts state a) :
    resolveMetas L hookProgram baseMetas (callAccounts mint source destination authority) =
      some (fixedAccounts mint source destination authority ts.compliance) := by
  have hkey : readKeyAt (L.accounts (tokenStateAddress mint)).data 72 = some ts.compliance := by
    rw [h.tokenStateAt]
    rfl
  have hcontroller : resolvePda L (callAccounts mint source destination authority ++
      [.program .fracksToken]) (.program .fracksToken) [.literal .tokenState, .accountKey 1] =
        some (tokenStateAddress mint) := rfl
  refine resolveMetas_cons rfl (resolveMetas_cons hcontroller (resolveMetas_cons rfl
    (resolveMetas_cons ?_ (resolveMetas_cons rfl rfl))))
  exact hkey

theorem getElem?_append_some {l l' : List Pubkey} {i : ℕ} {k : Pubkey} (h : l[i]? = some k) :
    (l ++ l')[i]? = some k := by
  rw [List.getElem?_append_left (List.getElem?_eq_some_iff.1 h).1, h]

theorem readKeyAt_module (state : ComplianceState) (index : ℕ) :
    readKeyAt (encode state) (76 + 32 * index) = state.modules[index]? := by
  have hoffset : 76 ≤ 76 + 32 * index ∧ (76 + 32 * index - 76) % 32 = 0 := by omega
  have hindex : (76 + 32 * index - 76) / 32 = index := by omega
  simp only [encode, readKeyAt]
  split
  case h_1 => omega
  case h_2 => omega
  case h_3 => rw [if_pos hoffset, hindex]

/-- A support account whose seeds are its module and a key of the approval. -/
theorem resolveMeta_key {accounts : List Pubkey} {i j offset : ℕ} {k moduleKey key program : Pubkey}
    {label : SeedLabel} (hprogram : accounts[j]? = some program)
    (hmodule : accounts[i]? = some moduleKey) (happroval : accounts[7]? = some k)
    (hkey : readKeyAt (L.accounts k).data offset = some key) :
    resolveMeta L hookProgram accounts
      (.externalPda j [.literal label, .accountKey i, .accountData 7 offset 32] true) =
        some (.findProgramAddress label [.key moduleKey, .key key] program) := by
  simp [resolveMeta, resolvePda, resolveSeed, hprogram, hmodule, happroval, hkey]

/-- A support account whose seeds are its module and a number of the approval. -/
theorem resolveMeta_num {accounts : List Pubkey} {i j offset n : ℕ} {k moduleKey program : Pubkey}
    {label : SeedLabel} (hprogram : accounts[j]? = some program)
    (hmodule : accounts[i]? = some moduleKey) (happroval : accounts[7]? = some k)
    (hnum : readU16At (L.accounts k).data offset = some n) :
    resolveMeta L hookProgram accounts
      (.externalPda j [.literal label, .accountKey i, .accountData 7 offset 2] true) =
        some (.findProgramAddress label [.key moduleKey, .num n] program) := by
  simp [resolveMeta, resolvePda, resolveSeed, hprogram, hmodule, happroval, hnum]

/-- The entries of one module resolve to the module and its support accounts. -/
theorem resolve_pushModuleMetas (h : HookCallAt L mint source destination authority ts state a)
    {metas metas' : List ExtraAccountMeta} {moduleKey : Pubkey} {index : ℕ}
    (hpush : pushModuleMetas L₀ metas moduleKey index = .ok metas')
    (hmodule : state.modules[index]? = some moduleKey) :
    ∃ extra, metas' = metas ++ extra ∧ ∀ accounts : List Pubkey,
      accounts.length = 5 + metas.length →
        accounts[7]? = some (approvalAddress source destination authority) →
          accounts[8]? = some ts.compliance →
            resolveMetas L hookProgram extra accounts =
              some (moduleKey :: supportAccounts L₀ a moduleKey) := by
  simp only [pushModuleMetas, pushComplianceModuleMeta, checkedByte, bind_eq_ok, okOr_eq_ok,
    Option.ite_none_right_eq_some, Option.some.injEq, Except.ok.injEq] at hpush
  obtain ⟨_, ⟨-, rfl⟩, _, ⟨_, ⟨hbyte, rfl⟩, rfl⟩, hpush⟩ := hpush
  have hdata : 76 + min (index * 32) 255 = 76 + 32 * index := by omega
  rw [hdata] at hpush
  -- the module itself is read from the compliance state
  have hentry : ∀ {accounts : List Pubkey}, accounts[8]? = some ts.compliance →
      resolveMeta L hookProgram accounts (.pubkeyData 8 (76 + 32 * index) true) =
        some moduleKey := by
    intro accounts hcompliance
    simp [resolveMeta, hcompliance, h.complianceAt, readKeyAt_module, hmodule]
  have happroval : (L.accounts (approvalAddress source destination authority)).data = encode a := by
    rw [h.approvalAt]
    rfl
  split at hpush
  case h_1 m hm =>
    simp only [bind_eq_ok, require_eq_ok, exists_const, Except.ok.injEq] at hpush
    obtain ⟨-, rfl⟩ := hpush
    refine ⟨_, List.append_assoc .., fun accounts _ _ hcompliance ↦ ?_⟩
    rw [supportAccounts, hm]
    exact resolveMetas_cons (hentry hcompliance) (resolveMetas_cons rfl rfl)
  case h_2 m hm =>
    simp only [bind_eq_ok, require_eq_ok, okOr_eq_ok, Option.ite_none_right_eq_some,
      Option.some.injEq, Except.ok.injEq, exists_const] at hpush
    obtain ⟨-, _, ⟨-, rfl⟩, rfl⟩ := hpush
    refine ⟨_, List.append_assoc .., fun accounts hlength hkey hcompliance ↦ ?_⟩
    rw [supportAccounts, hm]
    refine resolveMetas_cons (hentry hcompliance) (resolveMetas_cons rfl
      (resolveMetas_cons (resolveMeta_key ?_ ?_ (getElem?_append_some (getElem?_append_some hkey))
        (happroval ▸ rfl)) rfl))
    · simp [← hlength]
    · simp [← hlength]
  case h_3 m hm =>
    simp only [bind_eq_ok, require_eq_ok, okOr_eq_ok, Option.ite_none_right_eq_some,
      Option.some.injEq, Except.ok.injEq, exists_const] at hpush
    obtain ⟨-, _, ⟨-, rfl⟩, rfl⟩ := hpush
    refine ⟨_, List.append_assoc .., fun accounts hlength hkey hcompliance ↦ ?_⟩
    rw [supportAccounts, hm]
    refine resolveMetas_cons (hentry hcompliance) (resolveMetas_cons rfl
      (resolveMetas_cons (resolveMeta_num ?_ ?_ (getElem?_append_some (getElem?_append_some hkey))
        (happroval ▸ rfl)) (resolveMetas_cons (resolveMeta_num ?_ ?_ (getElem?_append_some
          (getElem?_append_some (getElem?_append_some hkey))) (happroval ▸ rfl)) rfl)))
    · simp [← hlength]
    · simp [← hlength]
    · simp [← hlength]
    · simp [← hlength]
  case h_4 h₁ h₂ h₃ =>
    obtain rfl := Except.ok.inj hpush
    refine ⟨_, rfl, fun accounts _ _ hcompliance ↦ ?_⟩
    rw [supportAccounts]
    split
    case h_1 m hm => exact absurd hm (h₁ m)
    case h_2 m hm => exact absurd hm (h₂ m)
    case h_3 m hm => exact absurd hm (h₃ m)
    case h_4 => exact resolveMetas_cons (hentry hcompliance) rfl

/-- The accounts the hook needs for the modules of the stored list. -/
def moduleAccounts (L₀ : Ledger) (a : TransferApproval) (stored : List Pubkey) : List Pubkey :=
  stored.flatMap fun moduleKey ↦ moduleKey :: supportAccounts L₀ a moduleKey

theorem readComplianceModuleKey_ok {index : ℕ} {moduleKey : Pubkey}
    (h : readComplianceModuleKey state index = .ok moduleKey) :
    state.modules[index]? = some moduleKey := by
  simp only [readComplianceModuleKey, bind_eq_ok, okOr_eq_ok] at h
  obtain ⟨-, -, h⟩ := h
  exact h

theorem resolve_pushAllModules (h : HookCallAt L mint source destination authority ts state a)
    {metas metas' : List ExtraAccountMeta} {stored : List Pubkey} {index : ℕ}
    (hpush : pushAllModules L₀ state stored index metas = .ok metas') :
    ∃ extra, metas' = metas ++ extra ∧ ∀ accounts : List Pubkey,
      accounts.length = 5 + metas.length →
        accounts[7]? = some (approvalAddress source destination authority) →
          accounts[8]? = some ts.compliance →
            resolveMetas L hookProgram extra accounts = some (moduleAccounts L₀ a stored) := by
  induction stored generalizing index metas with
  | nil =>
      obtain rfl := Except.ok.inj hpush
      exact ⟨[], by simp, fun _ _ _ _ ↦ rfl⟩
  | cons moduleKey rest ih =>
      simp only [pushAllModules, bind_eq_ok, require_eq_ok, exists_const] at hpush
      obtain ⟨_, hexpected, rfl, metas₁, hmodule, hrest⟩ := hpush
      obtain ⟨extra, rfl, hextra⟩ :=
        resolve_pushModuleMetas h hmodule (readComplianceModuleKey_ok hexpected)
      obtain ⟨extra', rfl, hextra'⟩ := ih hrest
      refine ⟨extra ++ extra', List.append_assoc .., fun accounts hlength hkey hcompliance ↦ ?_⟩
      have hfirst := hextra accounts hlength hkey hcompliance
      rw [moduleAccounts, List.flatMap_cons]
      refine resolveMetas_append hfirst (hextra' _ ?_ (getElem?_append_some hkey)
        (getElem?_append_some hcompliance))
      rw [List.length_append, List.length_append, hlength, resolveMetas_length hfirst,
        Nat.add_assoc]

/-- What the stored list resolves to in a transfer: the fixed accounts, and for
each module the module and its support accounts. -/
theorem resolve_stored (h : HookCallAt L mint source destination authority ts state a)
    {stored : List Pubkey} {list : ExtraAccountMetaList}
    (hstored : buildMetas L₀ state stored = .ok list) :
    resolveMetas L hookProgram list.metas (callAccounts mint source destination authority) =
      some (fixedAccounts mint source destination authority ts.compliance ++
        moduleAccounts L₀ a stored) := by
  simp only [buildMetas, bind_eq_ok, require_eq_ok, exists_const, Except.ok.injEq] at hstored
  obtain ⟨-, metas, hpush, rfl⟩ := hstored
  obtain ⟨extra, rfl, hextra⟩ := resolve_pushAllModules h hpush
  exact resolveMetas_append (resolve_baseMetas h) (hextra _ rfl rfl rfl)

/-- The stored modules are bound ones. -/
theorem stored_subset {stored : List Pubkey} {index : ℕ} {metas metas' : List ExtraAccountMeta}
    (hpush : pushAllModules L₀ state stored index metas = .ok metas') :
    ∀ moduleKey ∈ stored, moduleKey ∈ state.modules := by
  induction stored generalizing index metas with
  | nil => simp
  | cons moduleKey rest ih =>
      simp only [pushAllModules, bind_eq_ok, require_eq_ok, exists_const] at hpush
      obtain ⟨_, hexpected, rfl, metas₁, -, hrest⟩ := hpush
      intro k hk
      rcases List.mem_cons.1 hk with rfl | hk
      · exact List.mem_of_getElem? (readComplianceModuleKey_ok hexpected)
      · exact ih hrest k hk

end Stored

/-! ## The list of a forced transfer or a recovery -/

/-- The accounts that every such call passes, whatever its caller chooses. -/
def ownAccounts (mint source destination : Pubkey) : List Pubkey :=
  [.program .fracksToken, tokenStateAddress mint,
    approvalAddress source destination (tokenStateAddress mint),
    extraAccountMetasAddress mint hookProgram, hookProgram]

/-- A support account is a module program or derived from one. -/
theorem supportAccounts_derived {L : Ledger} {a : TransferApproval} {moduleKey k : Pubkey}
    (hk : k ∈ supportAccounts L a moduleKey) :
    ∃ name ∈ [ProgramName.modMaxInvestors, .modDailyLimit, .modCountryCap],
      k = .program name ∨ k.derivedFrom = some (.program name) := by
  unfold supportAccounts at hk
  split at hk
  · exact ⟨.modMaxInvestors, by simp, .inl (by simpa using hk)⟩
  · refine ⟨.modDailyLimit, by simp, ?_⟩
    rcases List.mem_pair.1 hk with rfl | rfl
    · exact .inl rfl
    · exact .inr (Pubkey.derivedFrom_findProgramAddress ..)
  · refine ⟨.modCountryCap, by simp, ?_⟩
    simp only [List.mem_cons, List.not_mem_nil, or_false] at hk
    rcases hk with rfl | rfl | rfl
    · exact .inl rfl
    · exact .inr (Pubkey.derivedFrom_findProgramAddress ..)
    · exact .inr (Pubkey.derivedFrom_findProgramAddress ..)
  · simp at hk

/-- No support account is among the accounts of the other programs. -/
theorem not_mem_of_support {L : Ledger} {a : TransferApproval} {moduleKey k tokenMint : Pubkey}
    {mint source destination : Pubkey} (hk : k ∈ supportAccounts L a moduleKey) :
    k ∉ Compliance.complianceAddress tokenMint :: .program .fracksCompliance ::
      ownAccounts mint source destination := by
  obtain ⟨name, hname, hk⟩ := supportAccounts_derived hk
  intro hmem
  simp only [ownAccounts, List.mem_cons, List.not_mem_nil, or_false] at hmem hname
  rcases hmem with rfl | rfl | rfl | rfl | rfl | rfl | rfl <;>
    rcases hname with rfl | rfl | rfl <;>
      simp [Compliance.complianceAddress, tokenStateAddress, approvalAddress,
        extraAccountMetasAddress, hookProgram, controllerProgram, Pubkey.findProgramAddress,
        Pubkey.addSeed, Pubkey.derivedFrom] at hk

section Forced

variable [Borsh] {L₀ L₁ L : Ledger} {mint source destination : Pubkey} {ts : TokenState}
  {state : ComplianceState} {a : TransferApproval}

theorem buildTokenHookAccounts_ok {complianceState complianceProgram : Pubkey}
    {remaining passed : List Pubkey}
    (h : buildTokenHookAccounts L₁ (.program .fracksToken) (tokenStateAddress mint)
      (approvalAddress source destination (tokenStateAddress mint)) complianceState
      complianceProgram (extraAccountMetasAddress mint hookProgram) hookProgram remaining =
        .ok passed) :
    ∃ named : ComplianceState,
      Borsh.decodeView ComplianceState (L₁.accounts complianceState).data = some named ∧
        ∀ k, k ∈ passed ↔ k ∈ complianceState :: complianceProgram ::
          (ownAccounts mint source destination ++ named.modules) := by
  simp only [buildTokenHookAccounts, deserializeLocal, bind_eq_ok, okOr_eq_ok, require_eq_ok,
    exists_const, Except.ok.injEq] at h
  obtain ⟨named, hnamed, -, rfl⟩ := h
  refine ⟨named, hnamed, fun k ↦ ?_⟩
  simp only [ownAccounts, List.mem_append, List.mem_cons, List.not_mem_nil, or_false]
  tauto

/-- The list of a forced transfer or a recovery has every account the stored
list resolves to exactly when the token's compliance state, the router, the
stored modules and their support accounts are among the accounts the call names
and the modules bound to the compliance state it names.  When that is the
token's own, all support accounts must be bound as modules. -/
theorem forced_accounts_complete_iff {complianceState complianceProgram : Pubkey}
    {stored remaining resolved passed : List Pubkey} {list : ExtraAccountMetaList}
    {named : ComplianceState}
    (hcall : HookCallAt L mint source destination (tokenStateAddress mint) ts state a)
    (hseeds : ts.compliance = Compliance.complianceAddress state.tokenMint)
    (hbefore : L₁.accounts ts.compliance = account state)
    (hstored : buildMetas L₀ state stored = .ok list)
    (hresolved : resolveMetas L hookProgram list.metas
      (callAccounts mint source destination (tokenStateAddress mint)) = some resolved)
    (hnamed : Borsh.decodeView ComplianceState (L₁.accounts complianceState).data = some named)
    (hpassed : buildTokenHookAccounts L₁ (.program .fracksToken) (tokenStateAddress mint)
      (approvalAddress source destination (tokenStateAddress mint)) complianceState
      complianceProgram (extraAccountMetasAddress mint hookProgram) hookProgram remaining =
        .ok passed) :
    ((∀ k ∈ resolved, k ∈ passed) ↔
      ∀ k ∈ ts.compliance :: .program .fracksCompliance :: moduleAccounts L₀ a stored,
        k ∈ complianceState :: complianceProgram ::
          (ownAccounts mint source destination ++ named.modules)) ∧
    (complianceState = ts.compliance → complianceProgram = .program .fracksCompliance →
      ((∀ k ∈ resolved, k ∈ passed) ↔
        ∀ moduleKey ∈ stored, ∀ k ∈ supportAccounts L₀ a moduleKey, k ∈ state.modules)) := by
  obtain rfl := Option.some.inj ((resolve_stored hcall hstored).symm.trans hresolved)
  obtain ⟨named', hnamed', hmem⟩ := buildTokenHookAccounts_ok hpassed
  obtain rfl := Option.some.inj (hnamed'.symm.trans hnamed)
  have hgeneral : (∀ k ∈ fixedAccounts mint source destination (tokenStateAddress mint)
      ts.compliance ++ moduleAccounts L₀ a stored, k ∈ passed) ↔
        ∀ k ∈ ts.compliance :: .program .fracksCompliance :: moduleAccounts L₀ a stored,
          k ∈ complianceState :: complianceProgram ::
            (ownAccounts mint source destination ++ named'.modules) := by
    simp only [hmem, fixedAccounts, ownAccounts, List.mem_append, List.mem_cons,
      List.not_mem_nil, or_false]
    constructor
    · intro h k hk
      exact h k (by tauto)
    · rintro h k ((rfl | rfl | rfl | rfl | rfl) | hk)
      · simp
      · simp
      · simp
      · exact h _ (by simp)
      · exact h _ (by simp)
      · exact h k (by tauto)
  refine ⟨hgeneral, ?_⟩
  rintro rfl rfl
  rw [hbefore, account_data, Borsh.decodeView_encode] at hnamed
  obtain rfl := Option.some.inj hnamed
  rw [hgeneral]
  constructor
  · intro h moduleKey hmodule k hk
    have hneeded : k ∈ moduleAccounts L₀ a stored :=
      List.mem_flatMap.2 ⟨moduleKey, hmodule, List.mem_cons_of_mem _ hk⟩
    have hown : k ∉ Compliance.complianceAddress state.tokenMint :: .program .fracksCompliance ::
        ownAccounts mint source destination := not_mem_of_support hk
    have hin := h k (by simp [hneeded])
    rw [hseeds] at hin
    simp only [List.mem_cons, List.mem_append, not_or] at hin hown
    tauto
  · intro h k hk
    simp only [List.mem_cons] at hk
    rcases hk with rfl | rfl | hk
    · simp
    · simp
    · obtain ⟨moduleKey, hmodule, hk⟩ := List.mem_flatMap.1 hk
      rcases List.mem_cons.1 hk with rfl | hk
      · simp only [buildMetas, bind_eq_ok, require_eq_ok, exists_const, Except.ok.injEq] at hstored
        obtain ⟨-, metas, hpush, -⟩ := hstored
        simp [stored_subset hpush k hmodule]
      · simp [h moduleKey hmodule k hk]

end Forced

/-! ## A token with an investor cap -/

def lostHolding : Holding := ⟨.address 10, .address 11, 10⟩

def freshHolding : Holding := ⟨.address 20, .address 21, 0⟩

def investorCap : Pubkey := HookedModule.moduleAddress MaxInvestorsModule (.address 0)

def cappedDeployment : Deployment where
  tokenMint := .address 0
  issuer := .address 1
  paused := false
  modules := [investorCap]
  modulesPaused := false
  metas := baseMetas ++ [.pubkeyData 8 76 true, .fixed (.program .modMaxInvestors) false]
  wallets := [(lostHolding.wallet, 276), (freshHolding.wallet, 276)]
  holdings := [lostHolding, freshHolding]

/-- The approval that a forced transfer of three tokens writes. -/
def forcedApproval : TransferApproval where
  tokenState := cappedDeployment.tokenState
  sourceTokenAccount := lostHolding.key
  destinationTokenAccount := freshHolding.key
  authority := cappedDeployment.tokenState
  sourceWallet := lostHolding.wallet
  destinationWallet := freshHolding.wallet
  amount := 3
  fromBalance := 10
  toBalance := 0
  fromCountry := 276
  toCountry := 276
  kind := transferApprovalKindForced
  consumed := false
  finalized := false

def cappedLedger : Ledger :=
  cappedDeployment.ledger
    [(investorCap, account (
      { owner := cappedDeployment.issuer, tokenMint := cappedDeployment.tokenMint,
        hookAuthority := cappedDeployment.compliance, maxInvestors := 5, holderCount := 1 :
        MaxInvestorsModule })),
      (approvalAddress lostHolding.key freshHolding.key cappedDeployment.tokenState,
        account forcedApproval)]

/-- Everything the stored list resolves to: the module comes with its program. -/
def cappedResolved : List Pubkey :=
  fixedAccounts cappedDeployment.tokenMint lostHolding.key freshHolding.key
    cappedDeployment.tokenState cappedDeployment.compliance ++
      [investorCap, .program .modMaxInvestors]

/-- What the forced path passes: the module without its program. -/
def cappedPassed : List Pubkey :=
  [.program .fracksToken, cappedDeployment.tokenState,
    approvalAddress lostHolding.key freshHolding.key cappedDeployment.tokenState,
    cappedDeployment.compliance, .program .fracksCompliance, investorCap,
    extraAccountMetasAddress cappedDeployment.tokenMint hookProgram, hookProgram]

/-- The program of the investor cap is needed and, although it is among the
remaining accounts, not passed. -/
theorem investor_cap_program_missing :
    buildMetas cappedLedger cappedDeployment.complianceRecord [investorCap] =
        .ok ⟨cappedDeployment.metas⟩ ∧
      resolveMetas cappedLedger hookProgram cappedDeployment.metas
        (callAccounts cappedDeployment.tokenMint lostHolding.key freshHolding.key
          cappedDeployment.tokenState) = some cappedResolved ∧
        ∃ passed, @buildTokenHookAccounts strictBorsh cappedLedger (.program .fracksToken)
            cappedDeployment.tokenState
            (approvalAddress lostHolding.key freshHolding.key cappedDeployment.tokenState)
            cappedDeployment.compliance (.program .fracksCompliance)
            (extraAccountMetasAddress cappedDeployment.tokenMint hookProgram) hookProgram
            cappedResolved = .ok passed ∧ ¬ ∀ k ∈ cappedResolved, k ∈ passed := by
  refine ⟨rfl, rfl, cappedPassed, rfl, fun hall ↦ ?_⟩
  have hprogram : Pubkey.program .modMaxInvestors ∈ cappedPassed := hall _ (by decide)
  exact absurd hprogram (by decide)

/-- For this token the lists agree exactly when the program is itself bound as
a module. -/
theorem capped_accounts_iff :
    ((∀ k ∈ cappedResolved, k ∈ cappedPassed) ↔
      ∀ moduleKey ∈ [investorCap], ∀ k ∈ supportAccounts cappedLedger forcedApproval moduleKey,
        k ∈ cappedDeployment.complianceRecord.modules) :=
  (@forced_accounts_complete_iff strictBorsh cappedLedger cappedLedger cappedLedger
    cappedDeployment.tokenMint lostHolding.key freshHolding.key cappedDeployment.tokenStateRecord
    cappedDeployment.complianceRecord forcedApproval cappedDeployment.compliance
    (.program .fracksCompliance) [investorCap] cappedResolved cappedResolved cappedPassed
    ⟨cappedDeployment.metas⟩ cappedDeployment.complianceRecord ⟨rfl, rfl, rfl⟩ rfl rfl rfl rfl rfl
    rfl).2 rfl rfl

end Fracks.TokenHook
