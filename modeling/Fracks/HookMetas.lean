import Fracks.ForcedHookAccounts
import Fracks.Lib.Capacity
import Fracks.Tables

/-!
# The stored list of extra accounts

The list of a mint has five fixed entries and, for each module that the caller
passes, up to four more.  The entry of a module refers to its place in the
compliance account by a byte, which leaves room for six modules.
-/

namespace Fracks.TokenHook

open Checked AccountType Ledger Token Capacity

/-! ## The entries of one module -/

/-- The program that the router calls in a transfer for a module of a kind. -/
def routedKind : AccountKind → Option ProgramName
  | .maxInvestorsModule => some .modMaxInvestors
  | .dailyTransferLimitModule => some .modDailyLimit
  | .investorCountryCapModule => some .modCountryCap
  | _ => none

def routedBy (L : Ledger) (moduleKey : Pubkey) : Option ProgramName :=
  routedKind (L.accounts moduleKey).data.kind

/-- A module that the router calls in a transfer is held by its program. -/
def HeldByProgram (L : Ledger) (moduleKey : Pubkey) : Prop :=
  ∀ name, routedBy L moduleKey = some name → (L.accounts moduleKey).owner = .program name

/-- How many entries a module gets. -/
def metaCount (L : Ledger) (moduleKey : Pubkey) : ℕ :=
  match routedBy L moduleKey with
  | some .modMaxInvestors => 2
  | some .modDailyLimit => 3
  | some .modCountryCap => 4
  | _ => 1

theorem metaCount_le (L : Ledger) (moduleKey : Pubkey) : metaCount L moduleKey ≤ 4 := by
  unfold metaCount
  split <;> omega

/-- The entries of a module whose own entry is resolved to the account at
`place` of the hook call. -/
def moduleEntries (L : Ledger) (place index : ℕ) (moduleKey : Pubkey) : List ExtraAccountMeta :=
  .pubkeyData 8 (76 + 32 * index) true ::
    match routedBy L moduleKey with
    | some .modMaxInvestors => [.fixed (.program .modMaxInvestors) false]
    | some .modDailyLimit =>
        [.fixed (.program .modDailyLimit) false,
          .externalPda (place + 1)
            [.literal .dailyUsage, .accountKey place, .accountData 7 136 32] true]
    | some .modCountryCap =>
        [.fixed (.program .modCountryCap) false,
          .externalPda (place + 1)
            [.literal .countryCount, .accountKey place, .accountData 7 224 2] true,
          .externalPda (place + 1)
            [.literal .countryCount, .accountKey place, .accountData 7 226 2] true]
    | _ => []

/-- The entries of modules that are passed one after the other. -/
def listEntries (L : Ledger) : ℕ → ℕ → List Pubkey → List ExtraAccountMeta
  | _, _, [] => []
  | place, index, moduleKey :: rest =>
      moduleEntries L place index moduleKey ++
        listEntries L (place + metaCount L moduleKey) (index + 1) rest

section Entries

variable {L L₁ : Ledger} {state state' : ComplianceState} {metas metas' : List ExtraAccountMeta}
  {moduleKey : Pubkey} {stored : List Pubkey} {place index : ℕ}

@[simp] theorem checkedByte_eq_ok {n m : ℕ} : checkedByte n = .ok m ↔ n ≤ 255 ∧ n = m := by
  simp [checkedByte]

theorem moduleEntries_length :
    (moduleEntries L place index moduleKey).length = metaCount L moduleKey := by
  unfold moduleEntries metaCount
  generalize routedBy L moduleKey = name
  split <;> rfl

theorem routedBy_cases (L : Ledger) (moduleKey : Pubkey) :
    routedBy L moduleKey = none ∨ routedBy L moduleKey = some .modMaxInvestors ∨
      routedBy L moduleKey = some .modDailyLimit ∨ routedBy L moduleKey = some .modCountryCap := by
  unfold routedBy routedKind
  split <;> simp

/-- The check and the entries of a module by the program that it is held by. -/
theorem pushModuleMetas_eq : pushModuleMetas L metas moduleKey index = (do
    let place ← checkedByte (5 + metas.length)
    let entries ← pushComplianceModuleMeta metas index
    match routedBy L moduleKey with
    | some .modMaxInvestors => do
        require ((L.accounts moduleKey).owner = .program .modMaxInvestors)
          (.hook .invalidComplianceModule)
        .ok (entries ++ [.fixed (.program .modMaxInvestors) false])
    | some .modDailyLimit => do
        require ((L.accounts moduleKey).owner = .program .modDailyLimit)
          (.hook .invalidComplianceModule)
        let programIndex ← checkedByte (place + 1)
        .ok (entries ++ [.fixed (.program .modDailyLimit) false,
          .externalPda programIndex
            [.literal .dailyUsage, .accountKey place, .accountData 7 136 32] true])
    | some .modCountryCap => do
        require ((L.accounts moduleKey).owner = .program .modCountryCap)
          (.hook .invalidComplianceModule)
        let programIndex ← checkedByte (place + 1)
        .ok (entries ++ [.fixed (.program .modCountryCap) false,
          .externalPda programIndex
            [.literal .countryCount, .accountKey place, .accountData 7 224 2] true,
          .externalPda programIndex
            [.literal .countryCount, .accountKey place, .accountData 7 226 2] true])
    | _ => .ok entries) := by
  unfold pushModuleMetas routedBy
  generalize (L.accounts moduleKey).data = data
  cases data <;> rfl

/-- The entries of a module are added unless its place in the compliance account
is out of reach of a byte or it is not held by its program. -/
theorem pushModuleMetas_eq_ok (hlength : metas.length < 250) :
    pushModuleMetas L metas moduleKey index = .ok metas' ↔
      index < 6 ∧ HeldByProgram L moduleKey ∧
        metas' = metas ++ moduleEntries L (5 + metas.length) index moduleKey := by
  have hplace : 5 + metas.length ≤ 255 := by omega
  have hnext : 5 + metas.length + 1 ≤ 255 := by omega
  have hoffset : 76 + min (index * 32) 255 ≤ 255 ↔ index < 6 := by omega
  have hdata : index < 6 → 76 + min (index * 32) 255 = 76 + 32 * index := by omega
  simp only [pushModuleMetas_eq, pushComplianceModuleMeta, HeldByProgram, moduleEntries, bind_eq_ok,
    checkedByte_eq_ok, Except.ok.injEq]
  constructor
  · rintro ⟨_, ⟨-, rfl⟩, _, ⟨_, ⟨hindex, rfl⟩, rfl⟩, h⟩
    have hfits := hoffset.1 hindex
    rw [hdata hfits] at h
    refine ⟨hfits, ?_⟩
    rcases routedBy_cases L moduleKey with hrouted | hrouted | hrouted | hrouted <;>
      simp only [hrouted, bind_eq_ok, require_eq_ok, checkedByte_eq_ok, exists_const,
        Except.ok.injEq] at h ⊢
    · exact ⟨fun name hname ↦ (nomatch hname), h.symm⟩
    · obtain ⟨howner, rfl⟩ := h
      refine ⟨fun name hname ↦ Option.some.inj hname ▸ howner, ?_⟩
      rw [List.append_assoc, List.singleton_append]
    · obtain ⟨howner, _, ⟨-, rfl⟩, rfl⟩ := h
      refine ⟨fun name hname ↦ Option.some.inj hname ▸ howner, ?_⟩
      rw [List.append_assoc, List.singleton_append]
    · obtain ⟨howner, _, ⟨-, rfl⟩, rfl⟩ := h
      refine ⟨fun name hname ↦ Option.some.inj hname ▸ howner, ?_⟩
      rw [List.append_assoc, List.singleton_append]
  · rintro ⟨hfits, hheld, rfl⟩
    refine ⟨_, ⟨hplace, rfl⟩, _, ⟨_, ⟨hoffset.2 hfits, rfl⟩, rfl⟩, ?_⟩
    rw [hdata hfits]
    rcases routedBy_cases L moduleKey with hrouted | hrouted | hrouted | hrouted <;>
      simp only [hrouted, bind_eq_ok, require_eq_ok, checkedByte_eq_ok, exists_const,
        Except.ok.injEq]
    · exact ⟨hheld _ hrouted, by rw [List.append_assoc, List.singleton_append]⟩
    · exact ⟨hheld _ hrouted, _, ⟨hnext, rfl⟩, by rw [List.append_assoc, List.singleton_append]⟩
    · exact ⟨hheld _ hrouted, _, ⟨hnext, rfl⟩, by rw [List.append_assoc, List.singleton_append]⟩

/-- Modules that have been added are within reach and held by their programs, and
their entries follow one another. -/
theorem pushAllModules_ok (hlength : metas.length ≤ 5 + 4 * index)
    (h : pushAllModules L state stored index metas = .ok metas') :
    (stored = [] ∨ index + stored.length ≤ 6) ∧ (∀ k ∈ stored, HeldByProgram L k) ∧
      metas' = metas ++ listEntries L (5 + metas.length) index stored := by
  induction stored generalizing index metas with
  | nil =>
      obtain rfl := Except.ok.inj h
      simp [listEntries]
  | cons moduleKey rest ih =>
      simp only [pushAllModules, bind_eq_ok, require_eq_ok, exists_const] at h
      obtain ⟨_, hread, rfl, metas₁, hpush, hrest⟩ := h
      have hindex : index < 15 := by
        simp only [readComplianceModuleKey, bind_eq_ok, require_eq_ok, exists_const] at hread
        omega
      obtain ⟨hfits, hheld, rfl⟩ := (pushModuleMetas_eq_ok (by omega)).1 hpush
      have hnext : (metas ++ moduleEntries L (5 + metas.length) index moduleKey).length =
          metas.length + metaCount L moduleKey := by
        rw [List.length_append, moduleEntries_length]
      have hcount := metaCount_le L moduleKey
      obtain ⟨hplaces, hall, rfl⟩ := ih (by omega) hrest
      refine ⟨.inr ?_, List.forall_mem_cons.2 ⟨hheld, hall⟩, ?_⟩
      · rw [List.length_cons]
        rcases hplaces with rfl | hplaces
        · exact hfits
        · omega
      · rw [listEntries, hnext, List.append_assoc, Nat.add_assoc]

/-- The modules of the compliance state from `index` on can be added when they
are within reach and held by their programs. -/
theorem pushAllModules_drop (hlimit : state.modules.length ≤ 15)
    (hstored : state.modules.drop index = stored) (hlength : metas.length ≤ 5 + 4 * index)
    (hreach : index + stored.length ≤ 6) (hheld : ∀ k ∈ stored, HeldByProgram L k) :
    ∃ metas', pushAllModules L state stored index metas = .ok metas' := by
  induction stored generalizing index metas with
  | nil => exact ⟨metas, rfl⟩
  | cons moduleKey rest ih =>
      have hhead : state.modules[index]? = some moduleKey := by
        rw [← List.head?_drop, hstored, List.head?_cons]
      have hrest : state.modules.drop (index + 1) = rest := by
        rw [← List.drop_drop, hstored, List.drop_one, List.tail_cons]
      have hindex : index < state.modules.length := (List.getElem?_eq_some_iff.1 hhead).1
      rw [List.length_cons] at hreach
      have hroom : metas.length < 250 := by omega
      have hread : readComplianceModuleKey state index = .ok moduleKey := by
        simp only [readComplianceModuleKey, bind_eq_ok, require_eq_ok, okOr_eq_ok, exists_const]
        exact ⟨⟨hindex, hlimit⟩, hhead⟩
      obtain ⟨hfirst, hall⟩ := List.forall_mem_cons.1 hheld
      have hnext : (metas ++ moduleEntries L (5 + metas.length) index moduleKey).length ≤
          5 + 4 * (index + 1) := by
        have hcount := metaCount_le L moduleKey
        rw [List.length_append, moduleEntries_length]
        omega
      obtain ⟨metas', hpush⟩ := ih hrest hnext (by omega) hall
      refine ⟨metas', ?_⟩
      simp only [pushAllModules, bind_eq_ok, require_eq_ok, exists_const]
      exact ⟨moduleKey, hread, rfl, _, (pushModuleMetas_eq_ok hroom).2 ⟨by omega, hfirst, rfl⟩,
        hpush⟩

theorem buildMetas_ok {list : ExtraAccountMetaList} (h : buildMetas L state stored = .ok list) :
    stored.length ≤ 6 ∧ (∀ k ∈ stored, HeldByProgram L k) ∧
      list = ⟨baseMetas ++ listEntries L 10 0 stored⟩ := by
  simp only [buildMetas, bind_eq_ok, require_eq_ok, exists_const, Except.ok.injEq] at h
  obtain ⟨-, metas, hpush, rfl⟩ := h
  obtain ⟨hplaces, hheld, rfl⟩ := pushAllModules_ok (le_refl _) hpush
  refine ⟨?_, hheld, rfl⟩
  rcases hplaces with rfl | hplaces
  · exact Nat.zero_le _
  · omega

/-- With all bound modules at hand the list can be built exactly when there are
at most six of them, each held by its program. -/
theorem buildMetas_modules {list : ExtraAccountMetaList} :
    buildMetas L state state.modules = .ok list ↔
      (state.modules.length ≤ 6 ∧ ∀ k ∈ state.modules, HeldByProgram L k) ∧
        list = ⟨baseMetas ++ listEntries L 10 0 state.modules⟩ := by
  constructor
  · intro h
    obtain ⟨hroom, hheld, hlist⟩ := buildMetas_ok h
    exact ⟨⟨hroom, hheld⟩, hlist⟩
  · rintro ⟨⟨hroom, hheld⟩, rfl⟩
    have hlimit : state.modules.length ≤ 15 := by omega
    obtain ⟨metas, hpush⟩ := pushAllModules_drop hlimit List.drop_zero
      (le_refl baseMetas.length) (by omega) hheld
    obtain ⟨-, -, rfl⟩ := pushAllModules_ok (le_refl _) hpush
    simp only [buildMetas, bind_eq_ok, require_eq_ok, exists_const, Except.ok.injEq]
    exact ⟨hlimit, _, hpush, rfl⟩

/-- The list depends on the modules of the compliance state only. -/
theorem pushAllModules_congr (h : state'.modules = state.modules) :
    pushAllModules L state' stored index metas = pushAllModules L state stored index metas := by
  induction stored generalizing index metas with
  | nil => rfl
  | cons moduleKey rest ih => simp only [pushAllModules, readComplianceModuleKey, h, ih]

theorem buildMetas_congr (h : state'.modules = state.modules) :
    buildMetas L state' stored = buildMetas L state stored := by
  simp only [buildMetas, pushAllModules_congr h]

/-- A new account holds no module, so its creation changes no entry. -/
theorem buildMetas_createAccount {payer k : Pubkey} {space : ℕ}
    (h : L.createAccount payer k .fracksTokenHook space = .ok L₁) :
    buildMetas L₁ state stored = buildMetas L state stored := by
  obtain ⟨hvacant, hother, hnew, -⟩ := createAccount_ok h
  have hpush : ∀ metas moduleKey index,
      pushModuleMetas L₁ metas moduleKey index = pushModuleMetas L metas moduleKey index := by
    intro metas moduleKey index
    by_cases hk : moduleKey = k
    · rw [hk, pushModuleMetas, pushModuleMetas, hnew, hvacant]
      rfl
    · rw [pushModuleMetas, pushModuleMetas, hother moduleKey hk]
  have hall : ∀ metas index,
      pushAllModules L₁ state stored index metas = pushAllModules L state stored index metas := by
    induction stored with
    | nil => exact fun _ _ ↦ rfl
    | cons moduleKey rest ih =>
        intro metas index
        simp only [pushAllModules, hpush, ih]
  simp only [buildMetas, hall]

end Entries

/-! ## Storing the list -/

/-- What the instructions that store the list check besides the modules. -/
structure MetasReady (L : Ledger) (signers : List Pubkey) (accts : MetasAccounts) (ts : TokenState)
    (state : ComplianceState) : Prop where
  signed : accts.payer ∈ signers
  address : accts.extraAccountMetas =
    extraAccountMetasAddress accts.tokenMintAccount hookProgram
  tokenState : L.accounts accts.tokenState = account ts
  tokenMint : ts.tokenMint = accts.tokenMintAccount
  compliance : accts.complianceState = ts.compliance
  complianceState : L.accounts ts.compliance = account state
  linked : state.tokenMint = ts.tokenMint
  mint : validateTokenMintAccount L accts.tokenMintAccount accts.tokenState ts = .ok ()

/-- The first list is stored by the owner of the token. -/
structure InitializeReady (L : Ledger) (accts : MetasAccounts) (ts : TokenState) : Prop where
  owner : ∃ o : OwnerState, L.accounts accts.ownerState = account o ∧ o.owner = accts.payer ∧
    o.tokenMint = ts.tokenMint
  created : ∃ L₁, L.createAccount accts.payer accts.extraAccountMetas .fracksTokenHook
    extraAccountMetasSpace = .ok L₁

/-- A list is there already. -/
def RefreshReady (L : Ledger) (accts : MetasAccounts) : Prop :=
  ∃ old : ExtraAccountMetaList, L.accounts accts.extraAccountMetas = account old

section Storing

variable {L L' : Ledger} {signers : List Pubkey} {accts : MetasAccounts} {ts : TokenState}
  {state : ComplianceState}

/-- The checks read no account that has just been created. -/
theorem checks_createAccount {payer k : Pubkey} {space : ℕ} {L₁ : Ledger}
    (h : L.createAccount payer k .fracksTokenHook space = .ok L₁) :
    readTokenState L₁ = readTokenState L ∧ validateOwnerState L₁ = validateOwnerState L ∧
      validateComplianceState L₁ = validateComplianceState L ∧
        validateTokenMintAccount L₁ = validateTokenMintAccount L := by
  refine ⟨?_, ?_, ?_, ?_⟩
  · funext x
    rw [readTokenState, view_createAccount h, readTokenState]
  · funext x owner mint
    rw [validateOwnerState, view_createAccount h, validateOwnerState]
  · funext x expected mint
    rw [validateComplianceState, view_createAccount h, validateComplianceState]
  · funext mint x ts
    rw [validateTokenMintAccount, view_createAccount h, validateTokenMintAccount]

theorem readTokenState_eq_ok {k : Pubkey} :
    readTokenState L k = .ok ts ↔ L.accounts k = account ts := by
  rw [readTokenState, okOr_eq_ok, view_eq_some]

theorem validateOwnerState_eq_ok {k owner tokenMint : Pubkey} :
    validateOwnerState L k owner tokenMint = .ok () ↔
      ∃ o : OwnerState, L.accounts k = account o ∧ o.owner = owner ∧ o.tokenMint = tokenMint := by
  simp [validateOwnerState, view_eq_some]

theorem validateComplianceState_eq_ok {k expected tokenMint : Pubkey} :
    validateComplianceState L k expected tokenMint = .ok state ↔
      k = expected ∧ L.accounts k = account state ∧ state.tokenMint = tokenMint := by
  simp only [validateComplianceState, bind_eq_ok, require_eq_ok, okOr_eq_ok, view_eq_some,
    exists_const, Except.ok.injEq]
  constructor
  · rintro ⟨hk, _, hstate, hlinked, rfl⟩
    exact ⟨hk, hstate, hlinked⟩
  · rintro ⟨hk, hstate, hlinked⟩
    exact ⟨hk, state, hstate, hlinked, rfl⟩

theorem initializeExtraAccountMetas_eq_ok :
    initializeExtraAccountMetas L signers accts = .ok L' ↔
      ∃ ts state list L₁, MetasReady L signers accts ts state ∧ InitializeReady L accts ts ∧
        L.createAccount accts.payer accts.extraAccountMetas .fracksTokenHook
          extraAccountMetasSpace = .ok L₁ ∧
        buildMetas L state accts.remaining = .ok list ∧
          L' = L₁.put accts.extraAccountMetas list := by
  simp only [initializeExtraAccountMetas, bind_eq_ok, requireSigner_eq_ok, requireSeeds_eq_ok,
    require_eq_ok, exists_const, Except.ok.injEq]
  constructor
  · rintro ⟨hsigned, haddress, L₁, hcreate, ts, hts, _, howner, state, hstate, hmint, _, hvalid,
      list, hlist, rfl⟩
    obtain ⟨htoken, howners, hcompliance, hmints⟩ := checks_createAccount hcreate
    rw [htoken, readTokenState_eq_ok] at hts
    rw [howners, validateOwnerState_eq_ok] at howner
    rw [hcompliance, validateComplianceState_eq_ok] at hstate
    rw [hmints] at hvalid
    rw [buildMetas_createAccount hcreate] at hlist
    obtain ⟨hkey, hstate, hlinked⟩ := hstate
    exact ⟨ts, state, list, L₁, ⟨hsigned, haddress, hts, hmint, hkey, hkey ▸ hstate, hlinked,
      hvalid⟩, ⟨howner, L₁, hcreate⟩, hcreate, hlist, rfl⟩
  · rintro ⟨ts, state, list, L₁, h, hready, hcreate, hlist, rfl⟩
    obtain ⟨htoken, howners, hcompliance, hmints⟩ := checks_createAccount hcreate
    rw [← buildMetas_createAccount hcreate] at hlist
    refine ⟨h.signed, h.address, L₁, hcreate, ts, ?_, (), ?_, state, ?_, h.tokenMint, (), ?_, list,
      hlist, rfl⟩
    · rw [htoken, readTokenState_eq_ok]
      exact h.tokenState
    · rw [howners, validateOwnerState_eq_ok]
      exact hready.owner
    · rw [hcompliance, validateComplianceState_eq_ok]
      exact ⟨h.compliance, h.compliance ▸ h.complianceState, h.linked⟩
    · rw [hmints]
      exact h.mint

theorem refreshExtraAccountMetas_eq_ok :
    refreshExtraAccountMetas L signers accts = .ok L' ↔
      ∃ ts state list, MetasReady L signers accts ts state ∧ RefreshReady L accts ∧
        buildMetas L state accts.remaining = .ok list ∧
          L' = L.put accts.extraAccountMetas list := by
  simp only [refreshExtraAccountMetas, readTokenState_eq_ok, validateComplianceState_eq_ok,
    bind_eq_ok, requireSigner_eq_ok, requireSeeds_eq_ok, require_eq_ok, okOr_eq_ok, view_eq_some,
    exists_const, Except.ok.injEq]
  constructor
  · rintro ⟨hsigned, haddress, ts, hts, state, ⟨hkey, hstate, hlinked⟩, hmint, _, hvalid, old,
      hold, list, hlist, rfl⟩
    exact ⟨ts, state, list, ⟨hsigned, haddress, hts, hmint, hkey, hkey ▸ hstate, hlinked, hvalid⟩,
      ⟨old, hold⟩, hlist, rfl⟩
  · rintro ⟨ts, state, list, h, ⟨old, hold⟩, hlist, rfl⟩
    exact ⟨h.signed, h.address, ts, h.tokenState, state, ⟨h.compliance,
      h.compliance ▸ h.complianceState, h.linked⟩, h.tokenMint, (), h.mint, old, hold, list, hlist,
      rfl⟩

/-- The stored list resolves, in every later transfer of the mint under the same
modules, to the fixed accounts and to each module with its support accounts. -/
def CoversModules (L L' : Ledger) (mint : Pubkey) (modules : List Pubkey) : Prop :=
  ∃ list : ExtraAccountMetaList,
    L'.accounts (extraAccountMetasAddress mint hookProgram) = account list ∧
      ∀ (L'' : Ledger) (source destination authority : Pubkey) (ts : TokenState)
        (state : ComplianceState) (a : TransferApproval),
        HookCallAt L'' mint source destination authority ts state a → state.modules = modules →
          resolveMetas L'' hookProgram list.metas (callAccounts mint source destination authority) =
            some (fixedAccounts mint source destination authority ts.compliance ++
              moduleAccounts L a modules)

theorem covers_of_buildMetas {mint : Pubkey} {list : ExtraAccountMetaList}
    (hlist : buildMetas L state state.modules = .ok list)
    (hstored : L'.accounts (extraAccountMetasAddress mint hookProgram) = account list) :
    CoversModules L L' mint state.modules := by
  refine ⟨list, hstored, fun L'' source destination authority ts state' a hcall hsame ↦ ?_⟩
  refine resolve_stored hcall ?_
  rw [buildMetas_congr hsame]
  exact hlist

/-- Given all bound modules, the list that covers them is stored exactly when
there are at most six of them, each held by its program. -/
theorem bound_modules_covered_iff (h : MetasReady L signers accts ts state)
    (hall : accts.remaining = state.modules) :
    (InitializeReady L accts ts →
      ((∃ L', initializeExtraAccountMetas L signers accts = .ok L' ∧
          CoversModules L L' accts.tokenMintAccount state.modules) ↔
        state.modules.length ≤ 6 ∧ ∀ k ∈ state.modules, HeldByProgram L k)) ∧
    (RefreshReady L accts →
      ((∃ L', refreshExtraAccountMetas L signers accts = .ok L' ∧
          CoversModules L L' accts.tokenMintAccount state.modules) ↔
        state.modules.length ≤ 6 ∧ ∀ k ∈ state.modules, HeldByProgram L k)) := by
  -- the records that the checks read are the given ones
  have hunique : ∀ {ts' state'}, MetasReady L signers accts ts' state' →
      ts' = ts ∧ state' = state := by
    intro ts' state' h'
    obtain rfl := account_inj.1 (h'.tokenState.symm.trans h.tokenState)
    exact ⟨rfl, account_inj.1 (h'.complianceState.symm.trans h.complianceState)⟩
  constructor
  · intro hready
    constructor
    · rintro ⟨L', hstored, -⟩
      obtain ⟨ts', state', list, L₁, h', -, -, hlist, -⟩ :=
        initializeExtraAccountMetas_eq_ok.1 hstored
      obtain ⟨rfl, rfl⟩ := hunique h'
      rw [hall] at hlist
      exact (buildMetas_modules.1 hlist).1
    · intro hroom
      obtain ⟨L₁, hcreate⟩ := hready.created
      obtain ⟨list, hlist⟩ : ∃ list, buildMetas L state state.modules = .ok list :=
        ⟨_, buildMetas_modules.2 ⟨hroom, rfl⟩⟩
      refine ⟨L₁.put accts.extraAccountMetas list, initializeExtraAccountMetas_eq_ok.2 ⟨ts, state,
        list, L₁, h, hready, hcreate, hall ▸ hlist, rfl⟩, covers_of_buildMetas hlist ?_⟩
      rw [← h.address]
      exact put_accounts_self list
  · intro hready
    constructor
    · rintro ⟨L', hstored, -⟩
      obtain ⟨ts', state', list, h', -, hlist, -⟩ := refreshExtraAccountMetas_eq_ok.1 hstored
      obtain ⟨rfl, rfl⟩ := hunique h'
      rw [hall] at hlist
      exact (buildMetas_modules.1 hlist).1
    · intro hroom
      obtain ⟨list, hlist⟩ : ∃ list, buildMetas L state state.modules = .ok list :=
        ⟨_, buildMetas_modules.2 ⟨hroom, rfl⟩⟩
      refine ⟨L.put accts.extraAccountMetas list, refreshExtraAccountMetas_eq_ok.2 ⟨ts, state,
        list, h, hready, hall ▸ hlist, rfl⟩, covers_of_buildMetas hlist ?_⟩
      rw [← h.address]
      exact put_accounts_self list

end Storing

/-- The accounts with which the issuer stores the list of a deployment. -/
def deploymentMetasAccounts (d : Deployment) (payer : Pubkey) (remaining : List Pubkey) :
    MetasAccounts where
  payer := payer
  tokenState := d.tokenState
  ownerState := ownerAddress d.tokenMint
  complianceState := d.compliance
  tokenMintAccount := d.tokenMint
  extraAccountMetas := extraAccountMetasAddress d.tokenMint hookProgram
  remaining := remaining

/-- The list of a token with an investor cap is refreshed. -/
theorem capped_modules_covered :
    ∃ L', refreshExtraAccountMetas cappedLedger [cappedDeployment.issuer]
        (deploymentMetasAccounts cappedDeployment cappedDeployment.issuer [investorCap]) = .ok L' ∧
      CoversModules cappedLedger L' cappedDeployment.tokenMint [investorCap] := by
  have hready : MetasReady cappedLedger [cappedDeployment.issuer]
      (deploymentMetasAccounts cappedDeployment cappedDeployment.issuer [investorCap])
      cappedDeployment.tokenStateRecord cappedDeployment.complianceRecord :=
    ⟨by simp [deploymentMetasAccounts], rfl, rfl, rfl, rfl, rfl, rfl, rfl⟩
  refine ((bound_modules_covered_iff hready rfl).2 ⟨⟨cappedDeployment.metas⟩, rfl⟩).2 ⟨?_, ?_⟩
  · change [investorCap].length ≤ 6
    simp
  · intro k hk
    obtain rfl : k = investorCap := List.mem_singleton.1 hk
    intro name hname
    obtain rfl := Option.some.inj hname
    rfl

/-- A token whose issuer has set up seven of the eight modules. -/
def manyModulesDeployment : Deployment where
  tokenMint := .address 0
  issuer := .address 1
  paused := false
  modules := []
  modulesPaused := false
  metas := baseMetas
  wallets := []
  holdings := []

def manyModules : List (Pubkey × Account) :=
  [(.findProgramAddress .modMaxBalance [.key (.address 0)] (.program .modMaxBalance),
      account (⟨.address 1, .address 0, 50⟩ : MaxBalanceModule)),
    (.findProgramAddress .modMaxTransfer [.key (.address 0)] (.program .modMaxTransfer),
      account (⟨.address 1, .address 0, 10⟩ : MaxTransferModule)),
    (.findProgramAddress .modLockup [.key (.address 0)] (.program .modLockup),
      account (⟨.address 1, .address 0, 500⟩ : LockupModule)),
    (.findProgramAddress .modCountry [.key (.address 0)] (.program .modCountryRestrict),
      account (⟨.address 1, .address 0, [276]⟩ : CountryRestrictModule)),
    (manyModulesDeployment.supplyCap, account (manyModulesDeployment.supplyCapRecord 100 0)),
    (manyModulesDeployment.maxInvestors, account (manyModulesDeployment.maxInvestorsRecord 9 0)),
    (HookedModule.moduleAddress DailyTransferLimitModule (.address 0),
      account (⟨.address 1, .address 0, manyModulesDeployment.compliance, 20⟩ :
        DailyTransferLimitModule))]

/-- The deployment with its modules and the given account for the list. -/
def manyModulesLedger (stored : Account) : Ledger :=
  manyModulesDeployment.ledger
    ((extraAccountMetasAddress manyModulesDeployment.tokenMint hookProgram, stored) :: manyModules)

/-- The issuer binds modules in the given order. -/
def bindModules (L : Ledger) (d : Deployment) (modules : List Pubkey) : Result Ledger :=
  modules.foldlM (fun L moduleKey ↦ Compliance.bindModule L [d.issuer] d.issuer d.compliance
    moduleKey) L

def manyModulesAccounts : MetasAccounts :=
  deploymentMetasAccounts manyModulesDeployment manyModulesDeployment.issuer
    (manyModules.map Prod.fst)

def manyModulesState : ComplianceState :=
  { manyModulesDeployment.complianceRecord with modules := manyModules.map Prod.fst }

/-- All seven modules can be bound, but no list can be stored for them, neither
a first one nor a later one. -/
theorem seven_modules_rejected :
    (∃ L, bindModules (manyModulesLedger .vacant) manyModulesDeployment manyModulesState.modules =
        .ok L ∧
      MetasReady L [manyModulesDeployment.issuer] manyModulesAccounts
        manyModulesDeployment.tokenStateRecord manyModulesState ∧
      InitializeReady L manyModulesAccounts manyModulesDeployment.tokenStateRecord ∧
      initializeExtraAccountMetas L [manyModulesDeployment.issuer] manyModulesAccounts =
        .error (.hook .invalidExtraAccountMetas)) ∧
    (∃ L, bindModules (manyModulesLedger (account (⟨baseMetas⟩ : ExtraAccountMetaList)))
        manyModulesDeployment manyModulesState.modules = .ok L ∧
      MetasReady L [manyModulesDeployment.issuer] manyModulesAccounts
        manyModulesDeployment.tokenStateRecord manyModulesState ∧
      RefreshReady L manyModulesAccounts ∧
      refreshExtraAccountMetas L [manyModulesDeployment.issuer] manyModulesAccounts =
        .error (.hook .invalidExtraAccountMetas)) := by
  constructor
  · refine ⟨_, rfl, ⟨?_, rfl, rfl, rfl, rfl, rfl, rfl, rfl⟩, ⟨⟨_, rfl, rfl, rfl⟩, ⟨_, rfl⟩⟩, rfl⟩
    exact List.mem_singleton_self _
  · refine ⟨_, rfl, ⟨?_, rfl, rfl, rfl, rfl, rfl, rfl, rfl⟩, ⟨_, rfl⟩, rfl⟩
    exact List.mem_singleton_self _

end Fracks.TokenHook
