import Fracks.Compliance
import Fracks.Counters
import Fracks.Lib.Fold

/-!
# What the post-hooks change

Each iteration of a post-hook either leaves the ledger alone or is one call of
one module, made under the address of the compliance state.  From this follow
the frames of the router, the module that answers for a changed counter, and
the effect on a module that is bound once.
-/

namespace Fracks.Compliance

open Checked AccountType Ledger HookedModule

variable {L L' : Ledger} {C M k source : Pubkey} {remaining : List Pubkey}
  {amount fromAfter toAfter fromCountry toCountry : ℕ}

/-! ## One iteration, by the kind of the module -/

theorem moduleTransferred_countryCap {m : InvestorCountryCapModule}
    (hM : L.accounts M = account m) :
    moduleTransferred C remaining source amount fromAfter toAfter fromCountry toCountry L M =
        .ok L' ↔
      M ∈ remaining ∧ (C = m.hookAuthority ∧ .program .modCountryCap ∈ remaining) ∧
        ∃ f, findCountryCountAccount L remaining M (.program .modCountryCap) fromCountry = .ok f ∧
          ∃ t, findCountryCountAccount L remaining M (.program .modCountryCap) toCountry = .ok t ∧
            ModCountryCap.transferred L [C] C M f t amount fromAfter toAfter fromCountry
              toCountry = .ok L' := by
  simp [moduleTransferred, hM, account, encode, kind, AccountKind.program, invokeModule_self]

theorem moduleTransferred_dailyLimit {m : DailyTransferLimitModule}
    (hM : L.accounts M = account m) :
    moduleTransferred C remaining source amount fromAfter toAfter fromCountry toCountry L M =
        .ok L' ↔
      M ∈ remaining ∧ (C = m.hookAuthority ∧ .program .modDailyLimit ∈ remaining) ∧
        ∃ u, findDailyUsageAccount L remaining M (.program .modDailyLimit) source = .ok u ∧
          ModDailyLimit.transferred L [C] C M u source amount = .ok L' := by
  simp [moduleTransferred, hM, account, encode, kind, AccountKind.program, invokeModule_self]

theorem moduleCreated_supplyCap {m : SupplyCapModule} (hM : L.accounts M = account m) :
    moduleCreated C remaining amount toAfter toCountry L M = .ok L' ↔
      M ∈ remaining ∧ (C = m.hookAuthority ∧ .program .modSupplyCap ∈ remaining) ∧
        ModSupplyCap.created L [C] C M amount = .ok L' := by
  simp [moduleCreated, hM, account, encode, kind, AccountKind.program, invokeModule_self]

theorem moduleCreated_countryCap {m : InvestorCountryCapModule} (hM : L.accounts M = account m) :
    moduleCreated C remaining amount toAfter toCountry L M = .ok L' ↔
      M ∈ remaining ∧ (C = m.hookAuthority ∧ .program .modCountryCap ∈ remaining) ∧
        ∃ t, findCountryCountAccount L remaining M (.program .modCountryCap) toCountry = .ok t ∧
          ModCountryCap.created L [C] C M t amount toAfter toCountry = .ok L' := by
  simp [moduleCreated, hM, account, encode, kind, AccountKind.program, invokeModule_self]

theorem moduleDestroyed_supplyCap {m : SupplyCapModule} (hM : L.accounts M = account m) :
    moduleDestroyed C remaining amount fromAfter fromCountry L M = .ok L' ↔
      M ∈ remaining ∧ (C = m.hookAuthority ∧ .program .modSupplyCap ∈ remaining) ∧
        ModSupplyCap.destroyed L [C] C M amount = .ok L' := by
  simp [moduleDestroyed, hM, account, encode, kind, AccountKind.program, invokeModule_self]

theorem moduleDestroyed_countryCap {m : InvestorCountryCapModule}
    (hM : L.accounts M = account m) :
    moduleDestroyed C remaining amount fromAfter fromCountry L M = .ok L' ↔
      M ∈ remaining ∧ (C = m.hookAuthority ∧ .program .modCountryCap ∈ remaining) ∧
        ∃ f, findCountryCountAccount L remaining M (.program .modCountryCap) fromCountry = .ok f ∧
          ModCountryCap.destroyed L [C] C M f amount fromAfter fromCountry = .ok L' := by
  simp [moduleDestroyed, hM, account, encode, kind, AccountKind.program, invokeModule_self]

/-! ## Module calls -/

inductive PostHook
  | transferred
  | created
  | destroyed

/-- The kinds of accounts a post-hook writes. -/
def PostHook.kinds : PostHook → List AccountKind
  | .transferred => [.maxInvestorsModule, .countryInvestorCount, .dailyWalletUsage]
  | .created | .destroyed => [.maxInvestorsModule, .supplyCapModule, .countryInvestorCount]

/-- One call of the module `M` under the address `C`.  These are the only ways
in which a post-hook changes the ledger. -/
inductive ModuleCall (C M : Pubkey) (L L' : Ledger) : PostHook → Prop
  | maxInvestorsTransferred (amount fromAfter toAfter : ℕ) :
      ModMaxInvestors.transferred L [C] C M amount fromAfter toAfter = .ok L' →
        ModuleCall C M L L' .transferred
  | maxInvestorsCreated (amount toAfter : ℕ) :
      ModMaxInvestors.created L [C] C M amount toAfter = .ok L' → ModuleCall C M L L' .created
  | maxInvestorsDestroyed (amount fromAfter : ℕ) :
      ModMaxInvestors.destroyed L [C] C M amount fromAfter = .ok L' →
        ModuleCall C M L L' .destroyed
  | supplyCapCreated (amount : ℕ) :
      ModSupplyCap.created L [C] C M amount = .ok L' → ModuleCall C M L L' .created
  | supplyCapDestroyed (amount : ℕ) :
      ModSupplyCap.destroyed L [C] C M amount = .ok L' → ModuleCall C M L L' .destroyed
  | countryCapTransferred (f t : Pubkey) (amount fromAfter toAfter fromCountry toCountry : ℕ) :
      ModCountryCap.transferred L [C] C M f t amount fromAfter toAfter fromCountry toCountry =
        .ok L' → ModuleCall C M L L' .transferred
  | countryCapCreated (t : Pubkey) (amount toAfter toCountry : ℕ) :
      ModCountryCap.created L [C] C M t amount toAfter toCountry = .ok L' →
        ModuleCall C M L L' .created
  | countryCapDestroyed (f : Pubkey) (amount fromAfter fromCountry : ℕ) :
      ModCountryCap.destroyed L [C] C M f amount fromAfter fromCountry = .ok L' →
        ModuleCall C M L L' .destroyed
  | dailyLimitTransferred (u wallet : Pubkey) (amount : ℕ) :
      ModDailyLimit.transferred L [C] C M u wallet amount = .ok L' →
        ModuleCall C M L L' .transferred

/-- One iteration of a post-hook: nothing, or a call of a module whose hook
authority is the compliance state. -/
def Iteration (hook : PostHook) (C M : Pubkey) (L L' : Ledger) : Prop :=
  L' = L ∨ (L.accounts M).data.hookAuthority = some C ∧ ModuleCall C M L L' hook

theorem iteration_of_invoke {hook : PostHook} {name : ProgramName} {program : Pubkey}
    {call : Result Ledger} (h : invokeModule name program L call = .ok L')
    (hauth : (L.accounts M).data.hookAuthority = some C)
    (hcall : call = .ok L' → ModuleCall C M L L' hook) : Iteration hook C M L L' := by
  unfold invokeModule at h
  split at h
  · exact .inr ⟨hauth, hcall h⟩
  · exact .inl (Except.ok.inj h).symm

theorem moduleTransferred_iteration
    (h : moduleTransferred C remaining source amount fromAfter toAfter fromCountry toCountry L M =
      .ok L') : Iteration .transferred C M L L' := by
  simp only [moduleTransferred, bind_eq_ok, require_eq_ok, exists_const] at h
  obtain ⟨-, h⟩ := h
  split at h
  case h_1 m hm =>
    simp only [bind_eq_ok, prepareCall_eq_ok, exists_const] at h
    obtain ⟨⟨rfl, -⟩, hcall⟩ := h
    exact iteration_of_invoke hcall (hm ▸ rfl) (.maxInvestorsTransferred _ _ _)
  case h_2 m hm =>
    simp only [bind_eq_ok, prepareCall_eq_ok, exists_const] at h
    obtain ⟨⟨rfl, -⟩, u, -, hcall⟩ := h
    exact iteration_of_invoke hcall (hm ▸ rfl) (.dailyLimitTransferred _ _ _)
  case h_3 m hm =>
    simp only [bind_eq_ok, prepareCall_eq_ok, exists_const] at h
    obtain ⟨⟨rfl, -⟩, f, -, t, -, hcall⟩ := h
    exact iteration_of_invoke hcall (hm ▸ rfl) (.countryCapTransferred _ _ _ _ _ _ _)
  case h_4 => exact .inl (Except.ok.inj h).symm

theorem moduleCreated_iteration
    (h : moduleCreated C remaining amount toAfter toCountry L M = .ok L') :
    Iteration .created C M L L' := by
  simp only [moduleCreated, bind_eq_ok, require_eq_ok, exists_const] at h
  obtain ⟨-, h⟩ := h
  split at h
  case h_5 m hm =>
    simp only [bind_eq_ok, prepareCall_eq_ok, exists_const] at h
    obtain ⟨⟨rfl, -⟩, hcall⟩ := h
    exact iteration_of_invoke hcall (hm ▸ rfl) (.maxInvestorsCreated _ _)
  case h_6 m hm =>
    simp only [bind_eq_ok, prepareCall_eq_ok, exists_const] at h
    obtain ⟨⟨rfl, -⟩, hcall⟩ := h
    exact iteration_of_invoke hcall (hm ▸ rfl) (.supplyCapCreated _)
  case h_7 m hm =>
    simp only [bind_eq_ok, prepareCall_eq_ok, exists_const] at h
    obtain ⟨⟨rfl, -⟩, t, -, hcall⟩ := h
    exact iteration_of_invoke hcall (hm ▸ rfl) (.countryCapCreated _ _ _ _)
  -- the modules that only check leave the ledger alone
  all_goals
    simp only [bind_eq_ok, require_eq_ok, exists_const, Except.ok.injEq] at h
    first
      | exact .inl h.symm
      | exact .inl h.2.symm

theorem moduleDestroyed_iteration
    (h : moduleDestroyed C remaining amount fromAfter fromCountry L M = .ok L') :
    Iteration .destroyed C M L L' := by
  simp only [moduleDestroyed, bind_eq_ok, require_eq_ok, exists_const] at h
  obtain ⟨-, h⟩ := h
  split at h
  case h_1 m hm =>
    simp only [bind_eq_ok, prepareCall_eq_ok, exists_const] at h
    obtain ⟨⟨rfl, -⟩, hcall⟩ := h
    exact iteration_of_invoke hcall (hm ▸ rfl) (.maxInvestorsDestroyed _ _)
  case h_2 m hm =>
    simp only [bind_eq_ok, prepareCall_eq_ok, exists_const] at h
    obtain ⟨⟨rfl, -⟩, hcall⟩ := h
    exact iteration_of_invoke hcall (hm ▸ rfl) (.supplyCapDestroyed _)
  case h_3 m hm =>
    simp only [bind_eq_ok, prepareCall_eq_ok, exists_const] at h
    obtain ⟨⟨rfl, -⟩, f, -, hcall⟩ := h
    exact iteration_of_invoke hcall (hm ▸ rfl) (.countryCapDestroyed _ _ _ _)
  case h_4 => exact .inl (Except.ok.inj h).symm

/-! ## Frames and changes -/

theorem moduleAddress_ne_default {α : Type} [AccountType α] [HookedModule α] (mint : Pubkey) :
    moduleAddress α mint ≠ .default := by
  simp [moduleAddress, Pubkey.findProgramAddress, Pubkey.addSeed, Pubkey.default]

section Change

variable {hook : PostHook}

/-- Writing back a module with a new counter. -/
theorem change_put_module {α : Type} [AccountType α] {a a' : α} (h : L.accounts M = account a)
    (hM : (account a).counterModule M = some M)
    (hsame : SameModule M (account a) (account a')) :
    CounterChange (fun _ M' ↦ M' = M) L (L.put M a') :=
  .put h hM rfl hsame

/-- Writing back a count record of the module. -/
theorem change_put_count {c c' : CountryInvestorCount} (h : L.accounts k = account c)
    (hM : c.module = M) (hM' : c'.module = M) :
    CounterChange (fun _ M' ↦ M' = M) L (L.put k c') := by
  refine .put h (M := M) ?_ rfl ⟨?_, ?_, rfl, rfl⟩
  · simp [Account.counterModule, kind, encode, hM]
  · simp
  · simp [Account.counterModule, kind, encode, hM, hM']

/-- A call of a module changes only counters of that module. -/
theorem ModuleCall.change (h : ModuleCall C M L L' hook) :
    CounterChange (fun _ M' ↦ M' = M) L L' := by
  cases h with
  | maxInvestorsTransferred _ _ _ h =>
      obtain ⟨-, m, n, hm, -, -, -, rfl⟩ := ModMaxInvestors.transferred_ok h
      exact change_put_module hm rfl ⟨by simp, rfl, rfl, rfl⟩
  | maxInvestorsCreated _ _ h =>
      obtain ⟨-, m, hm, -, -, rfl⟩ := ModMaxInvestors.created_ok h
      exact change_put_module hm rfl ⟨by simp, rfl, rfl, rfl⟩
  | maxInvestorsDestroyed _ _ h =>
      obtain ⟨-, m, n, hm, -, -, -, rfl⟩ := ModMaxInvestors.destroyed_eq_ok.1 h
      exact change_put_module hm rfl ⟨by simp, rfl, rfl, rfl⟩
  | supplyCapCreated _ h =>
      obtain ⟨-, m, hm, -, -, -, -, rfl⟩ := ModSupplyCap.created_eq_ok.1 h
      exact change_put_module hm rfl ⟨by simp, rfl, rfl, rfl⟩
  | supplyCapDestroyed _ h =>
      obtain ⟨-, m, hm, -, -, -, rfl⟩ := ModSupplyCap.destroyed_eq_ok.1 h
      exact change_put_module hm rfl ⟨by simp, rfl, rfl, rfl⟩
  | countryCapTransferred f t _ _ _ _ _ h =>
      obtain ⟨-, m, cf, ct, cf', ct', -, hf, ht, hkey, -, hfm, htm, hcounts, rfl⟩ :=
        ModCountryCap.transferred_ok h
      have hne : M ≠ .default := hkey ▸ moduleAddress_ne_default _
      obtain ⟨⟨hfm', -, -⟩, htm', -, -⟩ :=
        ModCountryCap.updateCounts_ok (hfm ▸ hne) (htm ▸ hne) hcounts
      refine (change_put_count hf hfm (hfm'.trans hfm)).trans ?_
      -- the second account may be the one just written
      by_cases htf : t = f
      · subst htf
        exact change_put_count (put_accounts_self cf') (hfm'.trans hfm) (htm'.trans htm)
      · exact change_put_count (by rw [put_accounts_of_ne cf' htf, ht]) htm (htm'.trans htm)
  | countryCapCreated t _ _ _ h =>
      obtain ⟨-, m, c, c', -, hc, hkey, -, hmodule, hcount, rfl⟩ :=
        ModCountryCap.updateSingleCountryCount_ok h
      have hne : c.module ≠ .default := hmodule ▸ hkey ▸ moduleAddress_ne_default _
      obtain ⟨hmodule', -, -⟩ := ModCountryCap.onlyIf_enter_ok hne hcount
      exact change_put_count hc hmodule (hmodule'.trans hmodule)
  | countryCapDestroyed f _ _ _ h =>
      obtain ⟨-, m, c, c', -, hc, hkey, -, hmodule, hcount, rfl⟩ :=
        ModCountryCap.updateSingleCountryCount_ok h
      have hne : c.module ≠ .default := hmodule ▸ hkey ▸ moduleAddress_ne_default _
      obtain ⟨hmodule', -, -⟩ := ModCountryCap.onlyIf_leave_ok hne hcount
      exact change_put_count hc hmodule (hmodule'.trans hmodule)
  | dailyLimitTransferred u wallet _ h =>
      obtain ⟨-, m, r, -, hr, -, -, -, hmodule, -, -, rfl⟩ := ModDailyLimit.transferred_ok h
      have hmodule' : (ModDailyLimit.refreshWindow r L.now).module = M := by
        unfold ModDailyLimit.refreshWindow
        split <;> exact hmodule
      refine .put hr (M := M) ?_ rfl ⟨?_, ?_, rfl, rfl⟩
      · simp [Account.counterModule, kind, encode, hmodule]
      · simp
      · simp [Account.counterModule, kind, encode, hmodule, hmodule']

theorem ModuleCall.frame (h : ModuleCall C M L L' hook) : Frame hook.kinds L L' := by
  cases h with
  | maxInvestorsTransferred _ _ _ h =>
      obtain ⟨-, m, n, hm, -, -, -, rfl⟩ := ModMaxInvestors.transferred_ok h
      exact .put hm (by decide)
  | maxInvestorsCreated _ _ h =>
      obtain ⟨-, m, hm, -, -, rfl⟩ := ModMaxInvestors.created_ok h
      exact .put hm (by decide)
  | maxInvestorsDestroyed _ _ h =>
      obtain ⟨-, m, n, hm, -, -, -, rfl⟩ := ModMaxInvestors.destroyed_eq_ok.1 h
      exact .put hm (by decide)
  | supplyCapCreated _ h =>
      obtain ⟨-, m, hm, -, -, -, -, rfl⟩ := ModSupplyCap.created_eq_ok.1 h
      exact .put hm (by decide)
  | supplyCapDestroyed _ h =>
      obtain ⟨-, m, hm, -, -, -, rfl⟩ := ModSupplyCap.destroyed_eq_ok.1 h
      exact .put hm (by decide)
  | countryCapTransferred f t _ _ _ _ _ h =>
      obtain ⟨-, m, cf, ct, cf', ct', -, hf, ht, -, -, -, -, -, rfl⟩ :=
        ModCountryCap.transferred_ok h
      have hfirst : Frame PostHook.transferred.kinds L (L.put f cf') := .put hf (by decide)
      refine hfirst.trans ?_
      by_cases htf : t = f
      · subst htf
        exact .put (put_accounts_self cf') (by decide)
      · exact .put (a := ct) (by rw [put_accounts_of_ne cf' htf, ht]) (by decide)
  | countryCapCreated t _ _ _ h =>
      obtain ⟨-, m, c, c', -, hc, -, -, -, -, rfl⟩ := ModCountryCap.updateSingleCountryCount_ok h
      exact .put hc (by decide)
  | countryCapDestroyed f _ _ _ h =>
      obtain ⟨-, m, c, c', -, hc, -, -, -, -, rfl⟩ := ModCountryCap.updateSingleCountryCount_ok h
      exact .put hc (by decide)
  | dailyLimitTransferred u wallet _ h =>
      obtain ⟨-, m, r, -, hr, -, -, -, -, -, -, rfl⟩ := ModDailyLimit.transferred_ok h
      exact .put hr (by decide)

theorem Iteration.frame (h : Iteration hook C M L L') : Frame hook.kinds L L' := by
  rcases h with rfl | ⟨-, h⟩
  · exact .refl _ _
  · exact h.frame

/-- An iteration changes only counters of its module, and only when the hook
authority of that module is the compliance state. -/
theorem Iteration.change (h : Iteration hook C M L L') :
    CounterChange (fun _ M' ↦ M' = M ∧ (L.accounts M').data.hookAuthority = some C) L L' := by
  rcases h with rfl | ⟨hauth, h⟩
  · exact .refl _ _
  · exact h.change.mono fun k M' hM' ↦ ⟨hM', hM' ▸ hauth⟩

/-- The counters that a post-hook of the compliance state `C` may change. -/
def RouterMayChange (L : Ledger) (C : Pubkey) (modules : List Pubkey) (_ M : Pubkey) : Prop :=
  M ∈ modules ∧ (L.accounts M).data.hookAuthority = some C

theorem change_foldlM {f : Ledger → Pubkey → Result Ledger} {modules : List Pubkey}
    (hf : ∀ M L L', f L M = .ok L' → Iteration hook C M L L')
    (h : modules.foldlM f L = .ok L') :
    CounterChange (RouterMayChange L C modules) L L' := by
  refine Fold.foldlM_invariant (P := CounterChange (RouterMayChange L C modules) L)
    (fun M hM L₁ L₂ hchange hstep ↦ ?_) h (.refl _ _)
  refine hchange.trans ((hf M L₁ L₂ hstep).change.mono fun k M' hM' ↦ ?_)
  obtain ⟨rfl, hauth⟩ := hM'
  exact ⟨hM, (hchange.same M').hookAuthority ▸ hauth⟩

theorem frame_foldlM {f : Ledger → Pubkey → Result Ledger} {modules : List Pubkey}
    (hf : ∀ M L L', f L M = .ok L' → Iteration hook C M L L')
    (h : modules.foldlM f L = .ok L') : Frame hook.kinds L L' :=
  Fold.foldlM_invariant (P := Frame hook.kinds L)
    (fun M _ L₁ L₂ hframe hstep ↦ hframe.trans (hf M L₁ L₂ hstep).frame) h (.refl _ _)

end Change

/-! ## The router -/

@[simp] theorem readCompliance_eq_ok {state : ComplianceState} :
    readCompliance L C = .ok state ↔
      L.accounts C = account state ∧ C = complianceAddress state.tokenMint := by
  simp only [readCompliance, bind_eq_ok, load_eq_ok, requireSeeds_eq_ok, exists_const,
    Except.ok.injEq]
  constructor
  · rintro ⟨a, ha, hseeds, rfl⟩
    exact ⟨ha, hseeds⟩
  · rintro ⟨ha, hseeds⟩
    exact ⟨state, ha, hseeds, rfl⟩

/-- A successful post-hook: the loop over the modules bound to the compliance
state, unless it is `created` while the modules are paused. -/
theorem transferred_eq_ok :
    transferred L C remaining source amount fromAfter toAfter fromCountry toCountry = .ok L' ↔
      ∃ state : ComplianceState, L.accounts C = account state ∧
        C = complianceAddress state.tokenMint ∧
          state.modules.foldlM (moduleTransferred C remaining source amount fromAfter toAfter
            fromCountry toCountry) L = .ok L' := by
  simp [transferred, and_assoc]

theorem destroyed_eq_ok :
    destroyed L C remaining amount fromAfter fromCountry = .ok L' ↔
      ∃ state : ComplianceState, L.accounts C = account state ∧
        C = complianceAddress state.tokenMint ∧
          state.modules.foldlM (moduleDestroyed C remaining amount fromAfter fromCountry) L =
            .ok L' := by
  simp [destroyed, and_assoc]

theorem created_eq_ok :
    created L C remaining amount toAfter toCountry = .ok L' ↔
      ∃ state : ComplianceState, L.accounts C = account state ∧
        C = complianceAddress state.tokenMint ∧
          ((state.modulesPaused = true ∧ L' = L) ∨ (state.modulesPaused = false ∧
            state.modules.foldlM (moduleCreated C remaining amount toAfter toCountry) L =
              .ok L')) := by
  simp only [created, bind_eq_ok, readCompliance_eq_ok, and_assoc]
  refine exists_congr fun state ↦ and_congr_right fun _ ↦ and_congr_right fun _ ↦ ?_
  cases state.modulesPaused <;> simp [eq_comm]

/-- What a post-hook does, whichever it is. -/
structure RouterStep (hook : PostHook) (C : Pubkey) (state : ComplianceState) (L L' : Ledger) :
    Prop where
  loaded : L.accounts C = account state
  address : C = complianceAddress state.tokenMint
  frame : Frame hook.kinds L L'
  change : CounterChange (RouterMayChange L C state.modules) L L'

theorem transferred_step
    (h : transferred L C remaining source amount fromAfter toAfter fromCountry toCountry =
      .ok L') : ∃ state, RouterStep .transferred C state L L' := by
  obtain ⟨state, hstate, haddress, hloop⟩ := transferred_eq_ok.1 h
  exact ⟨state, hstate, haddress, frame_foldlM (fun _ _ _ ↦ moduleTransferred_iteration) hloop,
    change_foldlM (fun _ _ _ ↦ moduleTransferred_iteration) hloop⟩

theorem destroyed_step (h : destroyed L C remaining amount fromAfter fromCountry = .ok L') :
    ∃ state, RouterStep .destroyed C state L L' := by
  obtain ⟨state, hstate, haddress, hloop⟩ := destroyed_eq_ok.1 h
  exact ⟨state, hstate, haddress, frame_foldlM (fun _ _ _ ↦ moduleDestroyed_iteration) hloop,
    change_foldlM (fun _ _ _ ↦ moduleDestroyed_iteration) hloop⟩

theorem created_step (h : created L C remaining amount toAfter toCountry = .ok L') :
    ∃ state, RouterStep .created C state L L' := by
  obtain ⟨state, hstate, haddress, ⟨-, rfl⟩ | ⟨-, hloop⟩⟩ := created_eq_ok.1 h
  · exact ⟨state, hstate, haddress, .refl _ _, .refl _ _⟩
  · exact ⟨state, hstate, haddress, frame_foldlM (fun _ _ _ ↦ moduleCreated_iteration) hloop,
      change_foldlM (fun _ _ _ ↦ moduleCreated_iteration) hloop⟩

end Fracks.Compliance
