import Fracks.Movements

/-!
# Ways to a counter

Apart from the instructions that move tokens, a counter changes in three ways:
a post-hook of the router that serves its module, a post-hook of the module
itself, or an instruction of the owner of the module.
-/

namespace Fracks

open Checked AccountType Ledger TokenHook HookedModule

/-! ## Calls -/

/-- The compliance state of a direct call of a post-hook. -/
def ComplianceInstruction.router : ComplianceInstruction → Option Pubkey
  | .transferred C _ _ _ _ _ _ _ | .created C _ _ _ _ | .destroyed C _ _ _ _ => some C
  | _ => none

/-- The module whose counters a direct call moves. -/
def ModuleInstruction.called : ModuleInstruction → Option Pubkey
  | .maxInvestorsTransferred _ M _ _ _ | .maxInvestorsCreated _ M _ _
  | .maxInvestorsDestroyed _ M _ _ | .supplyCapCreated _ M _ | .supplyCapDestroyed _ M _
  | .countryCapTransferred _ M _ _ _ _ _ _ _ | .countryCapCreated _ M _ _ _ _
  | .countryCapDestroyed _ M _ _ _ _ | .dailyLimitTransferred _ M _ _ _ => some M
  | _ => none

/-- The module with its own counter that its owner changes. -/
def ModuleInstruction.administered : ModuleInstruction → Option Pubkey
  | .setMaxInvestorsHookAuthority _ M _ | .setSupplyCapHookAuthority _ M _
  | .setMaxSupply _ M _ => some M
  | _ => none

/-- The owner of the module at `M` is among the signers. -/
def OwnerSigned (L : Ledger) (signers : List Pubkey) (M : Pubkey) : Prop :=
  ∃ owner ∈ signers, (L.accounts M).data.moduleOwner = some owner

/-- An instruction that may change the counters of `M` without moving tokens. -/
inductive Reaches (L : Ledger) (signers : List Pubkey) (M : Pubkey) : Instruction → Prop
  | router {i : ComplianceInstruction} (C : Pubkey) (state : ComplianceState) :
      i.router = some C → L.accounts C = account state → M ∈ state.modules →
        (L.accounts M).data.hookAuthority = some C → Reaches L signers M (.compliance i)
  | called {i : ModuleInstruction} : i.called = some M → Reaches L signers M (.module i)
  | administered {i : ModuleInstruction} :
      i.administered = some M → OwnerSigned L signers M → Reaches L signers M (.module i)

variable {L L' : Ledger} {signers : List Pubkey} {k M C : Pubkey}

/-! ## The modules -/

/-- A call of a module under any signatures is one under its authority alone. -/
theorem mutateModule_signers {α : Type} [AccountType α] [HookedModule α] {f : α → Result α}
    (h : mutateModule L signers authority M f = .ok L') :
    mutateModule L [authority] authority M f = .ok L' := by
  rw [mutateModule_eq_ok] at h ⊢
  exact ⟨List.mem_singleton_self _, h.2⟩

/-- A direct call moves counters of its module only. -/
theorem ModuleInstruction.call {i : ModuleInstruction} (hi : i.called = some M)
    (h : i.process L signers = .ok L') :
    ∃ authority hook, Compliance.ModuleCall authority M L L' hook := by
  cases i with
  | maxInvestorsTransferred =>
      obtain rfl := Option.some.inj hi
      exact ⟨_, _, .maxInvestorsTransferred _ _ _ (mutateModule_signers h)⟩
  | maxInvestorsCreated =>
      obtain rfl := Option.some.inj hi
      exact ⟨_, _, .maxInvestorsCreated _ _ (mutateModule_signers h)⟩
  | maxInvestorsDestroyed =>
      obtain rfl := Option.some.inj hi
      exact ⟨_, _, .maxInvestorsDestroyed _ _ (mutateModule_signers h)⟩
  | supplyCapCreated =>
      obtain rfl := Option.some.inj hi
      exact ⟨_, _, .supplyCapCreated _ (mutateModule_signers h)⟩
  | supplyCapDestroyed =>
      obtain rfl := Option.some.inj hi
      exact ⟨_, _, .supplyCapDestroyed _ (mutateModule_signers h)⟩
  | countryCapTransferred authority =>
      obtain rfl := Option.some.inj hi
      obtain ⟨-, -, h⟩ := bind_eq_ok.1 h
      have hsigner : requireSigner [authority] authority = .ok () := by simp
      exact ⟨authority, _, .countryCapTransferred _ _ _ _ _ _ _ (bind_eq_ok.2 ⟨(), hsigner, h⟩)⟩
  | countryCapCreated authority =>
      obtain rfl := Option.some.inj hi
      obtain ⟨-, -, h⟩ := bind_eq_ok.1 h
      have hsigner : requireSigner [authority] authority = .ok () := by simp
      exact ⟨authority, _, .countryCapCreated _ _ _ _ (bind_eq_ok.2 ⟨(), hsigner, h⟩)⟩
  | countryCapDestroyed authority =>
      obtain rfl := Option.some.inj hi
      obtain ⟨-, -, h⟩ := bind_eq_ok.1 h
      have hsigner : requireSigner [authority] authority = .ok () := by simp
      exact ⟨authority, _, .countryCapDestroyed _ _ _ _ (bind_eq_ok.2 ⟨(), hsigner, h⟩)⟩
  | dailyLimitTransferred authority =>
      obtain rfl := Option.some.inj hi
      obtain ⟨-, -, h⟩ := bind_eq_ok.1 h
      have hsigner : requireSigner [authority] authority = .ok () := by simp
      exact ⟨authority, _, .dailyLimitTransferred _ _ _ (bind_eq_ok.2 ⟨(), hsigner, h⟩)⟩
  | _ => simp [ModuleInstruction.called] at hi

/-- The owner's instructions on a module with a counter in its own account. -/
theorem updateModuleOwner_counter {α : Type} [AccountType α] [HookedModule α] {caller : Pubkey}
    {f : α → Result α} (howner : ∀ m : α, (account m).data.moduleOwner = some (owner m))
    (hcounter : ∀ (x : Pubkey) (m : α), (account m).counterModule x = some x)
    (h : updateModuleOwner L signers caller C f = .ok L')
    (hM : (L.accounts k).counterModule k = some M) (hchange : L'.accounts k ≠ L.accounts k) :
    M = C ∧ OwnerSigned L signers M := by
  obtain ⟨hsigned, m, m', hm, -, rfl, -, rfl⟩ := updateModuleOwner_eq_ok.1 h
  by_cases hk : k = C
  · subst hk
    rw [hm, hcounter] at hM
    obtain rfl := Option.some.inj hM
    exact ⟨rfl, _, hsigned, hm ▸ howner m⟩
  · exact absurd (put_accounts_of_ne m' hk) hchange

/-- An initialized module is new, and so are its counters. -/
theorem initializeModuleAccount_untouched {α : Type} [AccountType α] {label : SeedLabel}
    {owner mint : Pubkey} {space : ℕ} {m : α}
    (h : initializeModuleAccount label L signers owner C mint space m = .ok L')
    (hM : (L.accounts k).counterModule k = some M) : L'.accounts k = L.accounts k := by
  obtain ⟨-, hvacant, -, hother⟩ := initializeModuleAccount_ok h
  by_cases hk : k = C
  · subst hk
    simp [hvacant, Account.vacant, Account.counterModule] at hM
  · exact hother k hk

theorem ModuleInstruction.reaches {i : ModuleInstruction} (h : i.process L signers = .ok L')
    (hM : (L.accounts k).counterModule k = some M) (hchange : L'.accounts k ≠ L.accounts k) :
    Reaches L signers M (.module i) := by
  cases hi : i.called with
  | some M' =>
      obtain ⟨authority, hook, hcall⟩ := ModuleInstruction.call hi h
      obtain ⟨M₀, hM₀, rfl⟩ := hcall.change.changes k hchange
      obtain rfl := Option.some.inj (hM.symm.trans hM₀)
      exact .called hi
  | none =>
      cases i with
      | initializeMaxInvestors => exact absurd (initializeModuleAccount_untouched h hM) hchange
      | initializeSupplyCap => exact absurd (initializeModuleAccount_untouched h hM) hchange
      | setMaxInvestorsHookAuthority =>
          obtain ⟨rfl, hsigned⟩ :=
            updateModuleOwner_counter (fun _ ↦ rfl) (fun _ _ ↦ rfl) h hM hchange
          exact .administered rfl hsigned
      | setSupplyCapHookAuthority =>
          obtain ⟨rfl, hsigned⟩ :=
            updateModuleOwner_counter (fun _ ↦ rfl) (fun _ _ ↦ rfl) h hM hchange
          exact .administered rfl hsigned
      | setMaxSupply =>
          obtain ⟨rfl, hsigned⟩ :=
            updateModuleOwner_counter (fun _ ↦ rfl) (fun _ _ ↦ rfl) h hM hchange
          exact .administered rfl hsigned
      | initializeCountryCount _ _ countryCount =>
          obtain ⟨hvacant, -, hother, -⟩ := initializeCountryCount_ok h
          by_cases hk : k = countryCount
          · subst hk
            simp [hvacant, Account.vacant, Account.counterModule] at hM
          · exact absurd (hother k hk) hchange
      | initializeWalletUsage _ _ walletUsage =>
          simp only [ModuleInstruction.process, ModDailyLimit.initializeWalletUsage, bind_eq_ok,
            requireSigner_eq_ok, load_eq_ok, requireSeeds_eq_ok, exists_const] at h
          obtain ⟨-, m, -, -, hinit⟩ := h
          obtain ⟨-, hvacant, -, hother⟩ := initRecord_ok hinit
          by_cases hk : k = walletUsage
          · subst hk
            simp [hvacant, Account.vacant, Account.counterModule] at hM
          · exact absurd (hother k hk) hchange
      | maxInvestorsTransferred | maxInvestorsCreated | maxInvestorsDestroyed | supplyCapCreated
      | supplyCapDestroyed | countryCapTransferred | countryCapCreated | countryCapDestroyed
      | dailyLimitTransferred => cases hi
      | _ => exact absurd (counter_untouched hM (ModuleInstruction.frame h)
          (by simp [ModuleInstruction.kinds, counterKinds])) hchange

/-! ## The router and the hook -/

theorem ComplianceInstruction.reaches {i : ComplianceInstruction}
    (h : i.process L signers = .ok L') (hM : (L.accounts k).counterModule k = some M)
    (hchange : L'.accounts k ≠ L.accounts k) : Reaches L signers M (.compliance i) := by
  have hrouter : ∀ {C hook state}, Compliance.RouterStep hook C state L L' →
      i.router = some C → Reaches L signers M (.compliance i) := by
    intro C hook state hstep hi
    obtain ⟨M', hM', hbound, hauthority⟩ := hstep.change.changes k hchange
    obtain rfl := Option.some.inj (hM.symm.trans hM')
    exact .router C state hi hstep.loaded hbound hauthority
  cases i with
  | transferred =>
      obtain ⟨state, hstep⟩ := Compliance.transferred_step h
      exact hrouter hstep rfl
  | created =>
      obtain ⟨state, hstep⟩ := Compliance.created_step h
      exact hrouter hstep rfl
  | destroyed =>
      obtain ⟨state, hstep⟩ := Compliance.destroyed_step h
      exact hrouter hstep rfl
  | _ =>
      exact absurd (counter_untouched hM (ComplianceInstruction.frame h)
        (by simp [ComplianceInstruction.kinds, counterKinds])) hchange

/-- A direct call of the hook fails: between the instructions no account is in a
transfer. -/
theorem executeTransferHook_refused {accts : ExecuteAccounts} {amount : ℕ} (hL : FlagsDown L) :
    executeTransferHook L accts amount ≠ .ok L' := by
  intro h
  obtain ⟨_, _, _, source, _, hexecuted⟩ := executeTransferHook_ok h
  exact hL _ source hexecuted.sourceAt hexecuted.sourceFlag

theorem HookInstruction.counter {i : HookInstruction} (h : i.process L signers = .ok L')
    (hL : FlagsDown L) (hM : (L.accounts k).counterModule k = some M) :
    L'.accounts k = L.accounts k := by
  cases i with
  | executeTransferHook => exact absurd h (executeTransferHook_refused hL)
  | _ =>
      exact counter_untouched hM (HookInstruction.frame h)
        (by simp [HookInstruction.kinds, counterKinds])

/-! ## Every instruction that moves nothing -/

section Process

variable [Borsh]

theorem TokenInstruction.counter_of_still {i : TokenInstruction}
    (h : i.process L signers = .ok L') (hstill : Instruction.moves (.token i) = false)
    (hM : (L.accounts k).counterModule k = some M) : L'.accounts k = L.accounts k := by
  cases i with
  | mint | purchaseMint | settleSubscriptionMint | burn | forcedTransfer | recovery =>
      cases hstill
  | _ =>
      exact counter_untouched hM (TokenInstruction.frame h)
        (by simp [TokenInstruction.kinds, Irs.identityKinds, counterKinds])

theorem process_reaches {i : Instruction} (h : process L signers i = .ok L')
    (hL : FlagsDown L) (hstill : i.core.moves = false)
    (hM : (L.accounts k).counterModule k = some M) (hchange : L'.accounts k ≠ L.accounts k) :
    Reaches L signers M i.core := by
  induction i with
  | token i => exact absurd (TokenInstruction.counter_of_still h hstill hM) hchange
  | hook i => exact absurd (HookInstruction.counter h hL hM) hchange
  | compliance i => exact ComplianceInstruction.reaches h hM hchange
  | module i => exact ModuleInstruction.reaches h hM hchange
  | token2022 i => cases hstill
  | createTokenMint => cases hstill
  | callModuleFunction owner complianceState inner ih =>
      obtain ⟨_, -, hinner⟩ := bind_eq_ok.1 h
      exact ih hinner hstill

theorem TokenInstruction.books_of_still {i : TokenInstruction}
    (h : i.process L signers = .ok L') (hstill : Instruction.moves (.token i) = false) :
    SameBooks L L' := by
  cases i with
  | mint | purchaseMint | settleSubscriptionMint | burn | forcedTransfer | recovery =>
      cases hstill
  | _ =>
      exact .of_frame (TokenInstruction.frame h)
        (by simp [TokenInstruction.kinds, Irs.identityKinds])
        (by simp [TokenInstruction.kinds, Irs.identityKinds])

/-- An instruction that moves nothing keeps the books of all tokens. -/
theorem process_books {i : Instruction} (h : process L signers i = .ok L')
    (hstill : i.core.moves = false) : SameBooks L L' := by
  induction i with
  | token i => exact TokenInstruction.books_of_still h hstill
  | hook i =>
      have hframe := HookInstruction.frame h
      exact .of_frame hframe (by cases i <;> simp [HookInstruction.kinds, hookKinds])
        (by cases i <;> simp [HookInstruction.kinds, hookKinds])
  | compliance i =>
      have hframe := ComplianceInstruction.frame h
      exact .of_frame hframe
        (by cases i <;> simp [ComplianceInstruction.kinds, Compliance.PostHook.kinds])
        (by cases i <;> simp [ComplianceInstruction.kinds, Compliance.PostHook.kinds])
  | module i =>
      have hframe := ModuleInstruction.frame h
      exact .of_frame hframe (by cases i <;> simp [ModuleInstruction.kinds])
        (by cases i <;> simp [ModuleInstruction.kinds])
  | token2022 i => cases hstill
  | createTokenMint => cases hstill
  | callModuleFunction owner complianceState inner ih =>
      obtain ⟨_, -, hinner⟩ := bind_eq_ok.1 h
      exact ih hinner hstill

end Process

end Fracks
