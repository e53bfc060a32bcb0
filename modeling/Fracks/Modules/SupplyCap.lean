import Fracks.Modules.Hooked

/-!
# The supply cap module

`mod_supply_cap` keeps the supply it has been told of and refuses to let it
exceed the cap.
-/

namespace Fracks

instance : HookedModule SupplyCapModule where
  label := .modSupplyCap
  owner := SupplyCapModule.owner
  tokenMint := SupplyCapModule.tokenMint
  hookAuthority := SupplyCapModule.hookAuthority
  withHookAuthority m hookAuthority := { m with hookAuthority }
  notOwner := .supplyCap .notOwner
  notAuthorized := .supplyCap .notAuthorized

end Fracks

namespace Fracks.ModSupplyCap

open Checked AccountType HookedModule

def moduleSpace : ℕ := 8 + 32 + 32 + 32 + 8 + 8 + 1

def initializeModule (L : Ledger) (signers : List Pubkey) (owner moduleState tokenMint : Pubkey)
    (maxSupply : ℕ) : Result Ledger :=
  initializeModuleAccount .modSupplyCap L signers owner moduleState tokenMint moduleSpace
    { owner, tokenMint, hookAuthority := owner, maxSupply, totalSupply := 0 : SupplyCapModule }

def setHookAuthority (L : Ledger) (signers : List Pubkey)
    (owner moduleState hookAuthority : Pubkey) : Result Ledger :=
  HookedModule.setHookAuthority SupplyCapModule L signers owner moduleState hookAuthority

def setMaxSupply (L : Ledger) (signers : List Pubkey) (owner moduleState : Pubkey)
    (maxSupply : ℕ) : Result Ledger :=
  updateModuleOwner L signers owner moduleState fun module : SupplyCapModule ↦ do
    require (module.totalSupply ≤ maxSupply) (.supplyCap .maxSupplyBelowCurrent)
    .ok { module with maxSupply }

/-- The cap concerns mints only. -/
def canTransfer (L : Ledger) (moduleState : Pubkey) : Result Bool := do
  let _ ← readModule .modSupplyCap SupplyCapModule.tokenMint L moduleState
  .ok true

def created (L : Ledger) (signers : List Pubkey) (authority moduleState : Pubkey)
    (amount : ℕ) : Result Ledger :=
  mutateModule L signers authority moduleState fun module : SupplyCapModule ↦ do
    let newTotal ← okOr (checkedAdd module.totalSupply amount) (.supplyCap .arithmeticOverflow)
    require (newTotal ≤ module.maxSupply) (.supplyCap .maxSupplyExceeded)
    .ok { module with totalSupply := newTotal }

def destroyed (L : Ledger) (signers : List Pubkey) (authority moduleState : Pubkey)
    (amount : ℕ) : Result Ledger :=
  mutateModule L signers authority moduleState fun module : SupplyCapModule ↦ do
    let newTotal ← okOr (checkedSub module.totalSupply amount) (.supplyCap .arithmeticOverflow)
    .ok { module with totalSupply := newTotal }

section Specification

variable {L L' : Ledger} {signers : List Pubkey} {owner authority moduleState : Pubkey}

theorem created_eq_ok {amount : ℕ} :
    created L signers authority moduleState amount = .ok L' ↔
      authority ∈ signers ∧ ∃ m : SupplyCapModule, L.accounts moduleState = account m ∧
        moduleState = moduleAddress SupplyCapModule m.tokenMint ∧ isModuleAuthority m authority ∧
          m.totalSupply + amount ≤ u64Max ∧ m.totalSupply + amount ≤ m.maxSupply ∧
            L' = L.put moduleState { m with totalSupply := m.totalSupply + amount } := by
  rw [created, mutateModule_eq_ok]
  refine and_congr_right fun _ ↦ exists_congr fun m ↦ ?_
  simp only [bind_eq_ok, okOr_eq_ok, checkedAdd_eq_some, require_eq_ok, exists_const,
    Except.ok.injEq]
  constructor
  · rintro ⟨m', hm, hkey, hauth, ⟨_, ⟨hmax, rfl⟩, hcap, rfl⟩, rfl⟩
    exact ⟨hm, hkey, hauth, hmax, hcap, rfl⟩
  · rintro ⟨hm, hkey, hauth, hmax, hcap, rfl⟩
    exact ⟨_, hm, hkey, hauth, ⟨_, ⟨hmax, rfl⟩, hcap, rfl⟩, rfl⟩

theorem destroyed_eq_ok {amount : ℕ} :
    destroyed L signers authority moduleState amount = .ok L' ↔
      authority ∈ signers ∧ ∃ m : SupplyCapModule, L.accounts moduleState = account m ∧
        moduleState = moduleAddress SupplyCapModule m.tokenMint ∧ isModuleAuthority m authority ∧
          amount ≤ m.totalSupply ∧
            L' = L.put moduleState { m with totalSupply := m.totalSupply - amount } := by
  rw [destroyed, mutateModule_eq_ok]
  refine and_congr_right fun _ ↦ exists_congr fun m ↦ ?_
  simp only [bind_eq_ok, okOr_eq_ok, checkedSub_eq_some, Except.ok.injEq]
  constructor
  · rintro ⟨m', hm, hkey, hauth, ⟨_, ⟨hle, rfl⟩, rfl⟩, rfl⟩
    exact ⟨hm, hkey, hauth, hle, rfl⟩
  · rintro ⟨hm, hkey, hauth, hle, rfl⟩
    exact ⟨_, hm, hkey, hauth, ⟨_, ⟨hle, rfl⟩, rfl⟩, rfl⟩

theorem setMaxSupply_eq_ok {maxSupply : ℕ} :
    setMaxSupply L signers owner moduleState maxSupply = .ok L' ↔
      owner ∈ signers ∧ ∃ m : SupplyCapModule, L.accounts moduleState = account m ∧
        moduleState = moduleAddress SupplyCapModule m.tokenMint ∧ m.owner = owner ∧
          m.totalSupply ≤ maxSupply ∧ L' = L.put moduleState { m with maxSupply } := by
  rw [setMaxSupply, updateModuleOwner_eq_ok]
  refine and_congr_right fun _ ↦ exists_congr fun m ↦ ?_
  simp only [bind_eq_ok, require_eq_ok, exists_const, Except.ok.injEq]
  constructor
  · rintro ⟨m', hm, hkey, howner, ⟨hle, rfl⟩, rfl⟩
    exact ⟨hm, hkey, howner, hle, rfl⟩
  · rintro ⟨hm, hkey, howner, hle, rfl⟩
    exact ⟨_, hm, hkey, howner, ⟨hle, rfl⟩, rfl⟩

end Specification

end Fracks.ModSupplyCap
