import Fracks.Constraints

/-!
# Module programs

The compliance modules are separate programs of one shape: an account at an
address derived from the token mint, created by `initialize_module`.  The ones
that keep counters also have an owner and a hook authority; the owner changes
the parameters, and either of the two may move the counters.
-/

namespace Fracks

open Checked AccountType

/-- The `InitializeModule` accounts: the module of a mint is created once. -/
def initializeModuleAccount {α : Type} [AccountType α] (label : SeedLabel) (L : Ledger)
    (signers : List Pubkey) (owner moduleState tokenMint : Pubkey) (space : ℕ) (module : α) :
    Result Ledger := do
  requireSigner signers owner
  L.initRecord owner moduleState
    (.findProgramAddress label [.key tokenMint] (.program (kind α).program)) space module

/-- The module of a mint is at the address. -/
def ModuleOfMint {α : Type} [AccountType α] (label : SeedLabel) (tokenMint : α → Pubkey)
    (L : Ledger) (moduleState : Pubkey) : Prop :=
  ∃ module : α, L.accounts moduleState = account module ∧
    moduleState =
      .findProgramAddress label [.key (tokenMint module)] (.program (kind α).program)

/-- The `ReadModule` accounts: nobody signs. -/
def readModule {α : Type} [AccountType α] (label : SeedLabel) (tokenMint : α → Pubkey)
    (L : Ledger) (moduleState : Pubkey) : Result α := do
  let module ← L.load α moduleState
  requireSeeds moduleState
    (.findProgramAddress label [.key (tokenMint module)] (.program (kind α).program))
  .ok module

theorem readModule_eq_ok {α : Type} [AccountType α] {label : SeedLabel} {tokenMint : α → Pubkey}
    {L : Ledger} {moduleState : Pubkey} {module : α} :
    readModule label tokenMint L moduleState = .ok module ↔
      L.accounts moduleState = account module ∧
        moduleState =
          .findProgramAddress label [.key (tokenMint module)] (.program (kind α).program) := by
  simp only [readModule, bind_eq_ok, Ledger.load_eq_ok, requireSeeds_eq_ok, exists_const,
    Except.ok.injEq]
  constructor
  · rintro ⟨m, hm, hkey, rfl⟩
    exact ⟨hm, hkey⟩
  · rintro ⟨hm, hkey⟩
    exact ⟨module, hm, hkey, rfl⟩

/-- A record type of a module with counters. -/
class HookedModule (α : Type) [AccountType α] where
  label : SeedLabel
  owner : α → Pubkey
  tokenMint : α → Pubkey
  hookAuthority : α → Pubkey
  withHookAuthority : α → Pubkey → α
  notOwner : ProgramError
  notAuthorized : ProgramError

namespace HookedModule

variable {α : Type} [AccountType α] [HookedModule α]

variable (α) in
def moduleAddress (mint : Pubkey) : Pubkey :=
  .findProgramAddress (label α) [.key mint] (.program (kind α).program)

abbrev isModuleAuthority (module : α) (authority : Pubkey) : Prop :=
  authority = owner module ∨ authority = hookAuthority module

/-- The checks of `MutateModule` on a loaded module. -/
def checkAuthority (moduleState authority : Pubkey) (module : α) : Result Unit := do
  requireSeeds moduleState (moduleAddress α (tokenMint module))
  require (isModuleAuthority module authority) (notAuthorized α)

/-- The `UpdateModuleOwner` accounts. -/
def updateModuleOwner (L : Ledger) (signers : List Pubkey) (caller moduleState : Pubkey)
    (f : α → Result α) : Result Ledger := do
  requireSigner signers caller
  L.modify moduleState fun module ↦ do
    requireSeeds moduleState (moduleAddress α (tokenMint module))
    require (owner module = caller) (notOwner α)
    f module

/-- The `MutateModule` accounts. -/
def mutateModule (L : Ledger) (signers : List Pubkey) (authority moduleState : Pubkey)
    (f : α → Result α) : Result Ledger := do
  requireSigner signers authority
  L.modify moduleState fun module ↦ do
    checkAuthority moduleState authority module
    f module

variable (α) in
def setHookAuthority (L : Ledger) (signers : List Pubkey)
    (caller moduleState hookAuthority : Pubkey) : Result Ledger :=
  updateModuleOwner L signers caller moduleState fun module : α ↦
    .ok (withHookAuthority module hookAuthority)

variable {L L' : Ledger} {signers : List Pubkey} {caller authority moduleState : Pubkey}

@[simp] theorem checkAuthority_eq_ok {module : α} {u : Unit} :
    checkAuthority moduleState authority module = .ok u ↔
      moduleState = moduleAddress α (tokenMint module) ∧ isModuleAuthority module authority := by
  simp [checkAuthority]

theorem updateModuleOwner_eq_ok {f : α → Result α} :
    updateModuleOwner L signers caller moduleState f = .ok L' ↔
      caller ∈ signers ∧ ∃ m m', L.accounts moduleState = account m ∧
        moduleState = moduleAddress α (tokenMint m) ∧ owner m = caller ∧ f m = .ok m' ∧
          L' = L.put moduleState m' := by
  simp [updateModuleOwner, Ledger.modify_eq_ok, and_assoc]

theorem mutateModule_eq_ok {f : α → Result α} :
    mutateModule L signers authority moduleState f = .ok L' ↔
      authority ∈ signers ∧ ∃ m m', L.accounts moduleState = account m ∧
        moduleState = moduleAddress α (tokenMint m) ∧ isModuleAuthority m authority ∧
          f m = .ok m' ∧ L' = L.put moduleState m' := by
  simp [mutateModule, Ledger.modify_eq_ok, and_assoc]

end HookedModule

theorem initializeModuleAccount_ok {α : Type} [AccountType α] {label : SeedLabel} {L L' : Ledger}
    {signers : List Pubkey} {owner moduleState tokenMint : Pubkey} {space : ℕ} {module : α}
    (h : initializeModuleAccount label L signers owner moduleState tokenMint space module =
      .ok L') :
    owner ∈ signers ∧ L.accounts moduleState = .vacant ∧ L'.accounts moduleState = account module ∧
      ∀ x, x ≠ moduleState → L'.accounts x = L.accounts x := by
  simp only [initializeModuleAccount, bind_eq_ok, requireSigner_eq_ok, exists_const] at h
  exact ⟨h.1, (Ledger.initRecord_ok h.2).2⟩

theorem frame_initializeModuleAccount {α : Type} [AccountType α] {S : List AccountKind}
    {label : SeedLabel} {L L' : Ledger} {signers : List Pubkey}
    {owner moduleState tokenMint : Pubkey} {space : ℕ} {module : α}
    (h : initializeModuleAccount label L signers owner moduleState tokenMint space module = .ok L')
    (hS : kind α ∈ S) : Ledger.Frame S L L' := by
  simp only [initializeModuleAccount, bind_eq_ok, requireSigner_eq_ok, exists_const] at h
  exact .initRecord h.2 hS

/-! ## Holders entering and leaving -/

/-- A move of `amount` that empties the sending account. -/
abbrev senderExits (amount fromBalanceAfter : ℕ) : Prop := 0 < amount ∧ fromBalanceAfter = 0

/-- A move of `amount` into an account that was empty before. -/
abbrev receiverEnters (amount toBalanceAfter : ℕ) : Prop := 0 < amount ∧ toBalanceAfter = amount

/-- Take one off a counter when `c` holds. -/
def decrementIf (c : Prop) [Decidable c] (count : ℕ) (e : ProgramError) : Result ℕ :=
  if c then okOr (checkedSub count 1) e else .ok count

/-- Add one to a counter when `c` holds. -/
def incrementIf (c : Prop) [Decidable c] (count : ℕ) (e : ProgramError) : Result ℕ :=
  if c then okOr (checkedAdd count 1) e else .ok count

@[simp] theorem decrementIf_eq_ok {c : Prop} [Decidable c] {count n : ℕ} {e : ProgramError} :
    decrementIf c count e = .ok n ↔ count = n + (if c then 1 else 0) := by
  unfold decrementIf
  split
  case isTrue => rw [okOr_eq_ok, checkedSub_eq_some']
  case isFalse => simp

@[simp] theorem incrementIf_eq_ok {c : Prop} [Decidable c] {count n : ℕ} {e : ProgramError} :
    incrementIf c count e = .ok n ↔
      n = count + (if c then 1 else 0) ∧ (c → count + 1 ≤ u64Max) := by
  unfold incrementIf
  split
  case isTrue h => simp [h, and_comm]
  case isFalse h => simp [h, eq_comm]

end Fracks
