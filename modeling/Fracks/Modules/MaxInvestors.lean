import Fracks.Modules.Hooked

/-!
# The investor cap module

`mod_max_investors` counts holders.  It is told the balances after a move and
infers from them whether the sender has left and whether the receiver is new.
-/

namespace Fracks

instance : HookedModule MaxInvestorsModule where
  label := .modMaxInvestors
  owner := MaxInvestorsModule.owner
  tokenMint := MaxInvestorsModule.tokenMint
  hookAuthority := MaxInvestorsModule.hookAuthority
  withHookAuthority m hookAuthority := { m with hookAuthority }
  notOwner := .maxInvestors .notOwner
  notAuthorized := .maxInvestors .notAuthorized

end Fracks

namespace Fracks.ModMaxInvestors

open Checked AccountType HookedModule

def moduleSpace : ℕ := 8 + 32 + 32 + 32 + 8 + 8 + 1

def initializeModule (L : Ledger) (signers : List Pubkey) (owner moduleState tokenMint : Pubkey)
    (maxInvestors : ℕ) : Result Ledger :=
  initializeModuleAccount .modMaxInvestors L signers owner moduleState tokenMint moduleSpace
    { owner, tokenMint, hookAuthority := owner, maxInvestors, holderCount := 0 :
      MaxInvestorsModule }

def setHookAuthority (L : Ledger) (signers : List Pubkey)
    (owner moduleState hookAuthority : Pubkey) : Result Ledger :=
  HookedModule.setHookAuthority MaxInvestorsModule L signers owner moduleState hookAuthority

def canTransfer (L : Ledger) (moduleState : Pubkey) (amount toBalance : ℕ) : Result Bool := do
  let module ← readModule .modMaxInvestors MaxInvestorsModule.tokenMint L moduleState
  if toBalance = 0 ∧ 0 < amount then .ok (module.holderCount < module.maxInvestors) else .ok true

def transferred (L : Ledger) (signers : List Pubkey) (authority moduleState : Pubkey)
    (amount fromBalanceAfter toBalanceAfter : ℕ) : Result Ledger :=
  mutateModule L signers authority moduleState fun module : MaxInvestorsModule ↦ do
    let count ← decrementIf (senderExits amount fromBalanceAfter) module.holderCount
      (.maxInvestors .arithmeticOverflow)
    let count ← incrementIf (receiverEnters amount toBalanceAfter) count
      (.maxInvestors .arithmeticOverflow)
    .ok { module with holderCount := count }

def created (L : Ledger) (signers : List Pubkey) (authority moduleState : Pubkey)
    (amount toBalanceAfter : ℕ) : Result Ledger :=
  mutateModule L signers authority moduleState fun module : MaxInvestorsModule ↦ do
    let count ← incrementIf (receiverEnters amount toBalanceAfter) module.holderCount
      (.maxInvestors .arithmeticOverflow)
    .ok { module with holderCount := count }

def destroyed (L : Ledger) (signers : List Pubkey) (authority moduleState : Pubkey)
    (amount fromBalanceAfter : ℕ) : Result Ledger :=
  mutateModule L signers authority moduleState fun module : MaxInvestorsModule ↦ do
    let count ← decrementIf (senderExits amount fromBalanceAfter) module.holderCount
      (.maxInvestors .arithmeticOverflow)
    .ok { module with holderCount := count }

section Specification

variable {L L' : Ledger} {signers : List Pubkey} {authority moduleState : Pubkey}
  {amount fromBalanceAfter toBalanceAfter : ℕ}

/-- A counted move: the count changes by the receiver that enters and the
sender that leaves, and nothing else changes. -/
theorem transferred_ok
    (h : transferred L signers authority moduleState amount fromBalanceAfter toBalanceAfter =
      .ok L') :
    authority ∈ signers ∧ ∃ (m : MaxInvestorsModule) (n : ℕ), L.accounts moduleState = account m ∧
      moduleState = moduleAddress MaxInvestorsModule m.tokenMint ∧ isModuleAuthority m authority ∧
        n + (if senderExits amount fromBalanceAfter then 1 else 0) =
          m.holderCount + (if receiverEnters amount toBalanceAfter then 1 else 0) ∧
            L' = L.put moduleState { m with holderCount := n } := by
  rw [transferred, mutateModule_eq_ok] at h
  obtain ⟨hsigner, m, m', hm, hkey, hauth, hcount, rfl⟩ := h
  simp only [bind_eq_ok, decrementIf_eq_ok, incrementIf_eq_ok, Except.ok.injEq] at hcount
  obtain ⟨n₁, hout, n₂, ⟨hin, -⟩, rfl⟩ := hcount
  exact ⟨hsigner, m, n₂, hm, hkey, hauth, by omega, rfl⟩

theorem created_ok
    (h : created L signers authority moduleState amount toBalanceAfter = .ok L') :
    authority ∈ signers ∧ ∃ m : MaxInvestorsModule, L.accounts moduleState = account m ∧
      moduleState = moduleAddress MaxInvestorsModule m.tokenMint ∧ isModuleAuthority m authority ∧
        L' = L.put moduleState { m with
          holderCount := m.holderCount +
            (if receiverEnters amount toBalanceAfter then 1 else 0) } := by
  rw [created, mutateModule_eq_ok] at h
  obtain ⟨hsigner, m, m', hm, hkey, hauth, hcount, rfl⟩ := h
  simp only [bind_eq_ok, incrementIf_eq_ok, Except.ok.injEq] at hcount
  obtain ⟨n, ⟨rfl, -⟩, rfl⟩ := hcount
  exact ⟨hsigner, m, hm, hkey, hauth, rfl⟩

theorem destroyed_eq_ok :
    destroyed L signers authority moduleState amount fromBalanceAfter = .ok L' ↔
      authority ∈ signers ∧ ∃ (m : MaxInvestorsModule) (n : ℕ),
        L.accounts moduleState = account m ∧
          moduleState = moduleAddress MaxInvestorsModule m.tokenMint ∧
            isModuleAuthority m authority ∧
              m.holderCount = n + (if senderExits amount fromBalanceAfter then 1 else 0) ∧
                L' = L.put moduleState { m with holderCount := n } := by
  rw [destroyed, mutateModule_eq_ok]
  refine and_congr_right fun _ ↦ exists_congr fun m ↦ ?_
  simp only [bind_eq_ok, decrementIf_eq_ok, Except.ok.injEq]
  constructor
  · rintro ⟨m', hm, hkey, hauth, ⟨n, hn, rfl⟩, rfl⟩
    exact ⟨n, hm, hkey, hauth, hn, rfl⟩
  · rintro ⟨n, hm, hkey, hauth, hn, rfl⟩
    exact ⟨_, hm, hkey, hauth, ⟨n, hn, rfl⟩, rfl⟩

end Specification

end Fracks.ModMaxInvestors
