import Fracks.TokenHook

/-!
# The mint of the factory

`fracks_factory` creates the mint of a token with a transfer hook and a
permanent delegate.  The account that becomes mint authority and permanent
delegate is taken as it is given, and the hook authority is whoever pays.
-/

namespace Fracks.Factory

open Checked AccountType Ledger

def maxMetadataSpace : ℕ := 512

structure CreateTokenMint where
  payer : Pubkey
  tokenState : Pubkey
  tokenMintAccount : Pubkey
  hookProgram : Pubkey
  token2022Program : Pubkey
  systemProgram : Pubkey

/-- The mint with its extensions; nobody can freeze its accounts. -/
def tokenMint (payer tokenState hookProgram : Pubkey) (decimals : ℕ) : Mint where
  mintAuthority := some tokenState
  supply := 0
  decimals := decimals
  isInitialized := true
  freezeAuthority := none
  transferHook := some { authority := some payer, programId := some hookProgram }
  permanentDelegate := some (some tokenState)

/-- `create_account` of the system program: all of the lamports come from the
payer, and the new account must not hold any. -/
def systemCreateAccount (L : Ledger) (payer k : Pubkey) (lamports : ℕ) (program : ProgramName) :
    Result Ledger := do
  require (L.accounts k = .vacant ∧ L.lamports k = 0) (.system .accountAlreadyInUse)
  let L ← L.systemTransfer payer k lamports
  .ok (L.setAccount k ⟨.program program, .empty⟩)

def initializeToken2022Mint (L : Ledger) (payer tokenMintAccount tokenState hookProgram : Pubkey)
    (decimals : ℕ) : Result Ledger := do
  require ((L.accounts tokenMintAccount).data = .empty) (.factory .tokenMintAlreadyInitialized)
  let L ← systemCreateAccount L payer tokenMintAccount
    (rentExempt (Token2022.mintSpace + maxMetadataSpace)) .token2022
  .ok (L.put tokenMintAccount (tokenMint payer tokenState hookProgram decimals))

def createTokenMint (L : Ledger) (signers : List Pubkey) (accts : CreateTokenMint)
    (decimals : ℕ) : Result Ledger := do
  requireSigner signers accts.payer
  requireSigner signers accts.tokenMintAccount
  requireProgram accts.hookProgram .fracksTokenHook
  requireProgram accts.token2022Program .token2022
  requireProgram accts.systemProgram .system
  initializeToken2022Mint L accts.payer accts.tokenMintAccount accts.tokenState accts.hookProgram
    decimals

section Specification

variable {L L' : Ledger} {signers : List Pubkey} {accts : CreateTokenMint} {decimals : ℕ}

/-- A new mint: its account was vacant, and no other account changes. -/
theorem createTokenMint_ok (h : createTokenMint L signers accts decimals = .ok L') :
    L.accounts accts.tokenMintAccount = .vacant ∧
      L'.accounts accts.tokenMintAccount =
        account (tokenMint accts.payer accts.tokenState TokenHook.hookProgram decimals) ∧
      ∀ x, x ≠ accts.tokenMintAccount → L'.accounts x = L.accounts x := by
  simp only [createTokenMint, initializeToken2022Mint, systemCreateAccount, bind_eq_ok,
    requireSigner_eq_ok, requireProgram_eq_ok, require_eq_ok, exists_const,
    Except.ok.injEq] at h
  obtain ⟨-, -, hhook, -, -, -, _, ⟨⟨hvacant, -⟩, L₁, htransfer, rfl⟩, rfl⟩ := h
  refine ⟨hvacant, ?_, fun x hx ↦ ?_⟩
  · rw [put_accounts_self, hhook]
    rfl
  · rw [put_accounts_of_ne _ hx, setAccount_accounts_of_ne _ hx, (systemTransfer_ok htransfer).1]

theorem frame_createTokenMint (h : createTokenMint L signers accts decimals = .ok L') :
    Frame [.mint] L L' := by
  obtain ⟨hvacant, hmint, hother⟩ := createTokenMint_ok h
  intro x hx
  by_cases hxk : x = accts.tokenMintAccount
  · subst hxk
    exact ⟨.inl hvacant, .inr (by rw [hmint]; simp [kind])⟩
  · exact absurd (hother x hxk) hx

end Specification

end Fracks.Factory
