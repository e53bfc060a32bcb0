import Fracks.Modules.Hooked

/-!
# The daily limit module

`mod_daily_limit` adds up what a wallet has sent in a window of one day, in an
account derived from the module and the wallet.
-/

namespace Fracks

instance : HookedModule DailyTransferLimitModule where
  label := .modDailyLimit
  owner := DailyTransferLimitModule.owner
  tokenMint := DailyTransferLimitModule.tokenMint
  hookAuthority := DailyTransferLimitModule.hookAuthority
  withHookAuthority m hookAuthority := { m with hookAuthority }
  notOwner := .dailyLimit .notOwner
  notAuthorized := .dailyLimit .notAuthorized

end Fracks

namespace Fracks.ModDailyLimit

open Checked AccountType HookedModule Ledger

def moduleSpace : ℕ := 8 + 32 + 32 + 32 + 8 + 1

def usageSpace : ℕ := 8 + 32 + 32 + 8 + 8 + 1

def daySeconds : ℤ := 86400

def usageAddress (module wallet program : Pubkey) : Pubkey :=
  .findProgramAddress .dailyUsage [.key module, .key wallet] program

def initializeModule (L : Ledger) (signers : List Pubkey) (owner moduleState tokenMint : Pubkey)
    (dailyLimit : ℕ) : Result Ledger :=
  initializeModuleAccount .modDailyLimit L signers owner moduleState tokenMint moduleSpace
    { owner, tokenMint, hookAuthority := owner, dailyLimit : DailyTransferLimitModule }

def setHookAuthority (L : Ledger) (signers : List Pubkey)
    (owner moduleState hookAuthority : Pubkey) : Result Ledger :=
  HookedModule.setHookAuthority DailyTransferLimitModule L signers owner moduleState hookAuthority

/-- The `CheckUsage` accounts: any usage account will do. -/
def canTransfer (L : Ledger) (moduleState walletUsage : Pubkey) (amount : ℕ) : Result Bool := do
  let module ← readModule .modDailyLimit DailyTransferLimitModule.tokenMint L moduleState
  let usage ← L.load DailyWalletUsage walletUsage
  let used :=
    if usage.wallet = .default ∨ daySeconds ≤ saturatingSubI64 L.now usage.windowStartedAt then 0
    else usage.volume
  .ok (saturatingAdd used amount ≤ module.dailyLimit)

/-- Anyone may pay for the usage account of a wallet. -/
def initializeWalletUsage (L : Ledger) (signers : List Pubkey)
    (owner moduleState walletUsage wallet : Pubkey) : Result Ledger := do
  requireSigner signers owner
  let module ← L.load DailyTransferLimitModule moduleState
  requireSeeds moduleState (moduleAddress DailyTransferLimitModule module.tokenMint)
  L.initRecord owner walletUsage
    (usageAddress moduleState wallet (.program .modDailyLimit)) usageSpace
    { module := moduleState, wallet, windowStartedAt := 0, volume := 0 : DailyWalletUsage }

/-- The window of a usage record has not been started or is over. -/
abbrev windowOver (usage : DailyWalletUsage) (now : ℤ) : Prop :=
  usage.windowStartedAt = 0 ∨ daySeconds ≤ saturatingSubI64 now usage.windowStartedAt

/-- The usage record with a new window where the old one is over. -/
def refreshWindow (usage : DailyWalletUsage) (now : ℤ) : DailyWalletUsage :=
  if windowOver usage now then { usage with windowStartedAt := now, volume := 0 } else usage

def transferred (L : Ledger) (signers : List Pubkey)
    (authority moduleState walletUsage wallet : Pubkey) (amount : ℕ) : Result Ledger := do
  requireSigner signers authority
  let module ← L.load DailyTransferLimitModule moduleState
  let usage ← L.load DailyWalletUsage walletUsage
  checkAuthority moduleState authority module
  requireSeeds walletUsage (usageAddress moduleState wallet (.program .modDailyLimit))
  require (usage.module = moduleState) (.dailyLimit .invalidUsageAccount)
  require (usage.wallet = wallet) (.dailyLimit .invalidUsageAccount)
  let usage := refreshWindow usage L.now
  let volume ← okOr (checkedAdd usage.volume amount) (.dailyLimit .arithmeticOverflow)
  .ok (L.put walletUsage { usage with volume })

section Specification

variable {L L' : Ledger} {signers : List Pubkey}
  {authority moduleState walletUsage wallet : Pubkey} {amount : ℕ}

theorem transferred_ok
    (h : transferred L signers authority moduleState walletUsage wallet amount = .ok L') :
    authority ∈ signers ∧ ∃ (m : DailyTransferLimitModule) (u : DailyWalletUsage),
      L.accounts moduleState = account m ∧ L.accounts walletUsage = account u ∧
        moduleState = moduleAddress DailyTransferLimitModule m.tokenMint ∧
          isModuleAuthority m authority ∧
            walletUsage = usageAddress moduleState wallet (.program .modDailyLimit) ∧
              u.module = moduleState ∧ u.wallet = wallet ∧
                (refreshWindow u L.now).volume + amount ≤ u64Max ∧
                L' = L.put walletUsage { refreshWindow u L.now with
                  volume := (refreshWindow u L.now).volume + amount } := by
  simp only [transferred, bind_eq_ok, requireSigner_eq_ok, load_eq_ok, checkAuthority_eq_ok,
    requireSeeds_eq_ok, require_eq_ok, okOr_eq_ok, checkedAdd_eq_some, exists_const,
    Except.ok.injEq] at h
  obtain ⟨hsigner, m, hm, u, hu, ⟨hkey, hauth⟩, hseeds, hmodule, hwallet, _, ⟨hfits, rfl⟩,
    rfl⟩ := h
  exact ⟨hsigner, m, u, hm, hu, hkey, hauth, hseeds, hmodule, hwallet, hfits, rfl⟩

end Specification

end Fracks.ModDailyLimit
