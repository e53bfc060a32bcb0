import Fracks.Modules.Hooked

/-!
# Modules without counters

The country restriction and the limits on balance, amount and time of a
transfer only hold parameters.
-/

namespace Fracks

open Checked

namespace ModCountryRestrict

def maxCountries : ℕ := 32

def moduleSpace : ℕ := 8 + 32 + 32 + 4 + (2 * maxCountries) + 1

def initializeModule (L : Ledger) (signers : List Pubkey) (owner moduleState tokenMint : Pubkey)
    (allowedCountries : List ℕ) : Result Ledger := do
  let L ← initializeModuleAccount .modCountry L signers owner moduleState tokenMint moduleSpace
    { owner, tokenMint, allowedCountries : CountryRestrictModule }
  require (allowedCountries.length ≤ maxCountries) (.countryRestrict .tooManyCountries)
  .ok L

def canTransfer (L : Ledger) (moduleState : Pubkey) (fromCountry toCountry : ℕ) :
    Result Bool := do
  let module ← readModule .modCountry CountryRestrictModule.tokenMint L moduleState
  .ok (fromCountry ∈ module.allowedCountries ∧ toCountry ∈ module.allowedCountries)

end ModCountryRestrict

namespace ModMaxBalance

def moduleSpace : ℕ := 8 + 32 + 32 + 8 + 1

def initializeModule (L : Ledger) (signers : List Pubkey) (owner moduleState tokenMint : Pubkey)
    (maxBalance : ℕ) : Result Ledger :=
  initializeModuleAccount .modMaxBalance L signers owner moduleState tokenMint moduleSpace
    { owner, tokenMint, maxBalance : MaxBalanceModule }

def canTransfer (L : Ledger) (moduleState : Pubkey) (amount toBalance : ℕ) : Result Bool := do
  let module ← readModule .modMaxBalance MaxBalanceModule.tokenMint L moduleState
  .ok (saturatingAdd toBalance amount ≤ module.maxBalance)

end ModMaxBalance

namespace ModMaxTransfer

def moduleSpace : ℕ := 8 + 32 + 32 + 8 + 1

def initializeModule (L : Ledger) (signers : List Pubkey) (owner moduleState tokenMint : Pubkey)
    (maxAmount : ℕ) : Result Ledger :=
  initializeModuleAccount .modMaxTransfer L signers owner moduleState tokenMint moduleSpace
    { owner, tokenMint, maxAmount : MaxTransferModule }

def canTransfer (L : Ledger) (moduleState : Pubkey) (amount : ℕ) : Result Bool := do
  let module ← readModule .modMaxTransfer MaxTransferModule.tokenMint L moduleState
  .ok (amount ≤ module.maxAmount)

end ModMaxTransfer

namespace ModLockup

def moduleSpace : ℕ := 8 + 32 + 32 + 8 + 1

def initializeModule (L : Ledger) (signers : List Pubkey) (owner moduleState tokenMint : Pubkey)
    (lockupEnd : ℤ) : Result Ledger :=
  initializeModuleAccount .modLockup L signers owner moduleState tokenMint moduleSpace
    { owner, tokenMint, lockupEnd : LockupModule }

def canTransfer (L : Ledger) (moduleState : Pubkey) : Result Bool := do
  let module ← readModule .modLockup LockupModule.tokenMint L moduleState
  .ok (module.lockupEnd ≤ L.now)

end ModLockup

end Fracks
