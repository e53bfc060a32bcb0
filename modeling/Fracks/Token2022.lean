import Fracks.Constraints
import Fracks.Lib.Tally

/-!
# Token-2022

The rules of the token program that the mints of this repository live under:
token accounts, delegates, the permanent delegate, and the transfer hook, which
runs after the balances have moved and while the `transferring` flags are set.
Multisignature owners and the extensions these mints do not have are left out;
they can only refuse more.
-/

namespace Fracks.Token2022

open Checked AccountType Ledger

def tokenProgram : Pubkey := .program .token2022

def accountSpace : ℕ := 165 + 1 + 4 + 1

def mintSpace : ℕ := 165 + 1 + (4 + 64) + (4 + 64) + (4 + 32)

def unpackMint (L : Ledger) (k : Pubkey) : Result Mint :=
  okOr (L.view Mint k) (.spl .invalidMint)

def unpackAccount (L : Ledger) (k : Pubkey) : Result TokenAccount :=
  okOr (L.view TokenAccount k) (.spl .invalidAccount)

def validateOwner (signers : List Pubkey) (expected authority : Pubkey) : Result Unit := do
  require (expected = authority) (.spl .ownerMismatch)
  require (authority ∈ signers) (.system .missingRequiredSignature)

/-- Nobody needs to sign for a burn from an account that belongs to the system
program or to the incinerator. -/
abbrev ownedBySystemOrIncinerator (a : TokenAccount) : Prop :=
  a.owner = .default ∨ a.owner = .program .incinerator

/-- The authority of a debit of `amount`: the permanent delegate, the delegate
within its allowance, or the owner.  The result is the account with what is
left of the allowance. -/
def authorizeDebit (signers : List Pubkey) (permanentDelegate : Option Pubkey) (a : TokenAccount)
    (authority : Pubkey) (amount : ℕ) (selfTransfer : Bool) : Result TokenAccount :=
  if permanentDelegate = some authority then do
    validateOwner signers authority authority
    .ok a
  else if a.delegate = some authority then do
    validateOwner signers authority authority
    require (amount ≤ a.delegatedAmount) (.spl .insufficientFunds)
    if selfTransfer then .ok a
    else .ok { a with
      delegatedAmount := a.delegatedAmount - amount
      delegate := if a.delegatedAmount - amount = 0 then none else a.delegate }
  else do
    validateOwner signers a.owner authority
    .ok a

/-! ## Accounts and authorities -/

/-- Creation and initialization of a mint with its extensions. -/
def createMint (L : Ledger) (signers : List Pubkey) (payer k : Pubkey) (mint : Mint) :
    Result Ledger := do
  requireSigner signers payer
  let L ← L.createAccount payer k .token2022 mintSpace
  .ok (L.put k { mint with supply := 0, isInitialized := true })

/-- Creation and initialization of a token account; the hook extension of the
mint decides whether it carries the `transferring` flag. -/
def createTokenAccount (L : Ledger) (signers : List Pubkey) (payer k mintKey owner : Pubkey)
    (immutableOwner : Bool) : Result Ledger := do
  requireSigner signers payer
  let mint ← unpackMint L mintKey
  let L ← L.createAccount payer k .token2022 accountSpace
  .ok (L.put k
    { mint := mintKey, owner, amount := 0, delegate := none, delegatedAmount := 0,
      isFrozen := false, closeAuthority := none, immutableOwner,
      transferring := mint.transferHook.map fun _ ↦ false : TokenAccount })

def approve (L : Ledger) (signers : List Pubkey) (source delegate authority : Pubkey)
    (amount : ℕ) : Result Ledger := do
  let a ← unpackAccount L source
  require (a.isFrozen = false) (.spl .accountFrozen)
  validateOwner signers a.owner authority
  .ok (L.put source { a with delegate := some delegate, delegatedAmount := amount })

def revoke (L : Ledger) (signers : List Pubkey) (source authority : Pubkey) : Result Ledger := do
  let a ← unpackAccount L source
  validateOwner signers (if a.delegate = some authority then authority else a.owner) authority
  .ok (L.put source { a with delegate := none, delegatedAmount := 0 })

def closeAccount (L : Ledger) (signers : List Pubkey) (k destination authority : Pubkey) :
    Result Ledger := do
  require (k ≠ destination) (.spl .invalidAccountData)
  let a ← unpackAccount L k
  require (a.amount = 0) (.spl .nonNativeHasBalance)
  if ownedBySystemOrIncinerator a then do
    require (destination = .program .incinerator) (.spl .invalidAccountData)
    .ok (L.close k destination)
  else do
    validateOwner signers (a.closeAuthority.getD a.owner) authority
    .ok (L.close k destination)

inductive AccountAuthority
  | accountOwner
  | closeAccount
  deriving DecidableEq

inductive MintAuthority
  | mintTokens
  | freezeAccount
  | transferHookProgramId
  | permanentDelegate
  deriving DecidableEq

/-- `set_authority` on a token account. -/
def setAccountAuthority (L : Ledger) (signers : List Pubkey) (k authority : Pubkey)
    (type : AccountAuthority) (newAuthority : Option Pubkey) : Result Ledger := do
  let a ← unpackAccount L k
  require (a.isFrozen = false) (.spl .accountFrozen)
  match type with
  | .accountOwner => do
      require (a.immutableOwner = false) (.spl .immutableOwner)
      validateOwner signers a.owner authority
      let owner ← okOr newAuthority (.spl .invalidState)
      .ok (L.put k { a with owner, delegate := none, delegatedAmount := 0 })
  | .closeAccount => do
      validateOwner signers (a.closeAuthority.getD a.owner) authority
      .ok (L.put k { a with closeAuthority := newAuthority })

/-- `set_authority` on a mint. -/
def setMintAuthority (L : Ledger) (signers : List Pubkey) (k authority : Pubkey)
    (type : MintAuthority) (newAuthority : Option Pubkey) : Result Ledger := do
  let m ← unpackMint L k
  match type with
  | .mintTokens => do
      let current ← okOr m.mintAuthority (.spl .fixedSupply)
      validateOwner signers current authority
      .ok (L.put k { m with mintAuthority := newAuthority })
  | .freezeAccount => do
      let current ← okOr m.freezeAuthority (.spl .mintCannotFreeze)
      validateOwner signers current authority
      .ok (L.put k { m with freezeAuthority := newAuthority })
  | .transferHookProgramId => do
      let hook ← okOr m.transferHook (.spl .authorityTypeNotSupported)
      let current ← okOr hook.authority (.spl .authorityTypeNotSupported)
      validateOwner signers current authority
      .ok (L.put k { m with transferHook := some { hook with authority := newAuthority } })
  | .permanentDelegate => do
      let delegate ← okOr m.permanentDelegate (.spl .authorityTypeNotSupported)
      let current ← okOr delegate (.spl .authorityTypeNotSupported)
      validateOwner signers current authority
      .ok (L.put k { m with permanentDelegate := some newAuthority })

/-- The hook authority of a mint replaces the hook program. -/
def updateTransferHook (L : Ledger) (signers : List Pubkey) (k authority : Pubkey)
    (newProgram : Option Pubkey) : Result Ledger := do
  let m ← unpackMint L k
  let hook ← okOr m.transferHook (.spl .invalidMint)
  let current ← okOr hook.authority (.spl .noAuthorityExists)
  validateOwner signers current authority
  require (newProgram ≠ some tokenProgram) (.spl .incorrectProgramId)
  .ok (L.put k { m with transferHook := some { hook with programId := newProgram } })

/-- Freezing and thawing by the freeze authority of the mint. -/
def setFrozen (L : Ledger) (signers : List Pubkey) (k mintKey authority : Pubkey)
    (frozen : Bool) : Result Ledger := do
  let a ← unpackAccount L k
  require (a.isFrozen ≠ frozen) (.spl .invalidState)
  require (a.mint = mintKey) (.spl .mintMismatch)
  let m ← unpackMint L mintKey
  let current ← okOr m.freezeAuthority (.spl .mintCannotFreeze)
  validateOwner signers current authority
  .ok (L.put k { a with isFrozen := frozen })

/-! ## Supply -/

/-- The decimals that a checked instruction names must be those of the mint. -/
def checkDecimals (m : Mint) (expected : Option ℕ) : Result Unit :=
  require (∀ decimals ∈ expected, m.decimals = decimals) (.spl .mintDecimalsMismatch)

def mintTo (L : Ledger) (signers : List Pubkey) (mintKey destination authority : Pubkey)
    (amount : ℕ) (decimals : Option ℕ) : Result Ledger := do
  let a ← unpackAccount L destination
  require (a.isFrozen = false) (.spl .accountFrozen)
  require (a.mint = mintKey) (.spl .mintMismatch)
  let m ← unpackMint L mintKey
  checkDecimals m decimals
  let current ← okOr m.mintAuthority (.spl .fixedSupply)
  validateOwner signers current authority
  let balance ← okOr (checkedAdd a.amount amount) (.spl .overflow)
  let supply ← okOr (checkedAdd m.supply amount) (.spl .overflow)
  .ok ((L.put destination { a with amount := balance }).put mintKey { m with supply })

def authorizeBurn (signers : List Pubkey) (permanentDelegate : Option Pubkey) (a : TokenAccount)
    (authority : Pubkey) (amount : ℕ) : Result TokenAccount :=
  if ownedBySystemOrIncinerator a then .ok a
  else authorizeDebit signers permanentDelegate a authority amount false

def burn (L : Ledger) (signers : List Pubkey) (source mintKey authority : Pubkey)
    (amount : ℕ) (decimals : Option ℕ) : Result Ledger := do
  let a ← unpackAccount L source
  let m ← unpackMint L mintKey
  require (a.isFrozen = false) (.spl .accountFrozen)
  require (amount ≤ a.amount) (.spl .insufficientFunds)
  require (a.mint = mintKey) (.spl .mintMismatch)
  checkDecimals m decimals
  let a' ← authorizeBurn signers m.permanentDelegate.join a authority amount
  let supply ← okOr (checkedSub m.supply amount) (.spl .overflow)
  .ok ((L.put source { a' with amount := a.amount - amount }).put mintKey { m with supply })

/-! ## Transfers -/

/-- The call of a hook program with the accounts of a transfer. -/
structure HookCall where
  program : Pubkey
  source : Pubkey
  mint : Pubkey
  destination : Pubkey
  authority : Pubkey
  additional : List Pubkey
  amount : ℕ

/-- Set or clear the `transferring` flag of a token account. -/
def setTransferring (flag : Bool) (a : TokenAccount) : TokenAccount :=
  { a with transferring := a.transferring.map fun _ ↦ flag }

def unsetTransferring (L : Ledger) (k : Pubkey) : Result Ledger := do
  let a ← unpackAccount L k
  .ok (L.put k (setTransferring false a))

/-- The hook runs on the moved balances, between setting and clearing the
flags; both token accounts must carry one. -/
def runTransferHook (invokeHook : Ledger → HookCall → Result Ledger) (L : Ledger)
    (source destination : TokenAccount) (call : HookCall) : Result Ledger := do
  require (source.transferring.isSome = true) (.spl .invalidAccount)
  require (destination.transferring.isSome = true) (.spl .invalidAccount)
  let L := (L.put call.source (setTransferring true source)).put call.destination
    (setTransferring true destination)
  let L ← invokeHook L call
  let L ← unsetTransferring L call.source
  unsetTransferring L call.destination

/-- A transfer that names its mint.  A transfer of an account to itself is
checked and then ends before any balance moves and before the hook. -/
def transferChecked (invokeHook : Ledger → HookCall → Result Ledger) (L : Ledger)
    (signers : List Pubkey) (source mintKey destination authority : Pubkey)
    (additional : List Pubkey) (amount decimals : ℕ) : Result Ledger := do
  let a ← unpackAccount L source
  require (a.isFrozen = false) (.spl .accountFrozen)
  require (amount ≤ a.amount) (.spl .insufficientFunds)
  require (a.mint = mintKey) (.spl .mintMismatch)
  let m ← unpackMint L mintKey
  checkDecimals m (some decimals)
  let a' ← authorizeDebit signers m.permanentDelegate.join a authority amount
    (source = destination)
  if source = destination then
    .ok L
  else
    let b ← unpackAccount L destination
    require (b.isFrozen = false) (.spl .accountFrozen)
    require (b.mint = mintKey) (.spl .mintMismatch)
    let balance ← okOr (checkedAdd b.amount amount) (.spl .overflow)
    let a'' : TokenAccount := { a' with amount := a.amount - amount }
    let b' : TokenAccount := { b with amount := balance }
    match m.transferHook.bind TransferHook.programId with
    | some program =>
        runTransferHook invokeHook L a'' b'
          { program, source, mint := mintKey, destination, authority, additional, amount }
    | none => .ok ((L.put source a'').put destination b')

/-- A transfer that does not name its mint is refused for accounts that carry
the hook extension. -/
def transfer (L : Ledger) (signers : List Pubkey) (source destination authority : Pubkey)
    (amount : ℕ) : Result Ledger := do
  let a ← unpackAccount L source
  require (a.isFrozen = false) (.spl .accountFrozen)
  require (amount ≤ a.amount) (.spl .insufficientFunds)
  require (a.transferring = none) (.spl .mintRequiredForTransfer)
  let a' ← authorizeDebit signers none a authority amount (source = destination)
  if source = destination then
    .ok L
  else
    let b ← unpackAccount L destination
    require (b.isFrozen = false) (.spl .accountFrozen)
    require (a.mint = b.mint) (.spl .mintMismatch)
    let balance ← okOr (checkedAdd b.amount amount) (.spl .overflow)
    .ok ((L.put source { a' with amount := a.amount - amount }).put destination
      { b with amount := balance })

end Fracks.Token2022
