import Fracks.ComplianceEffects
import Fracks.Balances

/-!
# The transfer hook

`fracks_token_hook` records approvals of transfers and is run by Token-2022
inside every transfer: it looks for the approval, compares it with the transfer
that is under way, forwards the transfer to the compliance router and consumes
the approval.  The accounts it is run with are resolved from a list that the
program stores for each mint.
-/

namespace Fracks.TokenHook

open Checked AccountType Ledger

def hookProgram : Pubkey := .program .fracksTokenHook

def approvalSpace : ℕ := 8 + (32 * 6) + (8 * 3) + (2 * 2) + 1 + 1 + 1 + 1

def extraAccountMetasSpace : ℕ := 12 + 4 + (35 * (5 + (15 * 4)))

def transferApprovalKindTransfer : ℕ := 0

def transferApprovalKindForced : ℕ := 1

def transferApprovalKindRecovery : ℕ := 2

def approvalAddress (source destination authority : Pubkey) : Pubkey :=
  .findProgramAddress .transferApproval [.key source, .key destination, .key authority] hookProgram

def extraAccountMetasAddress (mint program : Pubkey) : Pubkey :=
  .findProgramAddress .extraAccountMetas [.key mint] program

/-! ## Reading the controller's accounts -/

def readTokenState (L : Ledger) (k : Pubkey) : Result TokenState :=
  okOr (L.view TokenState k) (.hook .invalidTokenState)

def readTokenAccount (L : Ledger) (k : Pubkey) : Result TokenAccount :=
  okOr (L.view TokenAccount k) (.hook .invalidTokenAccount)

def validateOwnerState (L : Ledger) (k owner tokenMint : Pubkey) : Result Unit := do
  let state ← okOr (L.view OwnerState k) (.hook .invalidOwnerState)
  require (state.owner = owner) (.hook .notOwner)
  require (state.tokenMint = tokenMint) (.hook .invalidOwnerState)

/-- The compliance state a token points to, which must be for its mint. -/
def validateComplianceState (L : Ledger) (k expectedCompliance tokenMint : Pubkey) :
    Result ComplianceState := do
  require (k = expectedCompliance) (.hook .invalidCompliance)
  let state ← okOr (L.view ComplianceState k) (.hook .invalidCompliance)
  require (state.tokenMint = tokenMint) (.hook .invalidCompliance)
  .ok state

def validateTokenMintAccount (L : Ledger) (mintKey tokenStateKey : Pubkey)
    (tokenState : TokenState) : Result Unit := do
  require (mintKey = tokenState.tokenMint) (.hook .invalidTokenAccount)
  let mint ← okOr (L.view Mint mintKey) (.hook .invalidTokenAccount)
  let hook ← okOr mint.transferHook (.hook .missingTransferHook)
  require (hook.programId = some hookProgram) (.hook .missingTransferHook)
  let delegate ← okOr mint.permanentDelegate (.hook .missingPermanentDelegate)
  require (delegate = some tokenStateKey) (.hook .missingPermanentDelegate)

/-! ## The stored list of extra accounts -/

def baseMetas : List ExtraAccountMeta :=
  [.fixed (.program .fracksToken) false,
    .externalPda 5 [.literal .tokenState, .accountKey 1] false,
    .ownPda [.literal .transferApproval, .accountKey 0, .accountKey 2, .accountKey 3] true,
    .pubkeyData 6 72 false,
    .fixed (.program .fracksCompliance) false]

/-- Offsets and indices are bytes. -/
def checkedByte (n : ℕ) : Result ℕ :=
  okOr (if n ≤ 255 then some n else none) (.hook .invalidExtraAccountMetas)

/-- The key of the module at `index`, read from the compliance state. -/
def readComplianceModuleKey (state : ComplianceState) (index : ℕ) : Result Pubkey := do
  require (index < state.modules.length ∧ state.modules.length ≤ 15)
    (.hook .invalidComplianceModule)
  okOr state.modules[index]? (.hook .invalidComplianceModule)

def pushComplianceModuleMeta (metas : List ExtraAccountMeta) (index : ℕ) :
    Result (List ExtraAccountMeta) := do
  let dataIndex ← checkedByte (76 + min (index * 32) 255)
  .ok (metas ++ [.pubkeyData 8 dataIndex true])

/-- The entries for one module: its account and, for the modules the router
calls in a transfer, the program and the support accounts it needs. -/
def pushModuleMetas (L : Ledger) (metas : List ExtraAccountMeta) (moduleAccount : Pubkey)
    (moduleIndex : ℕ) : Result (List ExtraAccountMeta) := do
  let moduleMetaIndex ← checkedByte (5 + metas.length)
  let metas ← pushComplianceModuleMeta metas moduleIndex
  match (L.accounts moduleAccount).data with
  | .maxInvestorsModule _ => do
      require ((L.accounts moduleAccount).owner = .program .modMaxInvestors)
        (.hook .invalidComplianceModule)
      .ok (metas ++ [.fixed (.program .modMaxInvestors) false])
  | .dailyTransferLimitModule _ => do
      require ((L.accounts moduleAccount).owner = .program .modDailyLimit)
        (.hook .invalidComplianceModule)
      let programIndex ← checkedByte (moduleMetaIndex + 1)
      .ok (metas ++ [.fixed (.program .modDailyLimit) false,
        .externalPda programIndex
          [.literal .dailyUsage, .accountKey moduleMetaIndex, .accountData 7 136 32] true])
  | .investorCountryCapModule _ => do
      require ((L.accounts moduleAccount).owner = .program .modCountryCap)
        (.hook .invalidComplianceModule)
      let programIndex ← checkedByte (moduleMetaIndex + 1)
      .ok (metas ++ [.fixed (.program .modCountryCap) false,
        .externalPda programIndex
          [.literal .countryCount, .accountKey moduleMetaIndex, .accountData 7 224 2] true,
        .externalPda programIndex
          [.literal .countryCount, .accountKey moduleMetaIndex, .accountData 7 226 2] true])
  | _ => .ok metas

/-- The entries for the modules passed as remaining accounts, which must be the
first ones of the compliance state, in order. -/
def pushAllModules (L : Ledger) (state : ComplianceState) :
    List Pubkey → ℕ → List ExtraAccountMeta → Result (List ExtraAccountMeta)
  | [], _, metas => .ok metas
  | moduleAccount :: rest, index, metas => do
      let expected ← readComplianceModuleKey state index
      require (moduleAccount = expected) (.hook .invalidComplianceModule)
      let metas ← pushModuleMetas L metas moduleAccount index
      pushAllModules L state rest (index + 1) metas

def buildMetas (L : Ledger) (state : ComplianceState) (remaining : List Pubkey) :
    Result ExtraAccountMetaList := do
  require (remaining.length ≤ 15) (.hook .tooManyModules)
  let metas ← pushAllModules L state remaining 0 baseMetas
  .ok { metas }

/-- The accounts of `InitializeExtraAccountMetas` and, without the owner state,
of `RefreshExtraAccountMetas`. -/
structure MetasAccounts where
  payer : Pubkey
  tokenState : Pubkey
  ownerState : Pubkey
  complianceState : Pubkey
  tokenMintAccount : Pubkey
  extraAccountMetas : Pubkey
  remaining : List Pubkey

def initializeExtraAccountMetas (L : Ledger) (signers : List Pubkey) (accts : MetasAccounts) :
    Result Ledger := do
  requireSigner signers accts.payer
  requireSeeds accts.extraAccountMetas (extraAccountMetasAddress accts.tokenMintAccount hookProgram)
  let L ← L.createAccount accts.payer accts.extraAccountMetas .fracksTokenHook
    extraAccountMetasSpace
  let tokenState ← readTokenState L accts.tokenState
  validateOwnerState L accts.ownerState accts.payer tokenState.tokenMint
  let state ← validateComplianceState L accts.complianceState tokenState.compliance
    tokenState.tokenMint
  require (tokenState.tokenMint = accts.tokenMintAccount) (.hook .invalidTokenState)
  validateTokenMintAccount L accts.tokenMintAccount accts.tokenState tokenState
  let metas ← buildMetas L state accts.remaining
  .ok (L.put accts.extraAccountMetas metas)

/-- Anyone may refresh the list. -/
def refreshExtraAccountMetas (L : Ledger) (signers : List Pubkey) (accts : MetasAccounts) :
    Result Ledger := do
  requireSigner signers accts.payer
  requireSeeds accts.extraAccountMetas (extraAccountMetasAddress accts.tokenMintAccount hookProgram)
  let tokenState ← readTokenState L accts.tokenState
  let state ← validateComplianceState L accts.complianceState tokenState.compliance
    tokenState.tokenMint
  require (tokenState.tokenMint = accts.tokenMintAccount) (.hook .invalidTokenState)
  validateTokenMintAccount L accts.tokenMintAccount accts.tokenState tokenState
  let _ ← okOr (L.view ExtraAccountMetaList accts.extraAccountMetas)
    (.hook .invalidExtraAccountMetas)
  let metas ← buildMetas L state accts.remaining
  .ok (L.put accts.extraAccountMetas metas)

/-! ## Approvals -/

structure ApproveTransferAccounts where
  payer : Pubkey
  controllerAuthority : Pubkey
  tokenState : Pubkey
  tokenMintAccount : Pubkey
  sourceTokenAccount : Pubkey
  destinationTokenAccount : Pubkey
  transferApproval : Pubkey
  authoritySeed : Pubkey
  deriving DecidableEq

structure ApproveTransferArgs where
  sourceWallet : Pubkey
  destinationWallet : Pubkey
  authority : Pubkey
  amount : ℕ
  fromBalance : ℕ
  toBalance : ℕ
  fromCountry : ℕ
  toCountry : ℕ
  kind : ℕ
  deriving DecidableEq

/-- The record an approval writes. -/
def newApproval (accts : ApproveTransferAccounts) (args : ApproveTransferArgs) :
    TransferApproval where
  tokenState := accts.tokenState
  sourceTokenAccount := accts.sourceTokenAccount
  destinationTokenAccount := accts.destinationTokenAccount
  authority := args.authority
  sourceWallet := args.sourceWallet
  destinationWallet := args.destinationWallet
  amount := args.amount
  fromBalance := args.fromBalance
  toBalance := args.toBalance
  fromCountry := args.fromCountry
  toCountry := args.toCountry
  kind := args.kind
  consumed := false
  finalized := false

def approveTransfer (L : Ledger) (signers : List Pubkey) (accts : ApproveTransferAccounts)
    (args : ApproveTransferArgs) : Result Ledger := do
  requireSigner signers accts.payer
  requireSigner signers accts.controllerAuthority
  let (L, _) ← L.initIfNeeded TransferApproval accts.payer accts.transferApproval
    (approvalAddress accts.sourceTokenAccount accts.destinationTokenAccount accts.authoritySeed)
    approvalSpace
  let tokenState ← readTokenState L accts.tokenState
  require (tokenState.tokenMint = accts.tokenMintAccount) (.hook .invalidTokenState)
  require (accts.controllerAuthority = accts.tokenState) (.hook .notController)
  .ok (L.put accts.transferApproval (newApproval accts args))

/-! ## Execution -/

structure ExecuteAccounts where
  source : Pubkey
  mint : Pubkey
  destination : Pubkey
  authority : Pubkey
  extraAccountMetas : Pubkey
  controllerProgram : Pubkey
  tokenState : Pubkey
  transferApproval : Pubkey
  complianceState : Pubkey
  complianceProgram : Pubkey
  remaining : List Pubkey

/-- Token-2022 is in the middle of a transfer between the two accounts. -/
def validateTransferHookInvocation (L : Ledger) (accts : ExecuteAccounts)
    (source destination : TokenAccount) : Result Unit := do
  require (accts.extraAccountMetas = extraAccountMetasAddress accts.mint hookProgram)
    (.hook .invalidExtraAccountMetas)
  require ((L.accounts accts.extraAccountMetas).owner = hookProgram)
    (.hook .invalidExtraAccountMetas)
  require (source.transferring = some true) (.hook .programCalledOutsideTransfer)
  require (destination.transferring = some true) (.hook .programCalledOutsideTransfer)

def validateTransferApproval (approval : TransferApproval)
    (tokenState source destination authority : Pubkey) (amount : ℕ) : Result Unit := do
  require (approval.tokenState = tokenState) (.hook .missingTransferApproval)
  require (approval.sourceTokenAccount = source) (.hook .missingTransferApproval)
  require (approval.destinationTokenAccount = destination) (.hook .missingTransferApproval)
  require (approval.authority = authority) (.hook .missingTransferApproval)
  require (approval.amount = amount ∧ approval.consumed = false) (.hook .missingTransferApproval)

def invokeComplianceTransferred (L : Ledger) (complianceProgram complianceState : Pubkey)
    (remaining : List Pubkey) (source : Pubkey)
    (amount fromBalanceAfter toBalanceAfter fromCountry toCountry : ℕ) : Result Ledger := do
  require (complianceProgram = .program .fracksCompliance) (.hook .invalidCompliance)
  require ((L.accounts complianceState).owner = .program .fracksCompliance)
    (.hook .invalidCompliance)
  Compliance.transferred L complianceState remaining source amount fromBalanceAfter
    toBalanceAfter fromCountry toCountry

/-- The approval after its transfer: consumed, and final unless it belongs to a
recovery. -/
def consumeApproval (approval : TransferApproval) : TransferApproval :=
  { approval with
    consumed := true
    finalized := approval.kind ≠ transferApprovalKindRecovery }

def executeTransferHook (L : Ledger) (accts : ExecuteAccounts) (amount : ℕ) : Result Ledger := do
  let approval ← L.load TransferApproval accts.transferApproval
  requireSeeds accts.transferApproval
    (approvalAddress accts.source accts.destination accts.authority)
  let tokenState ← readTokenState L accts.tokenState
  let source ← readTokenAccount L accts.source
  let destination ← readTokenAccount L accts.destination
  validateTokenMintAccount L accts.mint accts.tokenState tokenState
  validateTransferHookInvocation L accts source destination
  require (accts.controllerProgram = .program .fracksToken) (.hook .invalidTokenState)
  require (accts.complianceState = tokenState.compliance) (.hook .invalidCompliance)
  validateTransferApproval approval accts.tokenState accts.source accts.destination
    accts.authority amount
  let fromBalanceAfter ← okOr (checkedSub approval.fromBalance amount) (.hook .insufficientBalance)
  require (source.amount = fromBalanceAfter) (.hook .missingTransferApproval)
  let toBalanceAfter ← okOr (checkedAdd approval.toBalance amount) (.hook .arithmeticOverflow)
  require (destination.amount = toBalanceAfter) (.hook .missingTransferApproval)
  let L ← invokeComplianceTransferred L accts.complianceProgram accts.complianceState
    accts.remaining approval.sourceWallet amount source.amount destination.amount
    approval.fromCountry approval.toCountry
  .ok (L.put accts.transferApproval (consumeApproval approval))

/-! ## Resolution of the extra accounts -/

/-- The key that starts at a byte offset of an account's data. -/
def readKeyAt : AccountData → ℕ → Option Pubkey
  | .tokenState s, offset =>
      match offset with
      | 8 => some s.tokenMint
      | 40 => some s.identityRegistry
      | 72 => some s.compliance
      | _ => none
  | .complianceState s, offset =>
      match offset with
      | 8 => some s.owner
      | 40 => some s.tokenMint
      | _ => if 76 ≤ offset ∧ (offset - 76) % 32 = 0 then s.modules[(offset - 76) / 32]? else none
  | .transferApproval a, offset =>
      match offset with
      | 8 => some a.tokenState
      | 40 => some a.sourceTokenAccount
      | 72 => some a.destinationTokenAccount
      | 104 => some a.authority
      | 136 => some a.sourceWallet
      | 168 => some a.destinationWallet
      | _ => none
  | _, _ => none

/-- The two-byte number that starts at a byte offset of an account's data. -/
def readU16At : AccountData → ℕ → Option ℕ
  | .transferApproval a, offset =>
      match offset with
      | 224 => some a.fromCountry
      | 226 => some a.toCountry
      | _ => none
  | _, _ => none

/-- A seed after the literal, read from the accounts of the call. -/
def resolveSeed (L : Ledger) (accounts : List Pubkey) : MetaSeed → Option Seed
  | .literal _ => none
  | .accountKey index => accounts[index]?.map .key
  | .accountData accountIndex dataIndex length => do
      let k ← accounts[accountIndex]?
      if length = 32 then (readKeyAt (L.accounts k).data dataIndex).map .key
      else if length = 2 then (readU16At (L.accounts k).data dataIndex).map .num
      else none

/-- The derived address of a list of seeds that starts with its literal. -/
def resolvePda (L : Ledger) (accounts : List Pubkey) (program : Pubkey) :
    List MetaSeed → Option Pubkey
  | .literal label :: seeds => do
      let seeds ← seeds.mapM (resolveSeed L accounts)
      some (.findProgramAddress label seeds program)
  | _ => none

/-- The key of one stored entry, given the accounts that stand before it. -/
def resolveMeta (L : Ledger) (program : Pubkey) (accounts : List Pubkey) :
    ExtraAccountMeta → Option Pubkey
  | .fixed k _ => some k
  | .ownPda seeds _ => resolvePda L accounts program seeds
  | .externalPda programIndex seeds _ => do
      let owner ← accounts[programIndex]?
      resolvePda L accounts owner seeds
  | .pubkeyData accountIndex dataIndex _ => do
      let k ← accounts[accountIndex]?
      readKeyAt (L.accounts k).data dataIndex

/-- Each entry is resolved against the accounts before it and must be among the
accounts passed to the transfer. -/
def addExtraAccounts (L : Ledger) (program : Pubkey) (additional : List Pubkey) :
    List ExtraAccountMeta → List Pubkey → Result (List Pubkey)
  | [], accounts => .ok accounts
  | entry :: rest, accounts => do
      let k ← okOr (resolveMeta L program accounts entry) (.spl .invalidAccountData)
      require (k ∈ additional) (.spl .incorrectAccount)
      addExtraAccounts L program additional rest (accounts ++ [k])

/-- The account list of the hook call. -/
def hookAccounts (L : Ledger) (call : Token2022.HookCall) : Result (List Pubkey) := do
  let base := [call.source, call.mint, call.destination, call.authority]
  let validation := extraAccountMetasAddress call.mint call.program
  if validation ∈ call.additional then
    let stored ← okOr (decode (α := ExtraAccountMetaList) (L.accounts validation).data)
      (.spl .invalidAccountData)
    addExtraAccounts L call.program call.additional stored.metas (base ++ [validation])
  else
    .ok base

/-- The hook program receives its accounts by position. -/
def executeEntry (L : Ledger) (accounts : List Pubkey) (amount : ℕ) : Result Ledger :=
  match accounts with
  | source :: mint :: destination :: authority :: extraAccountMetas :: controllerProgram ::
      tokenState :: transferApproval :: complianceState :: complianceProgram :: remaining =>
      executeTransferHook L
        { source, mint, destination, authority, extraAccountMetas, controllerProgram, tokenState,
          transferApproval, complianceState, complianceProgram, remaining } amount
  | _ => .error (.anchor .accountNotInitialized)

/-- The call of the hook program of a mint.  A hook outside this repository
changes no account of this model; the other programs have no such entry. -/
def invokeHook (L : Ledger) (call : Token2022.HookCall) : Result Ledger :=
  if call.program = hookProgram then do
    let accounts ← hookAccounts L call
    executeEntry L accounts call.amount
  else
    match call.program with
    | .program _ => .error (.anchor .invalidProgramId)
    | _ => .ok L

end Fracks.TokenHook
