import Fracks.Token.Effects

/-!
# Deployed tokens

The records of a token as the factory and the programs set it up: its mint and
controller records, the identity registry with verified wallets, the compliance
state with its modules, and token accounts with their holdings.  Ledgers are
built from such lists of records, and what holds of every record of the list
holds of every account of the ledger.
-/

namespace Fracks

open Checked AccountType Ledger Token

/-- The ledger with the given records; every address has lamports. -/
def Ledger.ofRecords (records : List (Pubkey × Account)) : Ledger where
  accounts k := (records.lookup k).getD .vacant
  lamports _ := 10 ^ 15
  now := 1000

theorem Ledger.ofRecords_forall {P : Pubkey → Account → Prop} {records : List (Pubkey × Account)}
    (hrecords : ∀ r ∈ records, P r.1 r.2) (hvacant : ∀ k, P k .vacant) (k : Pubkey) :
    P k ((ofRecords records).accounts k) := by
  simp only [ofRecords]
  cases hlookup : records.lookup k with
  | none => exact hvacant k
  | some a =>
      refine hrecords (k, a) ?_
      rw [List.lookup_eq_some_iff] at hlookup
      obtain ⟨before, after, rfl, -⟩ := hlookup
      simp

/-- A token account of a deployment. -/
structure Holding where
  key : Pubkey
  wallet : Pubkey
  amount : ℕ

structure Deployment where
  tokenMint : Pubkey
  issuer : Pubkey
  paused : Bool
  modules : List Pubkey
  modulesPaused : Bool
  metas : List ExtraAccountMeta
  /-- The verified wallets with their countries. -/
  wallets : List (Pubkey × ℕ)
  holdings : List Holding

namespace Deployment

variable (d : Deployment)

def tokenState : Pubkey := tokenStateAddress d.tokenMint

def compliance : Pubkey := Compliance.complianceAddress d.tokenMint

def registry : RegistryAccounts where
  irpState := .findProgramAddress .irpState [.key d.tokenMint] (.program .fracksIrp)
  irsState := Irs.irsAddress d.issuer
  tirState := .findProgramAddress .tirState [.key d.tokenMint] (.program .fracksTir)
  ctrState := .findProgramAddress .ctrState [.key d.tokenMint] (.program .fracksCtr)

def walletIdentity (wallet : Pubkey) : Pubkey :=
  Irp.walletIdentityAddress d.registry.irsState wallet

def tokenStateRecord : TokenState where
  tokenMint := d.tokenMint
  identityRegistry := d.registry.irpState
  compliance := d.compliance
  paused := d.paused
  decimals := 0
  name := ""
  symbol := ""
  isin := ""

def complianceRecord : ComplianceState where
  owner := d.issuer
  tokenMint := d.tokenMint
  modules := d.modules
  modulesPaused := d.modulesPaused

/-- The mint as `create_token_mint` makes it, with the supply that is held. -/
def mintRecord : Mint where
  mintAuthority := some d.tokenState
  supply := (d.holdings.map Holding.amount).sum
  decimals := 0
  isInitialized := true
  freezeAuthority := none
  transferHook := some ⟨some d.issuer, some TokenHook.hookProgram⟩
  permanentDelegate := some (some d.tokenState)

def identityRecord (wallet : Pubkey × ℕ) : WalletIdentity where
  wallet := wallet.1
  fid := .findProgramAddress .fid [.key wallet.1] (.program .fracksFid)
  country := wallet.2
  irs := d.registry.irsState
  isActive := true
  activatedBy := d.issuer
  activatedAt := 0

def holdingRecord (h : Holding) : TokenAccount where
  mint := d.tokenMint
  owner := h.wallet
  amount := h.amount
  delegate := none
  delegatedAmount := 0
  isFrozen := false
  closeAuthority := none
  immutableOwner := true
  transferring := some false

def records : List (Pubkey × Account) :=
  [(d.tokenState, account d.tokenStateRecord),
    (ownerAddress d.tokenMint,
      account ({ owner := d.issuer, tokenMint := d.tokenMint } : OwnerState)),
    (d.tokenMint, account d.mintRecord),
    (d.compliance, account d.complianceRecord),
    (TokenHook.extraAccountMetasAddress d.tokenMint TokenHook.hookProgram,
      account ({ metas := d.metas } : ExtraAccountMetaList)),
    (d.registry.irpState, account (
      { tokenMint := d.tokenMint, owner := d.issuer, irsAccount := d.registry.irsState,
        tirAccount := d.registry.tirState, ctrAccount := d.registry.ctrState,
        identityAgents := [], registeredCount := d.wallets.length } : IdentityRegistryState)),
    (d.registry.irsState, account (
      { owner := d.issuer, authoritySeed := d.issuer, boundRegistries := [d.registry.irpState],
        registeredCount := d.wallets.length } : IdentityRegistryStorageState)),
    (d.registry.tirState, account (
      { owner := d.issuer, tokenMint := d.tokenMint, issuerCount := 0 } : TrustedIssuersState)),
    (d.registry.ctrState, account (
      { owner := d.issuer, tokenMint := d.tokenMint, topics := [] } : ClaimTopicsState))] ++
  d.wallets.map (fun w ↦ (d.walletIdentity w.1, account (d.identityRecord w))) ++
  d.holdings.map (fun h ↦ (h.key, account (d.holdingRecord h)))

/-- The deployment together with further records. -/
def ledger (extra : List (Pubkey × Account)) : Ledger := .ofRecords (extra ++ d.records)

/-- The issuer as operator. -/
def operator : OperatorAccounts where
  authority := d.issuer
  tokenState := d.tokenState
  ownerState := ownerAddress d.tokenMint
  agentRole := .default

/-- The accounts of a transfer between two holdings; the caller chooses the
freeze accounts. -/
def transferAccounts (source destination : Holding) (fromFrozen toFrozen fromPartialFreeze : Pubkey)
    (remaining : List Pubkey) : TransferEvaluation where
  toRegistryAccounts := d.registry
  tokenState := d.tokenState
  sourceTokenAccount := source.key
  tokenMintAccount := d.tokenMint
  destinationTokenAccount := destination.key
  fromWallet := source.wallet
  toWallet := destination.wallet
  controllerProgram := .program .fracksToken
  hookProgram := TokenHook.hookProgram
  transferApproval := TokenHook.approvalAddress source.key destination.key source.wallet
  systemProgram := .program .system
  complianceState := d.compliance
  fromWalletIdentity := d.walletIdentity source.wallet
  toWalletIdentity := d.walletIdentity destination.wallet
  fromFrozen := fromFrozen
  toFrozen := toFrozen
  fromPartialFreeze := fromPartialFreeze
  remaining := remaining

/-- The accounts of a mint to a holding. -/
def receiverAccounts (destination : Holding) (toFrozen : Pubkey) (remaining : List Pubkey) :
    ReceiverAccounts where
  toRegistryAccounts := d.registry
  complianceState := d.compliance
  complianceProgram := .program .fracksCompliance
  walletIdentity := d.walletIdentity destination.wallet
  toFrozen := toFrozen
  tokenMintAccount := d.tokenMint
  destinationTokenAccount := destination.key
  tokenProgram := Token2022.tokenProgram
  remaining := remaining

/-- The accounts of a burn from a holding; the operator chooses the compliance
state. -/
def burnAccounts (source : Holding) (complianceState : Pubkey) (remaining : List Pubkey) :
    BurnAccounts where
  complianceState := complianceState
  complianceProgram := .program .fracksCompliance
  irsState := d.registry.irsState
  fromWalletIdentity := d.walletIdentity source.wallet
  tokenMintAccount := d.tokenMint
  sourceTokenAccount := source.key
  tokenProgram := Token2022.tokenProgram
  remaining := remaining

/-- The accounts of a forced transfer or a recovery between two holdings. -/
def controllerAccounts (source destination : Holding) (remaining : List Pubkey) :
    ControllerTransferAccounts where
  toRegistryAccounts := d.registry
  complianceState := d.compliance
  complianceProgram := .program .fracksCompliance
  fromWalletIdentity := d.walletIdentity source.wallet
  toWalletIdentity := d.walletIdentity destination.wallet
  toFrozen := frozenAddress d.tokenMint destination.wallet
  tokenMintAccount := d.tokenMint
  sourceTokenAccount := source.key
  destinationTokenAccount := destination.key
  extraAccountMetas := TokenHook.extraAccountMetasAddress d.tokenMint TokenHook.hookProgram
  controllerProgram := .program .fracksToken
  hookProgram := TokenHook.hookProgram
  transferApproval := TokenHook.approvalAddress source.key destination.key d.tokenState
  systemProgram := .program .system
  tokenProgram := Token2022.tokenProgram
  remaining := remaining

/-- The accounts of the finalisation of a recovery between two holdings. -/
def finalizeAccounts (source destination : Holding) : FinalizeAccounts where
  irsState := d.registry.irsState
  irpState := d.registry.irpState
  newWalletIdentity := d.walletIdentity destination.wallet
  lostWalletIdentity := d.walletIdentity source.wallet
  transferApproval := TokenHook.approvalAddress source.key destination.key d.tokenState
  irsProgram := .program .fracksIrs

/-- The supply cap of a deployment and its record, served by the router. -/
def supplyCap : Pubkey := HookedModule.moduleAddress SupplyCapModule d.tokenMint

def supplyCapRecord (maxSupply totalSupply : ℕ) : SupplyCapModule where
  owner := d.issuer
  tokenMint := d.tokenMint
  hookAuthority := d.compliance
  maxSupply := maxSupply
  totalSupply := totalSupply

/-- The investor cap of a deployment and its record. -/
def maxInvestors : Pubkey := HookedModule.moduleAddress MaxInvestorsModule d.tokenMint

def maxInvestorsRecord (maxInvestors holderCount : ℕ) : MaxInvestorsModule where
  owner := d.issuer
  tokenMint := d.tokenMint
  hookAuthority := d.compliance
  maxInvestors := maxInvestors
  holderCount := holderCount

/-- The accounts that the hook of a transfer needs without any modules. -/
def hookAccounts (source destination authority : Pubkey) : List Pubkey :=
  [TokenHook.extraAccountMetasAddress d.tokenMint TokenHook.hookProgram, .program .fracksToken,
    d.tokenState, TokenHook.approvalAddress source destination authority, d.compliance,
    .program .fracksCompliance, TokenHook.hookProgram]

/-- What holds of the records of a deployment and of the further ones holds of
every account of the ledger. -/
theorem ledger_forall {P : Pubkey → Account → Prop} {extra : List (Pubkey × Account)}
    (hextra : ∀ r ∈ extra, P r.1 r.2) (hrecords : ∀ r ∈ d.records, P r.1 r.2)
    (hvacant : ∀ k, P k .vacant) (k : Pubkey) : P k ((d.ledger extra).accounts k) := by
  refine ofRecords_forall (fun r hr ↦ ?_) hvacant k
  rcases List.mem_append.1 hr with hr | hr
  · exact hextra r hr
  · exact hrecords r hr

/-- The kinds of the records of a deployment besides its token accounts. -/
def recordKinds : List AccountKind :=
  [.tokenState, .ownerState, .mint, .complianceState, .extraAccountMetas, .identityRegistryState,
    .identityRegistryStorageState, .trustedIssuersState, .claimTopicsState, .walletIdentity]

theorem records_kind {r : Pubkey × Account} (hr : r ∈ d.records) :
    r.2.kind ∈ recordKinds ∨ ∃ h ∈ d.holdings, r = (h.key, account (d.holdingRecord h)) := by
  simp only [records, List.mem_append, List.mem_map, List.mem_cons, List.not_mem_nil,
    or_false] at hr
  rcases hr with (hr | ⟨w, -, rfl⟩) | ⟨h, hh, rfl⟩
  · left
    rcases hr with rfl | rfl | rfl | rfl | rfl | rfl | rfl | rfl | rfl <;>
      simp [kind, recordKinds]
  · left
    simp [kind, recordKinds]
  · exact .inr ⟨h, hh, rfl⟩

/-- In a deployment no token account is in the middle of a transfer. -/
theorem flagsDown {extra : List (Pubkey × Account)}
    (hextra : ∀ r ∈ extra, ∀ a : TokenAccount, r.2 = account a → a.transferring ≠ some true) :
    TokenHook.FlagsDown (d.ledger extra) := by
  refine d.ledger_forall (P := fun _ acc ↦ ∀ a : TokenAccount, acc = account a →
    a.transferring ≠ some true) hextra (fun r hr a ha ↦ ?_) fun _ a ha ↦
      absurd ha.symm (account_ne_vacant a)
  rcases d.records_kind hr with hkind | ⟨h, -, rfl⟩
  · simp [ha, kind, recordKinds] at hkind
  · obtain rfl := account_inj.1 ha
    simp [holdingRecord]

/-- The token accounts of a deployment are its holdings. -/
theorem holding_of_account {extra : List (Pubkey × Account)}
    (hextra : ∀ r ∈ extra, r.2.kind ≠ .tokenAccount) {x : Pubkey} {a : TokenAccount}
    (ha : (d.ledger extra).accounts x = account a) :
    ∃ h ∈ d.holdings, x = h.key ∧ a = d.holdingRecord h := by
  refine d.ledger_forall (P := fun x acc ↦ ∀ a : TokenAccount, acc = account a →
    ∃ h ∈ d.holdings, x = h.key ∧ a = d.holdingRecord h) (fun r hr a ha ↦ ?_)
    (fun r hr a ha ↦ ?_) (fun _ a ha ↦ absurd ha.symm (account_ne_vacant a)) x a ha
  · exact absurd (ha ▸ kind_account a) (hextra r hr)
  · rcases d.records_kind hr with hkind | ⟨h, hh, rfl⟩
    · simp [ha, kind, recordKinds] at hkind
    · exact ⟨h, hh, rfl, (account_inj.1 ha).symm⟩

/-- The wallet identities of a deployment are those of its wallets. -/
theorem identity_of_account {extra : List (Pubkey × Account)}
    (hextra : ∀ r ∈ extra, r.2.kind ≠ .walletIdentity) {x : Pubkey} {a : WalletIdentity}
    (ha : (d.ledger extra).accounts x = account a) :
    ∃ w ∈ d.wallets, x = d.walletIdentity w.1 ∧ a = d.identityRecord w := by
  refine d.ledger_forall (P := fun x acc ↦ ∀ a : WalletIdentity, acc = account a →
    ∃ w ∈ d.wallets, x = d.walletIdentity w.1 ∧ a = d.identityRecord w) (fun r hr a ha ↦ ?_)
    (fun r hr a ha ↦ ?_) (fun _ a ha ↦ absurd ha.symm (account_ne_vacant a)) x a ha
  · exact absurd (ha ▸ kind_account a) (hextra r hr)
  · have hkind : r.2.kind = .walletIdentity := ha ▸ kind_account a
    simp only [records, List.mem_append, List.mem_map, List.mem_cons, List.not_mem_nil,
      or_false] at hr
    rcases hr with (hr | ⟨w, hw, rfl⟩) | ⟨h, -, rfl⟩
    · rcases hr with rfl | rfl | rfl | rfl | rfl | rfl | rfl | rfl | rfl <;> simp [kind] at hkind
    · exact ⟨w, hw, rfl, (account_inj.1 ha).symm⟩
    · simp [kind] at hkind

/-- A deployment has one identity storage. -/
theorem storage_of_account {extra : List (Pubkey × Account)}
    (hextra : ∀ r ∈ extra, r.2.kind ≠ .identityRegistryStorageState) {x : Pubkey}
    {a : IdentityRegistryStorageState} (ha : (d.ledger extra).accounts x = account a) :
    x = d.registry.irsState ∧ a.registeredCount = d.wallets.length := by
  refine d.ledger_forall (P := fun x acc ↦ ∀ a : IdentityRegistryStorageState, acc = account a →
    x = d.registry.irsState ∧ a.registeredCount = d.wallets.length) (fun r hr a ha ↦ ?_)
    (fun r hr a ha ↦ ?_) (fun _ a ha ↦ absurd ha.symm (account_ne_vacant a)) x a ha
  · exact absurd (ha ▸ kind_account a) (hextra r hr)
  · have hkind : r.2.kind = .identityRegistryStorageState := ha ▸ kind_account a
    simp only [records, List.mem_append, List.mem_map, List.mem_cons, List.not_mem_nil,
      or_false] at hr
    rcases hr with (hr | ⟨w, hw, rfl⟩) | ⟨h, -, rfl⟩
    · rcases hr with rfl | rfl | rfl | rfl | rfl | rfl | rfl | rfl | rfl
      case inr.inr.inr.inr.inr.inr.inl =>
        obtain rfl := account_inj.1 ha
        exact ⟨rfl, rfl⟩
      all_goals simp [kind] at hkind
    · simp [kind] at hkind
    · simp [kind] at hkind

/-- A deployment has no records of the other kinds. -/
theorem not_account {α : Type} [AccountType α] {extra : List (Pubkey × Account)}
    (hextra : ∀ r ∈ extra, r.2.kind ≠ kind α)
    (hkind : kind α ∉ .tokenAccount :: recordKinds) (k : Pubkey) (a : α) :
    (d.ledger extra).accounts k ≠ account a := by
  refine d.ledger_forall (P := fun _ acc ↦ acc ≠ account a) (fun r hr ha ↦ ?_)
    (fun r hr ha ↦ ?_) (fun _ ↦ (account_ne_vacant a).symm) k
  · exact hextra r hr (ha ▸ kind_account a)
  · rcases d.records_kind hr with hmem | ⟨h, -, rfl⟩
    · rw [ha, kind_account] at hmem
      exact hkind (List.mem_cons_of_mem _ hmem)
    · have hk := congrArg Account.kind ha
      rw [kind_account, kind_account] at hk
      exact hkind (hk ▸ by simp [kind])

end Deployment

end Fracks
