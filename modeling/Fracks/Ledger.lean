import Fracks.State
import Fracks.Errors
import Fracks.Lib.Checked

/-!
# The ledger

Accounts with their owner program and typed contents, lamports and the clock.
A record type is tied to its account kind once, by an `AccountType` instance;
loading, creating, writing and closing accounts, and the frame conditions that
say which kinds of accounts a computation may touch, are then generic in it.
-/

namespace Fracks

open Checked

/-! ## Contents of accounts -/

/-- The contents of an account: empty, a record of these programs, or data of
some other program. -/
inductive AccountData
  | empty
  | other (n : ℕ)
  | tokenState (a : TokenState)
  | ownerState (a : OwnerState)
  | agentRole (a : AgentRole)
  | subscriptionEscrow (a : SubscriptionEscrow)
  | frozenWallet (a : FrozenWallet)
  | partialFreeze (a : PartialFreeze)
  | offeringTerms (a : OfferingTerms)
  | transferApproval (a : TransferApproval)
  | extraAccountMetas (a : ExtraAccountMetaList)
  | complianceState (a : ComplianceState)
  | maxInvestorsModule (a : MaxInvestorsModule)
  | supplyCapModule (a : SupplyCapModule)
  | investorCountryCapModule (a : InvestorCountryCapModule)
  | countryInvestorCount (a : CountryInvestorCount)
  | dailyTransferLimitModule (a : DailyTransferLimitModule)
  | dailyWalletUsage (a : DailyWalletUsage)
  | countryRestrictModule (a : CountryRestrictModule)
  | maxBalanceModule (a : MaxBalanceModule)
  | maxTransferModule (a : MaxTransferModule)
  | lockupModule (a : LockupModule)
  | identityRegistryState (a : IdentityRegistryState)
  | identityRegistryStorageState (a : IdentityRegistryStorageState)
  | walletIdentity (a : WalletIdentity)
  | trustedIssuersState (a : TrustedIssuersState)
  | claimTopicsState (a : ClaimTopicsState)
  | onboardingApplication (a : OnboardingApplication)
  | fidAccount (a : FidAccount)
  | claimAccount (a : ClaimAccount)
  | claimTopicIndex (a : ClaimTopicIndex)
  | issuerEntry (a : IssuerEntry)
  | factoryState (a : FactoryState)
  | tokenDeployment (a : TokenDeployment)
  | platformAuthority (a : PlatformAuthority)
  | custodyMandate (a : CustodyMandate)
  | custodyAttestation (a : CustodyAttestation)
  | assetRegistry (a : AssetRegistry)
  | successionClaim (a : SuccessionClaim)
  | governanceState (a : GovernanceState)
  | proposal (a : Proposal)
  | voteRecord (a : VoteRecord)
  | tradeEscrow (a : TradeEscrow)
  | institutionRole (a : InstitutionRole)
  | mint (a : Mint)
  | tokenAccount (a : TokenAccount)
  deriving DecidableEq

/-- The kinds of accounts; an account that is neither vacant nor a record held
by the program the record belongs to is `foreign`. -/
inductive AccountKind
  | vacant
  | foreign
  | tokenState
  | ownerState
  | agentRole
  | subscriptionEscrow
  | frozenWallet
  | partialFreeze
  | offeringTerms
  | transferApproval
  | extraAccountMetas
  | complianceState
  | maxInvestorsModule
  | supplyCapModule
  | investorCountryCapModule
  | countryInvestorCount
  | dailyTransferLimitModule
  | dailyWalletUsage
  | countryRestrictModule
  | maxBalanceModule
  | maxTransferModule
  | lockupModule
  | identityRegistryState
  | identityRegistryStorageState
  | walletIdentity
  | trustedIssuersState
  | claimTopicsState
  | onboardingApplication
  | fidAccount
  | claimAccount
  | claimTopicIndex
  | issuerEntry
  | factoryState
  | tokenDeployment
  | platformAuthority
  | custodyMandate
  | custodyAttestation
  | assetRegistry
  | successionClaim
  | governanceState
  | proposal
  | voteRecord
  | tradeEscrow
  | institutionRole
  | mint
  | tokenAccount
  deriving DecidableEq

/-- The program that owns the accounts of a kind. -/
def AccountKind.program : AccountKind → ProgramName
  | .vacant | .foreign => .system
  | .tokenState | .ownerState | .agentRole
  | .subscriptionEscrow | .frozenWallet | .partialFreeze => .fracksToken
  | .offeringTerms | .factoryState | .tokenDeployment | .platformAuthority
  | .custodyMandate | .custodyAttestation => .fracksFactory
  | .transferApproval | .extraAccountMetas => .fracksTokenHook
  | .complianceState => .fracksCompliance
  | .maxInvestorsModule => .modMaxInvestors
  | .supplyCapModule => .modSupplyCap
  | .investorCountryCapModule | .countryInvestorCount => .modCountryCap
  | .dailyTransferLimitModule | .dailyWalletUsage => .modDailyLimit
  | .countryRestrictModule => .modCountryRestrict
  | .maxBalanceModule => .modMaxBalance
  | .maxTransferModule => .modMaxTransfer
  | .lockupModule => .modLockup
  | .identityRegistryState => .fracksIrp
  | .identityRegistryStorageState | .walletIdentity | .onboardingApplication => .fracksIrs
  | .trustedIssuersState | .issuerEntry => .fracksTir
  | .claimTopicsState => .fracksCtr
  | .fidAccount | .claimAccount | .claimTopicIndex => .fracksFid
  | .assetRegistry | .successionClaim => .fracksAssetRegistry
  | .governanceState | .proposal | .voteRecord => .fracksGovernance
  | .tradeEscrow | .institutionRole => .fracksTradeEscrow
  | .mint | .tokenAccount => .token2022

def AccountData.kind : AccountData → AccountKind
  | .empty => .vacant
  | .other _ => .foreign
  | .tokenState _ => .tokenState
  | .ownerState _ => .ownerState
  | .agentRole _ => .agentRole
  | .subscriptionEscrow _ => .subscriptionEscrow
  | .frozenWallet _ => .frozenWallet
  | .partialFreeze _ => .partialFreeze
  | .offeringTerms _ => .offeringTerms
  | .transferApproval _ => .transferApproval
  | .extraAccountMetas _ => .extraAccountMetas
  | .complianceState _ => .complianceState
  | .maxInvestorsModule _ => .maxInvestorsModule
  | .supplyCapModule _ => .supplyCapModule
  | .investorCountryCapModule _ => .investorCountryCapModule
  | .countryInvestorCount _ => .countryInvestorCount
  | .dailyTransferLimitModule _ => .dailyTransferLimitModule
  | .dailyWalletUsage _ => .dailyWalletUsage
  | .countryRestrictModule _ => .countryRestrictModule
  | .maxBalanceModule _ => .maxBalanceModule
  | .maxTransferModule _ => .maxTransferModule
  | .lockupModule _ => .lockupModule
  | .identityRegistryState _ => .identityRegistryState
  | .identityRegistryStorageState _ => .identityRegistryStorageState
  | .walletIdentity _ => .walletIdentity
  | .trustedIssuersState _ => .trustedIssuersState
  | .claimTopicsState _ => .claimTopicsState
  | .onboardingApplication _ => .onboardingApplication
  | .fidAccount _ => .fidAccount
  | .claimAccount _ => .claimAccount
  | .claimTopicIndex _ => .claimTopicIndex
  | .issuerEntry _ => .issuerEntry
  | .factoryState _ => .factoryState
  | .tokenDeployment _ => .tokenDeployment
  | .platformAuthority _ => .platformAuthority
  | .custodyMandate _ => .custodyMandate
  | .custodyAttestation _ => .custodyAttestation
  | .assetRegistry _ => .assetRegistry
  | .successionClaim _ => .successionClaim
  | .governanceState _ => .governanceState
  | .proposal _ => .proposal
  | .voteRecord _ => .voteRecord
  | .tradeEscrow _ => .tradeEscrow
  | .institutionRole _ => .institutionRole
  | .mint _ => .mint
  | .tokenAccount _ => .tokenAccount

structure Account where
  owner : Pubkey
  data : AccountData
  deriving DecidableEq

/-- An address that holds nothing: owned by the system program, without data. -/
def Account.vacant : Account := ⟨.default, .empty⟩

def Account.kind (a : Account) : AccountKind :=
  if a.owner = .program a.data.kind.program then a.data.kind else .foreign

/-! ## Record types -/

/-- A record type with its kind and its discriminated encoding. -/
class AccountType (α : Type) where
  kind : AccountKind
  encode : α → AccountData
  decode : AccountData → Option α
  decode_eq_some : ∀ {d : AccountData} {a : α}, decode d = some a ↔ d = encode a
  encode_kind : ∀ a : α, (encode a).kind = kind
  program_ne : kind.program ≠ .system := by decide

instance : AccountType TokenState where
  kind := .tokenState
  encode := .tokenState
  decode
    | .tokenState a => some a
    | _ => none
  decode_eq_some := by intro d a; cases d <;> simp [eq_comm]
  encode_kind _ := rfl

instance : AccountType OwnerState where
  kind := .ownerState
  encode := .ownerState
  decode
    | .ownerState a => some a
    | _ => none
  decode_eq_some := by intro d a; cases d <;> simp [eq_comm]
  encode_kind _ := rfl

instance : AccountType AgentRole where
  kind := .agentRole
  encode := .agentRole
  decode
    | .agentRole a => some a
    | _ => none
  decode_eq_some := by intro d a; cases d <;> simp [eq_comm]
  encode_kind _ := rfl

instance : AccountType SubscriptionEscrow where
  kind := .subscriptionEscrow
  encode := .subscriptionEscrow
  decode
    | .subscriptionEscrow a => some a
    | _ => none
  decode_eq_some := by intro d a; cases d <;> simp [eq_comm]
  encode_kind _ := rfl

instance : AccountType FrozenWallet where
  kind := .frozenWallet
  encode := .frozenWallet
  decode
    | .frozenWallet a => some a
    | _ => none
  decode_eq_some := by intro d a; cases d <;> simp [eq_comm]
  encode_kind _ := rfl

instance : AccountType PartialFreeze where
  kind := .partialFreeze
  encode := .partialFreeze
  decode
    | .partialFreeze a => some a
    | _ => none
  decode_eq_some := by intro d a; cases d <;> simp [eq_comm]
  encode_kind _ := rfl

instance : AccountType OfferingTerms where
  kind := .offeringTerms
  encode := .offeringTerms
  decode
    | .offeringTerms a => some a
    | _ => none
  decode_eq_some := by intro d a; cases d <;> simp [eq_comm]
  encode_kind _ := rfl

instance : AccountType TransferApproval where
  kind := .transferApproval
  encode := .transferApproval
  decode
    | .transferApproval a => some a
    | _ => none
  decode_eq_some := by intro d a; cases d <;> simp [eq_comm]
  encode_kind _ := rfl

instance : AccountType ExtraAccountMetaList where
  kind := .extraAccountMetas
  encode := .extraAccountMetas
  decode
    | .extraAccountMetas a => some a
    | _ => none
  decode_eq_some := by intro d a; cases d <;> simp [eq_comm]
  encode_kind _ := rfl

instance : AccountType ComplianceState where
  kind := .complianceState
  encode := .complianceState
  decode
    | .complianceState a => some a
    | _ => none
  decode_eq_some := by intro d a; cases d <;> simp [eq_comm]
  encode_kind _ := rfl

instance : AccountType MaxInvestorsModule where
  kind := .maxInvestorsModule
  encode := .maxInvestorsModule
  decode
    | .maxInvestorsModule a => some a
    | _ => none
  decode_eq_some := by intro d a; cases d <;> simp [eq_comm]
  encode_kind _ := rfl

instance : AccountType SupplyCapModule where
  kind := .supplyCapModule
  encode := .supplyCapModule
  decode
    | .supplyCapModule a => some a
    | _ => none
  decode_eq_some := by intro d a; cases d <;> simp [eq_comm]
  encode_kind _ := rfl

instance : AccountType InvestorCountryCapModule where
  kind := .investorCountryCapModule
  encode := .investorCountryCapModule
  decode
    | .investorCountryCapModule a => some a
    | _ => none
  decode_eq_some := by intro d a; cases d <;> simp [eq_comm]
  encode_kind _ := rfl

instance : AccountType CountryInvestorCount where
  kind := .countryInvestorCount
  encode := .countryInvestorCount
  decode
    | .countryInvestorCount a => some a
    | _ => none
  decode_eq_some := by intro d a; cases d <;> simp [eq_comm]
  encode_kind _ := rfl

instance : AccountType DailyTransferLimitModule where
  kind := .dailyTransferLimitModule
  encode := .dailyTransferLimitModule
  decode
    | .dailyTransferLimitModule a => some a
    | _ => none
  decode_eq_some := by intro d a; cases d <;> simp [eq_comm]
  encode_kind _ := rfl

instance : AccountType DailyWalletUsage where
  kind := .dailyWalletUsage
  encode := .dailyWalletUsage
  decode
    | .dailyWalletUsage a => some a
    | _ => none
  decode_eq_some := by intro d a; cases d <;> simp [eq_comm]
  encode_kind _ := rfl

instance : AccountType CountryRestrictModule where
  kind := .countryRestrictModule
  encode := .countryRestrictModule
  decode
    | .countryRestrictModule a => some a
    | _ => none
  decode_eq_some := by intro d a; cases d <;> simp [eq_comm]
  encode_kind _ := rfl

instance : AccountType MaxBalanceModule where
  kind := .maxBalanceModule
  encode := .maxBalanceModule
  decode
    | .maxBalanceModule a => some a
    | _ => none
  decode_eq_some := by intro d a; cases d <;> simp [eq_comm]
  encode_kind _ := rfl

instance : AccountType MaxTransferModule where
  kind := .maxTransferModule
  encode := .maxTransferModule
  decode
    | .maxTransferModule a => some a
    | _ => none
  decode_eq_some := by intro d a; cases d <;> simp [eq_comm]
  encode_kind _ := rfl

instance : AccountType LockupModule where
  kind := .lockupModule
  encode := .lockupModule
  decode
    | .lockupModule a => some a
    | _ => none
  decode_eq_some := by intro d a; cases d <;> simp [eq_comm]
  encode_kind _ := rfl

instance : AccountType IdentityRegistryState where
  kind := .identityRegistryState
  encode := .identityRegistryState
  decode
    | .identityRegistryState a => some a
    | _ => none
  decode_eq_some := by intro d a; cases d <;> simp [eq_comm]
  encode_kind _ := rfl

instance : AccountType IdentityRegistryStorageState where
  kind := .identityRegistryStorageState
  encode := .identityRegistryStorageState
  decode
    | .identityRegistryStorageState a => some a
    | _ => none
  decode_eq_some := by intro d a; cases d <;> simp [eq_comm]
  encode_kind _ := rfl

instance : AccountType WalletIdentity where
  kind := .walletIdentity
  encode := .walletIdentity
  decode
    | .walletIdentity a => some a
    | _ => none
  decode_eq_some := by intro d a; cases d <;> simp [eq_comm]
  encode_kind _ := rfl

instance : AccountType TrustedIssuersState where
  kind := .trustedIssuersState
  encode := .trustedIssuersState
  decode
    | .trustedIssuersState a => some a
    | _ => none
  decode_eq_some := by intro d a; cases d <;> simp [eq_comm]
  encode_kind _ := rfl

instance : AccountType ClaimTopicsState where
  kind := .claimTopicsState
  encode := .claimTopicsState
  decode
    | .claimTopicsState a => some a
    | _ => none
  decode_eq_some := by intro d a; cases d <;> simp [eq_comm]
  encode_kind _ := rfl

instance : AccountType ClaimAccount where
  kind := .claimAccount
  encode := .claimAccount
  decode
    | .claimAccount a => some a
    | _ => none
  decode_eq_some := by intro d a; cases d <;> simp [eq_comm]
  encode_kind _ := rfl

instance : AccountType OnboardingApplication where
  kind := .onboardingApplication
  encode := .onboardingApplication
  decode
    | .onboardingApplication a => some a
    | _ => none
  decode_eq_some := by intro d a; cases d <;> simp [eq_comm]
  encode_kind _ := rfl

instance : AccountType FidAccount where
  kind := .fidAccount
  encode := .fidAccount
  decode
    | .fidAccount a => some a
    | _ => none
  decode_eq_some := by intro d a; cases d <;> simp [eq_comm]
  encode_kind _ := rfl

instance : AccountType ClaimTopicIndex where
  kind := .claimTopicIndex
  encode := .claimTopicIndex
  decode
    | .claimTopicIndex a => some a
    | _ => none
  decode_eq_some := by intro d a; cases d <;> simp [eq_comm]
  encode_kind _ := rfl

instance : AccountType IssuerEntry where
  kind := .issuerEntry
  encode := .issuerEntry
  decode
    | .issuerEntry a => some a
    | _ => none
  decode_eq_some := by intro d a; cases d <;> simp [eq_comm]
  encode_kind _ := rfl

instance : AccountType FactoryState where
  kind := .factoryState
  encode := .factoryState
  decode
    | .factoryState a => some a
    | _ => none
  decode_eq_some := by intro d a; cases d <;> simp [eq_comm]
  encode_kind _ := rfl

instance : AccountType TokenDeployment where
  kind := .tokenDeployment
  encode := .tokenDeployment
  decode
    | .tokenDeployment a => some a
    | _ => none
  decode_eq_some := by intro d a; cases d <;> simp [eq_comm]
  encode_kind _ := rfl

instance : AccountType PlatformAuthority where
  kind := .platformAuthority
  encode := .platformAuthority
  decode
    | .platformAuthority a => some a
    | _ => none
  decode_eq_some := by intro d a; cases d <;> simp [eq_comm]
  encode_kind _ := rfl

instance : AccountType CustodyMandate where
  kind := .custodyMandate
  encode := .custodyMandate
  decode
    | .custodyMandate a => some a
    | _ => none
  decode_eq_some := by intro d a; cases d <;> simp [eq_comm]
  encode_kind _ := rfl

instance : AccountType CustodyAttestation where
  kind := .custodyAttestation
  encode := .custodyAttestation
  decode
    | .custodyAttestation a => some a
    | _ => none
  decode_eq_some := by intro d a; cases d <;> simp [eq_comm]
  encode_kind _ := rfl

instance : AccountType AssetRegistry where
  kind := .assetRegistry
  encode := .assetRegistry
  decode
    | .assetRegistry a => some a
    | _ => none
  decode_eq_some := by intro d a; cases d <;> simp [eq_comm]
  encode_kind _ := rfl

instance : AccountType SuccessionClaim where
  kind := .successionClaim
  encode := .successionClaim
  decode
    | .successionClaim a => some a
    | _ => none
  decode_eq_some := by intro d a; cases d <;> simp [eq_comm]
  encode_kind _ := rfl

instance : AccountType GovernanceState where
  kind := .governanceState
  encode := .governanceState
  decode
    | .governanceState a => some a
    | _ => none
  decode_eq_some := by intro d a; cases d <;> simp [eq_comm]
  encode_kind _ := rfl

instance : AccountType Proposal where
  kind := .proposal
  encode := .proposal
  decode
    | .proposal a => some a
    | _ => none
  decode_eq_some := by intro d a; cases d <;> simp [eq_comm]
  encode_kind _ := rfl

instance : AccountType VoteRecord where
  kind := .voteRecord
  encode := .voteRecord
  decode
    | .voteRecord a => some a
    | _ => none
  decode_eq_some := by intro d a; cases d <;> simp [eq_comm]
  encode_kind _ := rfl

instance : AccountType TradeEscrow where
  kind := .tradeEscrow
  encode := .tradeEscrow
  decode
    | .tradeEscrow a => some a
    | _ => none
  decode_eq_some := by intro d a; cases d <;> simp [eq_comm]
  encode_kind _ := rfl

instance : AccountType InstitutionRole where
  kind := .institutionRole
  encode := .institutionRole
  decode
    | .institutionRole a => some a
    | _ => none
  decode_eq_some := by intro d a; cases d <;> simp [eq_comm]
  encode_kind _ := rfl

instance : AccountType Mint where
  kind := .mint
  encode := .mint
  decode
    | .mint a => some a
    | _ => none
  decode_eq_some := by intro d a; cases d <;> simp [eq_comm]
  encode_kind _ := rfl

instance : AccountType TokenAccount where
  kind := .tokenAccount
  encode := .tokenAccount
  decode
    | .tokenAccount a => some a
    | _ => none
  decode_eq_some := by intro d a; cases d <;> simp [eq_comm]
  encode_kind _ := rfl

namespace AccountType

variable {α β : Type} [AccountType α] [AccountType β]

/-- The account that holds a record. -/
def account (a : α) : Account := ⟨.program (kind α).program, encode a⟩

@[simp] theorem account_owner (a : α) : (account a).owner = .program (kind α).program := rfl

@[simp] theorem account_data (a : α) : (account a).data = encode a := rfl

@[simp] theorem decode_encode (a : α) : decode (encode a) = some a :=
  decode_eq_some.2 rfl

theorem encode_injective {a b : α} (h : encode a = encode b) : a = b := by
  have hdecode := decode_encode a
  rw [h, decode_encode] at hdecode
  exact (Option.some.inj hdecode).symm

@[simp] theorem account_inj {a b : α} : account a = account b ↔ a = b := by
  constructor
  · exact fun h ↦ encode_injective (congrArg Account.data h)
  · rintro rfl
    rfl

@[simp] theorem kind_account (a : α) : (account a).kind = kind α := by
  simp [Account.kind, encode_kind]

theorem account_ne_vacant (a : α) : account a ≠ .vacant := by
  intro h
  have howner := congrArg Account.owner h
  simp only [account_owner, Account.vacant, Pubkey.default, Pubkey.program.injEq] at howner
  exact program_ne howner

/-- Records of different kinds are never in the same account. -/
theorem account_ne_of_kind {a : α} {b : β} (h : kind α ≠ kind β) : account a ≠ account b := by
  intro heq
  have hkind := congrArg Account.kind heq
  rw [kind_account, kind_account] at hkind
  exact h hkind

/-- An account that has been created but not written holds no record. -/
theorem account_ne_uninitialized (a : α) (owner : Pubkey) : account a ≠ ⟨owner, .empty⟩ := by
  intro heq
  have hdata : encode a = .empty := congrArg Account.data heq
  have hkind := encode_kind a
  rw [hdata] at hkind
  exact program_ne (α := α) (hkind ▸ rfl)

theorem decode_eq_none_of_kind {d : AccountData} (h : d.kind ≠ kind α) :
    decode (α := α) d = none := by
  by_contra hne
  obtain ⟨a, ha⟩ := Option.ne_none_iff_exists'.1 hne
  exact h (decode_eq_some.1 ha ▸ encode_kind a)

end AccountType

open AccountType

/-! ## The ledger -/

structure Ledger where
  accounts : Pubkey → Account
  lamports : Pubkey → ℕ
  now : ℤ
  slot : ℕ := 0

namespace Ledger

variable {α β : Type} [AccountType α] [AccountType β] {L L' L'' : Ledger} {k k' : Pubkey}

def setAccount (L : Ledger) (k : Pubkey) (a : Account) : Ledger :=
  { L with accounts := Function.update L.accounts k a }

def setLamports (L : Ledger) (k : Pubkey) (n : ℕ) : Ledger :=
  { L with lamports := Function.update L.lamports k n }

/-- Write a record to an account of its program. -/
def put (L : Ledger) (k : Pubkey) (a : α) : Ledger := L.setAccount k (account a)

@[simp] theorem setLamports_accounts (n : ℕ) : (L.setLamports k n).accounts = L.accounts := rfl

@[simp] theorem setAccount_now (a : Account) : (L.setAccount k a).now = L.now := rfl

@[simp] theorem setLamports_now (n : ℕ) : (L.setLamports k n).now = L.now := rfl

@[simp] theorem put_now (a : α) : (L.put k a).now = L.now := rfl

@[simp] theorem put_accounts_self (a : α) : (L.put k a).accounts k = account a := by
  simp [put, setAccount]

theorem put_accounts_of_ne (a : α) (h : k' ≠ k) : (L.put k a).accounts k' = L.accounts k' := by
  simp [put, setAccount, h]

theorem setAccount_accounts_of_ne (a : Account) (h : k' ≠ k) :
    (L.setAccount k a).accounts k' = L.accounts k' := by
  simp [setAccount, h]

/-- The record an account holds, when it belongs to the program of the record
type and its discriminator is the right one. -/
def view (α : Type) [AccountType α] (L : Ledger) (k : Pubkey) : Option α :=
  if (L.accounts k).owner = .program (kind α).program then decode (L.accounts k).data else none

theorem view_eq_some {a : α} : L.view α k = some a ↔ L.accounts k = account a := by
  unfold view
  split
  case isTrue h =>
    rw [decode_eq_some]
    constructor
    · intro hd
      exact congrArg₂ Account.mk h hd
    · intro hacc
      rw [hacc, account_data]
  case isFalse h =>
    simp only [reduceCtorEq, false_iff]
    intro hacc
    exact h (hacc ▸ account_owner a)

@[simp] theorem view_put_self (a : α) : (L.put k a).view α k = some a :=
  view_eq_some.2 (put_accounts_self a)

theorem view_congr (h : L'.accounts k = L.accounts k) : L'.view α k = L.view α k := by
  simp only [view, h]

theorem view_put_of_ne (b : β) (h : k' ≠ k) : (L.put k b).view α k' = L.view α k' :=
  view_congr (put_accounts_of_ne b h)

/-- Loading of a typed account: owner and discriminator are checked. -/
def load (α : Type) [AccountType α] (L : Ledger) (k : Pubkey) : Result α := do
  require (¬ ((L.accounts k).owner = .default ∧ L.lamports k = 0))
    (.anchor .accountNotInitialized)
  require ((L.accounts k).owner = .program (kind α).program)
    (.anchor .accountOwnedByWrongProgram)
  okOr (decode (L.accounts k).data) (.anchor .accountDiscriminatorMismatch)

@[simp] theorem load_eq_ok {a : α} : L.load α k = .ok a ↔ L.accounts k = account a := by
  rw [← view_eq_some]
  simp only [load, bind_eq_ok, require_eq_ok, okOr_eq_ok, exists_const, view]
  constructor
  · rintro ⟨-, howner, hdecode⟩
    rw [if_pos howner, hdecode]
  · intro h
    split at h
    case isTrue howner =>
      refine ⟨fun hvacant ↦ ?_, howner, h⟩
      have hdefault := hvacant.1
      rw [howner, Pubkey.default, Pubkey.program.injEq] at hdefault
      exact program_ne hdefault
    case isFalse => simp at h

/-! ## Lamports, creation and closing -/

/-- The rent-exempt minimum of an account with `space` bytes. -/
def rentExempt (space : ℕ) : ℕ := (128 + space) * 6960

/-- A transfer by the system program, whose source is a plain account. -/
def systemTransfer (L : Ledger) (source destination : Pubkey) (amount : ℕ) : Result Ledger := do
  require (L.accounts source = .vacant) (.system .invalidSource)
  require (amount ≤ L.lamports source) (.system .resultWithNegativeLamports)
  let L := L.setLamports source (L.lamports source - amount)
  .ok (L.setLamports destination (L.lamports destination + amount))

/-- The `init` constraint: `payer` funds a new account of `program` at `k`. -/
def createAccount (L : Ledger) (payer k : Pubkey) (program : ProgramName) (space : ℕ) :
    Result Ledger := do
  require (L.accounts k = .vacant) (.system .accountAlreadyInUse)
  let L ← L.systemTransfer payer k (rentExempt space - L.lamports k)
  .ok (L.setAccount k ⟨.program program, .empty⟩)

/-- The `close` constraint: the lamports go to `destination`. -/
def close (L : Ledger) (k destination : Pubkey) : Ledger :=
  let L := L.setLamports destination (L.lamports destination + L.lamports k)
  (L.setLamports k 0).setAccount k .vacant

theorem systemTransfer_ok {source destination : Pubkey} {amount : ℕ}
    (h : L.systemTransfer source destination amount = .ok L') :
    L'.accounts = L.accounts ∧ L'.now = L.now := by
  simp only [systemTransfer, bind_eq_ok, require_eq_ok, exists_const, Except.ok.injEq] at h
  obtain ⟨-, -, rfl⟩ := h
  exact ⟨rfl, rfl⟩

theorem createAccount_ok {payer : Pubkey} {program : ProgramName} {space : ℕ}
    (h : L.createAccount payer k program space = .ok L') :
    L.accounts k = .vacant ∧ (∀ x, x ≠ k → L'.accounts x = L.accounts x) ∧
      L'.accounts k = ⟨.program program, .empty⟩ ∧ L'.now = L.now := by
  simp only [createAccount, bind_eq_ok, require_eq_ok, exists_const, Except.ok.injEq] at h
  obtain ⟨hvacant, L₁, htransfer, rfl⟩ := h
  obtain ⟨haccounts, hnow⟩ := systemTransfer_ok htransfer
  refine ⟨hvacant, fun x hx ↦ ?_, by simp [setAccount], hnow⟩
  rw [setAccount_accounts_of_ne _ hx, haccounts]

/-! ## Frames -/

/-- Only accounts of the listed kinds, and vacant addresses, change. -/
def Frame (S : List AccountKind) (L L' : Ledger) : Prop :=
  ∀ k, L'.accounts k ≠ L.accounts k →
    (L.accounts k = .vacant ∨ (L.accounts k).kind ∈ S) ∧
      (L'.accounts k = .vacant ∨ (L'.accounts k).kind ∈ S)

namespace Frame

variable {S T : List AccountKind}

theorem of_accounts_eq (h : L'.accounts = L.accounts) : Frame S L L' :=
  fun k hk ↦ absurd (congrFun h k) hk

theorem refl (S : List AccountKind) (L : Ledger) : Frame S L L := of_accounts_eq rfl

theorem trans (h : Frame S L L') (h' : Frame S L' L'') : Frame S L L'' := by
  intro k hk
  by_cases hfirst : L'.accounts k = L.accounts k
  · have hsecond : L''.accounts k ≠ L'.accounts k := hfirst ▸ hk
    exact ⟨hfirst ▸ (h' k hsecond).1, (h' k hsecond).2⟩
  · by_cases hsecond : L''.accounts k = L'.accounts k
    · exact ⟨(h k hfirst).1, hsecond ▸ (h k hfirst).2⟩
    · exact ⟨(h k hfirst).1, (h' k hsecond).2⟩

theorem mono (h : Frame S L L') (hST : S ⊆ T) : Frame T L L' := fun k hk ↦
  ⟨(h k hk).1.imp_right fun hS ↦ hST hS, (h k hk).2.imp_right fun hS ↦ hST hS⟩

/-- Overwriting a record by one of the same type. -/
theorem put {a a' : α} (h : L.accounts k = account a) (hS : kind α ∈ S) :
    Frame S L (L.put k a') := by
  intro x hx
  by_cases hxk : x = k
  · subst hxk
    rw [h, put_accounts_self, kind_account, kind_account]
    exact ⟨.inr hS, .inr hS⟩
  · exact absurd (put_accounts_of_ne a' hxk) hx

/-- Creating an account and writing its first record. -/
theorem create {a : α} {payer : Pubkey} {program : ProgramName} {space : ℕ}
    (h : L.createAccount payer k program space = .ok L') (hS : kind α ∈ S) :
    Frame S L (L'.put k a) := by
  obtain ⟨hvacant, hother, -⟩ := createAccount_ok h
  intro x hx
  by_cases hxk : x = k
  · subst hxk
    rw [put_accounts_self, kind_account]
    exact ⟨.inl hvacant, .inr hS⟩
  · rw [put_accounts_of_ne a hxk, hother x hxk] at hx
    exact absurd rfl hx

theorem close {a : α} {destination : Pubkey} (h : L.accounts k = account a) (hS : kind α ∈ S) :
    Frame S L (L.close k destination) := by
  intro x hx
  by_cases hxk : x = k
  · subst hxk
    refine ⟨.inr ?_, .inl ?_⟩
    · rw [h, kind_account]
      exact hS
    · simp [Ledger.close, setAccount]
  · exact absurd (setAccount_accounts_of_ne .vacant hxk) hx

/-- Records of the kinds outside a frame are the same before and after. -/
theorem view_eq (h : Frame S L L') (hα : kind α ∉ S) (k : Pubkey) :
    L'.view α k = L.view α k := by
  by_cases hk : L'.accounts k = L.accounts k
  · exact view_congr hk
  · obtain ⟨hbefore, hafter⟩ := h k hk
    have hnone : ∀ M : Ledger, (M.accounts k = .vacant ∨ (M.accounts k).kind ∈ S) →
        M.view α k = none := by
      intro M hM
      by_contra hne
      obtain ⟨a, ha⟩ := Option.ne_none_iff_exists'.1 hne
      rw [view_eq_some] at ha
      rw [ha, kind_account] at hM
      exact hM.elim (account_ne_vacant a) hα
    rw [hnone L hbefore, hnone L' hafter]

theorem accounts_eq (h : Frame S L L') (hα : kind α ∉ S) {a : α}
    (ha : L.accounts k = account a) : L'.accounts k = account a := by
  rw [← view_eq_some] at ha ⊢
  rw [h.view_eq hα, ha]

end Frame

end Ledger

/-! ## Undiscriminated reads -/

/-- Borsh decoding without a discriminator check, as `deserialize_local` and
`deserialize_view` do it: eight bytes are skipped and the rest is decoded.  On a
record of the type itself the record comes back and an account without data is
refused; on any other data the bytes decide. -/
class Borsh where
  decodeView (α : Type) [AccountType α] : AccountData → Option α
  decodeView_encode {α : Type} [AccountType α] (a : α) : decodeView α (encode a) = some a
  decodeView_empty {α : Type} [AccountType α] : decodeView α .empty = none

/-- The decoder that refuses the data of every other type. -/
@[reducible] def strictBorsh : Borsh where
  decodeView _ := decode
  decodeView_encode a := decode_encode a
  decodeView_empty {α} := decode_eq_none_of_kind fun h ↦ by
    have hprogram := AccountType.program_ne (α := α)
    rw [← h] at hprogram
    exact hprogram rfl

end Fracks
