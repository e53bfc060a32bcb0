import Fracks.Address

/-!
# Account types

The records that the programs keep in accounts, field by field, and the two
account types of Token-2022 with the extensions that the mints of this
repository use.  Bump seeds are left out: an address determines them.
-/

namespace Fracks

/-! ## Token controller -/

structure TokenState where
  tokenMint : Pubkey
  identityRegistry : Pubkey
  compliance : Pubkey
  paused : Bool
  decimals : ℕ
  name : String
  symbol : String
  isin : String
  deriving DecidableEq

structure OwnerState where
  owner : Pubkey
  tokenMint : Pubkey
  deriving DecidableEq

structure AgentRole where
  agent : Pubkey
  tokenMint : Pubkey
  isActive : Bool
  deriving DecidableEq

structure SubscriptionEscrow where
  investor : Pubkey
  tokenMint : Pubkey
  issuer : Pubkey
  amount : ℕ
  paidLamports : ℕ
  createdAt : ℤ
  settled : Bool
  deriving DecidableEq

structure FrozenWallet where
  wallet : Pubkey
  tokenMint : Pubkey
  frozenBy : Pubkey
  frozenAt : ℤ
  deriving DecidableEq

structure PartialFreeze where
  wallet : Pubkey
  tokenMint : Pubkey
  frozenAmount : ℕ
  frozenBy : Pubkey
  deriving DecidableEq

/-- The terms of an offering, an account of the factory. -/
structure OfferingTerms where
  issuer : Pubkey
  tokenMint : Pubkey
  pricePerToken : ℕ
  priceDecimals : ℕ
  paymentMint : Option Pubkey
  active : Bool
  createdAt : ℤ
  deriving DecidableEq

/-! ## Transfer hook -/

structure TransferApproval where
  tokenState : Pubkey
  sourceTokenAccount : Pubkey
  destinationTokenAccount : Pubkey
  authority : Pubkey
  sourceWallet : Pubkey
  destinationWallet : Pubkey
  amount : ℕ
  fromBalance : ℕ
  toBalance : ℕ
  fromCountry : ℕ
  toCountry : ℕ
  kind : ℕ
  consumed : Bool
  finalized : Bool
  deriving DecidableEq

/-- A seed of an extra account: a literal, the key of an account of the call,
or bytes of the data of such an account. -/
inductive MetaSeed
  | literal (label : SeedLabel)
  | accountKey (index : ℕ)
  | accountData (accountIndex dataIndex length : ℕ)
  deriving DecidableEq

/-- An entry of the stored list of extra accounts; none of them signs. -/
inductive ExtraAccountMeta
  | fixed (key : Pubkey) (isWritable : Bool)
  | ownPda (seeds : List MetaSeed) (isWritable : Bool)
  | externalPda (programIndex : ℕ) (seeds : List MetaSeed) (isWritable : Bool)
  | pubkeyData (accountIndex dataIndex : ℕ) (isWritable : Bool)
  deriving DecidableEq

/-- The contents of the validation account of a mint. -/
structure ExtraAccountMetaList where
  metas : List ExtraAccountMeta
  deriving DecidableEq

/-! ## Compliance and its modules -/

structure ComplianceState where
  owner : Pubkey
  tokenMint : Pubkey
  modules : List Pubkey
  modulesPaused : Bool
  deriving DecidableEq

structure MaxInvestorsModule where
  owner : Pubkey
  tokenMint : Pubkey
  hookAuthority : Pubkey
  maxInvestors : ℕ
  holderCount : ℕ
  deriving DecidableEq

structure SupplyCapModule where
  owner : Pubkey
  tokenMint : Pubkey
  hookAuthority : Pubkey
  maxSupply : ℕ
  totalSupply : ℕ
  deriving DecidableEq

structure CountryCapEntry where
  country : ℕ
  cap : ℕ
  deriving DecidableEq

structure InvestorCountryCapModule where
  owner : Pubkey
  tokenMint : Pubkey
  hookAuthority : Pubkey
  countryCaps : List CountryCapEntry
  deriving DecidableEq

structure CountryInvestorCount where
  module : Pubkey
  country : ℕ
  count : ℕ
  deriving DecidableEq

structure DailyTransferLimitModule where
  owner : Pubkey
  tokenMint : Pubkey
  hookAuthority : Pubkey
  dailyLimit : ℕ
  deriving DecidableEq

structure DailyWalletUsage where
  module : Pubkey
  wallet : Pubkey
  windowStartedAt : ℤ
  volume : ℕ
  deriving DecidableEq

structure CountryRestrictModule where
  owner : Pubkey
  tokenMint : Pubkey
  allowedCountries : List ℕ
  deriving DecidableEq

structure MaxBalanceModule where
  owner : Pubkey
  tokenMint : Pubkey
  maxBalance : ℕ
  deriving DecidableEq

structure MaxTransferModule where
  owner : Pubkey
  tokenMint : Pubkey
  maxAmount : ℕ
  deriving DecidableEq

structure LockupModule where
  owner : Pubkey
  tokenMint : Pubkey
  lockupEnd : ℤ
  deriving DecidableEq

/-! ## Identity -/

structure IdentityRegistryState where
  tokenMint : Pubkey
  owner : Pubkey
  irsAccount : Pubkey
  tirAccount : Pubkey
  ctrAccount : Pubkey
  identityAgents : List Pubkey
  registeredCount : ℕ
  deriving DecidableEq

structure IdentityRegistryStorageState where
  owner : Pubkey
  authoritySeed : Pubkey
  boundRegistries : List Pubkey
  registeredCount : ℕ
  deriving DecidableEq

structure WalletIdentity where
  wallet : Pubkey
  fid : Pubkey
  country : ℕ
  irs : Pubkey
  isActive : Bool
  activatedBy : Pubkey
  activatedAt : ℤ
  deriving DecidableEq

/-- A request to be registered; the hash of its documents, which no check reads,
is left out. -/
structure OnboardingApplication where
  wallet : Pubkey
  irs : Pubkey
  applicant : Pubkey
  status : ℕ
  reviewer : Pubkey
  submittedAt : ℤ
  reviewedAt : ℤ
  deriving DecidableEq

structure FidAccount where
  owner : Pubkey
  managementKey : Pubkey
  signerKey : Pubkey
  claimCount : ℕ
  isIssuer : Bool
  country : ℕ
  deriving DecidableEq

/-- The active claim of an issuer about a FID on one topic. -/
structure ClaimTopicIndex where
  targetFid : Pubkey
  issuerFid : Pubkey
  topic : ℕ
  activeClaim : Pubkey
  activeClaimId : ℕ
  isActive : Bool
  deriving DecidableEq

structure TrustedIssuersState where
  owner : Pubkey
  tokenMint : Pubkey
  issuerCount : ℕ
  deriving DecidableEq

structure ClaimTopicsState where
  owner : Pubkey
  tokenMint : Pubkey
  topics : List ℕ
  deriving DecidableEq

/-- A claim about a holder; the data hash and the signature bytes, which no
check of these programs reads, are left out. -/
structure ClaimAccount where
  fid : Pubkey
  claimId : ℕ
  topic : ℕ
  issuerFid : Pubkey
  signerKey : Pubkey
  issuedAt : ℤ
  expiresAt : ℤ
  revoked : Bool
  deriving DecidableEq

structure IssuerEntry where
  issuerFid : Pubkey
  tir : Pubkey
  allowedTopics : List ℕ
  isActive : Bool
  label : String
  deriving DecidableEq

/-! ## Factory -/

structure FactoryState where
  owner : Pubkey
  tokenProgramId : Pubkey
  fidProgramId : Pubkey
  irpProgramId : Pubkey
  irsProgramId : Pubkey
  tirProgramId : Pubkey
  ctrProgramId : Pubkey
  complianceProgramId : Pubkey
  deploymentCount : ℕ
  deriving DecidableEq

structure TokenDeployment where
  deploymentId : ℕ
  assetId : ℕ
  issuer : Pubkey
  salt : ℕ
  tokenMint : Pubkey
  tokenState : Pubkey
  ownerState : Pubkey
  irpState : Pubkey
  irsState : Pubkey
  tirState : Pubkey
  ctrState : Pubkey
  complianceState : Pubkey
  custodyMandate : Pubkey
  custodyAttestation : Pubkey
  deployedAt : ℤ
  deriving DecidableEq

structure PlatformAuthority where
  authorityFid : Pubkey
  topic : ℕ
  active : Bool
  createdAt : ℤ
  deriving DecidableEq

structure CustodyMandate where
  assetId : ℕ
  issuer : Pubkey
  issuerFid : Pubkey
  custodian : Pubkey
  custodianFid : Pubkey
  active : Bool
  accepted : Bool
  createdAt : ℤ
  acceptedAt : ℤ
  releasedAt : ℤ
  releaseNoticeAt : ℤ
  deriving DecidableEq

structure CustodyAttestation where
  assetId : ℕ
  custodyMandate : Pubkey
  custodian : Pubkey
  custodianFid : Pubkey
  documentHash : ℕ
  attestationHash : ℕ
  reserveRatioBps : ℕ
  attestedAt : ℤ
  expiresAt : ℤ
  active : Bool
  deriving DecidableEq

/-! ## Asset registry -/

/-- The lifecycle of an asset, which its record keeps as a number. -/
inductive AssetLifecycleState
  | pendingCustody
  | active
  | paused
  | matured
  | redeemed
  | totalLoss
  | landOnly
  | developmentInitiated
  | underConstruction
  | milestone1
  | milestone2
  | milestone3
  | milestone4
  | milestone5
  | constructionComplete
  | apartmentDistribution
  deriving DecidableEq

inductive CustodyMandateStatus
  | pending
  | accepted
  | releasePending
  | released
  deriving DecidableEq

inductive SuccessionStatus
  | pending
  | approved
  | executed
  deriving DecidableEq

structure AssetRegistry where
  assetId : ℕ
  tokenMint : Pubkey
  issuer : Pubkey
  issuerFid : Pubkey
  fardRef : String
  spvSecpReg : String
  province : ℕ
  whitepaperHash : ℕ
  legalOpinionHash : ℕ
  custodianFid : Pubkey
  custodyDocumentHash : ℕ
  custodyAttestationHash : ℕ
  custodyAttestationDate : ℤ
  custodyAttestationExpiry : ℤ
  valuerFid : Pubkey
  currentNav : ℕ
  navDate : ℤ
  navValidityDays : ℕ
  lifecycleState : AssetLifecycleState
  titleDisputeFlag : Bool
  encumbranceFlag : Bool
  insurancePolicyHash : ℕ
  beneficialOwnerHash : ℕ
  valuationMethodologyHash : ℕ
  reserveAttestationHash : ℕ
  reserveRatioBps : ℕ
  lastReserveAttestation : ℤ
  insuranceClaimHash : ℕ
  mandateStatus : CustodyMandateStatus
  mandateAcceptedAt : ℤ
  mandateReleasedAt : ℤ
  releaseNoticeExpiry : ℤ
  releaseReasonHash : ℕ
  currentMilestoneId : ℕ
  currentMilestoneHash : ℕ
  currentCompletionBps : ℕ
  escrowReleasedTotal : ℕ
  apartmentDistributionHash : ℕ
  titleDisputeOrderHash : ℕ
  lastRedemptionEventHash : ℕ
  createdAt : ℤ
  updatedAt : ℤ
  deriving DecidableEq

structure SuccessionClaim where
  deceasedWallet : Pubkey
  claimant : Pubkey
  approver : Pubkey
  deathCertHash : ℕ
  wirasatHash : ℕ
  courtRefHash : ℕ
  approvalHash : ℕ
  heirsHash : ℕ
  transferHash : ℕ
  status : SuccessionStatus
  createdAt : ℤ
  approvedAt : ℤ
  executedAt : ℤ
  deriving DecidableEq

/-! ## Governance -/

inductive ProposalType
  | ordinary
  | saleOrMajorDecision
  | custodianReplacement
  | emergency
  deriving DecidableEq

inductive VoteChoice
  | yes
  | no
  | abstain
  deriving DecidableEq

inductive ProposalStatus
  | active
  | executed
  | cancelled
  deriving DecidableEq

structure GovernanceState where
  tokenMint : Pubkey
  owner : Pubkey
  quorumBps : ℕ
  defaultThresholdBps : ℕ
  proposalCount : ℕ
  createdAt : ℤ
  deriving DecidableEq

structure Proposal where
  governanceState : Pubkey
  proposalId : ℕ
  creator : Pubkey
  descriptionHash : ℕ
  proposalType : ProposalType
  thresholdBps : ℕ
  quorumBps : ℕ
  snapshotSlot : ℕ
  startSlot : ℕ
  endSlot : ℕ
  yesVotes : ℕ
  noVotes : ℕ
  abstainVotes : ℕ
  status : ProposalStatus
  createdAt : ℤ
  executedAt : ℤ
  deriving DecidableEq

structure VoteRecord where
  proposal : Pubkey
  voter : Pubkey
  choice : VoteChoice
  weight : ℕ
  votedAtSlot : ℕ
  deriving DecidableEq

/-! ## Trades -/

inductive TradeStatus
  | initiated
  | tokensLocked
  | paymentConfirmed
  | settled
  | cancelled
  deriving DecidableEq

structure TradeEscrow where
  tradeId : ℕ
  tokenMint : Pubkey
  seller : Pubkey
  buyer : Pubkey
  tokenAmount : ℕ
  pricePerToken : ℕ
  paymentReferenceHash : ℕ
  settlementHash : ℕ
  cancellationReasonHash : ℕ
  quickExit : Bool
  status : TradeStatus
  createdAt : ℤ
  lockedAt : ℤ
  paymentConfirmedAt : ℤ
  settledAt : ℤ
  cancelledAt : ℤ
  deriving DecidableEq

structure InstitutionRole where
  tokenMint : Pubkey
  owner : Pubkey
  institutionWallet : Pubkey
  maxBalanceOverride : ℕ
  isActive : Bool
  createdAt : ℤ
  deriving DecidableEq

/-! ## Token-2022 -/

/-- The transfer-hook extension of a mint. -/
structure TransferHook where
  authority : Option Pubkey
  programId : Option Pubkey
  deriving DecidableEq

structure Mint where
  mintAuthority : Option Pubkey
  supply : ℕ
  decimals : ℕ
  isInitialized : Bool
  freezeAuthority : Option Pubkey
  transferHook : Option TransferHook
  permanentDelegate : Option (Option Pubkey)
  deriving DecidableEq

/-- A token account; `transferring` is the flag of its transfer-hook extension,
`none` when the account does not have the extension. -/
structure TokenAccount where
  mint : Pubkey
  owner : Pubkey
  amount : ℕ
  delegate : Option Pubkey
  delegatedAmount : ℕ
  isFrozen : Bool
  closeAuthority : Option Pubkey
  immutableOwner : Bool
  transferring : Option Bool
  deriving DecidableEq

end Fracks
