/-!
# Errors

Every program has its own error enumeration, written under the names of the
source; `ProgramError` is their sum together with the errors of the framework
and of the two native programs.
-/

namespace Fracks

/-- Failures of account loading and of the generated account constraints. -/
inductive AnchorError
  | accountNotInitialized
  | accountOwnedByWrongProgram
  | accountDiscriminatorMismatch
  | accountNotSigner
  | constraintSeeds
  | constraintHasOne
  | constraintAddress
  | invalidProgramId
  deriving DecidableEq

/-- Failures of the system program and of the runtime. -/
inductive SystemError
  | accountAlreadyInUse
  | resultWithNegativeLamports
  | invalidSource
  | missingRequiredSignature
  | arithmeticOverflow
  deriving DecidableEq

/-- Failures of Token-2022. -/
inductive TokenError
  | invalidMint
  | invalidAccount
  | insufficientFunds
  | mintMismatch
  | ownerMismatch
  | fixedSupply
  | mintCannotFreeze
  | overflow
  | accountFrozen
  | invalidState
  | mintDecimalsMismatch
  | nonNativeHasBalance
  | authorityTypeNotSupported
  | noAuthorityExists
  | immutableOwner
  | mintRequiredForTransfer
  | incorrectProgramId
  | invalidAccountData
  | incorrectAccount
  deriving DecidableEq

inductive FracksTokenError
  | notOwner
  | walletNotVerified
  | walletFrozen
  | tokenPaused
  | complianceCheckFailed
  | notAgent
  | unauthorizedAuthority
  | insufficientBalance
  | invalidRegistryReference
  | invalidOwner
  | metadataTooLong
  | invalidFreezeAmount
  | invalidRecoveryTarget
  | arithmeticOverflow
  | invalidTokenAccount
  | invalidTokenProgram
  | missingTransferHook
  | missingPermanentDelegate
  | invalidTokenAuthority
  | missingTokenAuthority
  | programCalledOutsideTransfer
  | missingTransferApproval
  | invalidOfferingTerms
  | offeringInactive
  | unsupportedPaymentMint
  | paymentAmountOverflow
  | paymentRequired
  | invalidIssuer
  | insufficientPaymentBalance
  | invalidSubscriptionEscrow
  | subscriptionAlreadySettled
  deriving DecidableEq

inductive FracksTokenHookError
  | invalidTokenState
  | invalidTokenAccount
  | missingTransferHook
  | missingPermanentDelegate
  | invalidExtraAccountMetas
  | programCalledOutsideTransfer
  | missingTransferApproval
  | notController
  | insufficientBalance
  | arithmeticOverflow
  | invalidCompliance
  | invalidOwnerState
  | notOwner
  | tooManyModules
  | invalidComplianceModule
  deriving DecidableEq

inductive FracksComplianceError
  | notOwner
  | invalidOwner
  | maxModulesReached
  | moduleAlreadyBound
  | moduleNotBound
  | missingModuleAccount
  | invalidModuleAccount
  | missingModuleProgramAccount
  | moduleHookAuthorityMismatch
  | missingModuleSupportAccount
  | complianceCheckFailed
  deriving DecidableEq

inductive ModSupplyCapError
  | notOwner
  | notAuthorized
  | maxSupplyExceeded
  | arithmeticOverflow
  | maxSupplyBelowCurrent
  deriving DecidableEq

inductive ModMaxInvestorsError
  | notOwner
  | notAuthorized
  | arithmeticOverflow
  deriving DecidableEq

inductive ModCountryCapError
  | notOwner
  | notAuthorized
  | invalidCountryCount
  | tooManyCountryCaps
  | arithmeticOverflow
  deriving DecidableEq

inductive ModDailyLimitError
  | notOwner
  | notAuthorized
  | invalidUsageAccount
  | arithmeticOverflow
  deriving DecidableEq

inductive ModCountryRestrictError
  | tooManyCountries
  deriving DecidableEq

inductive FracksFidError
  | unauthorized
  | invalidIssuerFid
  | arithmeticOverflow
  | claimFidMismatch
  | duplicateClaimTopicIssuer
  | fidAlreadyExists
  | invalidCountryCode
  | invalidClaimTopicIndex
  deriving DecidableEq

inductive FracksIrpError
  | notOwner
  | invalidOwner
  | notIdentityAgent
  | identityAgentAlreadyExists
  | maxIdentityAgentsReached
  | invalidRegistryReference
  | trustedIssuerNotFound
  deriving DecidableEq

inductive FracksIrsError
  | notOwner
  | invalidOwner
  | notIdentityAgent
  | invalidRegistryReference
  | walletAlreadyRegistered
  | walletNotRegistered
  | invalidCountryCode
  | registryAlreadyBound
  | registryNotBound
  | maxBoundRegistriesReached
  | arithmeticOverflow
  | applicationAlreadyOpen
  | applicationNotSubmitted
  | invalidApplication
  | invalidFidAccount
  | invalidInvestorFid
  | fidCountryMismatch
  | unauthorizedApplicationCancel
  deriving DecidableEq

inductive FracksTirError
  | notOwner
  | invalidOwner
  | issuerNotTrusted
  | tooManyTopics
  | labelTooLong
  | duplicateTopic
  | arithmeticOverflow
  deriving DecidableEq

inductive FracksCtrError
  | notOwner
  | maxTopicsReached
  | topicAlreadyExists
  | topicNotFound
  | invalidOwner
  deriving DecidableEq

inductive FracksFactoryError
  | notOwner
  | invalidIssuer
  | deploymentAlreadyExists
  | invalidDerivedAccount
  | programIdMismatch
  | missingTrustedIssuerAccounts
  | invalidTokenMetadata
  | tooManyClaimTopics
  | tooManyTrustedIssuers
  | tooManyComplianceModules
  | trustedIssuerTopicsEmpty
  | invalidTrustedIssuerLabel
  | arithmeticOverflow
  | missingComplianceModuleAccounts
  | tokenMintAlreadyInitialized
  | invalidTokenMint
  | invalidOwner
  | sharedIrsUnsupported
  | irsAlreadyInitialized
  | invalidCustodian
  | invalidIssuerFid
  | invalidCustodianFid
  | custodianCannotEqualIssuer
  | unauthorizedCustodyMandate
  | unauthorizedCustodian
  | invalidCustodyMandate
  | custodyMandateInactive
  | custodyAttestationMissing
  | custodyAttestationExpired
  | invalidAttestationValidity
  | invalidReserveRatio
  | unauthorizedCustodyRelease
  | platformAuthorityMissing
  deriving DecidableEq

inductive FracksAssetRegistryError
  | fardRefTooLong
  | spvRegTooLong
  | invalidIssuerFid
  | invalidCustodianFid
  | invalidValuerFid
  | custodianCannotEqualIssuer
  | unauthorizedCustodian
  | unauthorizedValuer
  | roleNotTrusted
  | roleTopicMissing
  | invalidValidityWindow
  | invalidReserveRatio
  | invalidNav
  | invalidNavValidity
  | unauthorizedAssetAuthority
  | invalidCertifierFid
  | unauthorizedCertifier
  | invalidMilestone
  | invalidCompletionRatio
  | invalidEscrowAmount
  | milestoneNotAttested
  | invalidSuccessionStatus
  | arithmeticOverflow
  deriving DecidableEq

inductive FracksGovernanceError
  | invalidBps
  | invalidVotingWindow
  | proposalNotActive
  | votingClosed
  | votingStillOpen
  | zeroVoteWeight
  | zeroSnapshotWeight
  | quorumNotMet
  | noDecisiveVotes
  | thresholdNotMet
  | invalidGovernanceReference
  | unauthorizedGovernanceAction
  | arithmeticOverflow
  deriving DecidableEq

inductive FracksTradeEscrowError
  | unauthorizedOwner
  | invalidTokenAmount
  | invalidPrice
  | unauthorizedSeller
  | invalidTradeStatus
  | unauthorizedPaymentConfirmer
  | unauthorizedSettlement
  | unauthorizedCancellation
  deriving DecidableEq

inductive ProgramError
  | anchor (e : AnchorError)
  | system (e : SystemError)
  | spl (e : TokenError)
  | token (e : FracksTokenError)
  | hook (e : FracksTokenHookError)
  | compliance (e : FracksComplianceError)
  | supplyCap (e : ModSupplyCapError)
  | maxInvestors (e : ModMaxInvestorsError)
  | countryCap (e : ModCountryCapError)
  | dailyLimit (e : ModDailyLimitError)
  | countryRestrict (e : ModCountryRestrictError)
  | fid (e : FracksFidError)
  | irp (e : FracksIrpError)
  | irs (e : FracksIrsError)
  | tir (e : FracksTirError)
  | ctr (e : FracksCtrError)
  | factory (e : FracksFactoryError)
  | assetRegistry (e : FracksAssetRegistryError)
  | governance (e : FracksGovernanceError)
  | tradeEscrow (e : FracksTradeEscrowError)
  deriving DecidableEq

/-- The result of an instruction or of one of its parts. -/
abbrev Result := Except ProgramError

end Fracks
