import Fracks.Lib.Checked
import Fracks.Lib.Runs
import Fracks.Lib.Fold
import Fracks.Lib.Tally
import Fracks.Lib.Register
import Fracks.Lib.Roster
import Fracks.Identity.ClaimSearch
import Fracks.Identity.Consistency
import Fracks.Identity.Verifiers
import Fracks.Identity
import Fracks.HookExecution
import Fracks.Token.Freezes
import Fracks.OneShotApprovals
import Fracks.ForcedHookAccounts
import Fracks.ControlledBalances
import Fracks.ControlsAtExecution
import Fracks.Reachable
import Fracks.BookedCounters
import Fracks.CounterAuthority
import Fracks.PausedModules
import Fracks.Token.SupportAccounts
import Fracks.BalanceCap
import Fracks.StrandedBalances
import Fracks.DailyVolumes
import Fracks.InvestorCaps
import Fracks.FinalizableRecoveries
import Fracks.OperatorAuthority
import Fracks.SubscriptionEscrows
import Fracks.CustodyRelease
import Fracks.Identity.Issuers
import Fracks.Identity.Topics
import Fracks.AccountSpace
import Fracks.HookMetas
import Fracks.MetaResolution
import Fracks.MetaCoverage
import Fracks.TransferClient
import Fracks.TransferRules
import Fracks.SuiteDeployment
import Fracks.SuiteMandates
import Fracks.Assets.TitleDisputes
import Fracks.Assets.Tranches
import Fracks.Assets.Attestations
import Fracks.Assets.Succession
import Fracks.Governance.Arithmetic
import Fracks.DeployArguments
import Fracks.Indexer
import Fracks.CountryMoves
import Fracks.ForcedFreezes
import Fracks.IndexedMetadata
import Fracks.Backend.ListingConservation
import Fracks.Backend.Reservations
import Fracks.Backend.FinalDecisions
import Fracks.Backend.Preflight
import Fracks.Token.Payments
import Fracks.Token.ReportedCountries
import Fracks.HookReaders
import Fracks.IndexerReads
import Fracks.Trades.Chronicle
import Fracks.UnitConversions
import Fracks.Backend.BlockchainTransactions
import Fracks.Identity.OwnAddresses
import Fracks.MintClaims
import Fracks.VerifiedWallets
import Fracks.Receipts
import Fracks.Takings
import Fracks.CountryAccounting
import Fracks.Backend.AdminRequests
import Fracks.TransferApprovals
import Fracks.KeptApprovals
