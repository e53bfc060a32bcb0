import Mathlib.Data.Int.Notation
import Mathlib.Data.Nat.Notation
import Mathlib.Tactic.Common

/-!
# Addresses

Public keys are symbolic.  A program id, an ordinary address and an address
derived from seeds are different values, and two derived addresses are equal
only when their program and all of their seeds are; this is the collision
freedom that `find_program_address` is used for throughout the programs.
-/

namespace Fracks

/-- The programs of this repository and the two native ones they call; the
incinerator is a reserved address that Token-2022 treats specially. -/
inductive ProgramName
  | system
  | incinerator
  | token2022
  | fracksToken
  | fracksTokenHook
  | fracksCompliance
  | fracksIrs
  | fracksIrp
  | fracksTir
  | fracksCtr
  | fracksFid
  | fracksFactory
  | fracksAssetRegistry
  | fracksGovernance
  | fracksTradeEscrow
  | modSupplyCap
  | modMaxInvestors
  | modCountryCap
  | modDailyLimit
  | modMaxBalance
  | modMaxTransfer
  | modLockup
  | modCountryRestrict
  deriving DecidableEq

/-- The literal first seed of a derived address. -/
inductive SeedLabel
  | tokenState
  | owner
  | agent
  | frozen
  | partialFreeze
  | subscription
  | transferApproval
  | extraAccountMetas
  | complianceState
  | modSupplyCap
  | modMaxInvestors
  | modCountryCap
  | countryCount
  | modDailyLimit
  | dailyUsage
  | modMaxBalance
  | modMaxTransfer
  | modLockup
  | modCountry
  | irsState
  | irpState
  | tirState
  | ctrState
  | walletIdentity
  | fid
  | claim
  | claimTopicIndex
  | onboardingApplication
  | issuerEntry
  | factoryState
  | platformAuthority
  | custodyMandate
  | custodyAttestation
  | deployment
  | assetRegistry
  | succession
  | gov
  | proposal
  | vote
  | tradeEscrow
  | institution
  deriving DecidableEq

/-- An address: a program id, an ordinary key, or a derived address, whose
seeds after the label are keys and little-endian numbers. -/
inductive Pubkey
  | program (name : ProgramName)
  | address (n : ℕ)
  | pda (programId : Pubkey) (label : SeedLabel)
  | seedKey (base key : Pubkey)
  | seedNum (base : Pubkey) (n : ℕ)
  deriving DecidableEq

/-- A seed after the label. -/
inductive Seed
  | key (k : Pubkey)
  | num (n : ℕ)
  deriving DecidableEq

namespace Pubkey

/-- The all-zero key, which is also the id of the system program. -/
def default : Pubkey := .program .system

def addSeed (base : Pubkey) : Seed → Pubkey
  | .key k => .seedKey base k
  | .num n => .seedNum base n

def findProgramAddress (label : SeedLabel) (seeds : List Seed) (programId : Pubkey) : Pubkey :=
  seeds.foldl addSeed (.pda programId label)

/-- The program a derived address belongs to. -/
def derivedFrom : Pubkey → Option Pubkey
  | .program _ => none
  | .address _ => none
  | .pda programId _ => some programId
  | .seedKey base _ => base.derivedFrom
  | .seedNum base _ => base.derivedFrom

/-- A key that can sign a transaction or a call made by a program outside this
repository: neither a program id nor an address derived from one of the
programs modelled here, for which only that program signs. -/
def External : Pubkey → Prop
  | .program _ => False
  | k => ∀ name, k.derivedFrom ≠ some (.program name)

@[simp] theorem derivedFrom_addSeed (base : Pubkey) (s : Seed) :
    (base.addSeed s).derivedFrom = base.derivedFrom := by
  cases s <;> rfl

@[simp] theorem derivedFrom_findProgramAddress (label : SeedLabel) (seeds : List Seed)
    (programId : Pubkey) :
    (findProgramAddress label seeds programId).derivedFrom = some programId := by
  suffices h : ∀ base : Pubkey, (seeds.foldl addSeed base).derivedFrom = base.derivedFrom from
    h _
  induction seeds with
  | nil => exact fun _ ↦ rfl
  | cons s seeds ih => exact fun base ↦ (ih _).trans (derivedFrom_addSeed base s)

theorem not_external_of_derivedFrom {k : Pubkey} {name : ProgramName}
    (h : k.derivedFrom = some (.program name)) : ¬ k.External := by
  intro hk
  cases k with
  | program => simp [derivedFrom] at h
  | address => simp [derivedFrom] at h
  | pda => exact hk name h
  | seedKey => exact hk name h
  | seedNum => exact hk name h

theorem not_external_findProgramAddress (label : SeedLabel) (seeds : List Seed)
    (name : ProgramName) :
    ¬ (findProgramAddress label seeds (.program name)).External :=
  not_external_of_derivedFrom (derivedFrom_findProgramAddress ..)

theorem external_address (n : ℕ) : (address n).External := by
  intro name h
  simp [derivedFrom] at h

end Pubkey

end Fracks
