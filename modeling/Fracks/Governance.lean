import Fracks.Constraints
import Fracks.Lib.Runs

/-!
# Governance

`fracks_governance`: proposals under the governance state of a mint, votes of a
weight that the voter states, and the execution of a proposal against a snapshot
weight that the executor states.
-/

namespace Fracks.Governance

open Checked AccountType Ledger Runs

def governanceStateSpace : ℕ := 8 + 256

def proposalSpace : ℕ := 8 + 384

def voteRecordSpace : ℕ := 8 + 160

def governanceAddress (tokenMint : Pubkey) : Pubkey :=
  .findProgramAddress .gov [.key tokenMint] (.program .fracksGovernance)

def proposalAddress (governanceState : Pubkey) (proposalId : ℕ) : Pubkey :=
  .findProgramAddress .proposal [.key governanceState, .num proposalId]
    (.program .fracksGovernance)

def voteAddress (proposal voter : Pubkey) : Pubkey :=
  .findProgramAddress .vote [.key proposal, .key voter] (.program .fracksGovernance)

structure CreateProposalArgs where
  descriptionHash : ℕ
  proposalType : ProposalType
  thresholdBps : Option ℕ
  quorumBps : Option ℕ
  endSlot : ℕ
  snapshotSlot : ℕ

/-! ## Totals -/

/-- The total of a proposal for a choice. -/
def votes (p : Proposal) : VoteChoice → ℕ
  | .yes => p.yesVotes
  | .no => p.noVotes
  | .abstain => p.abstainVotes

/-- The proposal with its total for a choice replaced. -/
def withVotes (p : Proposal) (n : ℕ) : VoteChoice → Proposal
  | .yes => { p with yesVotes := n }
  | .no => { p with noVotes := n }
  | .abstain => { p with abstainVotes := n }

variable {p : Proposal} {n : ℕ} {c : VoteChoice}

@[simp] theorem votes_withVotes_self : votes (withVotes p n c) c = n := by cases c <;> rfl

theorem votes_withVotes_of_ne {d : VoteChoice} (h : d ≠ c) :
    votes (withVotes p n c) d = votes p d := by
  cases c <;> cases d <;> first | rfl | exact absurd rfl h

@[simp] theorem withVotes_governanceState :
    (withVotes p n c).governanceState = p.governanceState := by cases c <;> rfl

@[simp] theorem withVotes_proposalId : (withVotes p n c).proposalId = p.proposalId := by
  cases c <;> rfl

@[simp] theorem withVotes_endSlot : (withVotes p n c).endSlot = p.endSlot := by cases c <;> rfl

@[simp] theorem votes_status (status : ProposalStatus) (executedAt : ℤ) :
    votes { p with status, executedAt } c = votes p c := by
  cases c <;> rfl

/-! ## Basis points -/

def validateBps (value : ℕ) : Result Unit := require (value ≤ 10000) (.governance .invalidBps)

/-- The share of a value in basis points, rounded up. -/
def bpsAmount (value bps : ℕ) : Result ℕ := do
  let numerator ← okOr (checkedMul value bps) (.governance .arithmeticOverflow)
  let sum ← okOr (checkedAdd numerator 9999) (.governance .arithmeticOverflow)
  .ok (sum / 10000)

/-! ## Instructions -/

def initializeGovernance (L : Ledger) (signers : List Pubkey)
    (owner governanceState tokenMint : Pubkey) (quorumBps defaultThresholdBps : ℕ) :
    Result Ledger := do
  requireSigner signers owner
  validateBps quorumBps
  validateBps defaultThresholdBps
  L.initRecord owner governanceState (governanceAddress tokenMint) governanceStateSpace
    { tokenMint, owner, quorumBps, defaultThresholdBps, proposalCount := 0,
      createdAt := L.now : GovernanceState }

def createProposal (L : Ledger) (signers : List Pubkey)
    (creator governanceState proposal : Pubkey) (args : CreateProposalArgs) : Result Ledger := do
  requireSigner signers creator
  let state ← L.load GovernanceState governanceState
  let next ← okOr (checkedAdd state.proposalCount 1) (.system .arithmeticOverflow)
  require (L.slot < args.endSlot) (.governance .invalidVotingWindow)
  args.thresholdBps.elim (.ok ()) validateBps
  args.quorumBps.elim (.ok ()) validateBps
  let proposalId ← okOr (checkedAdd state.proposalCount 1) (.governance .arithmeticOverflow)
  let L₁ ← L.initRecord creator proposal (proposalAddress governanceState next) proposalSpace
    { governanceState
      proposalId
      creator
      descriptionHash := args.descriptionHash
      proposalType := args.proposalType
      thresholdBps := args.thresholdBps.getD state.defaultThresholdBps
      quorumBps := args.quorumBps.getD state.quorumBps
      snapshotSlot := args.snapshotSlot
      startSlot := L.slot
      endSlot := args.endSlot
      yesVotes := 0
      noVotes := 0
      abstainVotes := 0
      status := .active
      createdAt := L.now
      executedAt := 0 : Proposal }
  .ok (L₁.put governanceState { state with proposalCount := proposalId })

def castVote (L : Ledger) (signers : List Pubkey) (voter proposal voteRecord : Pubkey)
    (choice : VoteChoice) (weight : ℕ) : Result Ledger := do
  requireSigner signers voter
  let p ← L.load Proposal proposal
  require (0 < weight) (.governance .zeroVoteWeight)
  require (p.status = .active) (.governance .proposalNotActive)
  require (L.slot ≤ p.endSlot) (.governance .votingClosed)
  let total ← okOr (checkedAdd (votes p choice) weight) (.governance .arithmeticOverflow)
  let L₁ ← L.initRecord voter voteRecord (voteAddress proposal voter) voteRecordSpace
    { proposal, voter, choice, weight, votedAtSlot := L.slot : VoteRecord }
  .ok (L₁.put proposal (withVotes p total choice))

def executeProposal (L : Ledger) (signers : List Pubkey)
    (executor governanceState proposal : Pubkey) (totalSnapshotWeight : ℕ) : Result Ledger := do
  requireSigner signers executor
  let _ ← L.load GovernanceState governanceState
  L.modify proposal fun (p : Proposal) ↦ do
    require (p.governanceState = governanceState) (.governance .invalidGovernanceReference)
    require (0 < totalSnapshotWeight) (.governance .zeroSnapshotWeight)
    require (p.status = .active) (.governance .proposalNotActive)
    require (p.endSlot < L.slot) (.governance .votingStillOpen)
    let yesAndNo ← okOr (checkedAdd p.yesVotes p.noVotes) (.governance .arithmeticOverflow)
    let votesCast ← okOr (checkedAdd yesAndNo p.abstainVotes) (.governance .arithmeticOverflow)
    let quorumVotes ← bpsAmount totalSnapshotWeight p.quorumBps
    require (quorumVotes ≤ votesCast) (.governance .quorumNotMet)
    let decisiveVotes ← okOr (checkedAdd p.yesVotes p.noVotes) (.governance .arithmeticOverflow)
    require (0 < decisiveVotes) (.governance .noDecisiveVotes)
    let requiredYes ← bpsAmount decisiveVotes p.thresholdBps
    require (requiredYes ≤ p.yesVotes) (.governance .thresholdNotMet)
    .ok { p with status := .executed, executedAt := L.now }

def cancelProposal (L : Ledger) (signers : List Pubkey)
    (authority governanceState proposal : Pubkey) : Result Ledger := do
  requireSigner signers authority
  let state ← L.load GovernanceState governanceState
  L.modify proposal fun (p : Proposal) ↦ do
    require (p.governanceState = governanceState) (.governance .invalidGovernanceReference)
    require (p.status = .active) (.governance .proposalNotActive)
    require (authority = p.creator ∨ authority = state.owner)
      (.governance .unauthorizedGovernanceAction)
    .ok { p with status := .cancelled }

inductive Instruction
  | initializeGovernance (owner governanceState tokenMint : Pubkey)
      (quorumBps defaultThresholdBps : ℕ)
  | createProposal (creator governanceState proposal : Pubkey) (args : CreateProposalArgs)
  | castVote (voter proposal voteRecord : Pubkey) (choice : VoteChoice) (weight : ℕ)
  | executeProposal (executor governanceState proposal : Pubkey) (totalSnapshotWeight : ℕ)
  | cancelProposal (authority governanceState proposal : Pubkey)

def process (L : Ledger) (signers : List Pubkey) : Instruction → Result Ledger
  | .initializeGovernance owner governanceState tokenMint quorumBps defaultThresholdBps =>
      Governance.initializeGovernance L signers owner governanceState tokenMint quorumBps
        defaultThresholdBps
  | .createProposal creator governanceState proposal args =>
      Governance.createProposal L signers creator governanceState proposal args
  | .castVote voter proposal voteRecord choice weight =>
      Governance.castVote L signers voter proposal voteRecord choice weight
  | .executeProposal executor governanceState proposal totalSnapshotWeight =>
      Governance.executeProposal L signers executor governanceState proposal totalSnapshotWeight
  | .cancelProposal authority governanceState proposal =>
      Governance.cancelProposal L signers authority governanceState proposal

/-! ## Histories -/

/-- The kinds of accounts of the program. -/
def governanceKinds : List AccountKind := [.governanceState, .proposal, .voteRecord]

inductive Label
  | instruction (signers : List Pubkey) (i : Instruction)
  | environment

/-- An instruction of the program, or time and other programs at work; slots only
go up. -/
inductive Step : Ledger → Label → Ledger → Prop
  | instruction {L L' : Ledger} (signers : List Pubkey) (i : Instruction) :
      process L signers i = .ok L' → Step L (.instruction signers i) L'
  | environment {L L' : Ledger} (S : List AccountKind) : Frame S L L' →
      (∀ kind ∈ governanceKinds, kind ∉ S) → L.slot ≤ L'.slot → Step L .environment L'

end Fracks.Governance
