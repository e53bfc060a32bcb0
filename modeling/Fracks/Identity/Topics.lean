import Fracks.Tables

/-!
# The registry of claim topics

`fracks_ctr`: for every token the topics that a holder needs a claim on.
-/

namespace Fracks.Ctr

open Checked AccountType Ledger

def maxTopics : ℕ := 20

def ctrSpace : ℕ := 8 + 32 + 32 + 4 + (8 * maxTopics) + 1

def ctrAddress (tokenMint : Pubkey) : Pubkey :=
  .findProgramAddress .ctrState [.key tokenMint] (.program .fracksCtr)

def initializeCtr (L : Ledger) (signers : List Pubkey) (owner ctrState tokenMint : Pubkey) :
    Result Ledger := do
  requireSigner signers owner
  L.initRecord owner ctrState (ctrAddress tokenMint) ctrSpace
    { owner, tokenMint, topics := [] : ClaimTopicsState }

/-- The `MutateCtr` accounts. -/
def mutateCtr (L : Ledger) (signers : List Pubkey) (owner ctrState : Pubkey)
    (f : ClaimTopicsState → Result ClaimTopicsState) : Result Ledger := do
  requireSigner signers owner
  L.modify ctrState fun state ↦ do
    requireSeeds ctrState (ctrAddress state.tokenMint)
    require (state.owner = owner) (.ctr .notOwner)
    f state

def addClaimTopic (L : Ledger) (signers : List Pubkey) (owner ctrState : Pubkey) (topicId : ℕ) :
    Result Ledger :=
  mutateCtr L signers owner ctrState fun state ↦ do
    require (topicId ∉ state.topics) (.ctr .topicAlreadyExists)
    require (state.topics.length < maxTopics) (.ctr .maxTopicsReached)
    .ok { state with topics := state.topics ++ [topicId] }

def removeClaimTopic (L : Ledger) (signers : List Pubkey) (owner ctrState : Pubkey)
    (topicId : ℕ) : Result Ledger :=
  mutateCtr L signers owner ctrState fun state ↦ do
    require (topicId ∈ state.topics) (.ctr .topicNotFound)
    .ok { state with topics := state.topics.erase topicId }

def transferOwnership (L : Ledger) (signers : List Pubkey) (owner ctrState newOwner : Pubkey) :
    Result Ledger :=
  mutateCtr L signers owner ctrState fun state ↦ do
    require (newOwner ≠ .default) (.ctr .invalidOwner)
    .ok { state with owner := newOwner }

inductive Instruction
  | initializeCtr (owner ctrState tokenMint : Pubkey)
  | addClaimTopic (owner ctrState : Pubkey) (topicId : ℕ)
  | removeClaimTopic (owner ctrState : Pubkey) (topicId : ℕ)
  | transferOwnership (owner ctrState newOwner : Pubkey)

def process (L : Ledger) (signers : List Pubkey) : Instruction → Result Ledger
  | .initializeCtr owner ctrState tokenMint => initializeCtr L signers owner ctrState tokenMint
  | .addClaimTopic owner ctrState topicId => addClaimTopic L signers owner ctrState topicId
  | .removeClaimTopic owner ctrState topicId => removeClaimTopic L signers owner ctrState topicId
  | .transferOwnership owner ctrState newOwner =>
      transferOwnership L signers owner ctrState newOwner

section Specification

variable {L L' : Ledger} {signers : List Pubkey} {owner ctrState : Pubkey}

theorem mutateCtr_ok {f : ClaimTopicsState → Result ClaimTopicsState}
    (h : mutateCtr L signers owner ctrState f = .ok L') :
    ∃ state state' : ClaimTopicsState, L.accounts ctrState = account state ∧
      f state = .ok state' ∧ L' = L.put ctrState state' := by
  simp only [mutateCtr, bind_eq_ok, requireSigner_eq_ok, modify_eq_ok, requireSeeds_eq_ok,
    require_eq_ok, exists_const] at h
  obtain ⟨-, state, state', hstate, ⟨-, -, hf⟩, rfl⟩ := h
  exact ⟨state, state', hstate, hf, rfl⟩

theorem frame {i : Instruction} (h : process L signers i = .ok L') :
    Frame [.claimTopicsState] L L' := by
  cases i with
  | initializeCtr owner ctrState tokenMint =>
      obtain ⟨_, -, hinit⟩ := bind_eq_ok.1 h
      exact .initRecord hinit (by decide)
  | addClaimTopic owner ctrState topicId =>
      obtain ⟨_, _, hstate, -, rfl⟩ := mutateCtr_ok h
      exact .put hstate (by decide)
  | removeClaimTopic owner ctrState topicId =>
      obtain ⟨_, _, hstate, -, rfl⟩ := mutateCtr_ok h
      exact .put hstate (by decide)
  | transferOwnership owner ctrState newOwner =>
      obtain ⟨_, _, hstate, -, rfl⟩ := mutateCtr_ok h
      exact .put hstate (by decide)

end Specification

end Fracks.Ctr
