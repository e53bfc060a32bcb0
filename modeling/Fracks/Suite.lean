import Fracks.Custody
import Fracks.Identity.Issuers
import Fracks.Identity.Topics
import Fracks.Platform

/-!
# The whole suite

The platform together with the registries of issuers and topics and the
factory.  To the platform an instruction of one of these is a change that other
programs make to accounts of their own, so every history of the suite is a
history of the platform.
-/

namespace Fracks.Suite

open Checked AccountType Ledger Runs

inductive Instruction
  | platform (i : Platform.Instruction)
  | tir (i : Tir.Instruction)
  | ctr (i : Ctr.Instruction)
  | factory (i : Factory.Instruction)

/-- The kinds that belong to programs outside the suite, with the two that a
deployment writes besides what the other programs do for it. -/
def outsideKinds : List AccountKind :=
  [.foreign, .offeringTerms, .factoryState, .tokenDeployment, .assetRegistry, .successionClaim,
    .governanceState, .proposal, .voteRecord]

inductive Label
  | instruction (signers : List Pubkey) (i : Instruction)
  | environment

/-- What the platform sees of a step. -/
def Label.seen : Label → Platform.Label
  | .instruction signers (.platform i) => .instruction signers i
  | _ => .environment

variable [Borsh]

def process (L : Ledger) (signers : List Pubkey) : Instruction → Result Ledger
  | .platform i => Platform.process L signers i
  | .tir i => Tir.process L signers i
  | .ctr i => Ctr.process L signers i
  | .factory i => Factory.process L signers i

inductive Step : Ledger → Label → Ledger → Prop
  | instruction {L L' : Ledger} (signers : List Pubkey) (i : Instruction) :
      (∀ k ∈ signers, k.External) → process L signers i = .ok L' →
        Step L (.instruction signers i) L'
  | environment {L L' : Ledger} : Frame outsideKinds L L' → Step L .environment L'

variable {L L' : Ledger} {l : Label} {labels : List Label}

theorem Step.seen (h : Step L l L') : Platform.Step L l.seen L' := by
  cases h with
  | instruction signers i hexternal h =>
      cases i with
      | platform i => exact .instruction signers i hexternal h
      | tir i => exact .environment ((Tir.frame h).mono (by decide))
      | ctr i => exact .environment ((Ctr.frame h).mono (by decide))
      | factory i => exact .environment ((Factory.frame h).mono (by decide))
  | environment hframe => exact .environment (hframe.mono (by decide))

/-- Every history of the suite is a history of the platform. -/
theorem run_seen (h : Run Step L labels L') :
    Run Platform.Step L (labels.map Label.seen) L' := by
  induction h with
  | nil => exact .nil _
  | cons hstep _ ih => exact .cons hstep.seen ih

/-- Instructions with one signer each, one after the other. -/
theorem run_of_steps {steps : List (Pubkey × Instruction)}
    (hexternal : ∀ step ∈ steps, step.1.External)
    (h : steps.foldlM (fun L step ↦ process L [step.1] step.2) L = .ok L') :
    Run Step L (steps.map fun step ↦ .instruction [step.1] step.2) L' := by
  induction steps generalizing L with
  | nil =>
      obtain rfl := Except.ok.inj h
      exact .nil L
  | cons step steps ih =>
      obtain ⟨hfirst, hothers⟩ := List.forall_mem_cons.1 hexternal
      rw [List.foldlM_cons, bind_eq_ok] at h
      obtain ⟨L₁, hstep, hrest⟩ := h
      exact .cons (.instruction [step.1] step.2 (List.forall_mem_singleton.2 hfirst) hstep)
        (ih hothers hrest)

end Fracks.Suite
