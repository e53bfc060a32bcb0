import Fracks.Assets.Effects

/-!
# Claims of succession

A claim is pending, then approved, then executed.  The approval asks for a
signature but not for whose, so a claimant alone stays without an approved claim
exactly as long as it does not approve one itself.
-/

namespace Fracks.Assets

open Checked AccountType Ledger Runs

variable {program : ProgramName} {L L' : Ledger} {signers : List Pubkey} {k claimant : Pubkey}

/-- Every claim of the claimant still waits for its approval. -/
def NoneApproved (claimant : Pubkey) (L : Ledger) : Prop :=
  Everywhere (fun _ claim ↦ claim.claimant = claimant → claim.status = .pending)
    (L.view SuccessionClaim)

/-- The instruction approves a claim of the claimant. -/
def Instruction.Approves (claimant : Pubkey) (L : Ledger) : Instruction → Prop
  | .approveSuccession _ successionClaim _ =>
      ∃ claim : SuccessionClaim, L.accounts successionClaim = account claim ∧
        claim.claimant = claimant
  | _ => False

def Label.Approves (claimant : Pubkey) (L : Ledger) : Label → Prop
  | .instruction _ i => i.Approves claimant L
  | _ => False

/-- Nobody but the claimant signs. -/
def Label.SignedBy (claimant : Pubkey) : Label → Prop
  | .instruction signers _ | .fid signers _ => signers = [claimant]
  | .environment => True

/-- The steps in which the claimant is the only signer. -/
def SoleStep (program : ProgramName) (claimant : Pubkey) : Ledger → Label → Ledger → Prop :=
  restrict (Step program) fun _ l _ ↦ l.SignedBy claimant

theorem NoneApproved.process_iff {i : Instruction} (hL : NoneApproved claimant L)
    (h : process program L signers i = .ok L') :
    NoneApproved claimant L' ↔ ¬ i.Approves claimant L := by
  cases i with
  | createSuccessionClaim =>
      obtain ⟨claim, hpending, hinit⟩ := createSuccessionClaim_ok h
      exact iff_of_true (Everywhere.initRecord hL hinit fun _ ↦ hpending) id
  | approveSuccession authority successionClaim approvalHash =>
      obtain ⟨claim, claim', hclaim, -, happroved, hclaimant, rfl⟩ := approveSuccession_ok h
      constructor
      · rintro hL' ⟨_, hclaim', howner⟩
        obtain rfl := account_inj.1 (hclaim.symm.trans hclaim')
        have hpending := hL' successionClaim claim' (view_put_self _) (hclaimant.trans howner)
        rw [happroved] at hpending
        exact nomatch hpending
      · intro hother
        refine Everywhere.put hL fun howner ↦ ?_
        exact absurd ⟨claim, hclaim, hclaimant.symm.trans howner⟩ hother
  | executeSuccessionTransfer authority successionClaim heirsHash transferHash =>
      obtain ⟨claim, claim', hclaim, happroved, -, hclaimant, rfl⟩ :=
        executeSuccessionTransfer_ok h
      refine iff_of_true (Everywhere.put hL fun howner ↦ ?_) id
      have hpending := hL successionClaim claim (view_eq_some.2 hclaim)
        (hclaimant.symm.trans howner)
      rw [happroved] at hpending
      exact nomatch hpending
  | _ =>
      have hkept := hL.of_frame (process_frame h) (by simp [Instruction.kind, AccountType.kind])
      exact iff_of_true hkept id

theorem NoneApproved.step_iff {l : Label} (hL : NoneApproved claimant L)
    (h : Step program L l L') : NoneApproved claimant L' ↔ ¬ l.Approves claimant L := by
  cases h with
  | instruction signers i h => exact hL.process_iff h
  | fid signers i h => exact iff_of_true (hL.of_frame (Fid.frame h) (by decide)) id
  | environment S hframe hS => exact iff_of_true (hL.of_frame hframe (hS _ (by decide))) id

/-- A claimant who alone signs never has an approved or executed claim exactly if
it approves none of its own. -/
theorem none_approved_throughout_iff {labels : List Label} (hL : NoneApproved claimant L) :
    Run.Throughout (SoleStep program claimant) (NoneApproved claimant) L labels ↔
      Run.AllSteps (SoleStep program claimant) (fun L l _ ↦ ¬ l.Approves claimant L) L labels := by
  have hexact : Run.Throughout (SoleStep program claimant) (NoneApproved claimant) L labels ↔
      NoneApproved claimant L ∧ Run.AllSteps (SoleStep program claimant)
        (fun L l _ ↦ ¬ l.Approves claimant L) L labels := by
    refine Run.throughout_iff (I := fun _ ↦ True) ?_ ?_ trivial
    · intro M l M' _ _
      trivial
    · intro M l M' _ hnone hstep
      exact hnone.step_iff hstep.1
  rw [hexact]
  exact and_iff_right hL

/-! ## An heir on its own -/

def claimCreation : Instruction :=
  .createSuccessionClaim outsider (successionAddress assetIssuer) assetIssuer 1 2 3

def selfApproval : Instruction :=
  .approveSuccession outsider (successionAddress assetIssuer) 4

theorem heir_approves : ∃ L₁ L₂, process seedsProgram (.ofRecords []) [outsider] claimCreation =
    .ok L₁ ∧ process seedsProgram L₁ [outsider] selfApproval = .ok L₂ ∧
      ∃ claim, L₂.view SuccessionClaim (successionAddress assetIssuer) = some claim ∧
        claim.claimant = outsider ∧ claim.status = .approved :=
  ⟨_, _, rfl, rfl, _, rfl, rfl, rfl⟩

theorem emptyLedger_noneApproved : NoneApproved claimant (.ofRecords []) :=
  fun _ _ hclaim ↦ nomatch hclaim

/-- The claimant creates a claim and approves it. -/
theorem claimant_approves_own_claim : ¬ ∀ (claimant : Pubkey) (L L' : Ledger)
    (labels : List Label), NoneApproved claimant L →
      Run (SoleStep seedsProgram claimant) L labels L' → NoneApproved claimant L' := by
  intro hclaim
  obtain ⟨L₁, L₂, hcreated, happroved, claim, hview, howner, hstatus⟩ := heir_approves
  have hrun : Run (SoleStep seedsProgram outsider) (.ofRecords [])
      [.instruction [outsider] claimCreation, .instruction [outsider] selfApproval] L₂ :=
    .cons ⟨.instruction _ _ hcreated, rfl⟩ (.single ⟨.instruction _ _ happroved, rfl⟩)
  have hpending := hclaim _ _ _ _ emptyLedger_noneApproved hrun _ _ hview howner
  rw [hstatus] at hpending
  exact nomatch hpending

theorem creation_alone_approves_none : Run.Throughout (SoleStep seedsProgram outsider)
    (NoneApproved outsider) (.ofRecords []) [.instruction [outsider] claimCreation] := by
  refine (none_approved_throughout_iff emptyLedger_noneApproved).2 ?_
  apply Run.AllSteps.single
  intro t _
  exact id

end Fracks.Assets
