import Fracks.Assets.Effects

/-!
# Title disputes

The freeze over a disputed title sets the flag and pauses the asset.  No other
instruction looks at the flag, so the freeze stands exactly as long as none of
those that write the flag or the lifecycle is called.
-/

namespace Fracks.Assets

open Checked AccountType Ledger Runs

variable {L L' : Ledger} {signers : List Pubkey} {k : Pubkey}

/-- The asset is paused under a title dispute. -/
def Frozen (k : Pubkey) (L : Ledger) : Prop :=
  ∃ r : AssetRegistry, L.accounts k = account r ∧ r.lifecycleState = .paused ∧
    r.titleDisputeFlag = true

/-- The freeze of the asset at `k` is lifted. -/
def Instruction.Lifts (k : Pubkey) : Instruction → Prop
  | .liftDisputeFreeze _ assetRegistry => assetRegistry = k
  | _ => False

/-- The asset at `k` leaves the pause or loses the flag without being lifted. -/
def Instruction.Thaws (k : Pubkey) : Instruction → Prop
  | .attestMilestone accts .. => accts.assetRegistry = k
  | .distributeApartmentTokens _ assetRegistry _ => assetRegistry = k
  | .setTitleFlags _ assetRegistry titleDisputeFlag _ =>
      assetRegistry = k ∧ titleDisputeFlag = false
  | .transitionLifecycle _ assetRegistry lifecycleState =>
      assetRegistry = k ∧ lifecycleState ≠ .paused
  | .declareTotalLoss _ assetRegistry _ => assetRegistry = k
  | _ => False

def Label.Lifts (k : Pubkey) : Label → Prop
  | .instruction _ i => i.Lifts k
  | _ => False

def Label.Thaws (k : Pubkey) : Label → Prop
  | .instruction _ i => i.Thaws k
  | _ => False

/-- The automaton stays in its frozen state under all other instructions. -/
theorem Instruction.frozen_iff {i : Instruction} (h : i.asset = some k) :
    i.lifecycle .paused = .paused ∧ i.disputed true = true ↔ ¬ i.Thaws k ∧ ¬ i.Lifts k := by
  cases i with
  | attestMilestone accts milestoneId certHash completionBps updatedNav =>
      obtain rfl := Option.some.inj h
      have hbuilding : (Instruction.attestMilestone accts milestoneId certHash completionBps
          updatedNav).lifecycle .paused ≠ .paused := by
        rw [Instruction.lifecycle]
        split <;> exact AssetLifecycleState.noConfusion
      exact iff_of_false (fun hfrozen ↦ hbuilding hfrozen.1) fun hkept ↦ hkept.1 rfl
  | setTitleFlags authority assetRegistry titleDisputeFlag encumbranceFlag =>
      obtain rfl := Option.some.inj h
      cases titleDisputeFlag with
      | false => simp [Instruction.disputed, Instruction.Thaws]
      | true => simp [Instruction.lifecycle, Instruction.disputed, Instruction.Thaws,
          Instruction.Lifts]
  | transitionLifecycle authority assetRegistry lifecycleState =>
      obtain rfl := Option.some.inj h
      simp [Instruction.lifecycle, Instruction.disputed, Instruction.Thaws, Instruction.Lifts]
  | distributeApartmentTokens authority assetRegistry distributionHash =>
      obtain rfl := Option.some.inj h
      refine iff_of_false (fun hfrozen ↦ ?_) fun hkept ↦ hkept.1 rfl
      cases hfrozen.1
  | declareTotalLoss authority assetRegistry insuranceClaimHash =>
      obtain rfl := Option.some.inj h
      refine iff_of_false (fun hfrozen ↦ ?_) fun hkept ↦ hkept.1 rfl
      cases hfrozen.1
  | liftDisputeFreeze authority assetRegistry =>
      obtain rfl := Option.some.inj h
      refine iff_of_false (fun hfrozen ↦ ?_) fun hkept ↦ hkept.2 rfl
      cases hfrozen.2
  | _ => simp [Instruction.lifecycle, Instruction.disputed, Instruction.Thaws, Instruction.Lifts]

/-- Instructions on other accounts neither thaw nor lift. -/
theorem Instruction.asset_of_thaws {i : Instruction} (h : i.Thaws k ∨ i.Lifts k) :
    i.asset = some k := by
  cases i with
  | attestMilestone | distributeApartmentTokens | declareTotalLoss =>
      exact congrArg some (h.resolve_right id)
  | setTitleFlags | transitionLifecycle => exact congrArg some (h.resolve_right id).1
  | liftDisputeFreeze => exact congrArg some (h.resolve_left id)
  | _ => exact (h.elim id id).elim

theorem Step.frozen_iff {program : ProgramName} {l : Label} (hL : Frozen k L)
    (h : Step program L l L') : Frozen k L' ↔ ¬ l.Thaws k ∧ ¬ l.Lifts k := by
  obtain ⟨r, hr, hpaused, hflag⟩ := hL
  cases h with
  | instruction signers i h =>
      rcases process_at h hr with ⟨hasset, r', hr', hmoved⟩ | ⟨hasset, hkept⟩
      · have hexact := Instruction.frozen_iff hasset
        rw [← hpaused, ← hflag, ← hmoved.lifecycle, ← hmoved.disputed, hpaused, hflag] at hexact
        refine Iff.trans ?_ hexact
        constructor
        · rintro ⟨s, hs, hstate⟩
          obtain rfl := account_inj.1 (hr'.symm.trans hs)
          exact hstate
        · exact fun hstate ↦ ⟨r', hr', hstate⟩
      · have hneither : ¬ (i.Thaws k ∨ i.Lifts k) :=
          fun heither ↦ hasset (Instruction.asset_of_thaws heither)
        exact iff_of_true ⟨r, hkept, hpaused, hflag⟩ (not_or.1 hneither)
  | fid signers i h =>
      have hkept := (Fid.frame h).accounts_eq (by decide) hr
      exact iff_of_true ⟨r, hkept, hpaused, hflag⟩ ⟨id, id⟩
  | environment S hframe hS =>
      have hkept := hframe.accounts_eq (hS _ (by decide)) hr
      exact iff_of_true ⟨r, hkept, hpaused, hflag⟩ ⟨id, id⟩

theorem titleDisputeFreeze_frozen {authority : Pubkey} {courtOrderHash : ℕ}
    (h : titleDisputeFreeze L signers authority k courtOrderHash = .ok L') : Frozen k L' := by
  obtain ⟨-, r, r', -, -, -, hf, rfl⟩ := mutateAsset_eq_ok.1 h
  obtain rfl := Except.ok.inj hf
  exact ⟨_, put_accounts_self _, rfl, rfl⟩

/-- As long as the freeze is not lifted, it stands exactly if no instruction
writes another lifecycle or clears the flag. -/
theorem dispute_freeze_throughout_iff {L₀ : Ledger} {authority : Pubkey} {courtOrderHash : ℕ}
    {labels : List Label}
    (hfreeze : process .fracksFid L₀ signers (.titleDisputeFreeze authority k courtOrderHash) =
      .ok L)
    (hunlifted : ∀ l ∈ labels, ¬ l.Lifts k) :
    Run.Throughout (Step .fracksFid) (Frozen k) L labels ↔
      Run.AllSteps (Step .fracksFid) (fun _ l _ ↦ ¬ l.Thaws k) L labels := by
  have hstart : Frozen k L := titleDisputeFreeze_frozen hfreeze
  have hexact : Run.Throughout (Step .fracksFid) (Frozen k) L labels ↔ Frozen k L ∧
      Run.AllSteps (Step .fracksFid) (fun _ l _ ↦ ¬ l.Thaws k ∧ ¬ l.Lifts k) L labels := by
    refine Run.throughout_iff (I := fun _ ↦ True) ?_ ?_ trivial
    · intro M l M' _ _
      trivial
    · intro M l M' _ hfrozen hstep
      exact hstep.frozen_iff hfrozen
  rw [hexact]
  constructor
  · rintro ⟨-, hall⟩ pre l post t u hlabels hrun hstep
    exact (hall pre l post t u hlabels hrun hstep).1
  · intro hall
    refine ⟨hstart, fun pre l post t u hlabels hrun hstep ↦
      ⟨hall pre l post t u hlabels hrun hstep, hunlifted l ?_⟩⟩
    simp [hlabels]

/-! ## A milestone during a dispute -/

def disputeFreeze : Instruction := .titleDisputeFreeze assetIssuer assetKey 5

def milestone : Instruction :=
  .attestMilestone (roleAccounts assetCertifier assetMint assetCertifier) 1 6 5000 100

theorem milestone_under_dispute : ∃ L₀ L₁ L₂ L₃,
    process .fracksFid assetLedger [assetIssuer] assetRegistration = .ok L₀ ∧
      process .fracksFid L₀ [assetIssuer] disputeFreeze = .ok L₁ ∧
      process .fracksFid L₁ [assetIssuer] disputeFreeze = .ok L₂ ∧
      process .fracksFid L₁ [assetCertifier] milestone = .ok L₃ ∧
      (L₃.view AssetRegistry assetKey).map AssetRegistry.lifecycleState =
        some .underConstruction :=
  ⟨_, _, _, _, rfl, rfl, rfl, rfl, rfl⟩

/-- A certified milestone takes the asset out of the pause while the dispute is on. -/
theorem milestone_breaks_freeze : ¬ ∀ (L₀ L : Ledger) (signers : List Pubkey)
    (authority k : Pubkey) (courtOrderHash : ℕ) (labels : List Label),
    process .fracksFid L₀ signers (.titleDisputeFreeze authority k courtOrderHash) = .ok L →
      (∀ l ∈ labels, ¬ l.Lifts k) → Run.Throughout (Step .fracksFid) (Frozen k) L labels := by
  intro hclaim
  obtain ⟨L₀, L₁, -, L₃, -, hfreeze, -, hmilestone, hstate⟩ := milestone_under_dispute
  have hfrozen := hclaim _ _ _ _ _ _ [.instruction [assetCertifier] milestone] hfreeze
    (by simp [Label.Lifts, Instruction.Lifts, milestone])
  obtain ⟨r, hr, hpaused, -⟩ := hfrozen _ [] L₃ rfl (.single (.instruction _ _ hmilestone))
  rw [view_eq_some.2 hr, Option.map_some, hpaused] at hstate
  exact nomatch hstate

theorem repeated_freeze_holds : ∃ L₀ L₁, process .fracksFid L₀ [assetIssuer] disputeFreeze =
    .ok L₁ ∧ Run.Throughout (Step .fracksFid) (Frozen assetKey) L₁
      [.instruction [assetIssuer] disputeFreeze] := by
  obtain ⟨L₀, L₁, -, -, -, hfreeze, -⟩ := milestone_under_dispute
  refine ⟨L₀, L₁, hfreeze, (dispute_freeze_throughout_iff hfreeze ?_).2 ?_⟩
  · simp [Label.Lifts, Instruction.Lifts, disputeFreeze]
  · apply Run.AllSteps.single
    intro t _
    exact id

end Fracks.Assets
