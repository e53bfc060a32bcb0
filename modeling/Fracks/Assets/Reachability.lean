import Fracks.Assets.Effects

/-!
# Who can reach the asset registry

The contexts that read the FID of a signer want it at an address of their own
program, while the FID program derives it under itself.  A FID that was created
meets the constraints under the FID program only, so no asset is ever opened.
-/

namespace Fracks.Assets

open Checked AccountType Ledger Runs

variable {program : ProgramName} {L L' : Ledger} {signers : List Pubkey}
  {wallet fidAccount owner : Pubkey}

/-- The constraints on the FID account of a signer. -/
structure FidConstraints (program : ProgramName) (L : Ledger) (wallet fidAccount : Pubkey) :
    Prop where
  owned : ∃ fid : FidAccount, L.accounts fidAccount = account fid ∧ fid.owner = wallet
  seeds : fidAccount = fidSeeds program wallet

/-- The signer of an instruction whose FID is read, and the account it is read from. -/
def Instruction.fidContext : Instruction → Option (Pubkey × Pubkey)
  | .initializeAssetRegistry issuer _ issuerFidAccount _ => some (issuer, issuerFidAccount)
  | .attestCustody accts .. | .attestReserve accts .. | .attestValuation accts ..
  | .acceptCustodyMandate accts | .signRedemptionEvent accts _ | .attestMilestone accts .. =>
      some (accts.signer, accts.fidAccount)
  | _ => none

theorem fidAddress_eq_fidSeeds_iff :
    Fid.fidAddress owner = fidSeeds program wallet ↔ owner = wallet ∧ program = .fracksFid := by
  simp [Fid.fidAddress, fidSeeds, Pubkey.findProgramAddress, Pubkey.addSeed, and_comm, eq_comm]

theorem loadFid_constraints {invalidFid : FracksAssetRegistryError} {fid : FidAccount}
    (h : loadFid program L wallet fidAccount invalidFid = .ok fid) :
    FidConstraints program L wallet fidAccount := by
  obtain ⟨hfid, hseeds, howner⟩ := loadFid_eq_ok.1 h
  exact ⟨⟨fid, hfid, howner⟩, hseeds⟩

theorem process_fidConstraints {i : Instruction} (h : process program L signers i = .ok L')
    (hi : i.fidContext = some (wallet, fidAccount)) :
    FidConstraints program L wallet fidAccount := by
  cases i with
  | initializeAssetRegistry =>
      obtain ⟨rfl, rfl⟩ := Prod.mk.inj (Option.some.inj hi)
      obtain ⟨⟨fid, hfid⟩, -⟩ := initializeAssetRegistry_ok h
      exact loadFid_constraints hfid
  | attestCustody | attestReserve | attestValuation | acceptCustodyMandate
  | signRedemptionEvent | attestMilestone =>
      obtain ⟨rfl, rfl⟩ := Prod.mk.inj (Option.some.inj hi)
      obtain ⟨r, fid, entry, r', hcontext, -, -⟩ := withRole_eq_ok.1 h
      exact ⟨⟨fid, hcontext.fidAt, hcontext.fidOwner⟩, hcontext.fidKey⟩
  | _ => exact nomatch hi

/-- A FID that was just created meets the constraints under its own program only. -/
theorem createFid_constraints_iff {isIssuer : Bool} {country : ℕ}
    (h : Fid.createFid L signers owner fidAccount isIssuer country = .ok L') :
    FidConstraints program L' owner fidAccount ↔ program = .fracksFid := by
  simp only [Fid.createFid, bind_eq_ok, Except.ok.injEq] at h
  obtain ⟨_, -, ⟨L₁, old⟩, hinit, _, -, _, -, rfl⟩ := h
  obtain ⟨hkey, -, -⟩ := view_initIfNeeded (β := FidAccount) hinit
  constructor
  · intro hconstraints
    have heq : Fid.fidAddress owner = fidSeeds program owner := hkey ▸ hconstraints.seeds
    exact (fidAddress_eq_fidSeeds_iff.1 heq).2
  · rintro rfl
    exact ⟨⟨_, put_accounts_self _, rfl⟩, hkey⟩

theorem FidsDerived.not_constraints (hL : FidsDerived L) :
    ¬ FidConstraints seedsProgram L wallet fidAccount := by
  rintro ⟨⟨fid, hfid, rfl⟩, hseeds⟩
  have hkey : fidAccount = Fid.fidAddress fid.owner := hL _ fid (view_eq_some.2 hfid)
  have hprogram := (fidAddress_eq_fidSeeds_iff.1 (hkey.symm.trans hseeds)).2
  exact nomatch hprogram

/-! ## Runs from a ledger without assets -/

def NoAssets (L : Ledger) : Prop := ∀ k, L.view AssetRegistry k = none

/-- Without assets every instruction on one fails. -/
theorem NoAssets.kind_of_process {i : Instruction} (hL : NoAssets L) (hfids : FidsDerived L)
    (h : process seedsProgram L signers i = .ok L') : i.kind = .successionClaim := by
  cases i with
  | initializeAssetRegistry =>
      exact absurd (process_fidConstraints h rfl) hfids.not_constraints
  | createSuccessionClaim | approveSuccession | executeSuccessionTransfer => rfl
  | _ =>
      obtain ⟨r, r', hr, -⟩ := process_asset h rfl
      rw [← view_eq_some, hL] at hr
      exact nomatch hr

theorem NoAssets.step {l : Label} (hL : NoAssets L) (hfids : FidsDerived L)
    (h : Step seedsProgram L l L') : NoAssets L' := by
  have hkept : L'.view AssetRegistry = L.view AssetRegistry := by
    cases h with
    | instruction signers i h =>
        have hkind := hL.kind_of_process hfids h
        exact (process_frame h).table_eq (by simp [hkind, AccountType.kind])
    | fid signers i h => exact (Fid.frame h).table_eq (by decide)
    | environment S hframe hS => exact hframe.table_eq (hS _ (by decide))
  exact fun k ↦ by rw [hkept, hL k]

/-- In no run does a created FID satisfy the constraints for its wallet, and no
instruction on an asset ever succeeds. -/
theorem asset_registry_unreachable {L₀ : Ledger} {labels : List Label} (hfids : FidsDerived L₀)
    (hnone : NoAssets L₀) (hrun : Run (Step seedsProgram) L₀ labels L) :
    (∀ signers owner fidAccount isIssuer country L',
        Fid.createFid L signers owner fidAccount isIssuer country = .ok L' →
          ¬ FidConstraints seedsProgram L' owner fidAccount) ∧
      ∀ signers i L', i.kind = .assetRegistry → process seedsProgram L signers i ≠ .ok L' := by
  have hinv : FidsDerived L ∧ NoAssets L :=
    hrun.invariant (P := fun L ↦ FidsDerived L ∧ NoAssets L)
      (fun _ _ _ hL hstep ↦ ⟨hL.1.step hstep, hL.2.step hL.1 hstep⟩) ⟨hfids, hnone⟩
  constructor
  · intro signers owner fidAccount isIssuer country L' hcreated hconstraints
    have hprogram := (createFid_constraints_iff hcreated).1 hconstraints
    exact nomatch hprogram
  · intro signers i L' hi h
    rw [hinv.2.kind_of_process hinv.1 h] at hi
    exact nomatch hi

/-! ## A first FID -/

def firstFid : Fid.Instruction :=
  .createFid assetIssuer (Fid.fidAddress assetIssuer) true 0

theorem firstFid_created : ∃ L', Fid.process (.ofRecords []) [assetIssuer] firstFid = .ok L' :=
  ⟨_, rfl⟩

/-- The FID of the first wallet is at no address that the asset registry accepts. -/
theorem created_fid_refused : ¬ ∀ (L L' : Ledger) (signers : List Pubkey)
    (owner fidAccount : Pubkey) (isIssuer : Bool) (country : ℕ),
    Fid.createFid L signers owner fidAccount isIssuer country = .ok L' →
      FidConstraints seedsProgram L' owner fidAccount := by
  intro hclaim
  obtain ⟨L', hcreated⟩ := firstFid_created
  have hconstraints := hclaim _ _ _ _ _ _ _ hcreated
  have hprogram := (createFid_constraints_iff hcreated).1 hconstraints
  exact nomatch hprogram

theorem registration_after_firstFid_fails : ∃ L',
    Run (Step seedsProgram) (.ofRecords []) [.fid [assetIssuer] firstFid] L' ∧
      ∀ L'', process seedsProgram L' [assetIssuer] assetRegistration ≠ .ok L'' := by
  obtain ⟨L', hcreated⟩ := firstFid_created
  have hrun : Run (Step seedsProgram) (.ofRecords []) [.fid [assetIssuer] firstFid] L' :=
    .single (.fid _ _ hcreated)
  have hfids : FidsDerived (.ofRecords []) := fun k fid hfid ↦ nomatch hfid
  have hnone : NoAssets (.ofRecords []) := fun k ↦ rfl
  refine ⟨L', hrun, fun L'' ↦ ?_⟩
  exact (asset_registry_unreachable hfids hnone hrun).2 [assetIssuer] assetRegistration L'' rfl

end Fracks.Assets
