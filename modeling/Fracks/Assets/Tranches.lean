import Fracks.Assets.Effects

/-!
# Tranches and milestones

The escrow of an asset is released in tranches, each for a milestone no later than the current
one.  The current milestone is the one last attested, and it is zero before the first: the one
number that no attestation takes and that every release may name.
-/

namespace Fracks.Assets

open Checked AccountType Ledger Runs

variable {program : ProgramName} {L L' : Ledger} {signers : List Pubkey} {k : Pubkey}

/-! ## Attested and released -/

/-- The milestone that an instruction attests. -/
def Instruction.attested : Instruction → Option ℕ
  | .attestMilestone _ milestoneId .. => some milestoneId
  | _ => none

/-- The milestone and the amount of the tranche that an instruction releases. -/
def Instruction.released : Instruction → Option (ℕ × ℕ)
  | .releaseEscrowTranche _ _ milestoneId amount => some (milestoneId, amount)
  | _ => none

/-- What an instruction does to the milestone and the escrow of an asset. -/
structure Tranched (i : Instruction) (r r' : AssetRegistry) : Prop where
  milestone : r'.currentMilestoneId = i.attested.getD r.currentMilestoneId
  total : r'.escrowReleasedTotal = r.escrowReleasedTotal + (i.released.map Prod.snd).getD 0
  positive : ∀ m, i.attested = some m → 0 < m
  reached : ∀ m amount, i.released = some (m, amount) → m ≤ r.currentMilestoneId

/-- An instruction that attests and releases nothing. -/
theorem Tranched.silent {i : Instruction} {r r' : AssetRegistry} (hattested : i.attested = none)
    (hreleased : i.released = none) (hmilestone : r'.currentMilestoneId = r.currentMilestoneId)
    (htotal : r'.escrowReleasedTotal = r.escrowReleasedTotal) : Tranched i r r' := by
  refine ⟨?_, ?_, ?_, ?_⟩
  · rw [hattested, hmilestone, Option.getD_none]
  · rw [hreleased, htotal, Option.map_none, Option.getD_none, Nat.add_zero]
  · intro m hm
    rw [hattested] at hm
    cases hm
  · intro m amount hm
    rw [hreleased] at hm
    cases hm

theorem process_tranched {i : Instruction} (h : process program L signers i = .ok L')
    (hasset : i.asset = some k) :
    ∃ r r', L.accounts k = account r ∧ Tranched i r r' ∧ L' = L.put k r' := by
  cases i with
  | attestCustody | attestReserve | attestValuation | acceptCustodyMandate
  | signRedemptionEvent | attestMilestone =>
      obtain rfl := Option.some.inj hasset
      obtain ⟨r, fid, entry, r', hcontext, hf, rfl⟩ := withRole_eq_ok.1 h
      simp only [bind_eq_ok, require_eq_ok, exists_const, Except.ok.injEq] at hf
      refine ⟨r, r', hcontext.assetAt, ?_, rfl⟩
      grind [Tranched, Instruction.attested, Instruction.released]
  | releaseCustodyMandate =>
      obtain rfl := Option.some.inj hasset
      simp only [process, releaseCustodyMandate, bind_eq_ok, requireSigner_eq_ok, require_eq_ok,
        exists_const, modifyAsset_eq_ok, Except.ok.injEq] at h
      obtain ⟨-, r, _, hr, -, ⟨_, -, -, -, _, -, rfl⟩, rfl⟩ := h
      refine ⟨r, _, hr, ?_, rfl⟩
      exact .silent rfl rfl rfl rfl
  | releaseEscrowTranche authority assetRegistry milestoneId amount =>
      obtain rfl := Option.some.inj hasset
      obtain ⟨-, r, r', hr, -, -, hf, rfl⟩ := mutateAsset_eq_ok.1 h
      simp only [bind_eq_ok, require_eq_ok, okOr_eq_ok, checkedAdd_eq_some, exists_const,
        Except.ok.injEq] at hf
      obtain ⟨-, hreached, _, ⟨-, rfl⟩, rfl⟩ := hf
      refine ⟨r, _, hr, ?_, rfl⟩
      refine ⟨rfl, rfl, ?_, ?_⟩
      · intro m hm
        cases hm
      · intro m amount' hm
        cases hm
        exact hreached
  | distributeApartmentTokens | setTitleFlags | titleDisputeFreeze | liftDisputeFreeze
  | transitionLifecycle | declareTotalLoss =>
      obtain rfl := Option.some.inj hasset
      obtain ⟨-, r, r', hr, -, -, hf, rfl⟩ := mutateAsset_eq_ok.1 h
      rw [Except.ok.injEq] at hf
      refine ⟨r, r', hr, ?_, rfl⟩
      exact .silent rfl rfl (hf ▸ rfl) (hf ▸ rfl)
  | _ => cases hasset

/-- A new asset has no milestone and has released nothing. -/
theorem initializeAssetRegistry_tranched {issuer assetRegistry issuerFidAccount : Pubkey}
    {args : InitializeAssetRegistryArgs}
    (h : initializeAssetRegistry program L signers issuer assetRegistry issuerFidAccount args =
      .ok L') :
    ∃ r : AssetRegistry, r.currentMilestoneId = 0 ∧ r.escrowReleasedTotal = 0 ∧
      L.view AssetRegistry assetRegistry = none ∧
        L'.view AssetRegistry = Function.update (L.view AssetRegistry) assetRegistry (some r) := by
  simp only [initializeAssetRegistry, bind_eq_ok, requireSigner_eq_ok, require_eq_ok,
    exists_const] at h
  obtain ⟨-, fid, -, _, -, _, -, -, -, -, hinit⟩ := h
  exact ⟨_, rfl, rfl, (view_initRecord hinit).2⟩

/-! ## Histories -/

/-- What a label reports of the instructions on the asset at `k`. -/
def Label.reported {α : Type} (report : Instruction → Option α) (k : Pubkey) : Label → Option α
  | .instruction _ i => if i.asset = some k then report i else none
  | _ => none

def attested (k : Pubkey) (labels : List Label) : List ℕ :=
  labels.filterMap (Label.reported Instruction.attested k)

def released (k : Pubkey) (labels : List Label) : List (ℕ × ℕ) :=
  labels.filterMap (Label.reported Instruction.released k)

/-- The record of an asset tells its history: the milestone last attested and the sum released. -/
structure Told (k : Pubkey) (history : List Label) (L : Ledger) : Prop where
  before : L.view AssetRegistry k = none → attested k history = [] ∧ released k history = []
  milestone : ∀ r, L.view AssetRegistry k = some r →
    r.currentMilestoneId = (attested k history).getLastD 0
  total : ∀ r, L.view AssetRegistry k = some r →
    r.escrowReleasedTotal = ((released k history).map Prod.snd).sum
  positive : ∀ m ∈ attested k history, 0 < m

/-- A step leaves the record of an asset alone, opens it or is an instruction on it. -/
theorem step_asset {l : Label} (h : Step program L l L') (k : Pubkey) :
    ((∀ {α : Type} (report : Instruction → Option α), l.reported report k = none) ∧
        (L'.view AssetRegistry k = L.view AssetRegistry k ∨
          L.view AssetRegistry k = none ∧ ∃ r : AssetRegistry,
            L'.view AssetRegistry k = some r ∧ r.currentMilestoneId = 0 ∧
              r.escrowReleasedTotal = 0)) ∨
      ∃ signers i r r', l = .instruction signers i ∧ i.asset = some k ∧
        L.view AssetRegistry k = some r ∧ L'.view AssetRegistry k = some r' ∧
          Tranched i r r' := by
  cases h with
  | environment S hframe hS =>
      refine .inl ⟨fun _ ↦ rfl, .inl (hframe.view_eq (hS _ (by decide)) k)⟩
  | fid signers i hprocess =>
      refine .inl ⟨fun _ ↦ rfl, .inl ((Fid.frame hprocess).view_eq (by decide) k)⟩
  | instruction signers i hprocess =>
      by_cases hasset : i.asset = some k
      · obtain ⟨r, r', hr, htranched, rfl⟩ := process_tranched hprocess hasset
        exact .inr ⟨signers, i, r, r', rfl, hasset, view_eq_some.2 hr, view_put_self r', htranched⟩
      · refine .inl ⟨fun _ ↦ if_neg hasset, ?_⟩
        cases hother : i.asset with
        | some x =>
            obtain ⟨r, r', -, -, rfl⟩ := process_tranched hprocess hother
            have hx : k ≠ x := fun heq ↦ hasset (heq ▸ hother)
            exact .inl (view_put_of_ne r' hx)
        | none =>
            cases i with
            | initializeAssetRegistry issuer assetRegistry issuerFidAccount args =>
                obtain ⟨r, hmilestone, htotal, hnone, hview⟩ :=
                  initializeAssetRegistry_tranched hprocess
                rw [hview]
                by_cases hx : k = assetRegistry
                · subst hx
                  exact .inr ⟨hnone, r, Function.update_self .., hmilestone, htotal⟩
                · exact .inl (Function.update_of_ne hx ..)
            | createSuccessionClaim | approveSuccession | executeSuccessionTransfer =>
                exact .inl ((process_frame hprocess).view_eq (by simp [Instruction.kind,
                  AccountType.kind]) k)
            | _ => cases hother

theorem filterMap_snoc {α β : Type*} (f : α → Option β) (xs : List α) (x : α) :
    (xs ++ [x]).filterMap f = xs.filterMap f ++ (f x).toList := by
  rw [List.filterMap_append]
  cases hx : f x <;> simp [hx]

theorem Told.start (hnone : L.view AssetRegistry k = none) : Told k [] L := by
  refine ⟨fun _ ↦ ⟨rfl, rfl⟩, ?_, ?_, fun m hm ↦ by cases hm⟩
  · intro r hr
    rw [hnone] at hr
    cases hr
  · intro r hr
    rw [hnone] at hr
    cases hr

theorem Told.step {history : List Label} {l : Label} (h : Told k history L)
    (hstep : Step program L l L') : Told k (history ++ [l]) L' := by
  have hattested : attested k (history ++ [l]) =
      attested k history ++ (l.reported Instruction.attested k).toList := filterMap_snoc ..
  have hreleased : released k (history ++ [l]) =
      released k history ++ (l.reported Instruction.released k).toList := filterMap_snoc ..
  rcases step_asset hstep k with
    ⟨hsilent, hview⟩ | ⟨signers, i, r, r', rfl, hasset, hr, hr', htranched⟩
  · rw [hsilent, Option.toList_none, List.append_nil] at hattested hreleased
    rcases hview with hview | ⟨hnone, r, hr, hmilestone, htotal⟩
    · refine ⟨?_, ?_, ?_, ?_⟩
      · rw [hview, hattested, hreleased]
        exact h.before
      · rw [hview, hattested]
        exact h.milestone
      · rw [hview, hreleased]
        exact h.total
      · rw [hattested]
        exact h.positive
    · obtain ⟨hempty, hempty'⟩ := h.before hnone
      rw [hempty] at hattested
      rw [hempty'] at hreleased
      refine ⟨?_, ?_, ?_, ?_⟩
      · intro hnone'
        rw [hr] at hnone'
        cases hnone'
      · intro s hs
        obtain rfl := Option.some.inj (hr.symm.trans hs)
        rw [hattested]
        exact hmilestone
      · intro s hs
        obtain rfl := Option.some.inj (hr.symm.trans hs)
        rw [hreleased]
        exact htotal
      · rw [hattested]
        intro m hm
        cases hm
  · have hreport {α : Type} (report : Instruction → Option α) :
        (Label.instruction signers i).reported report k = report i := if_pos hasset
    rw [hreport] at hattested hreleased
    refine ⟨?_, ?_, ?_, ?_⟩
    · intro hnone
      rw [hr'] at hnone
      cases hnone
    · intro s hs
      obtain rfl := Option.some.inj (hr'.symm.trans hs)
      rw [htranched.milestone, h.milestone r hr, hattested]
      cases i.attested with
      | none => rw [Option.toList_none, List.append_nil, Option.getD_none]
      | some m => rw [Option.toList_some, List.getLastD_concat, Option.getD_some]
    · intro s hs
      obtain rfl := Option.some.inj (hr'.symm.trans hs)
      rw [htranched.total, h.total r hr, hreleased]
      cases i.released with
      | none => simp
      | some tranche => simp
    · intro m hm
      rw [hattested, List.mem_append, Option.mem_toList] at hm
      rcases hm with hm | hm
      · exact h.positive m hm
      · exact htranched.positive m hm

theorem run_told {labels : List Label} (hnone : L.view AssetRegistry k = none)
    (hrun : Run (Step program) L labels L') : Told k labels L' :=
  hrun.history (P := Told k) (fun _ _ _ _ h hstep ↦ h.step hstep) (.start hnone)

/-! ## Every tranche after its milestone -/

/-- Every tranche of a history is released after an attestation of its milestone or a later
one. -/
def TranchesFollow (k : Pubkey) (labels : List Label) : Prop :=
  ∀ pre l post m amount, labels = pre ++ l :: post →
    l.reported Instruction.released k = some (m, amount) → ∃ m' ∈ attested k pre, m ≤ m'

/-- A tranche for no milestone needs a milestone that the asset has come to. -/
def AfterMilestone (k : Pubkey) (L : Ledger) (l : Label) (_ : Ledger) : Prop :=
  ∀ m amount, l.reported Instruction.released k = some (m, amount) →
    0 < m ∨ ∃ r, L.view AssetRegistry k = some r ∧ 0 < r.currentMilestoneId

/-- The current milestone is positive exactly after some attestation, and then it is one of
those attested. -/
theorem Told.mem_attested {history : List Label} {r : AssetRegistry} (h : Told k history L)
    (hr : L.view AssetRegistry k = some r) (hpositive : 0 < r.currentMilestoneId) :
    r.currentMilestoneId ∈ attested k history := by
  have hlast := h.milestone r hr
  cases hattested : attested k history using List.reverseRecOn with
  | nil =>
      rw [hattested] at hlast
      rw [hlast] at hpositive
      cases hpositive
  | append_singleton ms m =>
      rw [hattested, List.getLastD_concat] at hlast
      rw [hlast]
      exact List.mem_append_right _ (List.mem_singleton_self m)

theorem Told.positive_of_attested {history : List Label} {r : AssetRegistry} {m : ℕ}
    (h : Told k history L) (hr : L.view AssetRegistry k = some r) (hm : m ∈ attested k history) :
    0 < r.currentMilestoneId := by
  have hlast := h.milestone r hr
  cases hattested : attested k history using List.reverseRecOn with
  | nil =>
      rw [hattested] at hm
      cases hm
  | append_singleton ms last =>
      rw [hattested, List.getLastD_concat] at hlast
      rw [hlast]
      apply h.positive
      rw [hattested]
      exact List.mem_append_right _ (List.mem_singleton_self last)

/-- What a release has seen of its asset. -/
theorem released_reached {l : Label} {m amount : ℕ} (h : Step program L l L')
    (hreleased : l.reported Instruction.released k = some (m, amount)) :
    ∃ r, L.view AssetRegistry k = some r ∧ m ≤ r.currentMilestoneId := by
  rcases step_asset h k with ⟨hsilent, -⟩ | ⟨signers, i, r, r', rfl, hasset, hr, -, htranched⟩
  · rw [hsilent] at hreleased
    cases hreleased
  · have hreport : i.released = some (m, amount) := by
      rwa [Label.reported, if_pos hasset] at hreleased
    exact ⟨r, hr, htranched.reached m amount hreport⟩

/-- From before its registration an asset has every tranche after its milestone exactly if each
tranche for milestone zero is released under a positive current milestone; the total released is
the sum of the tranches always. -/
theorem tranches_follow_iff {L₀ : Ledger} {labels : List Label}
    (hnone : L₀.view AssetRegistry k = none) (hrun : Run (Step .fracksFid) L₀ labels L) :
    (TranchesFollow k labels ↔
        Run.AllSteps (Step .fracksFid) (AfterMilestone k) L₀ labels) ∧
      ∀ r, L.view AssetRegistry k = some r →
        r.escrowReleasedTotal = ((released k labels).map Prod.snd).sum := by
  refine ⟨?_, (run_told hnone hrun).total⟩
  constructor
  · intro hfollow pre l post t u hlabels hpre hstep m amount hreleased
    obtain ⟨m', hm', hle⟩ := hfollow pre l post m amount hlabels hreleased
    obtain ⟨r, hr, -⟩ := released_reached hstep hreleased
    exact .inr ⟨r, hr, (run_told hnone hpre).positive_of_attested hr hm'⟩
  · intro hall pre l post m amount hlabels hreleased
    rw [hlabels, run_append_iff] at hrun
    obtain ⟨t, hpre, hrest⟩ := hrun
    obtain ⟨u, hstep, -⟩ := run_cons_iff.1 hrest
    obtain ⟨r, hr, hreached⟩ := released_reached hstep hreleased
    have hpositive : 0 < r.currentMilestoneId := by
      rcases hall pre l post t u hlabels hpre hstep m amount hreleased with hm | ⟨s, hs, hpos⟩
      · omega
      · obtain rfl := Option.some.inj (hr.symm.trans hs)
        exact hpos
    exact ⟨r.currentMilestoneId, (run_told hnone hpre).mem_attested hr hpositive, hreached⟩

/-! ## A tranche before any milestone -/

def firstTranche : Instruction := .releaseEscrowTranche assetIssuer assetKey 0 5

theorem tranche_without_milestone : ∃ L₀ L₁,
    process .fracksFid assetLedger [assetIssuer] assetRegistration = .ok L₀ ∧
      process .fracksFid L₀ [assetIssuer] firstTranche = .ok L₁ :=
  ⟨_, _, rfl, rfl⟩

/-- A new asset releases a tranche for milestone zero. -/
theorem unattested_tranche_released : ¬ ∀ (L₀ L : Ledger) (k : Pubkey) (labels : List Label),
    L₀.view AssetRegistry k = none → Run (Step .fracksFid) L₀ labels L →
      TranchesFollow k labels := by
  intro hclaim
  obtain ⟨L₀, L₁, hregistered, hreleased⟩ := tranche_without_milestone
  have hrun := Run.snoc (.single (.instruction [assetIssuer] assetRegistration hregistered))
    (Step.instruction [assetIssuer] firstTranche hreleased)
  have hfollow := hclaim assetLedger L₁ assetKey _ rfl hrun
  obtain ⟨m, hm, -⟩ := hfollow [.instruction [assetIssuer] assetRegistration]
    (.instruction [assetIssuer] firstTranche) [] 0 5 rfl rfl
  cases hm

theorem milestone_then_tranche : ∃ L₀ L₁ L₂,
    process .fracksFid assetLedger [assetIssuer] assetRegistration = .ok L₀ ∧
      process .fracksFid L₀ [assetCertifier] (.attestMilestone
        (roleAccounts assetCertifier assetMint assetCertifier) 1 6 5000 100) = .ok L₁ ∧
      process .fracksFid L₁ [assetIssuer] (.releaseEscrowTranche assetIssuer assetKey 1 5) =
        .ok L₂ :=
  ⟨_, _, _, rfl, rfl, rfl⟩

theorem attested_tranche_follows : ∃ labels L, Run (Step .fracksFid) assetLedger labels L ∧
    released assetKey labels = [(1, 5)] ∧ TranchesFollow assetKey labels := by
  obtain ⟨L₀, L₁, L₂, hregistered, hattested, hreleased⟩ := milestone_then_tranche
  have hrun := ((Run.single (Step.instruction _ _ hregistered)).snoc
    (.instruction _ _ hattested)).snoc (.instruction _ _ hreleased)
  refine ⟨_, L₂, hrun, rfl, (tranches_follow_iff rfl hrun).1.2 ?_⟩
  intro pre l post t u hlabels _ _ m amount hreported
  have hall : released assetKey (pre ++ l :: post) = [(1, 5)] := by
    rw [← hlabels]
    rfl
  have hmem : (m, amount) ∈ released assetKey (pre ++ l :: post) :=
    List.mem_filterMap.2 ⟨l, by simp, hreported⟩
  rw [hall] at hmem
  cases List.mem_singleton.1 hmem
  exact .inl Nat.one_pos

end Fracks.Assets
