import Fracks.CustodyRelease
import Fracks.SuiteDeployment

/-!
# Suites and the mandates of their assets

A suite is deployed past the custody gate of its asset.  The gate compares the
two parties of the mandate with each other and not with the issuer of the suite,
and the address of a deployment is derived from the issuer and the salt and not
from the asset.  Whether there is one suite for an asset, and whether it is that
of the mandated issuer, is left to the arguments of the deployments.
-/

namespace Fracks.Factory

open Checked AccountType Ledger Runs

/-! ## The instructions of the factory -/

inductive FactoryInstruction
  | platform (i : Instruction)
  | createTokenMint (accts : CreateTokenMint) (decimals : ℕ)
  | deployTokenSuite (accts : DeployTokenSuite) (args : DeployTokenSuiteArgs)

def execute (L : Ledger) (signers : List Pubkey) : FactoryInstruction → Result Ledger
  | .platform i => process L signers i
  | .createTokenMint accts decimals => Factory.createTokenMint L signers accts decimals
  | .deployTokenSuite accts args => Factory.deployTokenSuite L signers accts args

inductive FactoryLabel
  | instruction (signers : List Pubkey) (i : FactoryInstruction)
  | environment

/-- An instruction of the factory, or anything else that leaves its records alone. -/
inductive FactoryStep : Ledger → FactoryLabel → Ledger → Prop
  | instruction {L L' : Ledger} (signers : List Pubkey) (i : FactoryInstruction) :
      execute L signers i = .ok L' → FactoryStep L (.instruction signers i) L'
  | environment {L L' : Ledger} (S : List AccountKind) : Frame S L L' →
      (∀ kind ∈ AccountKind.tokenDeployment :: factoryKinds, kind ∉ S) →
        FactoryStep L .environment L'

/-- Instructions that are executed one after another. -/
def executeAll (L : Ledger) (script : List (List Pubkey × FactoryInstruction)) : Result Ledger :=
  script.foldlM (fun L entry ↦ execute L entry.1 entry.2) L

theorem run_of_executeAll {L L' : Ledger} {script : List (List Pubkey × FactoryInstruction)}
    (h : executeAll L script = .ok L') :
    Run FactoryStep L (script.map fun entry ↦ .instruction entry.1 entry.2) L' := by
  induction script generalizing L with
  | nil =>
      obtain rfl : L = L' := Except.ok.inj h
      exact .nil L
  | cons entry script ih =>
      obtain ⟨L₁, hfirst, hrest⟩ := Fold.foldlM_cons_eq_ok.1 h
      exact .cons (.instruction _ _ hfirst) (ih hrest)

/-! ## Suites and mandates -/

/-- The issuer that the mandate of the asset names. -/
def mandateIssuer (L : Ledger) (assetId : ℕ) : Option Pubkey :=
  (L.view CustodyMandate (custodyMandateAddress assetId)).map CustodyMandate.issuer

def NoDeployments (L : Ledger) : Prop := ∀ k, L.view TokenDeployment k = none

/-- Every suite is that of the mandated issuer, and there is one suite for an asset. -/
structure MandatedSuites (L : Ledger) : Prop where
  issuer : Everywhere (fun _ d ↦ mandateIssuer L d.assetId = some d.issuer)
    (L.view TokenDeployment)
  asset : Distinct TokenDeployment.assetId (L.view TokenDeployment)

/-- What holds of the deployments in any case: they are at their seeds, and there is
a mandate of their asset. -/
structure DeploymentBooks (L : Ledger) : Prop where
  seeds : Everywhere (fun k d ↦ k = deploymentAddress d.issuer d.salt) (L.view TokenDeployment)
  mandates : Everywhere (fun _ d ↦ ∃ x, mandateIssuer L d.assetId = some x)
    (L.view TokenDeployment)

/-- The suite is for the mandated issuer, and no other suite has been deployed for
the asset. -/
structure DeployTokenSuiteArgs.Mandated (args : DeployTokenSuiteArgs) (L : Ledger) : Prop where
  issuer : mandateIssuer L args.assetId = some args.issuer
  asset : ∀ k (d : TokenDeployment), L.accounts k = account d → d.assetId = args.assetId →
    d.issuer = args.issuer ∧ d.salt = args.salt

/-- A deployment is called with the mandated issuer, for an asset without a suite. -/
def FactoryLabel.Mandated (L : Ledger) : FactoryLabel → Prop
  | .instruction _ (.deployTokenSuite _ args) => args.Mandated L
  | .instruction _ _ | .environment => True

variable {L L' : Ledger} {signers : List Pubkey} {k : Pubkey} {l : FactoryLabel}
  {S : List AccountKind}

theorem deploymentAddress_inj {issuer issuer' : Pubkey} {salt salt' : ℕ} :
    deploymentAddress issuer salt = deploymentAddress issuer' salt' ↔
      issuer = issuer' ∧ salt = salt' := by
  simp [deploymentAddress, Pubkey.findProgramAddress, Pubkey.addSeed, and_comm]

theorem mandateIssuer_eq_some {assetId : ℕ} :
    mandateIssuer L assetId = some k ↔
      ∃ m : CustodyMandate, L.accounts (custodyMandateAddress assetId) = account m ∧
        m.issuer = k := by
  simp only [mandateIssuer, Option.map_eq_some_iff, view_eq_some]

theorem mandateIssuer_congr (h : L'.view CustodyMandate = L.view CustodyMandate) (assetId : ℕ) :
    mandateIssuer L' assetId = mandateIssuer L assetId := by
  rw [mandateIssuer, mandateIssuer, h]

/-- A mandate that is rewritten with its issuer. -/
theorem mandateIssuer_put {m m' : CustodyMandate} (hm : L.accounts k = account m)
    (hissuer : m'.issuer = m.issuer) (assetId : ℕ) :
    mandateIssuer (L.put k m') assetId = mandateIssuer L assetId := by
  rw [mandateIssuer, mandateIssuer, view_put]
  by_cases hk : custodyMandateAddress assetId = k
  · rw [hk, Function.update_self, view_eq_some.2 hm, Option.map_some, Option.map_some, hissuer]
  · rw [Function.update_of_ne hk]

/-- No instruction changes the issuer of a mandate. -/
theorem process_mandateIssuer {i : Instruction} (h : process L signers i = .ok L') {assetId : ℕ}
    (hissuer : mandateIssuer L assetId = some k) : mandateIssuer L' assetId = some k := by
  cases i with
  | initializeFactory | updateProgramIds | transferFactoryOwnership | approvePlatformAuthority
  | revokePlatformAuthority | attestCustody | attestReserve =>
      have hframe := (process_frame h).1
      rwa [mandateIssuer_congr (hframe.table_eq (by simp [Instruction.kind, AccountType.kind]))]
  | createCustodyMandate accts asset issuerFid custodian custodianFid =>
      obtain ⟨m, hm, hof⟩ := mandateIssuer_eq_some.1 hissuer
      obtain ⟨-, hvacant, -, hother⟩ := initRecord_ok (createCustodyMandate_ok h).2
      have hne : custodyMandateAddress assetId ≠ accts.custodyMandate := by
        intro heq
        rw [← heq] at hvacant
        exact account_ne_vacant m (hm.symm.trans hvacant)
      exact mandateIssuer_eq_some.2 ⟨m, (hother _ hne).trans hm, hof⟩
  | acceptCustodyMandate custodian custodyMandate custodianFidAccount =>
      obtain ⟨m, hm, rfl⟩ := acceptCustodyMandate_ok h
      refine (mandateIssuer_put hm ?_ assetId).trans hissuer
      rfl
  | releaseCustodyMandate authority factoryState custodyMandate =>
      obtain ⟨m, hm, rfl⟩ := releaseCustodyMandate_ok h
      refine (mandateIssuer_put hm ?_ assetId).trans hissuer
      rfl

/-! ## One deployment -/

section Deployment

variable {accts : DeployTokenSuite} {args : DeployTokenSuiteArgs}

/-- The record of a deployment is made of its arguments. -/
theorem recordDeployment_ok {state : FactoryState}
    (h : recordDeployment L accts args state = .ok L') :
    ∃ (d : TokenDeployment) (state' : FactoryState),
      (d.assetId = args.assetId ∧ d.issuer = args.issuer ∧ d.salt = args.salt) ∧
        L' = (L.put accts.deployment d).put accts.factoryState state' := by
  simp only [recordDeployment, bind_eq_ok, okOr_eq_ok, Except.ok.injEq] at h
  obtain ⟨n, -, rfl⟩ := h
  refine ⟨_, _, ?_, rfl⟩
  exact ⟨rfl, rfl, rfl⟩

/-- A deployment writes the record of its arguments at their seeds.  It needs a
mandate of the asset, and changes none. -/
theorem deployTokenSuite_records (h : deployTokenSuite L signers accts args = .ok L') :
    ∃ d : TokenDeployment, L'.view TokenDeployment = Function.update (L.view TokenDeployment)
      (deploymentAddress args.issuer args.salt) (some d) ∧
        (d.assetId = args.assetId ∧ d.issuer = args.issuer ∧ d.salt = args.salt) ∧
          L'.view CustodyMandate = L.view CustodyMandate ∧
            ∃ x, mandateIssuer L args.assetId = some x := by
  obtain ⟨state, L₁, L₂, L₃, L₄, L₅, L₆, L₇, L₈, hstate, hopen, ⟨⟨old, hinit⟩, ⟨m, a⟩, hgate⟩,
    hbegin, hd, hcount, hcalls, hrecord⟩ := deployTokenSuite_ok h
  have hframe := hcalls.frame hd hcount
  have hopen₈ : DeploymentOpen L₈ accts.deployment :=
    hopen.of_frame hframe (by decide) (by decide)
  have hstate₈ : L₈.accounts accts.factoryState = account state :=
    hframe.accounts_eq (by decide) hstate
  have hend := frame_recordDeployment hopen₈ hstate₈ hrecord
  obtain ⟨hm, hk, -⟩ := loadCustody_eq_ok.1 hgate
  have hbefore : L₁.view CustodyMandate = L.view CustodyMandate := hbegin.table_eq (by decide)
  have hmandates : L'.view CustodyMandate = L.view CustodyMandate := by
    rw [hend.table_eq (by decide), hframe.table_eq (by decide), hbefore]
  have hmandate : mandateIssuer L args.assetId = some m.issuer := by
    rw [← mandateIssuer_congr hbefore, mandateIssuer_eq_some]
    exact ⟨m, hk ▸ hm, rfl⟩
  obtain ⟨hseeds, -, hsame⟩ := view_initIfNeeded (β := TokenDeployment) hinit
  have hdeployments : L₈.view TokenDeployment = L.view TokenDeployment := by
    rw [hframe.table_eq (by decide), hsame]
  obtain ⟨d, state', hfields, rfl⟩ := recordDeployment_ok hrecord
  have hne : accts.factoryState ≠ accts.deployment := hopen₈.ne hstate₈ (by decide)
  refine ⟨d, ?_, hfields, hmandates, m.issuer, hmandate⟩
  rw [view_overwrite ((put_accounts_of_ne _ hne).trans hstate₈) (by decide), view_put,
    hdeployments, hseeds]

end Deployment

/-! ## Histories -/

/-- Other records have changed, and mandates have kept their issuers. -/
theorem MandatedSuites.congr (h : MandatedSuites L)
    (hdeployments : L'.view TokenDeployment = L.view TokenDeployment)
    (hmandates : ∀ assetId x, mandateIssuer L assetId = some x →
      mandateIssuer L' assetId = some x) : MandatedSuites L' where
  issuer x d hd := by
    rw [hdeployments] at hd
    exact hmandates _ _ (h.issuer x d hd)
  asset := by
    rw [hdeployments]
    exact h.asset

/-- Every step but a deployment keeps the deployments and the issuers of mandates. -/
theorem FactoryStep.keeps (hstep : FactoryStep L l L') :
    (l.Mandated L ∧ L'.view TokenDeployment = L.view TokenDeployment ∧
      ∀ assetId x, mandateIssuer L assetId = some x → mandateIssuer L' assetId = some x) ∨
      ∃ signers accts args, l = .instruction signers (.deployTokenSuite accts args) ∧
        deployTokenSuite L signers accts args = .ok L' := by
  cases hstep with
  | instruction signers i h =>
      cases i with
      | platform i =>
          have hdeployments : L'.view TokenDeployment = L.view TokenDeployment :=
            (frame h).table_eq (by decide)
          exact .inl ⟨trivial, hdeployments, fun _ _ hissuer ↦ process_mandateIssuer h hissuer⟩
      | createTokenMint accts decimals =>
          have hframe := frame_createTokenMint h
          refine .inl ⟨trivial, hframe.table_eq (by decide), fun assetId x hissuer ↦ ?_⟩
          rwa [mandateIssuer_congr (hframe.table_eq (by decide))]
      | deployTokenSuite accts args => exact .inr ⟨signers, accts, args, rfl, h⟩
  | environment S hframe hS =>
      refine .inl ⟨trivial, hframe.table_eq (hS _ (by decide)), fun assetId x hissuer ↦ ?_⟩
      rwa [mandateIssuer_congr (hframe.table_eq (hS _ (by decide)))]

theorem DeploymentBooks.step (h : DeploymentBooks L) (hstep : FactoryStep L l L') :
    DeploymentBooks L' := by
  rcases hstep.keeps with ⟨-, hdeployments, hmandates⟩ | ⟨signers, accts, args, -, hdeploy⟩
  · constructor
    · rw [hdeployments]
      exact h.seeds
    · intro x d hd
      rw [hdeployments] at hd
      obtain ⟨issuer, hissuer⟩ := h.mandates x d hd
      exact ⟨issuer, hmandates _ _ hissuer⟩
  · obtain ⟨d, htable, ⟨hasset, hissuer, hsalt⟩, hmandates, hmandate⟩ :=
      deployTokenSuite_records hdeploy
    constructor
    · rw [htable]
      refine h.seeds.update fun d' hd' ↦ ?_
      obtain rfl := Option.some.inj hd'
      rw [hissuer, hsalt]
    · rw [htable]
      simp only [mandateIssuer_congr hmandates]
      refine h.mandates.update fun d' hd' ↦ ?_
      obtain rfl := Option.some.inj hd'
      rw [hasset]
      exact hmandate

/-- A deployment keeps the suites mandated exactly if it is called as it should. -/
theorem deploy_mandated_iff {accts : DeployTokenSuite} {args : DeployTokenSuiteArgs}
    (hbooks : DeploymentBooks L) (h : MandatedSuites L)
    (hdeploy : deployTokenSuite L signers accts args = .ok L') :
    MandatedSuites L' ↔ args.Mandated L := by
  obtain ⟨d, htable, ⟨hasset, hissuer, hsalt⟩, hmandates, -⟩ := deployTokenSuite_records hdeploy
  have hkept := mandateIssuer_congr hmandates
  have hissuers : Everywhere (fun _ d ↦ mandateIssuer L' d.assetId = some d.issuer)
      (L.view TokenDeployment) := by
    intro x b hb
    rw [hkept]
    exact h.issuer x b hb
  have hfirst : (∀ x b, L.view TokenDeployment x = some b → b.assetId = d.assetId →
      x = deploymentAddress args.issuer args.salt) ↔
        ∀ x (b : TokenDeployment), L.accounts x = account b → b.assetId = args.assetId →
          b.issuer = args.issuer ∧ b.salt = args.salt := by
    refine forall₂_congr fun x b ↦ ?_
    rw [view_eq_some, hasset]
    refine forall_congr' fun hb ↦ forall_congr' fun _ ↦ ?_
    rw [hbooks.seeds x b (view_eq_some.2 hb), deploymentAddress_inj]
  have hnew := hissuers.update_iff (k := deploymentAddress args.issuer args.salt) (o := some d)
  have hdistinct := h.asset.update_iff (k := deploymentAddress args.issuer args.salt) (a := d)
  constructor
  · rintro ⟨hall, hkeys⟩
    rw [htable] at hall hkeys
    have hmandated := hnew.1 hall d rfl
    rw [hkept, hasset, hissuer] at hmandated
    exact ⟨hmandated, hfirst.1 (hdistinct.1 hkeys)⟩
  · rintro ⟨hmandated, hothers⟩
    constructor
    · rw [htable]
      refine hnew.2 fun b hb ↦ ?_
      obtain rfl := Option.some.inj hb
      rw [hkept, hasset, hissuer, hmandated]
    · rw [htable]
      exact hdistinct.2 (hfirst.2 hothers)

theorem step_mandated_iff (hbooks : DeploymentBooks L) (h : MandatedSuites L)
    (hstep : FactoryStep L l L') : MandatedSuites L' ↔ l.Mandated L := by
  rcases hstep.keeps with ⟨hcall, hdeployments, hmandates⟩ | ⟨signers, accts, args, rfl, hdeploy⟩
  · exact iff_of_true (h.congr hdeployments hmandates) hcall
  · exact deploy_mandated_iff hbooks h hdeploy

/-- There is one suite for an asset, that of the mandated issuer, throughout a run
exactly if every deployment is called so. -/
theorem mandated_throughout_iff {labels : List FactoryLabel} (hstart : NoDeployments L) :
    Run.Throughout FactoryStep MandatedSuites L labels ↔
      Run.AllSteps FactoryStep (fun M l _ ↦ l.Mandated M) L labels := by
  have hnone : ∀ (x : Pubkey) (d : TokenDeployment), L.view TokenDeployment x ≠ some d := by
    intro x d hd
    rw [hstart x] at hd
    exact nomatch hd
  have hbooks : DeploymentBooks L :=
    ⟨fun x d hd ↦ absurd hd (hnone x d), fun x d hd ↦ absurd hd (hnone x d)⟩
  have hempty : MandatedSuites L :=
    ⟨fun x d hd ↦ absurd hd (hnone x d), fun x _ d _ hd ↦ absurd hd (hnone x d)⟩
  have hexact : Run.Throughout FactoryStep MandatedSuites L labels ↔
      MandatedSuites L ∧ Run.AllSteps FactoryStep (fun M l _ ↦ l.Mandated M) L labels := by
    refine Run.throughout_iff (I := DeploymentBooks) ?_ ?_ hbooks
    · intro M l M' h hstep
      exact h.step hstep
    · intro M l M' hI h hstep
      exact step_mandated_iff hI h hstep
  rw [hexact]
  exact ⟨fun h ↦ h.2, fun h ↦ ⟨hempty, h⟩⟩

/-! ## Two suites of one asset -/

/-- A platform with an issuer, a custodian and two mints. -/
def tokenizationLedger : Ledger :=
  .ofRecords [(factoryStateAddress, account
      { owner := platformOwner
        tokenProgramId := .program .fracksToken
        fidProgramId := .program .fracksFid
        irpProgramId := .program .fracksIrp
        irsProgramId := .program .fracksIrs
        tirProgramId := .program .fracksTir
        ctrProgramId := .program .fracksCtr
        complianceProgramId := .program .fracksCompliance
        deploymentCount := 0 : FactoryState }),
    (Fid.fidAddress assetIssuer, account (partyFid assetIssuer true)),
    (Fid.fidAddress assetCustodian, account (partyFid assetCustodian false)),
    (.address 10, account (tokenMint platformOwner (Token.tokenStateAddress (.address 10))
      TokenHook.hookProgram 6)),
    (.address 11, account (tokenMint platformOwner (Token.tokenStateAddress (.address 11))
      TokenHook.hookProgram 6))]

/-- A suite without topics, issuers and modules. -/
def plainArgs (issuer mint : Pubkey) : DeployTokenSuiteArgs :=
  { suiteArgs with
    issuer := issuer
    tokenMint := mint
    claimTopics := []
    trustedIssuers := []
    complianceModules := [] }

def plainAccounts (issuer mint : Pubkey) : DeployTokenSuite :=
  { suiteAccounts with
    issuer := issuer
    deployment := deploymentAddress issuer 9
    tokenState := Token.tokenStateAddress mint
    ownerState := Token.ownerAddress mint
    irsState := Irs.irsAddress mint
    tirState := Tir.tirAddress mint
    ctrState := Ctr.ctrAddress mint
    irpState := Irp.irpAddress mint
    complianceState := Compliance.complianceAddress mint
    tokenMintAccount := mint
    extraAccountMetas := TokenHook.extraAccountMetasAddress mint TokenHook.hookProgram
    remaining := [] }

/-- The asset is mandated and attested, and its issuer gets a suite.  Then its
custodian gets one as well. -/
def tokenizationScript : List (List Pubkey × FactoryInstruction) :=
  [([platformOwner], .platform (.approvePlatformAuthority platformOwner factoryStateAddress
      (platformAuthorityAddress (Fid.fidAddress assetCustodian) topicCustodianAuthority)
      (Fid.fidAddress assetCustodian) topicCustodianAuthority)),
    ([assetIssuer], .platform (.createCustodyMandate
      { authority := assetIssuer
        factoryState := factoryStateAddress
        issuer := assetIssuer
        issuerFidAccount := Fid.fidAddress assetIssuer
        custodianFidAccount := Fid.fidAddress assetCustodian
        custodianAuthority :=
          platformAuthorityAddress (Fid.fidAddress assetCustodian) topicCustodianAuthority
        custodyMandate := assetMandate } 7 (Fid.fidAddress assetIssuer) assetCustodian
      (Fid.fidAddress assetCustodian))),
    ([assetCustodian], .platform (.acceptCustodyMandate assetCustodian assetMandate
      (Fid.fidAddress assetCustodian))),
    ([assetCustodian], .platform (.attestCustody assetCustodian assetMandate
      (custodyAttestationAddress assetMandate) 0 0 3600)),
    ([platformOwner], .deployTokenSuite (plainAccounts assetIssuer (.address 10))
      (plainArgs assetIssuer (.address 10))),
    ([platformOwner], .deployTokenSuite (plainAccounts assetCustodian (.address 11))
      (plainArgs assetCustodian (.address 11)))]

/-- The asset and the issuer of a deployment. -/
def deploymentOf (L : Ledger) (k : Pubkey) : Option (ℕ × Pubkey) :=
  (L.view TokenDeployment k).map fun d ↦ (d.assetId, d.issuer)

theorem tokenization_deployed : ∃ L, executeAll tokenizationLedger tokenizationScript = .ok L ∧
    mandateIssuer L 7 = some assetIssuer ∧
      deploymentOf L (deploymentAddress assetIssuer 9) = some (7, assetIssuer) ∧
        deploymentOf L (deploymentAddress assetCustodian 9) = some (7, assetCustodian) := by
  have hfinal : ((executeAll tokenizationLedger tokenizationScript).map fun L ↦
      (mandateIssuer L 7, deploymentOf L (deploymentAddress assetIssuer 9),
        deploymentOf L (deploymentAddress assetCustodian 9))) =
        .ok (some assetIssuer, some (7, assetIssuer), some (7, assetCustodian)) := by
    decide +kernel
  cases h : executeAll tokenizationLedger tokenizationScript with
  | error e =>
      rw [h] at hfinal
      exact nomatch hfinal
  | ok L =>
      rw [h] at hfinal
      simp only [Except.map, Except.ok.injEq, Prod.mk.injEq] at hfinal
      exact ⟨L, rfl, hfinal⟩

theorem noDeployments_ofRecords {records : List (Pubkey × Account)}
    (h : ∀ record ∈ records, record.2.kind ≠ .tokenDeployment) :
    NoDeployments (.ofRecords records) := by
  have hkinds : ∀ k, ((Ledger.ofRecords records).accounts k).kind ≠ .tokenDeployment := by
    refine ofRecords_forall (P := fun _ acc ↦ acc.kind ≠ .tokenDeployment) h fun _ ↦ by decide
  intro k
  by_contra hne
  obtain ⟨d, hd⟩ := Option.ne_none_iff_exists'.1 hne
  exact hkinds k (view_eq_some.1 hd ▸ kind_account d)

/-- The custodian gets a suite of its own for an asset that already has one. -/
theorem custodian_suite_deployed :
    (¬ ∀ (L₀ L : Ledger) (labels : List FactoryLabel), NoDeployments L₀ →
      Run FactoryStep L₀ labels L →
        Everywhere (fun _ d ↦ mandateIssuer L d.assetId = some d.issuer)
          (L.view TokenDeployment)) ∧
      ¬ ∀ (L₀ L : Ledger) (labels : List FactoryLabel), NoDeployments L₀ →
        Run FactoryStep L₀ labels L →
          Distinct TokenDeployment.assetId (L.view TokenDeployment) := by
  obtain ⟨L, hscript, hmandate, hfirst, hsecond⟩ := tokenization_deployed
  have hstart : NoDeployments tokenizationLedger := by
    apply noDeployments_ofRecords
    simp [AccountType.kind]
  have hrun := run_of_executeAll hscript
  obtain ⟨d, hd, hdeployed⟩ := Option.map_eq_some_iff.1 hfirst
  obtain ⟨d', hd', hdeployed'⟩ := Option.map_eq_some_iff.1 hsecond
  rw [Prod.mk.injEq] at hdeployed hdeployed'
  constructor
  · intro hclaim
    have hissuer : mandateIssuer L d'.assetId = some d'.issuer :=
      hclaim _ _ _ hstart hrun _ _ hd'
    rw [hdeployed'.1, hmandate, hdeployed'.2, Option.some_inj] at hissuer
    exact absurd hissuer (by decide)
  · intro hclaim
    have hsame := hclaim _ _ _ hstart hrun _ _ _ _ hd hd' (hdeployed.1.trans hdeployed'.1.symm)
    rw [deploymentAddress_inj] at hsame
    exact absurd hsame.1 (by decide)

def suiteDeployment : FactoryLabel :=
  .instruction [.address 1] (.deployTokenSuite suiteAccounts suiteArgs)

/-- The mandated issuer gets the only suite. -/
theorem mandated_suite_deployed :
    (∃ L, FactoryStep suiteLedger suiteDeployment L) ∧
      Run.Throughout FactoryStep MandatedSuites suiteLedger [suiteDeployment] := by
  have hstart : NoDeployments suiteLedger := by
    apply noDeployments_ofRecords
    simp [AccountType.kind]
  obtain ⟨L, hdeploy⟩ := suite_deployed
  refine ⟨⟨L, .instruction _ _ hdeploy⟩, (mandated_throughout_iff hstart).2 ?_⟩
  apply Run.AllSteps.single
  intro t _
  refine ⟨rfl, fun k d hd ↦ ?_⟩
  rw [← view_eq_some, hstart k] at hd
  exact nomatch hd

end Fracks.Factory
