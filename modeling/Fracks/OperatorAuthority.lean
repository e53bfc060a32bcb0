import Fracks.Footprints
import Fracks.Deployment

/-!
# Who operates a token

The controller accepts an operator on evidence that the caller supplies: the
owner record of the mint, or an agent record.  Owner records are written by the
initialisation and by the owner, agent records only by the owner, and an agent
record that is there has been there since it was written.
-/

namespace Fracks

open Checked AccountType Ledger Token Runs

/-- The owner record of the mint names `a`. -/
def OwnerIs (T a : Pubkey) (L : Ledger) : Prop :=
  ∃ record : OwnerState, L.accounts (ownerAddress T) = account record ∧ record.owner = a

/-- There is an agent record of `a` for the mint. -/
def AgentOf (T a : Pubkey) (L : Ledger) : Prop :=
  ∃ role : AgentRole, L.accounts (agentAddress T a) = account role

/-- The instruction makes `a` the owner of the mint: `a` initializes the token, or
the owner `o` hands it over. -/
inductive Instruction.Crowns (T a : Pubkey) (L : Ledger) : Instruction → Prop
  | initialized (tokenState : Pubkey) (args : InitializeTokenArgs) : args.tokenMint = T →
      Crowns T a L (.token (.initializeToken a tokenState (ownerAddress T) args))
  | handedOver (accts : OwnerAccounts) : accts.ownerState = ownerAddress T →
      OwnerIs T accts.owner L → Crowns T a L (.token (.transferOwnership accts a))

/-- The owner of the mint adds `a` as an agent. -/
inductive Instruction.Appoints (T a : Pubkey) (L : Ledger) : Instruction → Prop
  | added (accts : OwnerAccounts) : OwnerIs T accts.owner L →
      Appoints T a L (.token (.addAgent accts (agentAddress T a) a))

/-- The instruction removes the agent `a` of the mint. -/
def Instruction.Dismisses (T a : Pubkey) : Instruction → Prop
  | .token (.removeAgent _ agentRole) => agentRole = agentAddress T a
  | _ => False

variable {L L' : Ledger} {signers : List Pubkey} {T a k : Pubkey} {l : Label}

/-! ## The records -/

theorem ownerAddress_inj {T T' : Pubkey} : ownerAddress T = ownerAddress T' ↔ T = T' := by
  simp [ownerAddress, Pubkey.findProgramAddress, Pubkey.addSeed]

theorem agentAddress_inj {T T' a a' : Pubkey} :
    agentAddress T a = agentAddress T' a' ↔ T = T' ∧ a = a' := by
  simp [agentAddress, Pubkey.findProgramAddress, Pubkey.addSeed]

theorem Token.OwnerAccounts.owned {accts : OwnerAccounts} {ts : TokenState} {os : OwnerState}
    (h : accts.check L signers = .ok (ts, os)) :
    accts.ownerState = ownerAddress ts.tokenMint ∧ OwnerIs ts.tokenMint accts.owner L := by
  simp only [OwnerAccounts.check, bind_eq_ok, requireSigner_eq_ok, load_eq_ok, requireSeeds_eq_ok,
    require_eq_ok, exists_const, Except.ok.injEq, Prod.mk.injEq] at h
  obtain ⟨-, ts', -, os', hos, hseeds, hmint, howner, rfl, rfl⟩ := h
  have hkey : accts.ownerState = ownerAddress ts'.tokenMint := hmint ▸ hseeds
  exact ⟨hkey, os', hkey ▸ hos, howner⟩

/-- Records are as before the frame, too. -/
theorem AgentOf.of_frame {S : List AccountKind} (h : AgentOf T a L') (hframe : Frame S L L')
    (hS : AccountKind.agentRole ∉ S) : AgentOf T a L := by
  obtain ⟨role, hrole⟩ := h
  refine ⟨role, ?_⟩
  rwa [← view_eq_some, hframe.view_eq (α := AgentRole) hS, view_eq_some] at hrole

theorem OwnerIs.before_frame {S : List AccountKind} (h : OwnerIs T a L') (hframe : Frame S L L')
    (hS : AccountKind.ownerState ∉ S) : OwnerIs T a L := by
  obtain ⟨record, hrecord, howner⟩ := h
  refine ⟨record, ?_, howner⟩
  rwa [← view_eq_some, hframe.view_eq (α := OwnerState) hS, view_eq_some] at hrecord

/-! ## Steps -/

section Steps

variable [Borsh] {accts : OwnerAccounts} {agentRole agent newOwner : Pubkey}

omit [Borsh] in
theorem addAgent_appoints (h : addAgent L signers accts agentRole agent = .ok L')
    (hL : ¬ AgentOf T a L) (hL' : AgentOf T a L') :
    agentRole = agentAddress T a ∧ agent = a ∧ OwnerIs T accts.owner L := by
  obtain ⟨⟨ts, os⟩, hcheck, hinit⟩ := bind_eq_ok.1 h
  obtain ⟨hkey, -, -, hother⟩ := initRecord_ok hinit
  obtain ⟨-, howned⟩ := OwnerAccounts.owned hcheck
  by_cases hk : agentAddress T a = agentRole
  · obtain ⟨rfl, rfl⟩ := agentAddress_inj.1 (hk.trans hkey)
    exact ⟨hk.symm, rfl, howned⟩
  · obtain ⟨role, hrole⟩ := hL'
    exact absurd ⟨role, hother _ hk ▸ hrole⟩ hL

omit [Borsh] in
theorem removeAgent_dismisses (h : removeAgent L signers accts agentRole = .ok L') :
    L'.accounts agentRole = .vacant ∧ ∀ x, x ≠ agentRole → L'.accounts x = L.accounts x := by
  simp only [removeAgent, bind_eq_ok, load_eq_ok, Except.ok.injEq] at h
  obtain ⟨_, -, _, -, _, -, rfl⟩ := h
  exact ⟨Token2022.close_vacant _ _, fun x hx ↦ setAccount_accounts_of_ne _ hx⟩

omit [Borsh] in
/-- The programs besides the controller write no owner and no agent records. -/
theorem Instruction.kinds_of_not_token (i : Instruction) (hi : ∀ j, i.core ≠ .token j) :
    AccountKind.agentRole ∉ i.kinds ∧ AccountKind.ownerState ∉ i.kinds := by
  induction i with
  | token j => exact absurd rfl (hi j)
  | hook j => cases j <;> simp [Instruction.kinds, HookInstruction.kinds, TokenHook.hookKinds]
  | compliance j =>
      cases j <;> simp [Instruction.kinds, ComplianceInstruction.kinds, Compliance.PostHook.kinds]
  | module j => cases j <;> simp [Instruction.kinds, ModuleInstruction.kinds]
  | token2022 j => simp [Instruction.kinds, TokenHook.hookKinds]
  | createTokenMint => simp [Instruction.kinds]
  | callModuleFunction _ _ inner ih => exact ih hi

/-- The instruction is not carried out by the controller, or the controller
carries it out. -/
theorem process_token_or {i : Instruction} (h : process L signers i = .ok L') :
    (∃ j, i.core = .token j ∧ j.process L signers = .ok L') ∨
      ∃ S : List AccountKind, Frame S L L' ∧ AccountKind.agentRole ∉ S ∧
        AccountKind.ownerState ∉ S := by
  by_cases hi : ∃ j, i.core = .token j
  · obtain ⟨j, hj⟩ := hi
    have hcore := process_core h
    rw [hj] at hcore
    exact .inl ⟨j, hj, hcore⟩
  · have hkinds := i.kinds_of_not_token fun j hj ↦ hi ⟨j, hj⟩
    exact .inr ⟨i.kinds, process_frame h, hkinds⟩

/-- Only the owner brings an agent record about. -/
theorem process_appoints {i : Instruction} (h : process L signers i = .ok L')
    (hL : ¬ AgentOf T a L) (hL' : AgentOf T a L') : i.core.Appoints T a L := by
  rcases process_token_or h with ⟨j, hj, hprocess⟩ | ⟨S, hframe, hS, -⟩
  · rw [hj]
    cases j with
    | addAgent accts agentRole agent =>
        obtain ⟨rfl, rfl, howned⟩ := addAgent_appoints hprocess hL hL'
        exact .added accts howned
    | removeAgent accts agentRole =>
        obtain ⟨hvacant, hother⟩ := removeAgent_dismisses hprocess
        obtain ⟨role, hrole⟩ := hL'
        have hk : agentAddress T a ≠ agentRole := by
          intro hk
          rw [hk, hvacant] at hrole
          exact account_ne_vacant role hrole.symm
        exact absurd ⟨role, hother _ hk ▸ hrole⟩ hL
    | _ =>
        have hframe := TokenInstruction.frame hprocess
        exact absurd (hL'.of_frame hframe (by
          simp [TokenInstruction.kinds, Irs.identityKinds, TokenHook.hookKinds])) hL
  · exact absurd (hL'.of_frame hframe hS) hL

/-- No agent record stays that is removed. -/
theorem process_dismisses {i : Instruction} (h : process L signers i = .ok L')
    (hi : i.core.Dismisses T a) : ¬ AgentOf T a L' := by
  have hcore := process_core h
  generalize i.core = c at hcore hi
  cases c with
  | token j =>
      cases j with
      | removeAgent accts agentRole =>
          rintro ⟨role, hrole⟩
          obtain ⟨hvacant, -⟩ := removeAgent_dismisses hcore
          rw [show agentRole = agentAddress T a from hi, hrole] at hvacant
          exact account_ne_vacant role hvacant
      | _ => exact hi.elim
  | _ => exact hi.elim

omit [Borsh] in
theorem initializeToken_crowns {owner tokenState ownerState : Pubkey} {args : InitializeTokenArgs}
    (h : initializeToken L signers owner tokenState ownerState args = .ok L')
    (hL : ¬ OwnerIs T a L) (hL' : OwnerIs T a L') :
    ownerState = ownerAddress T ∧ owner = a ∧ args.tokenMint = T := by
  simp only [initializeToken, bind_eq_ok, requireSigner_eq_ok, exists_const] at h
  obtain ⟨-, -, -, L₁, hstate, hinit⟩ := h
  have hframe : Frame [.tokenState] L L₁ := .initRecord hstate (by decide)
  obtain ⟨hkey, -, hnew, hother⟩ := initRecord_ok hinit
  obtain ⟨record, hrecord, howner⟩ := hL'
  by_cases hk : ownerAddress T = ownerState
  · rw [hk] at hrecord
    obtain rfl := account_inj.1 (hnew.symm.trans hrecord)
    exact ⟨hk.symm, howner, (ownerAddress_inj.1 (hk.trans hkey)).symm⟩
  · rw [hother _ hk] at hrecord
    exact absurd (OwnerIs.before_frame ⟨record, hrecord, howner⟩ hframe (by decide)) hL

omit [Borsh] in
theorem transferOwnership_crowns (h : transferOwnership L signers accts newOwner = .ok L')
    (hL : ¬ OwnerIs T a L) (hL' : OwnerIs T a L') :
    newOwner = a ∧ accts.ownerState = ownerAddress T ∧ OwnerIs T accts.owner L := by
  simp only [transferOwnership, bind_eq_ok, require_eq_ok, exists_const, Except.ok.injEq] at h
  obtain ⟨⟨ts, os⟩, hcheck, -, rfl⟩ := h
  obtain ⟨hkey, howned⟩ := OwnerAccounts.owned hcheck
  obtain ⟨record, hrecord, howner⟩ := hL'
  by_cases hk : ownerAddress T = accts.ownerState
  · obtain rfl := ownerAddress_inj.1 (hk.trans hkey)
    rw [hk, put_accounts_self] at hrecord
    obtain rfl := account_inj.1 hrecord
    exact ⟨howner, hkey, howned⟩
  · rw [put_accounts_of_ne _ hk] at hrecord
    exact absurd ⟨record, hrecord, howner⟩ hL

/-- Owners come from the initialisation or from the owner before them. -/
theorem process_crowns {i : Instruction} (h : process L signers i = .ok L')
    (hL : ¬ OwnerIs T a L) (hL' : OwnerIs T a L') : i.core.Crowns T a L := by
  rcases process_token_or h with ⟨j, hj, hprocess⟩ | ⟨S, hframe, -, hS⟩
  · rw [hj]
    cases j with
    | initializeToken owner tokenState ownerState args =>
        obtain ⟨rfl, rfl, hmint⟩ := initializeToken_crowns hprocess hL hL'
        exact .initialized tokenState args hmint
    | transferOwnership accts newOwner =>
        obtain ⟨rfl, hkey, howned⟩ := transferOwnership_crowns hprocess hL hL'
        exact .handedOver accts hkey howned
    | _ =>
        have hframe := TokenInstruction.frame hprocess
        exact absurd (hL'.before_frame hframe (by
          simp [TokenInstruction.kinds, Irs.identityKinds, TokenHook.hookKinds])) hL
  · exact absurd (hL'.before_frame hframe hS) hL

end Steps

/-! ## The evidence -/

theorem account_of_deserialized {α : Type} [AccountType α] {b : α}
    (howner : (L.accounts k).owner = .program (kind α).program)
    (h : deserializeAccountData α L k = .ok b) : L.accounts k = account b := by
  rw [deserializeAccountData, okOr_eq_ok, decode_eq_some] at h
  rw [account, ← howner, ← h]

theorem ownerAuthorizes_owned {ownerState : Pubkey}
    (h : ownerAuthorizes L a T ownerState = .ok true) : OwnerIs T a L := by
  unfold ownerAuthorizes at h
  split at h
  case isTrue hrecord =>
    obtain ⟨hprogram, -, rfl⟩ := hrecord
    simp only [bind_eq_ok, require_eq_ok, exists_const, Except.ok.injEq, decide_eq_true_eq] at h
    obtain ⟨state, hstate, -, howner⟩ := h
    exact ⟨state, account_of_deserialized hprogram hstate, howner⟩
  case isFalse => cases h

theorem agentAuthorizes_agent {agentRole : Pubkey}
    (h : agentAuthorizes L a T agentRole = .ok ()) : AgentOf T a L := by
  unfold agentAuthorizes at h
  split at h
  case isTrue hrecord =>
    obtain ⟨hprogram, -, rfl⟩ := hrecord
    obtain ⟨role, hrole, -⟩ := bind_eq_ok.1 h
    exact ⟨role, account_of_deserialized hprogram hrole⟩
  case isFalse => cases h

/-- Whatever accounts it is given, the controller accepts the owner of the mint
and those with an agent record for it. -/
theorem authorizeOperator_evidence {ts : TokenState} {ownerState agentRole : Pubkey}
    (h : authorizeOperator L a ts ownerState agentRole = .ok ()) :
    OwnerIs ts.tokenMint a L ∨ AgentOf ts.tokenMint a L := by
  obtain ⟨isOwner, howner, hagent⟩ := bind_eq_ok.1 h
  cases isOwner with
  | true => exact .inl (ownerAuthorizes_owned howner)
  | false => exact .inr (agentAuthorizes_agent hagent)

/-! ## Runs -/

/-- In the run `a` became the owner of the mint and has been ever since. -/
structure OwnerSince [Borsh] (T a : Pubkey) (L : Ledger) (labels : List Label) (L' : Ledger) :
    Prop where
  crowned : ∃ pre signers i post u v, labels = pre ++ .instruction signers i :: post ∧
    Run Step L pre u ∧ i.core.Crowns T a u ∧ Step u (.instruction signers i) v ∧
      Run (restrict Step fun s _ t ↦ OwnerIs T a s ∧ OwnerIs T a t) v post L'
  owned : OwnerIs T a L'

/-- In the run the owner of the mint added the agent `a`, and nobody has removed
it since. -/
def AgentSince [Borsh] (T a : Pubkey) (L : Ledger) (labels : List Label) : Prop :=
  ∃ pre signers i post u v, labels = pre ++ .instruction signers i :: post ∧ Run Step L pre u ∧
    i.core.Appoints T a u ∧ Step u (.instruction signers i) v ∧
      ∀ l ∈ post, l.Core fun i ↦ ¬ i.Dismisses T a

/-- No token has been initialized yet. -/
structure NoRoles (L : Ledger) : Prop where
  owners : ∀ T a, ¬ OwnerIs T a L
  agents : ∀ T a, ¬ AgentOf T a L

section Runs

variable [Borsh] {labels : List Label}

theorem Step.label_of_changed {P : Ledger → Prop} (h : Step L l L') (hL : ¬ P L) (hL' : P L')
    (hframe : ∀ {L L'}, Frame environmentKinds L L' → P L' → P L) :
    ∃ signers i, l = .instruction signers i ∧ process L signers i = .ok L' := by
  cases h with
  | instruction signers i _ h => exact ⟨signers, i, rfl, h⟩
  | environment hkept => exact absurd (hframe hkept hL') hL

theorem run_ownerSince (hrun : Run Step L labels L') (hL : ¬ OwnerIs T a L)
    (hL' : OwnerIs T a L') : OwnerSince T a L labels L' := by
  obtain ⟨pre, l, post, u, v, rfl, hpre, hu, hstep, hv, hpost⟩ := hrun.since hL hL'
  obtain ⟨signers, i, rfl, hprocess⟩ := hstep.label_of_changed hu hv
    fun hframe h ↦ h.before_frame hframe (by decide)
  exact ⟨⟨pre, signers, i, post, u, v, rfl, hpre, process_crowns hprocess hu hv, hstep, hpost⟩, hL'⟩

theorem run_agentSince (hrun : Run Step L labels L') (hL : ¬ AgentOf T a L)
    (hL' : AgentOf T a L') : AgentSince T a L labels := by
  obtain ⟨pre, l, post, u, v, rfl, hpre, hu, hstep, hv, hpost⟩ := hrun.since hL hL'
  obtain ⟨signers, i, rfl, hprocess⟩ := hstep.label_of_changed hu hv
    fun hframe h ↦ h.of_frame hframe (by decide)
  refine ⟨pre, signers, i, post, u, v, rfl, hpre, process_appoints hprocess hu hv, hstep, ?_⟩
  refine hpost.forall_labels fun s l t hkept ↦ ?_
  obtain ⟨hkept, -, ht⟩ := hkept
  cases hkept with
  | instruction signers i _ h => exact fun hi ↦ process_dismisses h hi ht
  | environment => trivial

/-- An authority that the controller accepts for a mint, on whatever accounts,
is its owner or an agent that an owner added and nobody has removed since. -/
theorem operators_appointed (hstart : NoRoles L) (hrun : Run Step L labels L')
    {ts : TokenState} {ownerState agentRole : Pubkey}
    (haccepted : authorizeOperator L' a ts ownerState agentRole = .ok ()) :
    OwnerSince ts.tokenMint a L labels L' ∨ AgentSince ts.tokenMint a L labels := by
  rcases authorizeOperator_evidence haccepted with howned | hagent
  · exact .inl (run_ownerSince hrun (hstart.owners _ _) howned)
  · exact .inr (run_agentSince hrun (hstart.agents _ _) hagent)

end Runs

/-! ## A token with one agent -/

def newTokenArgs : InitializeTokenArgs where
  tokenMint := .address 0
  name := "Fund"
  symbol := "FND"
  decimals := 0
  isin := "XS0000000000"
  identityRegistry := .address 3
  compliance := .address 4

def createNewToken : Instruction :=
  .token (.initializeToken (.address 1) (tokenStateAddress (.address 0)) (ownerAddress (.address 0))
    newTokenArgs)

def addNewAgent : Instruction :=
  .token (.addAgent ⟨.address 1, tokenStateAddress (.address 0), ownerAddress (.address 0)⟩
    (agentAddress (.address 0) (.address 2)) (.address 2))

theorem unusedLedger_noRoles : NoRoles (Ledger.ofRecords []) where
  owners := fun _ _ ⟨record, hrecord, _⟩ ↦ account_ne_vacant record hrecord.symm
  agents := fun _ _ ⟨role, hrole⟩ ↦ account_ne_vacant role hrole.symm

theorem newAgent_appointed : ∃ labels L',
    Run (@Step strictBorsh) (Ledger.ofRecords []) labels L' ∧
      (@OwnerSince strictBorsh (.address 0) (.address 2) (Ledger.ofRecords []) labels L' ∨
        @AgentSince strictBorsh (.address 0) (.address 2) (Ledger.ofRecords []) labels) := by
  obtain ⟨L₁, L₂, hcreate, hadd, ts, haccepted, hmint⟩ : ∃ L₁ L₂,
      @process strictBorsh (Ledger.ofRecords []) [.address 1] createNewToken = .ok L₁ ∧
        @process strictBorsh L₁ [.address 1] addNewAgent = .ok L₂ ∧ ∃ ts : TokenState,
          authorizeOperator L₂ (.address 2) ts (ownerAddress (.address 0))
            (agentAddress (.address 0) (.address 2)) = .ok () ∧ ts.tokenMint = .address 0 :=
    ⟨_, _, rfl, rfl, ⟨.address 0, .address 3, .address 4, false, 0, "Fund", "FND", "XS0000000000"⟩,
      rfl, rfl⟩
  have hexternal : ∀ k ∈ [Pubkey.address 1], k.External := by
    intro k hk
    rw [List.mem_singleton.1 hk]
    exact Pubkey.external_address 1
  have hrun : Run (@Step strictBorsh) (Ledger.ofRecords [])
      [.instruction [.address 1] createNewToken, .instruction [.address 1] addNewAgent] L₂ :=
    .cons (@Step.instruction strictBorsh _ _ _ _ hexternal hcreate)
      (.single (@Step.instruction strictBorsh _ _ _ _ hexternal hadd))
  rw [← hmint]
  exact ⟨_, L₂, hrun, @operators_appointed _ _ _ strictBorsh _ unusedLedger_noRoles hrun _ _ _
    haccepted⟩

end Fracks
