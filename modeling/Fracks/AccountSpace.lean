import Fracks.Deployment
import Fracks.Identity.RegisteredCount
import Fracks.Suite

/-!
# The space of the lists

The records that hold a list are allocated for the longest list that their
program accepts.  The lists stay free of repetitions and within their limits
throughout every history, so the encoding of a record never outgrows its
account; and the counter of a registry of issuers is the number of its entries.
-/

namespace Fracks

open Checked AccountType Ledger Runs Capacity

/-! ## Sizes -/

/-- The encoded size of the records of a type, with the discriminator of the
account, and the space that their program allocates for them. -/
class Allocated (α : Type) where
  size : α → ℕ
  space : ℕ

/-- The widths of the fixed-size fields. -/
def discriminatorSize : ℕ := 8

def keySize : ℕ := 32

def u64Size : ℕ := 8

def u32Size : ℕ := 4

def byteSize : ℕ := 1

/-- Keys are all of one width. -/
def keysSize (keys : List Pubkey) : ℕ := vecSize (fun _ ↦ keySize) keys

def topicsSize (topics : List ℕ) : ℕ := vecSize (fun _ ↦ u64Size) topics

instance : Allocated ComplianceState where
  size s := discriminatorSize + keySize + keySize + keysSize s.modules + byteSize + byteSize
  space := Compliance.complianceSpace

instance : Allocated IdentityRegistryStorageState where
  size s := discriminatorSize + keySize + keySize + keysSize s.boundRegistries + u64Size + byteSize
  space := Irs.irsSpace

instance : Allocated IdentityRegistryState where
  size s := discriminatorSize + keySize + keySize + keySize + keySize + keySize +
    keysSize s.identityAgents + u64Size + byteSize
  space := Irp.irpSpace

instance : Allocated TrustedIssuersState where
  size _ := discriminatorSize + keySize + keySize + u32Size + byteSize
  space := Tir.tirSpace

instance : Allocated IssuerEntry where
  size e := discriminatorSize + keySize + keySize + topicsSize e.allowedTopics + byteSize +
    stringSize e.label + byteSize
  space := Tir.issuerEntrySpace

instance : Allocated ClaimTopicsState where
  size s := discriminatorSize + keySize + keySize + topicsSize s.topics + byteSize
  space := Ctr.ctrSpace

/-! ## What the instructions do to the lists -/

section Steps

variable {L L' : Ledger} {signers : List Pubkey}

/-- The programs besides the compliance program write no compliance state. -/
theorem Instruction.kinds_of_not_compliance (i : Instruction) (hi : ∀ j, i.core ≠ .compliance j) :
    AccountKind.complianceState ∉ i.kinds := by
  induction i with
  | compliance j => exact absurd rfl (hi j)
  | token j =>
      cases j <;> simp [Instruction.kinds, TokenInstruction.kinds, TokenHook.hookKinds,
        Irs.identityKinds]
  | hook j => cases j <;> simp [Instruction.kinds, HookInstruction.kinds, TokenHook.hookKinds]
  | module j => cases j <;> simp [Instruction.kinds, ModuleInstruction.kinds]
  | token2022 j => simp [Instruction.kinds, TokenHook.hookKinds]
  | createTokenMint => simp [Instruction.kinds]
  | callModuleFunction _ _ inner ih => exact ih hi

abbrev ModulesListed (_ : Pubkey) (s : ComplianceState) : Prop :=
  Listed Compliance.maxModules s.modules

abbrev RegistriesListed (_ : Pubkey) (s : IdentityRegistryStorageState) : Prop :=
  Listed Irs.maxBoundRegistries s.boundRegistries

abbrev AgentsListed (_ : Pubkey) (s : IdentityRegistryState) : Prop :=
  Listed Irp.maxIdentityAgents s.identityAgents

abbrev TopicsListed (_ : Pubkey) (s : ClaimTopicsState) : Prop := Listed Ctr.maxTopics s.topics

abbrev EntryListed (_ : Pubkey) (e : IssuerEntry) : Prop :=
  Listed Tir.maxTopicsPerIssuer e.allowedTopics ∧ e.label.utf8ByteSize ≤ Tir.maxLabelLength

/-! ### Compliance -/

theorem updateComplianceOwner_listed {owner complianceState : Pubkey}
    {f : ComplianceState → Result ComplianceState}
    (h : Compliance.updateComplianceOwner L signers owner complianceState f = .ok L')
    (hf : ∀ s s', f s = .ok s' → Listed Compliance.maxModules s.modules →
      Listed Compliance.maxModules s'.modules)
    (hL : Everywhere ModulesListed (L.view ComplianceState)) :
    Everywhere ModulesListed (L'.view ComplianceState) := by
  simp only [Compliance.updateComplianceOwner, bind_eq_ok, requireSigner_eq_ok, modify_eq_ok,
    requireSeeds_eq_ok, require_eq_ok, exists_const] at h
  obtain ⟨-, s, s', hs, ⟨-, -, hs'⟩, rfl⟩ := h
  exact hL.put (hf s s' hs' (hL _ s (view_eq_some.2 hs)))

theorem ComplianceInstruction.listed {j : ComplianceInstruction}
    (h : j.process L signers = .ok L') (hL : Everywhere ModulesListed (L.view ComplianceState)) :
    Everywhere ModulesListed (L'.view ComplianceState) := by
  cases j with
  | initializeCompliance owner complianceState tokenMint =>
      obtain ⟨-, -, hinit⟩ := bind_eq_ok.1 h
      exact hL.initRecord hinit .nil
  | bindModule owner complianceState modulePubkey =>
      refine updateComplianceOwner_listed h (fun s s' hs hlisted ↦ ?_) hL
      simp only [bind_eq_ok, require_eq_ok, exists_const, Except.ok.injEq] at hs
      obtain ⟨hroom, hnew, rfl⟩ := hs
      exact hlisted.add hroom hnew
  | unbindModule owner complianceState modulePubkey =>
      refine updateComplianceOwner_listed h (fun s s' hs hlisted ↦ ?_) hL
      simp only [bind_eq_ok, require_eq_ok, exists_const, Except.ok.injEq] at hs
      obtain ⟨-, rfl⟩ := hs
      exact hlisted.remove
  | setModulesPaused owner complianceState paused =>
      refine updateComplianceOwner_listed h (fun s s' hs hlisted ↦ ?_) hL
      obtain rfl := Except.ok.inj hs
      exact hlisted
  | transferOwnership owner complianceState newOwner =>
      refine updateComplianceOwner_listed h (fun s s' hs hlisted ↦ ?_) hL
      simp only [bind_eq_ok, require_eq_ok, exists_const, Except.ok.injEq] at hs
      obtain ⟨-, rfl⟩ := hs
      exact hlisted
  | canTransfer | transferred | created | destroyed =>
      exact hL.of_frame (ComplianceInstruction.frame h)
        (by simp [ComplianceInstruction.kinds, Compliance.PostHook.kinds, kind])

/-! ### The identity storage -/

theorem Irs.updateIrsOwnerState_listed {owner irsState : Pubkey}
    {f : IdentityRegistryStorageState → Result IdentityRegistryStorageState}
    (h : updateIrsOwnerState L signers owner irsState f = .ok L')
    (hf : ∀ s s', f s = .ok s' → Listed maxBoundRegistries s.boundRegistries →
      Listed maxBoundRegistries s'.boundRegistries)
    (hL : Everywhere RegistriesListed (L.view IdentityRegistryStorageState)) :
    Everywhere RegistriesListed (L'.view IdentityRegistryStorageState) := by
  simp only [updateIrsOwnerState, bind_eq_ok, requireSigner_eq_ok, modify_eq_ok,
    requireSeeds_eq_ok, require_eq_ok, exists_const] at h
  obtain ⟨-, s, s', hs, ⟨-, -, hs'⟩, rfl⟩ := h
  exact hL.put (hf s s' hs' (hL _ s (view_eq_some.2 hs)))

/-- The removal of an identity steps a counter down. -/
theorem Irs.IdentityRemoved.listed {irsState k : Pubkey} (h : IdentityRemoved L L' irsState k)
    (hL : Everywhere RegistriesListed (L.view IdentityRegistryStorageState)) :
    Everywhere RegistriesListed (L'.view IdentityRegistryStorageState) := by
  obtain ⟨state, _, hstate, -, -, hstorages⟩ := h.removed
  rw [hstorages]
  refine hL.update fun s hs ↦ ?_
  obtain rfl := Option.some.inj hs
  exact hL _ state (view_eq_some.2 hstate)

theorem Irs.process_listed [Borsh] {i : Irs.Instruction} (h : Irs.process L signers i = .ok L')
    (hL : Everywhere RegistriesListed (L.view IdentityRegistryStorageState)) :
    Everywhere RegistriesListed (L'.view IdentityRegistryStorageState) := by
  cases i with
  | initializeIrs owner irsState authoritySeed =>
      obtain ⟨-, -, hinit⟩ := bind_eq_ok.1 h
      exact hL.initRecord hinit .nil
  | bindRegistry owner irsState irp =>
      refine updateIrsOwnerState_listed h (fun s s' hs hlisted ↦ ?_) hL
      simp only [bind_eq_ok, require_eq_ok, exists_const, Except.ok.injEq] at hs
      obtain ⟨hnew, hroom, rfl⟩ := hs
      exact hlisted.add hroom hnew
  | unbindRegistry owner irsState irp =>
      refine updateIrsOwnerState_listed h (fun s s' hs hlisted ↦ ?_) hL
      simp only [bind_eq_ok, require_eq_ok, exists_const, Except.ok.injEq] at hs
      obtain ⟨-, rfl⟩ := hs
      exact hlisted.remove
  | transferOwnership owner irsState newOwner =>
      refine updateIrsOwnerState_listed h (fun s s' hs hlisted ↦ ?_) hL
      simp only [bind_eq_ok, require_eq_ok, exists_const, Except.ok.injEq] at hs
      obtain ⟨-, rfl⟩ := hs
      exact hlisted
  | registerIdentity accts fidAccount wallet fid country =>
      simp only [process, registerIdentity, bind_eq_ok, Except.ok.injEq] at h
      obtain ⟨_, -, state, hload, _, -, _, -, ⟨L₁, old⟩, hinit, _, -, _, -, _, -, _, -, n, -,
        rfl⟩ := h
      have hlisted := hL _ state (view_eq_some.2 (loadIrsState_ok hload).1)
      have hcreated : Everywhere RegistriesListed (L₁.view IdentityRegistryStorageState) := by
        rwa [(view_initIfNeeded hinit).2.2]
      exact (hcreated.put_other (by decide)).put hlisted
  | submitOnboardingApplication applicant irsState application wallet =>
      exact hL.of_frame (frame_submitOnboardingApplication h) (by decide)
  | reviewOnboardingApplication authority irsState registryState application approved =>
      exact hL.of_frame (frame_reviewOnboardingApplication h) (by decide)
  | cancelOnboardingApplication authority irsState application =>
      exact hL.of_frame (frame_cancelOnboardingApplication h) (by decide)
  | setIdentityActivation owner irsState walletIdentity active =>
      obtain ⟨_, -, hwritten⟩ := setIdentityActivation_ok h
      rwa [hwritten.storages]
  | updateIdentity accts newFid =>
      obtain ⟨_, -, hwritten⟩ := updateIdentity_ok h
      rwa [hwritten.storages]
  | updateCountry accts newCountry =>
      obtain ⟨_, -, hwritten⟩ := updateCountry_ok h
      rwa [hwritten.storages]
  | removeIdentity accts => exact (removeIdentity_ok h).listed hL
  | removeOwnIdentity owner irsState walletIdentity => exact (removeOwnIdentity_ok h).listed hL

/-! ### The identity registry -/

theorem Irp.updateRegistryOwner_listed {owner registryState : Pubkey}
    {f : IdentityRegistryState → Result IdentityRegistryState}
    (h : updateRegistryOwner L signers owner registryState f = .ok L')
    (hf : ∀ s s', f s = .ok s' → Listed maxIdentityAgents s.identityAgents →
      Listed maxIdentityAgents s'.identityAgents)
    (hL : Everywhere AgentsListed (L.view IdentityRegistryState)) :
    Everywhere AgentsListed (L'.view IdentityRegistryState) := by
  simp only [updateRegistryOwner, bind_eq_ok, requireSigner_eq_ok, modify_eq_ok,
    requireSeeds_eq_ok, require_eq_ok, exists_const] at h
  obtain ⟨-, s, s', hs, ⟨-, -, hs'⟩, rfl⟩ := h
  exact hL.put (hf s s' hs' (hL _ s (view_eq_some.2 hs)))

theorem Irp.process_listed {i : Irp.Instruction} (h : Irp.process L signers i = .ok L')
    (hL : Everywhere AgentsListed (L.view IdentityRegistryState)) :
    Everywhere AgentsListed (L'.view IdentityRegistryState) := by
  cases i with
  | initializeRegistry owner registryState tokenMint irs tir ctr =>
      obtain ⟨-, -, hinit⟩ := bind_eq_ok.1 h
      exact hL.initRecord hinit .nil
  | addIdentityAgent owner registryState agent =>
      refine updateRegistryOwner_listed h (fun s s' hs hlisted ↦ ?_) hL
      simp only [bind_eq_ok, require_eq_ok, exists_const, Except.ok.injEq] at hs
      obtain ⟨hnew, hroom, rfl⟩ := hs
      exact hlisted.add hroom hnew
  | removeIdentityAgent owner registryState agent =>
      refine updateRegistryOwner_listed h (fun s s' hs hlisted ↦ ?_) hL
      simp only [bind_eq_ok, require_eq_ok, exists_const, Except.ok.injEq] at hs
      obtain ⟨-, rfl⟩ := hs
      exact hlisted.remove
  | updateIrsReference owner registryState newIrs =>
      refine updateRegistryOwner_listed h (fun s s' hs hlisted ↦ ?_) hL
      obtain rfl := Except.ok.inj hs
      exact hlisted
  | updateTirReference owner registryState newTir =>
      refine updateRegistryOwner_listed h (fun s s' hs hlisted ↦ ?_) hL
      obtain rfl := Except.ok.inj hs
      exact hlisted
  | updateCtrReference owner registryState newCtr =>
      refine updateRegistryOwner_listed h (fun s s' hs hlisted ↦ ?_) hL
      obtain rfl := Except.ok.inj hs
      exact hlisted
  | transferRegistryOwnership owner registryState newOwner =>
      refine updateRegistryOwner_listed h (fun s s' hs hlisted ↦ ?_) hL
      simp only [bind_eq_ok, require_eq_ok, exists_const, Except.ok.injEq] at hs
      obtain ⟨-, rfl⟩ := hs
      exact hlisted

/-! ### Topics and issuers -/

theorem Ctr.mutateCtr_listed {owner ctrState : Pubkey}
    {f : ClaimTopicsState → Result ClaimTopicsState}
    (h : mutateCtr L signers owner ctrState f = .ok L')
    (hf : ∀ s s', f s = .ok s' → Listed maxTopics s.topics → Listed maxTopics s'.topics)
    (hL : Everywhere TopicsListed (L.view ClaimTopicsState)) :
    Everywhere TopicsListed (L'.view ClaimTopicsState) := by
  obtain ⟨s, s', hs, hs', rfl⟩ := mutateCtr_ok h
  exact hL.put (hf s s' hs' (hL _ s (view_eq_some.2 hs)))

theorem Ctr.process_listed {i : Ctr.Instruction} (h : Ctr.process L signers i = .ok L')
    (hL : Everywhere TopicsListed (L.view ClaimTopicsState)) :
    Everywhere TopicsListed (L'.view ClaimTopicsState) := by
  cases i with
  | initializeCtr owner ctrState tokenMint =>
      obtain ⟨-, -, hinit⟩ := bind_eq_ok.1 h
      exact hL.initRecord hinit .nil
  | addClaimTopic owner ctrState topicId =>
      refine mutateCtr_listed h (fun s s' hs hlisted ↦ ?_) hL
      simp only [bind_eq_ok, require_eq_ok, exists_const, Except.ok.injEq] at hs
      obtain ⟨hnew, hroom, rfl⟩ := hs
      exact hlisted.add hroom hnew
  | removeClaimTopic owner ctrState topicId =>
      refine mutateCtr_listed h (fun s s' hs hlisted ↦ ?_) hL
      simp only [bind_eq_ok, require_eq_ok, exists_const, Except.ok.injEq] at hs
      obtain ⟨-, rfl⟩ := hs
      exact hlisted.remove
  | transferOwnership owner ctrState newOwner =>
      refine mutateCtr_listed h (fun s s' hs hlisted ↦ ?_) hL
      simp only [bind_eq_ok, require_eq_ok, exists_const, Except.ok.injEq] at hs
      obtain ⟨-, rfl⟩ := hs
      exact hlisted

theorem Tir.process_listed {i : Tir.Instruction} (h : Tir.process L signers i = .ok L')
    (hL : Everywhere EntryListed (L.view IssuerEntry)) :
    Everywhere EntryListed (L'.view IssuerEntry) := by
  cases i with
  | initializeTir owner tirState tokenMint =>
      obtain ⟨-, -, hinit⟩ := bind_eq_ok.1 h
      have hframe : Frame [.trustedIssuersState] L L' := .initRecord hinit (by decide)
      exact hL.of_frame hframe (by decide)
  | addTrustedIssuer owner tirState issuerEntry issuerFid topics label =>
      obtain ⟨_, -, htopics, hlabel, -, -, hentries, -⟩ := addTrustedIssuer_ok h
      rw [hentries]
      refine hL.update fun e he ↦ ?_
      obtain rfl := Option.some.inj he
      exact ⟨htopics, hlabel⟩
  | updateIssuerTopics owner tirState issuerEntry newTopics =>
      obtain ⟨entry, entry', hentry, hf, rfl⟩ := mutateIssuerEntry_ok h
      simp only [bind_eq_ok, validateTopics_eq_ok, exists_const, Except.ok.injEq] at hf
      obtain ⟨htopics, rfl⟩ := hf
      exact hL.put ⟨htopics, (hL _ entry (view_eq_some.2 hentry)).2⟩
  | deactivateIssuer owner tirState issuerEntry =>
      obtain ⟨entry, entry', hentry, hf, rfl⟩ := mutateIssuerEntry_ok h
      obtain rfl := Except.ok.inj hf
      exact hL.put (hL _ entry (view_eq_some.2 hentry))
  | reactivateIssuer owner tirState issuerEntry =>
      obtain ⟨entry, entry', hentry, hf, rfl⟩ := mutateIssuerEntry_ok h
      obtain rfl := Except.ok.inj hf
      exact hL.put (hL _ entry (view_eq_some.2 hentry))
  | removeTrustedIssuer owner tirState issuerEntry =>
      obtain ⟨_, _, -, -, -, -, hentries, -⟩ := removeTrustedIssuer_ok h
      rw [hentries]
      refine hL.update fun _ hnone ↦ ?_
      cases hnone
  | transferOwnership owner tirState newOwner =>
      obtain ⟨state, hstate, rfl⟩ := transferOwnership_ok h
      exact hL.put_other (by decide)

end Steps

/-! ## Histories -/

/-- All lists are within their limits, and the roster of issuers is sound. -/
structure ListsKept (L : Ledger) : Prop where
  modules : Everywhere ModulesListed (L.view ComplianceState)
  registries : Everywhere RegistriesListed (L.view IdentityRegistryStorageState)
  agents : Everywhere AgentsListed (L.view IdentityRegistryState)
  topics : Everywhere TopicsListed (L.view ClaimTopicsState)
  entries : Everywhere EntryListed (L.view IssuerEntry)
  sound : (Tir.roster L).Sound

/-- None of the records with a list has been created yet. -/
structure NoLists (L : Ledger) : Prop where
  compliance : ∀ k, L.view ComplianceState k = none
  storages : ∀ k, L.view IdentityRegistryStorageState k = none
  registries : ∀ k, L.view IdentityRegistryState k = none
  topics : ∀ k, L.view ClaimTopicsState k = none
  issuers : ∀ k, L.view TrustedIssuersState k = none
  entries : ∀ k, L.view IssuerEntry k = none

section Histories

variable {L L' : Ledger} {signers : List Pubkey}

theorem NoLists.kept (h : NoLists L) : ListsKept L where
  modules := everywhere_of_none h.compliance
  registries := everywhere_of_none h.storages
  agents := everywhere_of_none h.registries
  topics := everywhere_of_none h.topics
  entries := everywhere_of_none h.entries
  sound :=
    { opened := fun hm ↦ by simp [Tir.roster, h.entries] at hm
      counted := fun hn ↦ by simp [Tir.roster, h.issuers] at hn }

/-- The tables that a change does not touch keep what they say. -/
theorem ListsKept.of_frame {S : List AccountKind} (h : ListsKept L) (hframe : Frame S L L')
    (hmodules : AccountKind.complianceState ∉ S ∨
      Everywhere ModulesListed (L'.view ComplianceState))
    (hregistries : AccountKind.identityRegistryStorageState ∉ S ∨
      Everywhere RegistriesListed (L'.view IdentityRegistryStorageState))
    (hagents : AccountKind.identityRegistryState ∉ S ∨
      Everywhere AgentsListed (L'.view IdentityRegistryState))
    (htopics : AccountKind.claimTopicsState ∉ S ∨
      Everywhere TopicsListed (L'.view ClaimTopicsState))
    (hissuers : AccountKind.trustedIssuersState ∉ S ∧ AccountKind.issuerEntry ∉ S ∨
      Everywhere EntryListed (L'.view IssuerEntry) ∧ (Tir.roster L').Sound) : ListsKept L' where
  modules := hmodules.elim (h.modules.of_frame hframe) id
  registries := hregistries.elim (h.registries.of_frame hframe) id
  agents := hagents.elim (h.agents.of_frame hframe) id
  topics := htopics.elim (h.topics.of_frame hframe) id
  entries := hissuers.elim (fun hS ↦ h.entries.of_frame hframe hS.2) And.left
  sound := by
    rcases hissuers with ⟨hstates, hentries⟩ | ⟨-, hsound⟩
    · rw [Tir.roster_congr (hframe.table_eq hstates) (hframe.table_eq hentries)]
      exact h.sound
    · exact hsound

/-- A recovery calls the identity storage, which keeps its lists. -/
theorem finalizeCalls_listed [Borsh] {operator : Token.OperatorAccounts}
    {accts : Token.FinalizeAccounts} {lost : WalletIdentity} {L₁ L₂ : Ledger}
    (h : Token.FinalizeCalls L L' signers operator accts lost L₁ L₂)
    (hL : Everywhere RegistriesListed (L.view IdentityRegistryStorageState)) :
    Everywhere RegistriesListed (L'.view IdentityRegistryStorageState) := by
  have h₁ := Irs.process_listed (i := .updateIdentity _ _) h.identity hL
  have h₂ := Irs.process_listed (i := .updateCountry _ _) h.country h₁
  exact Irs.process_listed (i := .removeIdentity _) h.removed h₂

theorem process_registriesListed [Borsh] {i : Instruction} (h : process L signers i = .ok L')
    (hL : Everywhere RegistriesListed (L.view IdentityRegistryStorageState)) :
    Everywhere RegistriesListed (L'.view IdentityRegistryStorageState) := by
  by_cases hi : i.Finalizes
  · obtain ⟨operator, accts, lostWallet, newWallet, amount, hcore⟩ := hi
    have hrun := process_core h
    rw [hcore] at hrun
    obtain ⟨_, lost, L₁, L₂, -, -, -, -, -, -, -, hcalls⟩ := Token.finalizeRecovery_ok hrun
    exact finalizeCalls_listed hcalls hL
  · exact hL.of_frame (frame_core_of_not_finalizes hi h) (by decide)

theorem process_modulesListed [Borsh] {i : Instruction} (h : process L signers i = .ok L')
    (hL : Everywhere ModulesListed (L.view ComplianceState)) :
    Everywhere ModulesListed (L'.view ComplianceState) := by
  by_cases hi : ∃ j, i.core = .compliance j
  · obtain ⟨j, hj⟩ := hi
    have hcore := process_core h
    rw [hj] at hcore
    exact ComplianceInstruction.listed hcore hL
  · exact hL.of_frame (process_frame h) (i.kinds_of_not_compliance fun j hj ↦ hi ⟨j, hj⟩)

theorem ListsKept.step [Borsh] {l : Suite.Label} (h : ListsKept L) (hstep : Suite.Step L l L') :
    ListsKept L' := by
  cases hstep with
  | instruction signers i hexternal hprocess =>
      cases i with
      | platform i =>
          cases i with
          | core i =>
              exact h.of_frame (frame_core hprocess)
                (.inr (process_modulesListed hprocess h.modules))
                (.inr (process_registriesListed hprocess h.registries)) (.inl (by decide))
                (.inl (by decide)) (.inl (by decide))
          | fid i =>
              exact h.of_frame (Fid.frame hprocess) (.inl (by decide)) (.inl (by decide))
                (.inl (by decide)) (.inl (by decide)) (.inl (by decide))
          | irs i =>
              exact h.of_frame (Irs.frame hprocess) (.inl (by decide))
                (.inr (Irs.process_listed hprocess h.registries)) (.inl (by decide))
                (.inl (by decide)) (.inl (by decide))
          | irp i =>
              exact h.of_frame (Irp.frame hprocess) (.inl (by decide)) (.inl (by decide))
                (.inr (Irp.process_listed hprocess h.agents)) (.inl (by decide))
                (.inl (by decide))
      | tir i =>
          exact h.of_frame (Tir.frame hprocess) (.inl (by decide)) (.inl (by decide))
            (.inl (by decide)) (.inl (by decide))
            (.inr ⟨Tir.process_listed hprocess h.entries, Tir.process_sound hprocess h.sound⟩)
      | ctr i =>
          exact h.of_frame (Ctr.frame hprocess) (.inl (by decide)) (.inl (by decide))
            (.inl (by decide)) (.inr (Ctr.process_listed hprocess h.topics)) (.inl (by decide))
      | factory i =>
          exact h.of_frame (Factory.frame hprocess) (.inl (by decide)) (.inl (by decide))
            (.inl (by decide)) (.inl (by decide)) (.inl (by decide))
  | environment hframe =>
      exact h.of_frame hframe (.inl (by decide)) (.inl (by decide)) (.inl (by decide))
        (.inl (by decide)) (.inl (by decide))

/-- The encoding of a record fits its account. -/
def Fits {α : Type} [Allocated α] (a : α) : Prop := Allocated.size a ≤ Allocated.space α

/-- Every record with a list fits its account, the lists are free of repetitions,
and the counters of the registries of issuers are right. -/
structure SpaceSufficient (L : Ledger) : Prop where
  compliance : ∀ k (s : ComplianceState), L.view ComplianceState k = some s →
    Fits s ∧ s.modules.Nodup
  storages : ∀ k (s : IdentityRegistryStorageState),
    L.view IdentityRegistryStorageState k = some s → Fits s ∧ s.boundRegistries.Nodup
  registries : ∀ k (s : IdentityRegistryState), L.view IdentityRegistryState k = some s →
    Fits s ∧ s.identityAgents.Nodup
  topics : ∀ k (s : ClaimTopicsState), L.view ClaimTopicsState k = some s →
    Fits s ∧ s.topics.Nodup
  entries : ∀ k (e : IssuerEntry), L.view IssuerEntry k = some e →
    Fits e ∧ e.allowedTopics.Nodup
  issuers : ∀ k (s : TrustedIssuersState), L.view TrustedIssuersState k = some s →
    Fits s ∧ (Tir.issuerEntries L k).Finite ∧ s.issuerCount = (Tir.issuerEntries L k).ncard

theorem keysSize_le {limit : ℕ} {keys : List Pubkey} (h : Listed limit keys) :
    keysSize keys ≤ 4 + 32 * limit :=
  h.vecSize_le fun _ _ ↦ rfl

theorem topicsSize_le {limit : ℕ} {topics : List ℕ} (h : Listed limit topics) :
    topicsSize topics ≤ 4 + 8 * limit :=
  h.vecSize_le fun _ _ ↦ rfl

theorem fits_compliance {s : ComplianceState} (h : Listed Compliance.maxModules s.modules) :
    Fits s := by
  have hsize := keysSize_le h
  simp only [Fits, Allocated.size, Allocated.space, discriminatorSize, keySize, byteSize,
    Compliance.complianceSpace, Compliance.maxModules] at hsize ⊢
  omega

theorem fits_storage {s : IdentityRegistryStorageState}
    (h : Listed Irs.maxBoundRegistries s.boundRegistries) : Fits s := by
  have hsize := keysSize_le h
  simp only [Fits, Allocated.size, Allocated.space, discriminatorSize, keySize, byteSize, u64Size,
    Irs.irsSpace, Irs.maxBoundRegistries] at hsize ⊢
  omega

theorem fits_registry {s : IdentityRegistryState}
    (h : Listed Irp.maxIdentityAgents s.identityAgents) : Fits s := by
  have hsize := keysSize_le h
  simp only [Fits, Allocated.size, Allocated.space, discriminatorSize, keySize, byteSize, u64Size,
    Irp.irpSpace, Irp.maxIdentityAgents] at hsize ⊢
  omega

theorem fits_topics {s : ClaimTopicsState} (h : Listed Ctr.maxTopics s.topics) : Fits s := by
  have hsize := topicsSize_le h
  simp only [Fits, Allocated.size, Allocated.space, discriminatorSize, keySize, byteSize,
    Ctr.ctrSpace, Ctr.maxTopics] at hsize ⊢
  omega

theorem fits_entry {e : IssuerEntry} (h : Listed Tir.maxTopicsPerIssuer e.allowedTopics)
    (hlabel : e.label.utf8ByteSize ≤ Tir.maxLabelLength) : Fits e := by
  have hsize := topicsSize_le h
  simp only [Fits, Allocated.size, Allocated.space, discriminatorSize, keySize, byteSize,
    stringSize, Tir.issuerEntrySpace, Tir.maxTopicsPerIssuer, Tir.maxLabelLength] at hsize hlabel ⊢
  omega

theorem ListsKept.sufficient (h : ListsKept L) : SpaceSufficient L where
  compliance k s hs := ⟨fits_compliance (h.modules k s hs), (h.modules k s hs).nodup⟩
  storages k s hs := ⟨fits_storage (h.registries k s hs), (h.registries k s hs).nodup⟩
  registries k s hs := ⟨fits_registry (h.agents k s hs), (h.agents k s hs).nodup⟩
  topics k s hs := ⟨fits_topics (h.topics k s hs), (h.topics k s hs).nodup⟩
  entries k e he := by
    obtain ⟨hlisted, hlabel⟩ := h.entries k e he
    exact ⟨fits_entry hlisted hlabel, hlisted.nodup⟩
  issuers k s hs := by
    have hcount : (Tir.roster L).count k = some s.issuerCount := by simp [Tir.roster, hs]
    obtain ⟨hfinite, hcard⟩ := h.sound.counted hcount
    rw [Tir.members_roster] at hfinite hcard
    exact ⟨le_refl _, hfinite, hcard.symm⟩

/-- In every history of the suite from its beginning the accounts have room for
their lists. -/
theorem space_sufficient [Borsh] {labels : List Suite.Label} (hstart : NoLists L)
    (hrun : Run Suite.Step L labels L') : SpaceSufficient L' := by
  have hkept : ListsKept L' := hrun.invariant (fun _ _ _ h hstep ↦ h.step hstep) hstart.kept
  exact hkept.sufficient

/-- A registry of topics and a compliance state get their first entries. -/
def firstEntries : List Suite.Label :=
  [.instruction [.address 1] (.ctr (.initializeCtr (.address 1) (Ctr.ctrAddress (.address 0))
      (.address 0))),
    .instruction [.address 1] (.ctr (.addClaimTopic (.address 1) (Ctr.ctrAddress (.address 0)) 4)),
    .instruction [.address 1] (.platform (.core (.compliance (.initializeCompliance (.address 1)
      (Compliance.complianceAddress (.address 0)) (.address 0))))),
    .instruction [.address 1] (.platform (.core (.compliance (.bindModule (.address 1)
      (Compliance.complianceAddress (.address 0)) (.address 2)))))]

theorem emptyLedger_noLists : NoLists (Ledger.ofRecords []) where
  compliance _ := rfl
  storages _ := rfl
  registries _ := rfl
  topics _ := rfl
  issuers _ := rfl
  entries _ := rfl

theorem firstEntries_sufficient : ∃ L', Run (@Suite.Step strictBorsh) (Ledger.ofRecords [])
    firstEntries L' ∧ SpaceSufficient L' := by
  have hrun : ∃ L', Run (@Suite.Step strictBorsh) (Ledger.ofRecords []) firstEntries L' := by
    have hexternal : ∀ k ∈ [Pubkey.address 1], k.External := by
      simpa using Pubkey.external_address 1
    exact ⟨_, .cons (@Suite.Step.instruction strictBorsh _ _ _ _ hexternal rfl)
      (.cons (@Suite.Step.instruction strictBorsh _ _ _ _ hexternal rfl)
        (.cons (@Suite.Step.instruction strictBorsh _ _ _ _ hexternal rfl)
          (.cons (@Suite.Step.instruction strictBorsh _ _ _ _ hexternal rfl) (.nil _))))⟩
  obtain ⟨L', hrun⟩ := hrun
  exact ⟨L', hrun, @space_sufficient _ _ strictBorsh _ emptyLedger_noLists hrun⟩

end Histories

end Fracks
