import Fracks.HookMetas
import Fracks.ModuleRecords

/-!
# What the stored list resolves to

Each module has a block of entries.  A block resolves to the module and, for the
modules that the router calls in a transfer, to the program of the module and
the usage or count records of the wallet and the countries of the approval.
-/

namespace Fracks.TokenHook

open Checked AccountType Ledger Token

/-- How many entries the frontend expects for a module of a program. -/
def getHookModuleExtraMetaCount (moduleProgramId : Pubkey) : ℕ :=
  if moduleProgramId = .program .modMaxInvestors then 2
  else if moduleProgramId = .program .modDailyLimit then 3
  else if moduleProgramId = .program .modCountryCap then 4
  else 1

section Blocks

variable {L L' : Ledger} {k : Pubkey} {stored : List Pubkey} {place index : ℕ}
  {a : TransferApproval}

/-- The record of a module is held by the program of its kind. -/
theorem isModule_owner (h : IsModule L k) :
    (L.accounts k).data.kind ∈ moduleKinds ∧
      (L.accounts k).owner = .program (L.accounts k).data.kind.program := by
  unfold IsModule Account.kind at h
  split at h
  case isTrue howner => exact ⟨h, howner⟩
  case isFalse => simp [moduleKinds] at h

theorem routedKind_eq_some {K : AccountKind} {name : ProgramName} (h : routedKind K = some name) :
    K ∈ moduleKinds ∧ K.program = name := by
  cases K with
  | maxInvestorsModule | dailyTransferLimitModule | investorCountryCapModule =>
      obtain rfl := Option.some.inj h
      exact ⟨by decide, rfl⟩
  | _ => exact nomatch h

theorem heldByProgram_of_isModule (h : IsModule L k) : HeldByProgram L k := by
  intro name hname
  rw [(isModule_owner h).2, (routedKind_eq_some hname).2]

/-- A module that the router calls and that is held by its program is a module. -/
theorem isModule_of_routed {name : ProgramName} (hheld : HeldByProgram L k)
    (hname : routedBy L k = some name) : IsModule L k := by
  obtain ⟨hkind, hprogram⟩ := routedKind_eq_some hname
  have howner : (L.accounts k).owner = .program (L.accounts k).data.kind.program := by
    rw [hheld name hname, hprogram]
  rw [IsModule, Account.kind, if_pos howner]
  exact hkind

theorem metaCount_of_isModule (h : IsModule L k) :
    metaCount L k = getHookModuleExtraMetaCount (L.accounts k).owner := by
  obtain ⟨hkind, howner⟩ := isModule_owner h
  rw [howner, metaCount, routedBy]
  revert hkind
  generalize (L.accounts k).data = data
  intro hkind
  cases data <;> first | rfl | simp [moduleKinds, AccountData.kind] at hkind

theorem supportAccounts_length (a : TransferApproval) :
    (k :: supportAccounts L a k).length = metaCount L k := by
  unfold supportAccounts metaCount routedBy
  generalize (L.accounts k).data = data
  cases data <;> rfl

theorem listEntries_blocks (L : Ledger) (place index : ℕ) (stored : List Pubkey) :
    ∃ blocks : List (List ExtraAccountMeta), listEntries L place index stored = blocks.flatten ∧
      List.Forall₂ (fun k block ↦ block.length = metaCount L k) stored blocks := by
  induction stored generalizing place index with
  | nil => exact ⟨[], rfl, .nil⟩
  | cons k rest ih =>
      obtain ⟨blocks, hflat, hblocks⟩ := ih (place + metaCount L k) (index + 1)
      refine ⟨moduleEntries L place index k :: blocks, ?_, .cons moduleEntries_length hblocks⟩
      rw [listEntries, hflat, List.flatten_cons]

end Blocks

/-! ## The stored list -/

section Stored

variable {L L' : Ledger} {signers : List Pubkey} {accts : MetasAccounts} {state : ComplianceState}

/-- What either instruction stores. -/
theorem metas_stored (h : initializeExtraAccountMetas L signers accts = .ok L' ∨
      refreshExtraAccountMetas L signers accts = .ok L')
    (hstate : L.accounts accts.complianceState = account state) :
    ∃ list, buildMetas L state accts.remaining = .ok list ∧
      accts.extraAccountMetas = extraAccountMetasAddress accts.tokenMintAccount hookProgram ∧
        L'.accounts accts.extraAccountMetas = account list := by
  rcases h with h | h
  · obtain ⟨ts, state', list, L₁, hready, -, -, hlist, rfl⟩ := initializeExtraAccountMetas_eq_ok.1 h
    rw [hready.compliance] at hstate
    obtain rfl := account_inj.1 (hready.complianceState.symm.trans hstate)
    exact ⟨list, hlist, hready.address, put_accounts_self list⟩
  · obtain ⟨ts, state', list, hready, -, hlist, rfl⟩ := refreshExtraAccountMetas_eq_ok.1 h
    rw [hready.compliance] at hstate
    obtain rfl := account_inj.1 (hready.complianceState.symm.trans hstate)
    exact ⟨list, hlist, hready.address, put_accounts_self list⟩

/-- A list that has been stored for modules of the module programs has a block
for each of them, with as many entries as the frontend counts.  In every later
transfer under the same modules it resolves to the fixed accounts and, module by
module, to the module and the accounts that the router needs for it. -/
theorem stored_metas_resolve (h : initializeExtraAccountMetas L signers accts = .ok L' ∨
      refreshExtraAccountMetas L signers accts = .ok L')
    (hstate : L.accounts accts.complianceState = account state)
    (hmodules : ∀ k ∈ accts.remaining, IsModule L k) :
    ∃ (list : ExtraAccountMetaList) (blocks : List (List ExtraAccountMeta)),
      L'.accounts (extraAccountMetasAddress accts.tokenMintAccount hookProgram) = account list ∧
      list.metas = baseMetas ++ blocks.flatten ∧
      List.Forall₂ (fun k block ↦
        block.length = getHookModuleExtraMetaCount (L.accounts k).owner) accts.remaining blocks ∧
      ∀ (L'' : Ledger) (source destination authority : Pubkey) (ts : TokenState)
        (state'' : ComplianceState) (a : TransferApproval),
        HookCallAt L'' accts.tokenMintAccount source destination authority ts state'' a →
        state''.modules = state.modules →
          resolveMetas L'' hookProgram list.metas
              (callAccounts accts.tokenMintAccount source destination authority) =
            some (fixedAccounts accts.tokenMintAccount source destination authority ts.compliance ++
              accts.remaining.flatMap fun k ↦ k :: supportAccounts L a k) ∧
          List.Forall₂ (fun k block ↦ (k :: supportAccounts L a k).length = block.length)
            accts.remaining blocks := by
  obtain ⟨list, hlist, haddress, hstored⟩ := metas_stored h hstate
  obtain ⟨-, -, rfl⟩ := buildMetas_ok hlist
  obtain ⟨blocks, hflat, hblocks⟩ := listEntries_blocks L 10 0 accts.remaining
  refine ⟨_, blocks, haddress ▸ hstored, by rw [hflat], ?_, ?_⟩
  · refine ((List.forall₂_and_left _ _).2 ⟨hmodules, hblocks⟩).imp fun k block hk ↦ ?_
    rw [hk.2, metaCount_of_isModule hk.1]
  · intro L'' source destination authority ts state'' a hcall hsame
    refine ⟨resolve_stored hcall ?_, hblocks.imp fun k block hblock ↦ ?_⟩
    · rw [buildMetas_congr hsame]
      exact hlist
    · rw [hblock, supportAccounts_length]

end Stored

/-! ## Two deployments -/

theorem capped_metas_resolve :
    (∃ L', refreshExtraAccountMetas cappedLedger [cappedDeployment.issuer]
        (deploymentMetasAccounts cappedDeployment cappedDeployment.issuer [investorCap]) = .ok L') ∧
    ∃ (list : ExtraAccountMetaList) (blocks : List (List ExtraAccountMeta)),
      list.metas = baseMetas ++ blocks.flatten ∧
      List.Forall₂ (fun k block ↦
        block.length = getHookModuleExtraMetaCount (cappedLedger.accounts k).owner)
          [investorCap] blocks ∧
      resolveMetas cappedLedger hookProgram list.metas
          (callAccounts cappedDeployment.tokenMint lostHolding.key freshHolding.key
            cappedDeployment.tokenState) = some cappedResolved := by
  have hrefresh : ∃ L', refreshExtraAccountMetas cappedLedger [cappedDeployment.issuer]
      (deploymentMetasAccounts cappedDeployment cappedDeployment.issuer [investorCap]) = .ok L' :=
    ⟨_, rfl⟩
  refine ⟨hrefresh, ?_⟩
  obtain ⟨L', hstored⟩ := hrefresh
  have hmodules : ∀ k ∈ [investorCap], IsModule cappedLedger k := by
    intro k hk
    obtain rfl := List.mem_singleton.1 hk
    exact .head _
  have hstate : cappedLedger.accounts cappedDeployment.compliance =
      account cappedDeployment.complianceRecord := rfl
  obtain ⟨list, blocks, -, hmetas, hcounts, hresolve⟩ :=
    stored_metas_resolve (.inr hstored) hstate hmodules
  refine ⟨list, blocks, hmetas, hcounts, ?_⟩
  exact (hresolve cappedLedger lostHolding.key freshHolding.key cappedDeployment.tokenState
    cappedDeployment.tokenStateRecord cappedDeployment.complianceRecord forcedApproval
    ⟨rfl, rfl, rfl⟩ rfl).1

/-- A token whose only module limits balances. -/
def balanceLimit : Pubkey :=
  .findProgramAddress .modMaxBalance [.key (.address 0)] (.program .modMaxBalance)

def balanceLimited : Deployment :=
  { cappedDeployment with modules := [balanceLimit], metas := baseMetas }

def balanceLimitedLedger : Ledger :=
  balanceLimited.ledger
    [(balanceLimit, account (⟨.address 1, .address 0, 50⟩ : MaxBalanceModule)),
      (approvalAddress lostHolding.key freshHolding.key balanceLimited.tokenState,
        account forcedApproval)]

/-- The list of this token resolves to the module but not to its program, which
the router does not call in a transfer. -/
theorem balance_program_unresolved :
    IsModule balanceLimitedLedger balanceLimit ∧
    ∃ L' list resolved, refreshExtraAccountMetas balanceLimitedLedger [balanceLimited.issuer]
        (deploymentMetasAccounts balanceLimited balanceLimited.issuer [balanceLimit]) = .ok L' ∧
      L'.accounts (extraAccountMetasAddress balanceLimited.tokenMint hookProgram) =
        account (list : ExtraAccountMetaList) ∧
      resolveMetas L' hookProgram list.metas (callAccounts balanceLimited.tokenMint lostHolding.key
        freshHolding.key balanceLimited.tokenState) = some resolved ∧
      balanceLimit ∈ resolved ∧ (L'.accounts balanceLimit).owner ∉ resolved := by
  refine ⟨by decide, _, ⟨baseMetas ++ [.pubkeyData 8 76 true]⟩,
    fixedAccounts balanceLimited.tokenMint lostHolding.key freshHolding.key
      balanceLimited.tokenState balanceLimited.compliance ++ [balanceLimit], rfl, rfl, rfl, ?_, ?_⟩
  · decide
  · decide

end Fracks.TokenHook
