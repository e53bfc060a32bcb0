import Fracks.MetaResolution
import Fracks.Suite

/-!
# Keeping the stored list complete

A complete list stays complete as long as every refresh passes all the bound
modules and no bound account turns into a module that the router calls only
after the list was stored.  Nobody but the programs guards the first condition:
anyone may refresh the list of any mint.
-/

namespace Fracks.TokenHook

open Checked AccountType Ledger Token Compliance Runs

variable {L L' L'' L₁ : Ledger} {k mint : Pubkey} {S : List AccountKind} {modules : List Pubkey}
  {signers : List Pubkey} {name : ProgramName} {a : TransferApproval}

/-! ## Modules that the router calls -/

theorem kind_of_isModule (h : IsModule L k) : (L.accounts k).kind = (L.accounts k).data.kind := by
  rw [Account.kind, if_pos (isModule_owner h).2]

/-- A module that the router calls stays one under the same program. -/
theorem routedBy_kept (h : ModulesKept L L') (hheld : HeldByProgram L k)
    (hname : routedBy L k = some name) : routedBy L' k = some name ∧ HeldByProgram L' k := by
  have hmodule := isModule_of_routed hheld hname
  have hmodule' := h.isModule hmodule
  have hkind := h k hmodule
  rw [kind_of_isModule hmodule, kind_of_isModule hmodule'] at hkind
  refine ⟨?_, heldByProgram_of_isModule hmodule'⟩
  rw [routedBy, hkind]
  exact hname

/-- Changes to accounts of other kinds, none of them foreign, leave every answer
as it was. -/
theorem routedBy_frame (h : Frame S L L') (hmodules : ∀ K ∈ moduleKinds, K ∉ S)
    (hforeign : AccountKind.foreign ∉ S) :
    routedBy L' k = routedBy L k ∧ (HeldByProgram L k → HeldByProgram L' k) := by
  -- an account that changes is no module before and after
  have hnone : ∀ acc : Account, acc = .vacant ∨ acc.kind ∈ S → routedKind acc.data.kind = none := by
    intro acc hacc
    rcases hacc with rfl | hkind
    · rfl
    · cases hname : routedKind acc.data.kind with
      | none => rfl
      | some name =>
          rw [Account.kind] at hkind
          split at hkind
          case isTrue => exact absurd hkind (hmodules _ (routedKind_eq_some hname).1)
          case isFalse => exact absurd hkind hforeign
  by_cases hsame : L'.accounts k = L.accounts k
  · simp only [routedBy, HeldByProgram, hsame]
    exact ⟨trivial, id⟩
  · obtain ⟨hbefore, hafter⟩ := h k hsame
    have hafter' : routedBy L' k = none := hnone _ hafter
    refine ⟨hafter'.trans (hnone _ hbefore).symm, fun _ name hname ↦ ?_⟩
    exact absurd (hafter'.symm.trans hname) (by simp)

/-- A change of counters leaves every answer as it was. -/
theorem routedBy_change {P : Pubkey → Pubkey → Prop} (h : CounterChange P L L') :
    routedBy L' k = routedBy L k ∧ (HeldByProgram L k → HeldByProgram L' k) := by
  by_cases hsame : L'.accounts k = L.accounts k
  · simp only [routedBy, HeldByProgram, hsame]
    exact ⟨trivial, id⟩
  · obtain ⟨M, hM, -⟩ := h.changes k hsame
    have hcounter := CounterChange.counterModule_kind hM
    have hkind := (h.same k).kind
    have hdata : ∀ acc : Account, acc.kind ∈ counterKinds →
        acc.kind = acc.data.kind ∧ acc.owner = .program acc.data.kind.program := by
      intro acc hacc
      unfold Account.kind at hacc ⊢
      split at hacc
      case isTrue howner => exact ⟨if_pos howner, howner⟩
      case isFalse => simp [counterKinds] at hacc
    obtain ⟨hbefore, -⟩ := hdata _ hcounter
    obtain ⟨hafter, howner⟩ := hdata _ (hkind.symm ▸ hcounter)
    have hrouted : routedBy L' k = routedBy L k := by
      rw [routedBy, routedBy, ← hafter, ← hbefore, hkind]
    refine ⟨hrouted, fun _ name hname ↦ ?_⟩
    rw [howner, (routedKind_eq_some hname).2]

theorem moduleEntries_congr {place index : ℕ} (h : routedBy L' k = routedBy L k) :
    moduleEntries L' place index k = moduleEntries L place index k := by
  rw [moduleEntries, moduleEntries, h]

theorem listEntries_congr {place index : ℕ} (h : ∀ k ∈ modules, routedBy L' k = routedBy L k) :
    listEntries L' place index modules = listEntries L place index modules := by
  induction modules generalizing place index with
  | nil => rfl
  | cons k rest ih =>
      obtain ⟨hk, hrest⟩ := List.forall_mem_cons.1 h
      have hcount : metaCount L' k = metaCount L k := by rw [metaCount, metaCount, hk]
      rw [listEntries, listEntries, moduleEntries_congr hk, hcount, ih hrest]

theorem supportAccounts_eq :
    supportAccounts L a k =
      match routedBy L k with
      | some .modMaxInvestors => [.program .modMaxInvestors]
      | some .modDailyLimit =>
          [.program .modDailyLimit,
            ModDailyLimit.usageAddress k a.sourceWallet (.program .modDailyLimit)]
      | some .modCountryCap =>
          [.program .modCountryCap,
            ModCountryCap.countAddress k a.fromCountry (.program .modCountryCap),
            ModCountryCap.countAddress k a.toCountry (.program .modCountryCap)]
      | _ => [] := by
  unfold supportAccounts routedBy
  generalize (L.accounts k).data = data
  cases data <;> rfl

theorem supportAccounts_congr (h : routedBy L' k = routedBy L k) :
    supportAccounts L' a k = supportAccounts L a k := by
  rw [supportAccounts_eq, supportAccounts_eq, h]

theorem moduleAccounts_congr (h : ∀ k ∈ modules, routedBy L' k = routedBy L k) :
    moduleAccounts L' a modules = moduleAccounts L a modules :=
  List.flatMap_congr fun k hk ↦ by rw [supportAccounts_congr (h k hk)]

/-! ## What the router needs -/

/-- A search that can only succeed at one address, which is in the first list,
does not depend on what follows. -/
theorem find?_append_of_unique {α : Type} {p : α → Bool} {l rest : List α} {x : α}
    (hunique : ∀ y, p y = true → y = x) (hx : x ∈ l) : (l ++ rest).find? p = l.find? p := by
  rw [List.find?_append]
  cases hfind : l.find? p with
  | some y => rfl
  | none =>
      rw [Option.none_or, List.find?_eq_none]
      intro y _ hy
      obtain rfl := hunique y hy
      exact List.find?_eq_none.1 hfind y hx hy

theorem findDailyUsageAccount_append {program wallet : Pubkey} {accounts rest : List Pubkey}
    (h : ModDailyLimit.usageAddress k wallet program ∈ accounts) :
    findDailyUsageAccount L (accounts ++ rest) k program wallet =
      findDailyUsageAccount L accounts k program wallet := by
  unfold findDailyUsageAccount
  rw [find?_append_of_unique (fun y hy ↦ ?_) h]
  unfold dailyUsageAt at hy
  split at hy
  · split at hy
    · split at hy
      case isTrue hkey => exact hkey.1
      case isFalse => exact nomatch hy
    · exact nomatch hy
  · exact nomatch hy

theorem findCountryCountAccount_append {program : Pubkey} {country : ℕ}
    {accounts rest : List Pubkey} (h : ModCountryCap.countAddress k country program ∈ accounts) :
    findCountryCountAccount L (accounts ++ rest) k program country =
      findCountryCountAccount L accounts k program country := by
  unfold findCountryCountAccount
  rw [find?_append_of_unique (fun y hy ↦ ?_) h]
  unfold countryCountAt at hy
  split at hy
  · split at hy
    · split at hy
      case isTrue hkey => exact hkey.1
      case isFalse => exact nomatch hy
    · exact nomatch hy
  · exact nomatch hy

section Router

variable {C : Pubkey} {accounts rest : List Pubkey} {amount fromAfter toAfter : ℕ}

theorem prepareCall_append {authority program : Pubkey} (h : program ∈ accounts) :
    prepareCall C authority program (accounts ++ rest) =
      prepareCall C authority program accounts := by
  simp only [prepareCall, List.mem_append, h, true_or]

/-- With a module and its support accounts at hand the router needs no other
account for it. -/
theorem moduleTransferred_append (hheld : HeldByProgram L k)
    (hin : ∀ x ∈ k :: supportAccounts L a k, x ∈ accounts) :
    moduleTransferred C (accounts ++ rest) a.sourceWallet amount fromAfter toAfter a.fromCountry
        a.toCountry L k =
      moduleTransferred C accounts a.sourceWallet amount fromAfter toAfter a.fromCountry
        a.toCountry L k := by
  obtain ⟨hk, hsupport⟩ := List.forall_mem_cons.1 hin
  have hkey : k ∈ accounts ++ rest ↔ k ∈ accounts := by simp [hk]
  unfold moduleTransferred
  rw [supportAccounts] at hsupport
  simp only [hkey]
  unfold HeldByProgram routedBy at hheld
  split
  case h_1 m hm =>
      rw [hm] at hsupport hheld
      rw [hheld _ rfl]
      have hprogram : Pubkey.program .modMaxInvestors ∈ accounts := hsupport _ (by simp)
      simp only [prepareCall_append hprogram]
  case h_2 m hm =>
      rw [hm] at hsupport hheld
      rw [hheld _ rfl]
      have hprogram : Pubkey.program .modDailyLimit ∈ accounts := hsupport _ (by simp)
      have husage : ModDailyLimit.usageAddress k a.sourceWallet (.program .modDailyLimit) ∈
          accounts := hsupport _ (by simp)
      simp only [prepareCall_append hprogram, findDailyUsageAccount_append husage]
  case h_3 m hm =>
      rw [hm] at hsupport hheld
      rw [hheld _ rfl]
      have hprogram : Pubkey.program .modCountryCap ∈ accounts := hsupport _ (by simp)
      have hfrom : ModCountryCap.countAddress k a.fromCountry (.program .modCountryCap) ∈
          accounts := hsupport _ (by simp)
      have hto : ModCountryCap.countAddress k a.toCountry (.program .modCountryCap) ∈
          accounts := hsupport _ (by simp)
      simp only [prepareCall_append hprogram, findCountryCountAccount_append hfrom,
        findCountryCountAccount_append hto]
  case h_4 => rfl

/-- With all bound modules and their support accounts at hand the router needs no
other account. -/
theorem foldlM_transferred_append (hheld : ∀ k ∈ modules, HeldByProgram L k)
    (hin : ∀ k ∈ modules, ∀ x ∈ k :: supportAccounts L a k, x ∈ accounts) :
    modules.foldlM (moduleTransferred C (accounts ++ rest) a.sourceWallet amount fromAfter toAfter
        a.fromCountry a.toCountry) L =
      modules.foldlM (moduleTransferred C accounts a.sourceWallet amount fromAfter toAfter
        a.fromCountry a.toCountry) L := by
  induction modules generalizing L with
  | nil => rfl
  | cons k ks ih =>
      obtain ⟨hk, hks⟩ := List.forall_mem_cons.1 hheld
      obtain ⟨hkin, hksin⟩ := List.forall_mem_cons.1 hin
      rw [List.foldlM_cons, List.foldlM_cons, moduleTransferred_append hk hkin]
      cases hcall : moduleTransferred C accounts a.sourceWallet amount fromAfter toAfter
          a.fromCountry a.toCountry L k with
      | error e => rfl
      | ok L₁ =>
          have hchange := (moduleTransferred_iteration hcall).change
          refine ih (fun k' hk' ↦ (routedBy_change hchange).2 (hks k' hk')) fun k' hk' ↦ ?_
          rw [supportAccounts_congr (routedBy_change hchange).1]
          exact hksin k' hk'

end Router

/-! ## The stored list over a step -/

/-- The list of the mint has the entries of all the given modules. -/
structure ListComplete (mint : Pubkey) (modules : List Pubkey) (L : Ledger) : Prop where
  stored : L.accounts (extraAccountMetasAddress mint hookProgram) =
    account (⟨baseMetas ++ listEntries L 10 0 modules⟩ : ExtraAccountMetaList)
  few : modules.length ≤ 6
  held : ∀ k ∈ modules, HeldByProgram L k

/-- A refresh of the list of `mint` passes all the given modules. -/
def RefreshesAll (mint : Pubkey) (modules : List Pubkey) : Instruction → Prop
  | .hook (.refreshExtraAccountMetas accts) =>
      accts.tokenMintAccount = mint → accts.remaining = modules
  | _ => True

/-- A list stays complete while it stands and every module is called by the same
program. -/
theorem ListComplete.congr (h : ListComplete mint modules L)
    (hstored : L'.accounts (extraAccountMetasAddress mint hookProgram) =
      account (⟨baseMetas ++ listEntries L 10 0 modules⟩ : ExtraAccountMetaList))
    (hsame : ∀ k ∈ modules, routedBy L' k = routedBy L k ∧ HeldByProgram L' k) :
    ListComplete mint modules L' := by
  refine ⟨?_, h.few, fun k hk ↦ (hsame k hk).2⟩
  rw [hstored, listEntries_congr fun k hk ↦ (hsame k hk).1]

@[simp] theorem extraAccountMetasAddress_inj {mint' : Pubkey} :
    extraAccountMetasAddress mint' hookProgram = extraAccountMetasAddress mint hookProgram ↔
      mint' = mint := by
  simp [extraAccountMetasAddress, Pubkey.findProgramAddress, Pubkey.addSeed, hookProgram]

/-- Either instruction leaves the list of its mint complete when it is given all
the modules. -/
theorem listComplete_of_stored {accts : MetasAccounts}
    (h : initializeExtraAccountMetas L signers accts = .ok L' ∨
      refreshExtraAccountMetas L signers accts = .ok L') :
    ListComplete accts.tokenMintAccount accts.remaining L' := by
  have hframe : Frame [.extraAccountMetas] L L' :=
    h.elim frame_initializeExtraAccountMetas frame_refreshExtraAccountMetas
  have hsame := fun k ↦ routedBy_frame (k := k) hframe (by decide) (by decide)
  obtain ⟨state, list, haddress, hlist, hstored⟩ : ∃ state list,
      accts.extraAccountMetas = extraAccountMetasAddress accts.tokenMintAccount hookProgram ∧
        buildMetas L state accts.remaining = .ok list ∧
          L'.accounts accts.extraAccountMetas = account list := by
    rcases h with h | h
    · obtain ⟨ts, state, list, L₁, hready, -, -, hlist, rfl⟩ :=
        initializeExtraAccountMetas_eq_ok.1 h
      exact ⟨state, list, hready.address, hlist, put_accounts_self list⟩
    · obtain ⟨ts, state, list, hready, -, hlist, rfl⟩ := refreshExtraAccountMetas_eq_ok.1 h
      exact ⟨state, list, hready.address, hlist, put_accounts_self list⟩
  obtain ⟨hfew, hheld, rfl⟩ := buildMetas_ok hlist
  refine ⟨?_, hfew, fun k hk ↦ (hsame k).2 (hheld k hk)⟩
  rw [← haddress, hstored, listEntries_congr fun k _ ↦ (hsame k).1]

section Process

variable [Borsh] {i : Instruction}

/-- Only a refresh of its own mint replaces a stored list. -/
theorem process_list {list : ExtraAccountMetaList} (h : process L signers i = .ok L')
    (hlist : L.accounts (extraAccountMetasAddress mint hookProgram) = account list) :
    L'.accounts (extraAccountMetasAddress mint hookProgram) = account list ∨
      ∃ accts, i.core = .hook (.refreshExtraAccountMetas accts) ∧ accts.tokenMintAccount = mint ∧
        refreshExtraAccountMetas L signers accts = .ok L' := by
  induction i with
  | token j =>
      exact .inl ((TokenInstruction.frame h).accounts_eq (by
        cases j <;> simp [TokenInstruction.kinds, hookKinds, Irs.identityKinds, kind]) hlist)
  | hook j =>
      cases j with
      | initializeExtraAccountMetas accts =>
          obtain ⟨ts, state, new, L₁, hready, -, hcreate, -, rfl⟩ :=
            initializeExtraAccountMetas_eq_ok.1 h
          obtain ⟨hvacant, hother, -⟩ := createAccount_ok hcreate
          have hne : extraAccountMetasAddress mint hookProgram ≠ accts.extraAccountMetas := by
            intro heq
            rw [heq] at hlist
            exact account_ne_vacant list (hlist.symm.trans hvacant)
          left
          rw [put_accounts_of_ne new hne, hother _ hne]
          exact hlist
      | refreshExtraAccountMetas accts =>
          obtain ⟨ts, state, new, hready, -, -, hput⟩ := refreshExtraAccountMetas_eq_ok.1 h
          by_cases hmint : accts.tokenMintAccount = mint
          · exact .inr ⟨accts, rfl, hmint, h⟩
          · left
            have hne : extraAccountMetasAddress mint hookProgram ≠ accts.extraAccountMetas := by
              rw [hready.address]
              exact fun heq ↦ hmint (extraAccountMetasAddress_inj.1 heq.symm)
            rw [hput, put_accounts_of_ne new hne]
            exact hlist
      | approveTransfer =>
          exact .inl ((HookInstruction.frame h).accounts_eq
            (by simp [HookInstruction.kinds, kind]) hlist)
      | executeTransferHook =>
          exact .inl ((HookInstruction.frame h).accounts_eq
            (by simp [HookInstruction.kinds, hookKinds, kind]) hlist)
  | compliance j =>
      exact .inl ((ComplianceInstruction.frame h).accounts_eq (by
        cases j <;> simp [ComplianceInstruction.kinds, PostHook.kinds, kind]) hlist)
  | module j =>
      exact .inl ((ModuleInstruction.frame h).accounts_eq (by
        cases j <;> simp [ModuleInstruction.kinds, kind]) hlist)
  | token2022 j => exact .inl ((Token2022.process_frame h).accounts_eq (by decide) hlist)
  | createTokenMint => exact .inl ((Factory.frame_createTokenMint h).accounts_eq (by decide) hlist)
  | callModuleFunction owner complianceState inner ih =>
      obtain ⟨_, -, hinner⟩ := bind_eq_ok.1 h
      exact ih hinner

/-- The step refreshes the list, if at all, with all the modules, and turns none
of the bound accounts into a module that the router calls. -/
structure Undisturbed (mint : Pubkey) (modules : List Pubkey) (L : Ledger) (l : Suite.Label)
    (L' : Ledger) : Prop where
  refreshes : l.seen.seen.Core (RefreshesAll mint modules)
  routed : ∀ k ∈ modules, routedBy L k = none → routedBy L' k = none

theorem ListComplete.step {l : Suite.Label} (h : ListComplete mint modules L)
    (hstep : Suite.Step L l L') (hok : Undisturbed mint modules L l L') :
    ListComplete mint modules L' := by
  have hcore := hstep.seen.seen
  have hkept := hcore.modulesKept
  -- every bound account is still called by the same program
  have hsame : ∀ k ∈ modules, routedBy L' k = routedBy L k ∧ HeldByProgram L' k := by
    intro k hk
    cases hname : routedBy L k with
    | none =>
        have hnone := hok.routed k hk hname
        exact ⟨hnone, fun name hname' ↦ nomatch hnone.symm.trans hname'⟩
    | some name => exact routedBy_kept hkept (h.held k hk) hname
  have hcomplete := fun hstored ↦ h.congr hstored hsame
  have hrefreshes := hok.refreshes
  generalize l.seen.seen = seen at hcore hrefreshes
  cases hcore with
  | instruction signers i hexternal hprocess =>
      rcases process_list hprocess h.stored with hstored | ⟨accts, hi, rfl, hrefresh⟩
      · exact hcomplete hstored
      · have hall : RefreshesAll accts.tokenMintAccount modules i.core := hrefreshes
        rw [hi] at hall
        obtain rfl := hall rfl
        exact listComplete_of_stored (.inr hrefresh)
  | environment hframe => exact hcomplete (hframe.accounts_eq (by decide) h.stored)

end Process

/-! ## Every run -/

/-- What a transfer has changed when the hook is called. -/
def transferKinds : List AccountKind := [.tokenAccount, .transferApproval, .partialFreeze]

/-- In a transfer of the mint that starts from the ledger, under the given
modules, the stored list resolves to the fixed accounts and, module by module, to
everything that the router needs: no further account would make a difference. -/
def FindsModules (mint : Pubkey) (modules : List Pubkey) (L : Ledger) : Prop :=
  ∀ (L' : Ledger) (source destination authority : Pubkey) (ts : TokenState)
    (state : ComplianceState) (a : TransferApproval), Frame transferKinds L L' →
    HookCallAt L' mint source destination authority ts state a → state.modules = modules →
      ∃ list : ExtraAccountMetaList,
        L'.accounts (extraAccountMetasAddress mint hookProgram) = account list ∧
        resolveMetas L' hookProgram list.metas (callAccounts mint source destination authority) =
          some (fixedAccounts mint source destination authority ts.compliance ++
            moduleAccounts L' a modules) ∧
        ∀ (rest : List Pubkey) (amount fromAfter toAfter : ℕ),
          transferred L' ts.compliance (moduleAccounts L' a modules) a.sourceWallet amount
              fromAfter toAfter a.fromCountry a.toCountry =
            transferred L' ts.compliance (moduleAccounts L' a modules ++ rest) a.sourceWallet amount
              fromAfter toAfter a.fromCountry a.toCountry

theorem ListComplete.finds (h : ListComplete mint modules L) : FindsModules mint modules L := by
  intro L' source destination authority ts state a hframe hcall hmodules
  have hsame := fun k ↦ routedBy_frame (k := k) hframe (by decide) (by decide)
  have hheld : ∀ k ∈ modules, HeldByProgram L' k := fun k hk ↦ (hsame k).2 (h.held k hk)
  have hstored := hframe.accounts_eq (by decide) h.stored
  rw [← listEntries_congr fun k _ ↦ (hsame k).1] at hstored
  refine ⟨_, hstored, ?_, fun rest amount fromAfter toAfter ↦ ?_⟩
  · subst hmodules
    exact resolve_stored hcall (buildMetas_modules.2 ⟨⟨h.few, hheld⟩, rfl⟩)
  · unfold transferred
    cases hread : readCompliance L' ts.compliance with
    | error e => rfl
    | ok state' =>
        have hstate : L'.accounts ts.compliance = account state' := by
          simp only [readCompliance, bind_eq_ok, load_eq_ok, Except.ok.injEq] at hread
          obtain ⟨_, hloaded, -, -, rfl⟩ := hread
          exact hloaded
        obtain rfl := account_inj.1 (hstate.symm.trans hcall.complianceAt)
        refine (foldlM_transferred_append ?_ ?_).symm
        · rw [hmodules]
          exact hheld
        · rw [hmodules]
          intro k hk x hx
          exact List.mem_flatMap.2 ⟨k, hk, hx⟩

/-- Once the list of a mint has been stored with all the bound modules, every
transfer finds what the router needs, in every run in which each refresh of that
list passes them all and no bound account turns into a module that the router
calls. -/
theorem metas_stay_complete [Borsh] {L₀ : Ledger} {accts : MetasAccounts}
    {labels : List Suite.Label}
    (h : initializeExtraAccountMetas L₀ signers accts = .ok L ∨
      refreshExtraAccountMetas L₀ signers accts = .ok L)
    (hrun : Run (restrict Suite.Step (Undisturbed accts.tokenMintAccount accts.remaining)) L labels
      L') : FindsModules accts.tokenMintAccount accts.remaining L' := by
  have hcomplete : ListComplete accts.tokenMintAccount accts.remaining L' :=
    hrun.invariant (fun _ _ _ hL hstep ↦ hL.step hstep.1 hstep.2) (listComplete_of_stored h)
  exact hcomplete.finds

/-- A stranger refreshes the list of the token with an investor cap. -/
def strangerRefresh (remaining : List Pubkey) : Suite.Label :=
  .instruction [.address 99] (.platform (.core (.hook (.refreshExtraAccountMetas
    (deploymentMetasAccounts cappedDeployment (.address 99) remaining)))))

/-- A stranger who passes all the modules does no harm. -/
theorem full_refresh_complete : ∃ L L',
    refreshExtraAccountMetas cappedLedger [cappedDeployment.issuer]
      (deploymentMetasAccounts cappedDeployment cappedDeployment.issuer [investorCap]) = .ok L ∧
    Run (@Suite.Step strictBorsh) L [strangerRefresh [investorCap]] L' ∧
    FindsModules cappedDeployment.tokenMint [investorCap] L' := by
  have hexternal : ∀ k ∈ [Pubkey.address 99], k.External := by
    simpa using Pubkey.external_address 99
  have hstored : ∃ L, refreshExtraAccountMetas cappedLedger [cappedDeployment.issuer]
      (deploymentMetasAccounts cappedDeployment cappedDeployment.issuer [investorCap]) = .ok L ∧
      routedBy L investorCap = some .modMaxInvestors ∧
      ∃ L', @Suite.Step strictBorsh L (strangerRefresh [investorCap]) L' :=
    ⟨_, rfl, rfl, _, @Suite.Step.instruction strictBorsh _ _ _ _ hexternal rfl⟩
  obtain ⟨L, hissuer, hrouted, L', hstep⟩ := hstored
  have hok : Undisturbed cappedDeployment.tokenMint [investorCap] L
      (strangerRefresh [investorCap]) L' := by
    refine ⟨fun _ ↦ rfl, fun k hk hnone ↦ ?_⟩
    obtain rfl := List.mem_singleton.1 hk
    exact nomatch hnone.symm.trans hrouted
  exact ⟨L, L', hissuer, .single hstep,
    @metas_stay_complete _ _ _ strictBorsh cappedLedger _ _ (.inr hissuer) (.single ⟨hstep, hok⟩)⟩

/-- A stranger who passes no modules takes them off the list that the issuer has
stored: the router misses the investor cap in every transfer. -/
theorem stranger_empties_list : ∃ (L L' : Ledger) (list : ExtraAccountMetaList),
    refreshExtraAccountMetas cappedLedger [cappedDeployment.issuer]
      (deploymentMetasAccounts cappedDeployment cappedDeployment.issuer [investorCap]) = .ok L ∧
    Run (@Suite.Step strictBorsh) L [strangerRefresh []] L' ∧
    L'.accounts (extraAccountMetasAddress cappedDeployment.tokenMint hookProgram) = account list ∧
    resolveMetas L' hookProgram list.metas (callAccounts cappedDeployment.tokenMint lostHolding.key
      freshHolding.key cappedDeployment.tokenState) =
        some (fixedAccounts cappedDeployment.tokenMint lostHolding.key freshHolding.key
          cappedDeployment.tokenState cappedDeployment.compliance) ∧
    transferred L' cappedDeployment.compliance [] lostHolding.wallet 3 7 3 276 276 =
      .error (.compliance .missingModuleAccount) := by
  have hexternal : ∀ k ∈ [Pubkey.address 99], k.External := by
    simpa using Pubkey.external_address 99
  exact ⟨_, _, ⟨baseMetas⟩, rfl,
    .single (@Suite.Step.instruction strictBorsh _ _ _ _ hexternal rfl), rfl, rfl, rfl⟩

end Fracks.TokenHook
