import Fracks.Identity.Changes
import Fracks.Pending
import Fracks.StrandedBalances

/-!
# Recoveries that wait to be finalized

A recovery moves the tokens in one instruction and the identity in another.  In
between the evidence for it is an approval that later instructions of the
controller may write anew, and the identities it is about may be removed.
-/

namespace Fracks

open Checked AccountType Ledger TokenHook Token2022 Runs

/-- A recovery of an amount between the token accounts of two wallets that are
registered in one storage. -/
structure Recovery where
  tokenMint : Pubkey
  irsState : Pubkey
  source : Pubkey
  destination : Pubkey
  lostWallet : Pubkey
  newWallet : Pubkey
  amount : ℕ

namespace Recovery

def tokenState (r : Recovery) : Pubkey := Token.tokenStateAddress r.tokenMint

def approval (r : Recovery) : Pubkey := approvalAddress r.source r.destination r.tokenState

def lostIdentity (r : Recovery) : Pubkey := Irp.walletIdentityAddress r.irsState r.lostWallet

def newIdentity (r : Recovery) : Pubkey := Irp.walletIdentityAddress r.irsState r.newWallet

def finalizeAccounts (r : Recovery) (registryState : Pubkey) : Token.FinalizeAccounts where
  irsState := r.irsState
  irpState := registryState
  newWalletIdentity := r.newIdentity
  lostWalletIdentity := r.lostIdentity
  transferApproval := r.approval
  irsProgram := .program .fracksIrs

/-- The approval of the recovery, after its transfer. -/
structure Approves (r : Recovery) (a : TransferApproval) : Prop where
  kind : a.kind = transferApprovalKindRecovery
  consumed : a.consumed = true
  unfinalized : a.finalized = false
  source : a.sourceTokenAccount = r.source
  destination : a.destinationTokenAccount = r.destination
  lostWallet : a.sourceWallet = r.lostWallet
  newWallet : a.destinationWallet = r.newWallet
  amount : a.amount = r.amount

/-- What the finalisation finds: the approval, and the identities of both wallets. -/
structure Finalizable (r : Recovery) (L : Ledger) : Prop where
  approval : ∃ a, L.accounts r.approval = account a ∧ r.Approves a
  lost : ∃ identity, Irs.IdentityOf L r.lostIdentity r.irsState r.lostWallet identity ∧
    identity.isActive = true
  new : ∃ identity, Irs.IdentityOf L r.newIdentity r.irsState r.newWallet identity
  ne : r.lostWallet ≠ r.newWallet

end Recovery

/-- The authority may act for the storage: it owns it, or is an identity agent of
a registry that is bound to it. -/
structure IdentityActor (L : Ledger) (authority irsState registryState : Pubkey)
    (state : IdentityRegistryStorageState) : Prop where
  loaded : Irs.loadIrsState L irsState = .ok state
  authorized : authority = state.owner ∨ ∃ registry : IdentityRegistryState,
    L.accounts registryState = account registry ∧ registryState ∈ state.boundRegistries ∧
      registry.irsAccount = irsState ∧ authority ∈ registry.identityAgents

variable {L L' L₁ L₂ : Ledger} {signers : List Pubkey} {r : Recovery} {k : Pubkey}
  {a : TransferApproval} {S : List AccountKind}

/-! ## The finalisation -/

theorem walletIdentityAddress_inj {irs wallet irs' wallet' : Pubkey} :
    Irp.walletIdentityAddress irs wallet = Irp.walletIdentityAddress irs' wallet' ↔
      irs = irs' ∧ wallet = wallet' := by
  simp [Irp.walletIdentityAddress, Pubkey.findProgramAddress, Pubkey.addSeed]

section Finalize

variable [Borsh] {authority irsState registryState : Pubkey}
  {state : IdentityRegistryStorageState}

theorem IdentityActor.authorizes (h : IdentityActor L authority irsState registryState state) :
    Irs.authorizeIdentityActor L authority irsState registryState state = .ok () := by
  unfold Irs.authorizeIdentityActor
  split
  · rfl
  · rename_i howner
    obtain ⟨registry, hregistry, hbound, hirs, hagent⟩ := h.authorized.resolve_left howner
    simp only [bind_eq_ok, require_eq_ok, okOr_eq_ok, hregistry, account_data,
      Borsh.decodeView_encode, exists_const, Option.some.injEq]
    exact ⟨hbound, registry, rfl, hirs, hagent⟩

omit [Borsh] in
/-- Identities are records of their own. -/
theorem IdentityActor.put_identity (h : IdentityActor L authority irsState registryState state)
    {old new : WalletIdentity} (hold : L.accounts k = account old) :
    IdentityActor (L.put k new) authority irsState registryState state := by
  obtain ⟨hstate, hseeds⟩ := Irs.loadIrsState_ok h.loaded
  have hne : irsState ≠ k := ne_of_kind hstate hold (by decide)
  have hloaded : Irs.loadIrsState (L.put k new) irsState = .ok state := by
    simp only [Irs.loadIrsState, bind_eq_ok, load_eq_ok, requireSeeds_eq_ok, exists_const,
      Except.ok.injEq]
    exact ⟨state, (put_accounts_of_ne new hne).trans hstate, hseeds, rfl⟩
  refine ⟨hloaded, h.authorized.imp_right ?_⟩
  rintro ⟨registry, hregistry, hrest⟩
  have hne' : registryState ≠ k := ne_of_kind hregistry hold (by decide)
  exact ⟨registry, (put_accounts_of_ne new hne').trans hregistry, hrest⟩

omit [Borsh] in
/-- The accounts of the storage pass its constraints. -/
theorem IdentityActor.check (h : IdentityActor L authority irsState registryState state)
    (hsigned : authority ∈ signers) {wallet : Pubkey} {identity : WalletIdentity}
    (hidentity : Irs.IdentityOf L (Irp.walletIdentityAddress irsState wallet) irsState wallet
      identity) :
    Irs.IdentityAccounts.check ⟨authority, irsState, registryState,
      Irp.walletIdentityAddress irsState wallet⟩ L signers = .ok (state, identity) := by
  obtain ⟨hstate, hseeds⟩ := Irs.loadIrsState_ok h.loaded
  simp only [Irs.IdentityAccounts.check, bind_eq_ok, requireSigner_eq_ok, load_eq_ok,
    requireSeeds_eq_ok, require_eq_ok, exists_const, Except.ok.injEq, Prod.mk.injEq]
  exact ⟨hsigned, state, hstate, identity, view_eq_some.1 hidentity.loaded, hseeds,
    by rw [hidentity.wallet], hidentity.irs, rfl, rfl⟩

theorem Irs.IdentityOf.required {irs wallet : Pubkey} {identity : WalletIdentity}
    (h : Irs.IdentityOf L (Irp.walletIdentityAddress irs wallet) irs wallet identity)
    (hactive : identity.isActive = true) :
    Token.requireWalletIdentity L (Irp.walletIdentityAddress irs wallet) wallet irs =
      .ok identity := by
  have haccount := view_eq_some.1 h.loaded
  have hfound : Irp.findWalletIdentity L wallet irs (Irp.walletIdentityAddress irs wallet) =
      .ok (some identity) := by
    unfold Irp.findWalletIdentity
    rw [if_neg, if_neg]
    · simp only [bind_eq_ok, Irp.deserializeView, okOr_eq_ok, haccount, account_data,
        Borsh.decodeView_encode]
      refine ⟨identity, rfl, ?_⟩
      rw [if_neg]
      simp [h.wallet, h.irs]
    · exact not_not.2 rfl
    · rw [haccount]
      simp [kind, AccountKind.program, Pubkey.default]
  simp only [Token.requireWalletIdentity, hfound, bind_eq_ok, okOr_eq_ok, require_eq_ok,
    exists_const, Except.ok.injEq]
  exact ⟨some identity, rfl, identity, rfl, hactive, rfl⟩

/-- With the evidence at hand an operator of the token who may act for the storage
finalizes the recovery. -/
def Recovery.Enabled (r : Recovery) (L : Ledger) : Prop :=
  ∀ (signers : List Pubkey) (operator : Token.OperatorAccounts) (registryState : Pubkey)
    (ts : TokenState) (state : IdentityRegistryStorageState),
      operator.tokenState = r.tokenState → operator.check L signers = .ok ts →
        IdentityActor L operator.authority r.irsState registryState state →
          ∃ L', Token.finalizeRecovery L signers operator (r.finalizeAccounts registryState)
            r.lostWallet r.newWallet r.amount = .ok L'

theorem Recovery.Finalizable.enabled (h : r.Finalizable L) (hL : Platform.InOrder L) :
    r.Enabled L := by
  intro signers operator registryState ts state hoperator hcheck hactor
  obtain ⟨a, ha, happroves⟩ := h.approval
  obtain ⟨lost, hlost, hactive⟩ := h.lost
  obtain ⟨new, hnew⟩ := h.new
  obtain ⟨hsigned, -⟩ := Token.OperatorAccounts.check_ok hcheck
  have hnewAt := view_eq_some.1 hnew.loaded
  have hlostAt := view_eq_some.1 hlost.loaded
  have hne : r.lostIdentity ≠ r.newIdentity := fun heq ↦
    h.ne (walletIdentityAddress_inj.1 heq).2
  -- the two calls for the new wallet leave the identity of the lost one alone
  set L₁ : Ledger := L.put r.newIdentity { new with fid := lost.fid } with hL₁
  set L₂ : Ledger := L₁.put r.newIdentity { new with fid := lost.fid, country := lost.country }
    with hL₂
  have hnewAt₁ : L₁.accounts r.newIdentity = account { new with fid := lost.fid } :=
    put_accounts_self _
  have hactor₁ : IdentityActor L₁ operator.authority r.irsState registryState state :=
    hactor.put_identity hnewAt
  have hactor₂ : IdentityActor L₂ operator.authority r.irsState registryState state :=
    hactor₁.put_identity hnewAt₁
  have hnew₁ : Irs.IdentityOf L₁ r.newIdentity r.irsState r.newWallet
      { new with fid := lost.fid } := ⟨view_eq_some.2 hnewAt₁, hnew.wallet, hnew.irs⟩
  have hlost₂ : Irs.IdentityOf L₂ r.lostIdentity r.irsState r.lostWallet lost := by
    refine ⟨view_eq_some.2 ?_, hlost.wallet, hlost.irs⟩
    rw [hL₂, put_accounts_of_ne _ hne, hL₁, put_accounts_of_ne _ hne, hlostAt]
  have hpositive : 1 ≤ state.registeredCount :=
    Irs.registeredCount_pos hL.counted (Irs.loadIrsState_ok hactor.loaded).1 hlostAt hlost.irs
  have hcountry : Irs.ValidCountry lost.country := hL.countries _ _ hlost.loaded
  have hupdate : Irs.updateIdentity L signers (Token.identityAccounts operator
      (r.finalizeAccounts registryState) r.newIdentity) lost.fid = .ok L₁ := by
    simp only [Irs.updateIdentity, bind_eq_ok, Except.ok.injEq]
    exact ⟨_, hactor.check hsigned hnew, (), hactor.authorizes, rfl⟩
  have hupdate' : Irs.updateCountry L₁ signers (Token.identityAccounts operator
      (r.finalizeAccounts registryState) r.newIdentity) lost.country = .ok L₂ := by
    simp only [Irs.updateCountry, Irs.validateCountry, bind_eq_ok, require_eq_ok, exists_const,
      Except.ok.injEq]
    exact ⟨_, hactor₁.check hsigned hnew₁, hcountry, (), hactor₁.authorizes, rfl⟩
  obtain ⟨L', hremove⟩ : ∃ L', Irs.removeIdentity L₂ signers (Token.identityAccounts operator
      (r.finalizeAccounts registryState) r.lostIdentity) = .ok L' := by
    simp only [Irs.removeIdentity, bind_eq_ok, okOr_eq_ok, checkedSub_eq_some, Except.ok.injEq]
    exact ⟨_, _, hactor₂.check hsigned hlost₂, (), hactor₂.authorizes, _, ⟨hpositive, rfl⟩, rfl⟩
  refine ⟨L', ?_⟩
  simp only [Token.finalizeRecovery, bind_eq_ok, load_eq_ok, requireProgram_eq_ok, require_eq_ok,
    exists_const]
  exact ⟨ts, hcheck, a, ha, rfl, ⟨happroves.kind, happroves.consumed, happroves.unfinalized⟩,
    by rw [happroves.source, happroves.destination, hoperator]; rfl, happroves.lostWallet,
    happroves.newWallet, happroves.amount, lost, hlost.required hactive, L₁, hupdate, L₂, hupdate',
    hremove⟩

end Finalize

/-! ## The approval -/

/-- The instruction of the controller writes the approval of the recovery anew: it
moves tokens between the same two accounts. -/
def Recovery.Reapproves (r : Recovery) : Instruction → Prop
  | .token (.forcedTransfer operator _ accts _ _ _ _ _) => operator.tokenState = r.tokenState ∧
      accts.sourceTokenAccount = r.source ∧ accts.destinationTokenAccount = r.destination
  | .token (.recovery operator _ accts _ _ _) => operator.tokenState = r.tokenState ∧
      accts.sourceTokenAccount = r.source ∧ accts.destinationTokenAccount = r.destination
  | _ => False

/-- A used approval is at `k`. -/
structure UsedAt (L : Ledger) (k : Pubkey) (a : TransferApproval) : Prop where
  loaded : L.accounts k = account a
  consumed : a.consumed = true

theorem approvalAddress_inj
    {source destination authority source' destination' authority' : Pubkey} :
    approvalAddress source destination authority =
        approvalAddress source' destination' authority' ↔
      source = source' ∧ destination = destination' ∧ authority = authority' := by
  simp [approvalAddress, Pubkey.findProgramAddress, Pubkey.addSeed, and_assoc]

theorem UsedAt.of_frame (h : UsedAt L k a) (hframe : Frame S L L')
    (hS : AccountKind.transferApproval ∉ S) : UsedAt L' k a :=
  ⟨hframe.accounts_eq hS h.loaded, h.consumed⟩

theorem UsedAt.approved {accts : ApproveTransferAccounts} {args : ApproveTransferArgs}
    (h : UsedAt L k a) (happrove : approveTransfer L signers accts args = .ok L')
    (hk : k ≠ accts.transferApproval) : UsedAt L' k a := by
  obtain ⟨-, -, -, -, -, -, hother, -⟩ := approveTransfer_ok happrove
  exact ⟨(hother k hk).trans h.loaded, h.consumed⟩

/-- An execution needs an approval that is not used. -/
theorem UsedAt.executed {accts : ExecuteAccounts} {amount : ℕ} {approval : TransferApproval}
    {ts : TokenState} {m : Mint} {s d : TokenAccount} (h : UsedAt L k a)
    (hexecuted : Executed L L' accts amount approval ts m s d) : UsedAt L' k a := by
  have hk : k ≠ accts.transferApproval := by
    rintro rfl
    obtain rfl := account_inj.1 (h.loaded.symm.trans hexecuted.approvalAt)
    have hunconsumed := hexecuted.unconsumed
    rw [h.consumed] at hunconsumed
    exact nomatch hunconsumed
  refine ⟨?_, h.consumed⟩
  rw [← view_eq_some, hexecuted.approval_other hk, view_eq_some]
  exact h.loaded

theorem UsedAt.hooked {call : HookCall} (h : UsedAt L k a) (hinvoke : invokeHook L call = .ok L') :
    UsedAt L' k a := by
  rcases invokeHook_ok hinvoke with ⟨-, accts, -, -, -, -, hexecute⟩ | ⟨-, rfl⟩
  · obtain ⟨_, _, _, _, _, hexecuted⟩ := executeTransferHook_ok hexecute
    exact h.executed hexecuted
  · exact h

theorem UsedAt.transferred {source mintKey destination authority : Pubkey}
    {additional : List Pubkey} {amount decimals : ℕ} (h : UsedAt L k a)
    (htransfer : transferChecked invokeHook L signers source mintKey destination authority
      additional amount decimals = .ok L') : UsedAt L' k a := by
  rcases transferChecked_ok htransfer with ⟨-, rfl⟩ |
    ⟨m, _, _, _, hne, ha, hb, -, -, -, -, -, -, rfl⟩ | ⟨_, _, _, _, _, _, hhooked⟩
  · exact h
  · exact h.of_frame (frame_put_pair hne ha hb) (by decide)
  · have hmoved := h.of_frame hhooked.frame_moved (by decide)
    exact (hmoved.hooked hhooked.invoked).of_frame hhooked.frame_down (by decide)

theorem UsedAt.token2022 {i : Token2022.Instruction} (h : UsedAt L k a)
    (hprocess : Token2022.process L signers i = .ok L') : UsedAt L' k a := by
  cases hmoves : i.moves with
  | false => exact h.of_frame (Token2022.process_quiet hprocess hmoves).frame (by decide)
  | true =>
      cases i with
      | mintTo => exact h.of_frame (Token2022.frame_mintTo hprocess) (by decide)
      | burn => exact h.of_frame (Token2022.frame_burn hprocess) (by decide)
      | transferChecked => exact h.transferred hprocess
      | transfer =>
          rcases Token2022.transfer_ok hprocess with ⟨-, rfl⟩ |
            ⟨_, _, _, hne, ha, hb, -, -, -, -, rfl⟩
          · exact h
          · exact h.of_frame (frame_put_pair hne ha hb) (by decide)
      | _ => exact nomatch hmoves

theorem UsedAt.controllerApproved {operator : Token.OperatorAccounts}
    {accts : Token.ControllerTransferAccounts} {ts : TokenState} {s d : TokenAccount}
    {args : ApproveTransferArgs} (h : UsedAt L k a)
    (happroved : Token.ControllerApproved L L₁ L₂ signers operator accts ts s d args)
    (hk : k ≠ approvalAddress accts.sourceTokenAccount accts.destinationTokenAccount
      operator.tokenState) : UsedAt L₂ k a := by
  obtain ⟨-, -, hkey, -⟩ := approveTransfer_ok happroved.approves
  obtain ⟨_, _, htransfer⟩ := happroved.transfers
  have hother : k ≠ accts.transferApproval := fun hk' ↦ hk (hk'.trans hkey)
  exact (h.approved happroved.approves hother).transferred htransfer

section Process

variable [Borsh] {i : Instruction}

theorem TokenInstruction.used {i : TokenInstruction} (h : i.process L signers = .ok L')
    (hexternal : ∀ k ∈ signers, k.External) (hi : ¬ r.Reapproves (.token i))
    (ha : UsedAt L r.approval a) : UsedAt L' r.approval a := by
  cases i with
  | transfer accts amount fromBalance toBalance =>
      obtain ⟨ts, s, d, _, _, happroved, -⟩ := Token.transfer_eq_ok.1 h
      obtain ⟨-, -, hkey, -⟩ := approveTransfer_ok happroved.approves
      refine ha.approved happroved.approves fun hk ↦ ?_
      -- the sender signs, and the token state does not
      obtain ⟨-, -, hwallet⟩ := approvalAddress_inj.1 (hk.trans hkey)
      have hsender := hexternal _ happroved.signed
      rw [show accts.fromWallet = Token.tokenStateAddress r.tokenMint from hwallet.symm] at hsender
      exact not_external_tokenStateAddress hsender
  | forcedTransfer operator fromPartialFreeze accts =>
      obtain ⟨_, _, _, _, _, L₁, L₂, happroved, -, -, -, record, hrecord, record', -, rfl⟩ :=
        Token.forcedTransfer_approved h
      have hmoved : UsedAt L₂ r.approval a := ha.controllerApproved happroved fun hk ↦ by
        obtain ⟨hsource, hdestination, hstate⟩ := approvalAddress_inj.1 hk
        exact hi ⟨hstate.symm, hsource.symm, hdestination.symm⟩
      exact hmoved.of_frame (S := [.partialFreeze]) (.put hrecord (by decide)) (by decide)
  | recovery operator irsProgram accts =>
      obtain ⟨_, _, _, _, _, L₁, happroved, -⟩ := Token.recovery_approved h
      refine ha.controllerApproved happroved fun hk ↦ ?_
      obtain ⟨hsource, hdestination, hstate⟩ := approvalAddress_inj.1 hk
      exact hi ⟨hstate.symm, hsource.symm, hdestination.symm⟩
  | _ =>
      exact ha.of_frame (TokenInstruction.frame h)
        (by simp [TokenInstruction.kinds, Irs.identityKinds])

omit [Borsh] in
/-- Nobody but the controller approves transfers. -/
theorem HookInstruction.used {i : HookInstruction} (h : i.process L signers = .ok L')
    (hexternal : ∀ k ∈ signers, k.External) (hT : TokenStatesDerived L) (ha : UsedAt L k a) :
    UsedAt L' k a := by
  cases i with
  | approveTransfer accts args =>
      obtain ⟨-, hsigned, -, ⟨ts, hts, -⟩, -⟩ := approveTransfer_ok h
      rw [hT _ _ hts] at hsigned
      exact absurd (hexternal _ hsigned) not_external_tokenStateAddress
  | executeTransferHook =>
      obtain ⟨_, _, _, _, _, hexecuted⟩ := executeTransferHook_ok h
      exact ha.executed hexecuted
  | _ => exact ha.of_frame (HookInstruction.frame h) (by simp [HookInstruction.kinds])

/-- A used approval stays until it is written anew. -/
theorem process_used (h : process L signers i = .ok L') (hexternal : ∀ k ∈ signers, k.External)
    (hT : TokenStatesDerived L) (hi : ¬ r.Reapproves i.core) (ha : UsedAt L r.approval a) :
    UsedAt L' r.approval a := by
  induction i with
  | token i => exact TokenInstruction.used h hexternal hi ha
  | hook i => exact HookInstruction.used h hexternal hT ha
  | compliance i =>
      have hframe := ComplianceInstruction.frame h
      exact ha.of_frame hframe
        (by cases i <;> simp [ComplianceInstruction.kinds, Compliance.PostHook.kinds])
  | module i =>
      have hframe := ModuleInstruction.frame h
      exact ha.of_frame hframe (by cases i <;> simp [ModuleInstruction.kinds])
  | token2022 i => exact ha.token2022 h
  | createTokenMint => exact ha.of_frame (Factory.frame_createTokenMint h) (by decide)
  | callModuleFunction owner complianceState inner ih =>
      obtain ⟨_, -, hinner⟩ := bind_eq_ok.1 h
      exact ih hinner hi

end Process

/-! ## The recovery itself -/

/-- A transfer leaves its approval as it was, or used. -/
theorem Token2022.transferChecked_approval {source mintKey destination authority : Pubkey}
    {additional : List Pubkey} {amount decimals : ℕ}
    (h : transferChecked invokeHook L signers source mintKey destination authority additional amount
      decimals = .ok L')
    (ha : L.accounts (approvalAddress source destination authority) = account a) :
    L'.accounts (approvalAddress source destination authority) = account a ∨
      L'.accounts (approvalAddress source destination authority) = account (consumeApproval a) := by
  rcases transferChecked_ok h with ⟨-, rfl⟩ |
    ⟨m, _, _, _, hne, hs, hd, -, -, -, -, -, -, rfl⟩ | ⟨program, m, s, s', d, L₂, hhooked⟩
  · exact .inl ha
  · exact .inl ((frame_put_pair hne hs hd).accounts_eq (by decide) ha)
  · have hmoved := hhooked.frame_moved.accounts_eq (by decide) ha
    rcases invokeHook_ok hhooked.invoked with
      ⟨-, accts, rfl, -, rfl, rfl, hexecute⟩ | ⟨-, hsame⟩
    · obtain ⟨a', _, _, _, _, hexecuted⟩ := executeTransferHook_ok hexecute
      have hbefore := hexecuted.approvalAt
      have hafter := hexecuted.approval_after
      rw [hexecuted.approvalKey] at hbefore hafter
      obtain rfl := account_inj.1 (hmoved.symm.trans hbefore)
      exact .inr (hhooked.frame_down.accounts_eq (by decide) hafter)
    · rw [← hsame] at hmoved
      exact .inl (hhooked.frame_down.accounts_eq (by decide) hmoved)

/-- The instruction makes the recovery. -/
def Recovery.MadeBy (r : Recovery) (i : Instruction) : Prop :=
  ∃ (operator : Token.OperatorAccounts) (irsProgram : Pubkey)
    (accts : Token.ControllerTransferAccounts), operator.tokenState = r.tokenState ∧
      accts.irsState = r.irsState ∧ accts.sourceTokenAccount = r.source ∧
        accts.destinationTokenAccount = r.destination ∧
          i = .token (.recovery operator irsProgram accts r.lostWallet r.newWallet r.amount)

/-- Both wallets are in the records of the storage. -/
structure Recovery.Registered (r : Recovery) (L : Ledger) : Prop where
  lost : ∃ identity : WalletIdentity, L.accounts r.lostIdentity = account identity
  new : ∃ identity : WalletIdentity, L.accounts r.newIdentity = account identity

theorem Irs.Enrolled.identityOf {irs wallet : Pubkey} {identity : WalletIdentity}
    (hL : Irs.Enrolled L)
    (h : L.accounts (Irp.walletIdentityAddress irs wallet) = account identity) :
    Irs.IdentityOf L (Irp.walletIdentityAddress irs wallet) irs wallet identity := by
  have hview := view_eq_some.2 h
  obtain ⟨haddress, -⟩ := hL.identities _ _ hview
  obtain ⟨hirs, hwallet⟩ := walletIdentityAddress_inj.1 haddress
  exact ⟨hview, hwallet.symm, hirs.symm⟩

section Process

variable [Borsh] {i : Instruction}

theorem requireWalletIdentity_ok {k wallet irs : Pubkey} {identity : WalletIdentity}
    (h : Token.requireWalletIdentity L k wallet irs = .ok identity) :
    k = Irp.walletIdentityAddress irs wallet ∧
      Borsh.decodeView WalletIdentity (L.accounts k).data = some identity ∧
        identity.isActive = true := by
  simp only [Token.requireWalletIdentity, bind_eq_ok, okOr_eq_ok, toOption_eq_some, require_eq_ok,
    exists_const, Except.ok.injEq] at h
  obtain ⟨_, hfind, _, rfl, hactive, rfl⟩ := h
  unfold Irp.findWalletIdentity at hfind
  split at hfind
  · cases hfind
  split at hfind
  · cases hfind
  rename_i hkey
  obtain ⟨identity', hdecode, hmatch⟩ := bind_eq_ok.1 hfind
  split at hmatch
  · cases hmatch
  · obtain rfl := Option.some.inj (Except.ok.inj hmatch)
    exact ⟨not_not.1 hkey, okOr_eq_ok.1 hdecode, hactive⟩

/-- A recovery whose approval is used can be finalized. -/
theorem Recovery.MadeBy.finalizable (hmade : r.MadeBy i.core)
    (h : process L signers i = .ok L') (hL : Platform.InOrder L) (hregistered : r.Registered L)
    (hused : ∃ a : TransferApproval, L'.accounts r.approval = account a ∧ a.consumed = true) :
    r.Finalizable L' := by
  have hcore := process_core h
  obtain ⟨operator, irsProgram, accts, hstate, hirs, hsource, hdestination, hi⟩ := hmade
  rw [hi] at hcore
  have hframe : Frame _ L L' := TokenInstruction.frame (i := .recovery ..) hcore
  obtain ⟨ts, s, d, fromCountry, toCountry, L₁, happroved, hne, -, ⟨lost, hlost, -⟩, -⟩ :=
    Token.recovery_approved hcore
  obtain ⟨-, -, hkey, -, -, hwritten, -⟩ := approveTransfer_ok happroved.approves
  obtain ⟨_, _, htransfer⟩ := happroved.transfers
  have hkey' : accts.transferApproval = approvalAddress accts.sourceTokenAccount
      accts.destinationTokenAccount operator.tokenState := hkey
  rw [show (Token.controllerApprovalAccounts operator accts).transferApproval = _ from hkey']
    at hwritten
  have happroval : approvalAddress accts.sourceTokenAccount accts.destinationTokenAccount
      operator.tokenState = r.approval := by
    rw [hsource, hdestination, hstate, Recovery.approval]
  obtain ⟨a, ha, hconsumed⟩ := hused
  refine ⟨⟨a, ha, ?_⟩, ?_, ?_, hne⟩
  · rcases Token2022.transferChecked_approval htransfer hwritten with hsame | hafter
    · rw [happroval] at hsame
      obtain rfl := account_inj.1 (hsame.symm.trans ha)
      exact nomatch hconsumed
    · rw [happroval] at hafter
      obtain rfl := account_inj.1 (hafter.symm.trans ha)
      exact ⟨rfl, rfl, rfl, hsource, hdestination, rfl, rfl, rfl⟩
  · obtain ⟨identity, hidentity⟩ := hregistered.lost
    obtain ⟨hfrom, hdecode, hactive⟩ := requireWalletIdentity_ok hlost
    rw [hfrom, hirs,
      show Irp.walletIdentityAddress r.irsState r.lostWallet = r.lostIdentity from rfl,
      hidentity, account_data, Borsh.decodeView_encode] at hdecode
    obtain rfl := Option.some.inj hdecode
    have hold := hL.enrolled.identityOf hidentity
    refine ⟨identity, ⟨view_eq_some.2 (hframe.accounts_eq ?_ hidentity), hold.wallet, hold.irs⟩,
      hactive⟩
    simp [TokenInstruction.kinds, hookKinds]
  · obtain ⟨identity, hidentity⟩ := hregistered.new
    have hnew := hL.enrolled.identityOf hidentity
    refine ⟨identity, view_eq_some.2 (hframe.accounts_eq ?_ hidentity), hnew.wallet, hnew.irs⟩
    simp [TokenInstruction.kinds, hookKinds]

/-! ## Runs -/

theorem Step.used {l : Label} (h : Step L l L') (hL : TokenStatesDerived L)
    (hl : l.Core fun i ↦ ¬ r.Reapproves i) (ha : UsedAt L r.approval a) :
    UsedAt L' r.approval a := by
  cases h with
  | instruction signers i hexternal h => exact process_used h hexternal hL hl ha
  | environment hframe => exact ha.of_frame hframe (by decide)

end Process

/-- The instruction leaves the evidence of the recovery alone: it does not write
the approval anew, removes neither identity and does not deactivate the lost one. -/
structure Recovery.SparedBy (r : Recovery) (i : Platform.Instruction) : Prop where
  approval : ∀ j, i = .core j → ¬ r.Reapproves j.core
  lost : ¬ Platform.Removes r.lostIdentity i
  active : ¬ Platform.Deactivates r.lostIdentity i
  new : ¬ Platform.Removes r.newIdentity i

/-- The step leaves the recovery alone. -/
def Recovery.Spared (r : Recovery) (_ : Ledger) (l : Platform.Label) (_ : Ledger) : Prop :=
  l.Meets r.SparedBy

theorem Platform.Label.Meets.imp {P Q : Platform.Instruction → Prop} {l : Platform.Label}
    (h : l.Meets P) (hPQ : ∀ i, P i → Q i) : l.Meets Q := by
  cases l with
  | instruction signers i => exact hPQ i h
  | environment => trivial

section Platform

variable [Borsh] {l : Platform.Label} {labels since : List Platform.Label}

theorem Recovery.Finalizable.step (h : r.Finalizable L) (hstep : Platform.Step L l L')
    (hL : Platform.InOrder L) (hT : TokenStatesDerived L) (hl : r.Spared L l L') :
    r.Finalizable L' := by
  obtain ⟨a, ha, happroves⟩ := h.approval
  have hused : UsedAt L' r.approval a := by
    refine hstep.seen.used hT ?_ ⟨ha, happroves.consumed⟩
    cases l with
    | environment => trivial
    | instruction signers i =>
        cases i with
        | core j => exact hl.approval j rfl
        | _ => trivial
  refine ⟨⟨a, hused.loaded, happroves⟩, ?_, ?_, h.ne⟩
  · obtain ⟨lost, hlost, hactive⟩ := h.lost
    obtain ⟨lost', hlost', hactive'⟩ := (hstep.changed hL.enrolled).identityOf hlost
      (hl.imp fun i hi ↦ hi.lost)
    exact ⟨lost', hlost', hactive' hactive (hl.imp fun i hi ↦ hi.active)⟩
  · obtain ⟨new, hnew⟩ := h.new
    obtain ⟨new', hnew', -⟩ := (hstep.changed hL.enrolled).identityOf hnew
      (hl.imp fun i hi ↦ hi.new)
    exact ⟨new', hnew'⟩

/-- A recovery that is made in a run, whose approval is used and whose evidence is
left alone since, can be finalized. -/
theorem recoveries_finalizable {signers : List Pubkey} {i : Instruction} {L₀ : Ledger}
    (hL : Platform.InOrder L) (hT : WellFormed L)
    (hrun : Run Platform.Step L labels L₀) (hmade : r.MadeBy i.core)
    (hregistered : r.Registered L₀)
    (hrecovery : Platform.Step L₀ (.instruction signers (.core i)) L₁)
    (hused : ∃ a : TransferApproval, L₁.accounts r.approval = account a ∧ a.consumed = true)
    (hsince : Run (restrict Platform.Step r.Spared) L₁ since L₂) : r.Enabled L₂ := by
  have hkept : ∀ L l L', (Platform.InOrder L ∧ WellFormed L) → Platform.Step L l L' →
      Platform.InOrder L' ∧ WellFormed L' := fun L l L' hL hstep ↦
    ⟨hL.1.step hstep, hstep.seen.wellFormed hL.2⟩
  have hL₀ : Platform.InOrder L₀ ∧ WellFormed L₀ :=
    hrun.invariant (P := fun L ↦ Platform.InOrder L ∧ WellFormed L) hkept ⟨hL, hT⟩
  have hL₁ := hkept _ _ _ hL₀ hrecovery
  have hfinalizable : r.Finalizable L₁ := by
    cases hrecovery with
    | instruction _ _ hexternal h => exact hmade.finalizable h hL₀.1 hregistered hused
  have hend : r.Finalizable L₂ ∧ Platform.InOrder L₂ ∧ WellFormed L₂ := by
    refine hsince.invariant (P := fun L ↦ r.Finalizable L ∧ Platform.InOrder L ∧ WellFormed L)
      (fun L l L' ⟨h, hL⟩ ⟨hstep, hl⟩ ↦ ?_) ⟨hfinalizable, hL₁⟩
    exact ⟨h.step hstep hL.1 hL.2.tokenStates hl, hkept _ _ _ hL hstep⟩
  exact hend.1.enabled hend.2.1

/-- A recovery made in a run can be finalized whatever the run does after it,
short of finalizing a recovery. -/
def RecoveriesFinalizable (r : Recovery) (L : Ledger) : Prop :=
  ∀ (labels since : List Platform.Label) (L₀ L₁ L₂ : Ledger) (signers : List Pubkey)
    (i : Instruction), Run Platform.Step L labels L₀ → r.MadeBy i.core → r.Registered L₀ →
      Platform.Step L₀ (.instruction signers (.core i)) L₁ →
        (∃ a : TransferApproval, L₁.accounts r.approval = account a ∧ a.consumed = true) →
          Run (restrict Platform.Step fun _ l _ ↦ l.Meets fun i ↦
            ∀ j, i = .core j → ¬ j.Finalizes) L₁ since L₂ → r.Enabled L₂

end Platform

/-! ## A second recovery -/

/-- The recovery of some of the ten tokens of the lost wallet. -/
def lostTokens (n : ℕ) : Recovery where
  tokenMint := recoveryDeployment.tokenMint
  irsState := recoveryDeployment.registry.irsState
  source := lostHolding.key
  destination := newHolding.key
  lostWallet := lostHolding.wallet
  newWallet := newHolding.wallet
  amount := n

theorem lostTokens_made (n : ℕ) : (lostTokens n).MadeBy (recoverTokens n).core :=
  ⟨_, _, _, rfl, rfl, rfl, rfl, rfl⟩

theorem lostTokens_registered (n : ℕ) : (lostTokens n).Registered recoveryLedger :=
  ⟨⟨_, rfl⟩, ⟨_, rfl⟩⟩

theorem recoveryLedger_wellFormed : WellFormed recoveryLedger where
  tokenStates k ts hts := by
    refine recoveryDeployment.ledger_forall (P := fun k acc ↦ ∀ ts : TokenState,
      acc = account ts → k = Token.tokenStateAddress ts.tokenMint) ?_
      (fun r hr ts hts ↦ ?_) (fun _ ts hts ↦ absurd hts.symm (account_ne_vacant ts)) k ts hts
    · simp
    have hkind : r.2.kind = .tokenState := hts ▸ kind_account ts
    simp only [Deployment.records, List.mem_append, List.mem_map, List.mem_cons,
      List.not_mem_nil, or_false] at hr
    rcases hr with ((rfl | hr) | ⟨w, -, rfl⟩) | ⟨h, -, rfl⟩
    · obtain rfl := account_inj.1 hts
      rfl
    · rcases hr with rfl | rfl | rfl | rfl | rfl | rfl | rfl | rfl <;> simp [kind] at hkind
    · simp [kind] at hkind
    · simp [kind] at hkind
  flags := recoveryDeployment.flagsDown (by simp)

theorem lostTokens_group {k : Pubkey} :
    (Irs.roster recoveryLedger).group k = some recoveryDeployment.registry.irsState ↔
      k = (lostTokens 0).lostIdentity ∨ k = (lostTokens 0).newIdentity := by
  constructor
  · intro hk
    obtain ⟨identity, hidentity, -⟩ := Option.map_eq_some_iff.1 hk
    obtain ⟨w, hw, rfl, -⟩ := recoveryDeployment.identity_of_account (by simp)
      (view_eq_some.1 hidentity)
    rcases List.mem_pair.1 hw with rfl | rfl
    · exact .inl rfl
    · exact .inr rfl
  · rintro (rfl | rfl) <;> rfl

theorem recoveryLedger_inOrder : Platform.InOrder recoveryLedger where
  enrolled := by
    refine ⟨⟨fun k a ha ↦ ?_, fun k a ha ↦ ?_, fun k a ha ↦ ?_⟩, fun k identity hidentity ↦ ?_⟩
    · exact absurd (view_eq_some.1 ha) (recoveryDeployment.not_account (by simp) (by decide) k a)
    · exact absurd (view_eq_some.1 ha) (recoveryDeployment.not_account (by simp) (by decide) k a)
    · exact absurd (view_eq_some.1 ha) (recoveryDeployment.not_account (by simp) (by decide) k a)
    · obtain ⟨w, hw, rfl, rfl⟩ := recoveryDeployment.identity_of_account (by simp)
        (view_eq_some.1 hidentity)
      refine ⟨rfl, ?_⟩
      rcases List.mem_pair.1 hw with rfl | rfl <;> exact fun h ↦ nomatch h
  counted := by
    refine ⟨fun {k g} hk ↦ ?_, fun {g n} hn ↦ ?_⟩
    · obtain ⟨identity, hidentity, rfl⟩ := Option.map_eq_some_iff.1 hk
      obtain ⟨w, -, -, rfl⟩ := recoveryDeployment.identity_of_account (by simp)
        (view_eq_some.1 hidentity)
      exact fun h ↦ nomatch h
    · obtain ⟨state, hstate, rfl⟩ := Option.map_eq_some_iff.1 hn
      obtain ⟨rfl, hcount⟩ := recoveryDeployment.storage_of_account (by simp)
        (view_eq_some.1 hstate)
      have hmembers : (Irs.roster recoveryLedger).members recoveryDeployment.registry.irsState =
          {(lostTokens 0).lostIdentity, (lostTokens 0).newIdentity} :=
        Set.ext fun k ↦ lostTokens_group
      rw [hmembers, hcount]
      refine ⟨Set.toFinite _, Set.ncard_pair fun h ↦ ?_⟩
      exact nomatch (walletIdentityAddress_inj.1 h).2
  countries k identity hidentity := by
    obtain ⟨w, hw, rfl, rfl⟩ := recoveryDeployment.identity_of_account (by simp)
      (view_eq_some.1 hidentity)
    have hcountry : w.2 = 276 := by
      rcases List.mem_pair.1 hw with rfl | rfl <;> rfl
    rw [Irs.ValidCountry, show (recoveryDeployment.identityRecord w).country = w.2 from rfl,
      hcountry]
    exact ⟨by decide, by decide⟩

/-- A recovery of three more tokens writes over the evidence for the first four. -/
theorem second_recovery_overwrites :
    ¬ @RecoveriesFinalizable strictBorsh (lostTokens 4) recoveryLedger := by
  intro hclaim
  obtain ⟨L₁, L₂, hfirst, hsecond, hused, ⟨ts, hcheck⟩, ⟨state, hstate, howner⟩, e, hrefused⟩ :
      ∃ L₁ L₂,
      @process strictBorsh recoveryLedger [recoveryDeployment.issuer] (recoverTokens 4) = .ok L₁ ∧
        @process strictBorsh L₁ [recoveryDeployment.issuer] (recoverTokens 3) = .ok L₂ ∧
          (∃ a : TransferApproval, L₁.accounts (lostTokens 4).approval = account a ∧
            a.consumed = true) ∧
          (∃ ts, recoveryDeployment.operator.check L₂ [recoveryDeployment.issuer] = .ok ts) ∧
          (∃ state, Irs.loadIrsState L₂ recoveryDeployment.registry.irsState = .ok state ∧
            recoveryDeployment.issuer = state.owner) ∧
          ∃ e, @process strictBorsh L₂ [recoveryDeployment.issuer] (finalizeTokens 4) = .error e :=
    ⟨_, _, rfl, rfl, ⟨_, rfl, rfl⟩, ⟨_, rfl⟩, ⟨_, rfl, rfl⟩, ⟨_, rfl⟩⟩
  have hstep := @Platform.Step.instruction strictBorsh _ _ _ (.core (recoverTokens 4))
    issuer_external hfirst
  have hsince : Run (restrict (@Platform.Step strictBorsh)
      fun _ l _ ↦ l.Meets fun i ↦ ∀ j, i = .core j → ¬ j.Finalizes) _ _ _ := .single
    ⟨@Platform.Step.instruction strictBorsh _ _ _ (.core (recoverTokens 3)) issuer_external hsecond,
      fun j hj ⟨_, _, _, _, _, hcore⟩ ↦ by cases hj; exact nomatch hcore⟩
  have henabled := hclaim [] _ _ _ _ _ _ (.nil _) (lostTokens_made 4) (lostTokens_registered 4)
    hstep hused hsince
  obtain ⟨L', hfinalized⟩ := henabled _ _ recoveryDeployment.registry.irpState _ _ rfl hcheck
    ⟨hstate, .inl howner⟩
  exact nomatch hrefused.symm.trans hfinalized

/-- The issuer pauses the token. -/
def pauseRecovering : Instruction :=
  .token (.pause ⟨recoveryDeployment.issuer, recoveryDeployment.tokenState,
    Token.ownerAddress recoveryDeployment.tokenMint⟩)

/-- After a pause the recovery can be finalized. -/
theorem paused_recovery_finalizable : ∃ L₁ L₂,
    @process strictBorsh recoveryLedger [recoveryDeployment.issuer] (recoverTokens 4) = .ok L₁ ∧
      @process strictBorsh L₁ [recoveryDeployment.issuer] pauseRecovering = .ok L₂ ∧
        @Recovery.Enabled strictBorsh (lostTokens 4) L₂ := by
  obtain ⟨L₁, L₂, hrecover, hpause, hused⟩ : ∃ L₁ L₂,
      @process strictBorsh recoveryLedger [recoveryDeployment.issuer] (recoverTokens 4) = .ok L₁ ∧
        @process strictBorsh L₁ [recoveryDeployment.issuer] pauseRecovering = .ok L₂ ∧
          ∃ a : TransferApproval, L₁.accounts (lostTokens 4).approval = account a ∧
            a.consumed = true :=
    ⟨_, _, rfl, rfl, ⟨_, rfl, rfl⟩⟩
  have hstep := @Platform.Step.instruction strictBorsh _ _ _ (.core (recoverTokens 4))
    issuer_external hrecover
  have hspared : (lostTokens 4).SparedBy (.core pauseRecovering) := by
    refine ⟨?_, ?_, id, ?_⟩
    · rintro j ⟨⟩ hj
      exact hj
    · rintro ⟨⟩
      rename_i hcore
      exact nomatch hcore
    · rintro ⟨⟩
      rename_i hcore
      exact nomatch hcore
  have hsince : Run (restrict (@Platform.Step strictBorsh) (lostTokens 4).Spared) _ _ _ := .single
    ⟨@Platform.Step.instruction strictBorsh _ _ _ (.core pauseRecovering) issuer_external hpause,
      hspared⟩
  exact ⟨L₁, L₂, hrecover, hpause, @recoveries_finalizable _ _ _ _ strictBorsh _ _ _ _ _
    recoveryLedger_inOrder recoveryLedger_wellFormed (.nil _) (lostTokens_made 4)
    (lostTokens_registered 4) hstep hused hsince⟩

end Fracks
