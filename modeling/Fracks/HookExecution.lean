import Fracks.TokenHook

/-!
# Approvals and hooked transfers

The inversion lemmas of the transfer hook and of the transfers that run it:
what a successful approval writes, what a successful execution has found, and
how balances, supply and the other records change.
-/

namespace Fracks

open Checked AccountType Ledger Token2022

namespace TokenHook

variable {L L' : Ledger} {signers : List Pubkey}

/-! ## Approval -/

theorem approveTransfer_ok {accts : ApproveTransferAccounts} {args : ApproveTransferArgs}
    (h : approveTransfer L signers accts args = .ok L') :
    accts.payer ∈ signers ∧ accts.tokenState ∈ signers ∧
      accts.transferApproval = approvalAddress accts.sourceTokenAccount
        accts.destinationTokenAccount accts.authoritySeed ∧
      (∃ state : TokenState, L.accounts accts.tokenState = account state ∧
        state.tokenMint = accts.tokenMintAccount) ∧
      (L.accounts accts.transferApproval = .vacant ∨
        ∃ old : TransferApproval, L.accounts accts.transferApproval = account old) ∧
      L'.accounts accts.transferApproval = account (newApproval accts args) ∧
      (∀ x, x ≠ accts.transferApproval → L'.accounts x = L.accounts x) ∧
      Frame [.transferApproval] L L' := by
  simp only [approveTransfer, bind_eq_ok, requireSigner_eq_ok, readTokenState, okOr_eq_ok,
    view_eq_some, require_eq_ok, exists_const, Except.ok.injEq] at h
  obtain ⟨hpayer, hcontroller, ⟨L₁, old⟩, hinit, state, hstate, hmint, hkey, rfl⟩ := h
  obtain ⟨hseeds, hother, hold, hframe⟩ := initIfNeeded_ok hinit
  have hne : accts.tokenState ≠ accts.transferApproval :=
    initIfNeeded_ne hinit (by decide) hstate
  rw [hother _ hne] at hstate
  refine ⟨hpayer, hkey ▸ hcontroller, hseeds, ⟨state, hstate, hmint⟩, ?_,
    put_accounts_self _, fun x hx ↦ ?_, hframe _ (by decide) _⟩
  · exact hold.imp (fun h ↦ h.2.1) fun h ↦ h.imp fun a ha ↦ ha.2.1
  · rw [put_accounts_of_ne _ hx, hother x hx]

theorem approveTransfer_frame {accts : ApproveTransferAccounts} {args : ApproveTransferArgs}
    {S : List AccountKind} (h : approveTransfer L signers accts args = .ok L')
    (hS : [.transferApproval] ⊆ S) : Frame S L L' := by
  obtain ⟨-, -, -, -, -, -, -, hframe⟩ := approveTransfer_ok h
  exact hframe.mono hS

theorem approveTransfer_now {accts : ApproveTransferAccounts} {args : ApproveTransferArgs}
    (h : approveTransfer L signers accts args = .ok L') : L'.now = L.now := by
  simp only [approveTransfer, bind_eq_ok, Except.ok.injEq] at h
  obtain ⟨_, -, _, -, ⟨L₁, old⟩, hinit, _, -, _, -, _, -, rfl⟩ := h
  have hnow : L₁.now = L.now := initIfNeeded_now hinit
  exact hnow

/-! ## Execution -/

/-- No token account is in the middle of a transfer. -/
def FlagsDown (L : Ledger) : Prop :=
  ∀ (k : Pubkey) (a : TokenAccount), L.accounts k = account a → a.transferring ≠ some true

theorem FlagsDown.put {k : Pubkey} {a : TokenAccount} (h : FlagsDown L)
    (ha : a.transferring ≠ some true) : FlagsDown (L.put k a) := by
  intro x b hb
  by_cases hx : x = k
  · subst hx
    rw [put_accounts_self] at hb
    exact account_inj.1 hb ▸ ha
  · rw [put_accounts_of_ne _ hx] at hb
    exact h x b hb

theorem FlagsDown.of_frame {S : List AccountKind} (h : FlagsDown L) (hframe : Frame S L L')
    (hS : AccountKind.tokenAccount ∉ S) : FlagsDown L' := by
  intro k a ha
  rw [← view_eq_some, hframe.view_eq (α := TokenAccount) hS, view_eq_some] at ha
  exact h k a ha

/-- The kinds of accounts a hook execution writes. -/
def hookKinds : List AccountKind :=
  [.transferApproval, .maxInvestorsModule, .countryInvestorCount, .dailyWalletUsage]

/-- What a successful execution has found in the ledger, and what it has done:
the post-hook of the router and the consumption of the approval. -/
structure Executed (L L' : Ledger) (accts : ExecuteAccounts) (amount : ℕ)
    (approval : TransferApproval) (tokenState : TokenState) (mint : Mint)
    (source destination : TokenAccount) : Prop where
  approvalAt : L.accounts accts.transferApproval = account approval
  approvalKey : accts.transferApproval =
    approvalAddress accts.source accts.destination accts.authority
  tokenStateAt : L.accounts accts.tokenState = account tokenState
  mintAt : L.accounts accts.mint = account mint
  sourceAt : L.accounts accts.source = account source
  destinationAt : L.accounts accts.destination = account destination
  tokenMint : tokenState.tokenMint = accts.mint
  hook : mint.transferHook.bind TransferHook.programId = some hookProgram
  delegate : mint.permanentDelegate = some (some accts.tokenState)
  sourceFlag : source.transferring = some true
  destinationFlag : destination.transferring = some true
  approvalTokenState : approval.tokenState = accts.tokenState
  approvalSource : approval.sourceTokenAccount = accts.source
  approvalDestination : approval.destinationTokenAccount = accts.destination
  approvalAuthority : approval.authority = accts.authority
  approvalAmount : approval.amount = amount
  unconsumed : approval.consumed = false
  fromBalance : approval.fromBalance = source.amount + amount
  toBalance : destination.amount = approval.toBalance + amount
  routed : ∃ L₁, Compliance.transferred L tokenState.compliance accts.remaining
      approval.sourceWallet amount source.amount destination.amount approval.fromCountry
      approval.toCountry = .ok L₁ ∧
    L' = L₁.put accts.transferApproval (consumeApproval approval)

theorem validateTokenMintAccount_ok {mintKey tokenStateKey : Pubkey} {tokenState : TokenState}
    {u : Unit} (h : validateTokenMintAccount L mintKey tokenStateKey tokenState = .ok u) :
    tokenState.tokenMint = mintKey ∧ ∃ mint : Mint, L.accounts mintKey = account mint ∧
      mint.transferHook.bind TransferHook.programId = some hookProgram ∧
        mint.permanentDelegate = some (some tokenStateKey) := by
  simp only [validateTokenMintAccount, bind_eq_ok, require_eq_ok, okOr_eq_ok, view_eq_some,
    exists_const] at h
  obtain ⟨hkey, mint, hmint, hook, hhook, hprogram, delegate, hdelegate, rfl⟩ := h
  exact ⟨hkey.symm, mint, hmint, by rw [hhook]; exact hprogram, hdelegate⟩

theorem executeTransferHook_ok {accts : ExecuteAccounts} {amount : ℕ}
    (h : executeTransferHook L accts amount = .ok L') :
    ∃ approval tokenState mint source destination,
      Executed L L' accts amount approval tokenState mint source destination := by
  simp only [executeTransferHook, bind_eq_ok, load_eq_ok, requireSeeds_eq_ok, readTokenState,
    readTokenAccount, okOr_eq_ok, view_eq_some, require_eq_ok, validateTransferHookInvocation,
    validateTransferApproval, invokeComplianceTransferred, checkedSub_eq_some',
    checkedAdd_eq_some, exists_const, Except.ok.injEq] at h
  obtain ⟨approval, happroval, hkey, tokenState, hstate, source, hsource, destination,
    hdestination, _, hmint, ⟨-, -, hsflag, hdflag⟩, -, hcompliance,
    ⟨hts, hsrc, hdst, hauthority, hamount, hconsumed⟩, n, hfrom, rfl, _, ⟨-, rfl⟩, hto,
    L₁, ⟨-, -, hrouter⟩, rfl⟩ := h
  obtain ⟨htm, mint, hmintAt, hhook, hdelegate⟩ := validateTokenMintAccount_ok hmint
  exact ⟨approval, tokenState, mint, source, destination,
    { approvalAt := happroval, approvalKey := hkey, tokenStateAt := hstate, mintAt := hmintAt
      sourceAt := hsource, destinationAt := hdestination, tokenMint := htm, hook := hhook
      delegate := hdelegate, sourceFlag := hsflag, destinationFlag := hdflag
      approvalTokenState := hts, approvalSource := hsrc, approvalDestination := hdst
      approvalAuthority := hauthority, approvalAmount := hamount, unconsumed := hconsumed
      fromBalance := hfrom, toBalance := hto
      routed := ⟨L₁, hcompliance ▸ hrouter, rfl⟩ }⟩

section Executed

variable {accts : ExecuteAccounts} {amount : ℕ} {approval : TransferApproval}
  {tokenState : TokenState} {mint : Mint} {source destination : TokenAccount}

/-- The approval is still there after the router has run. -/
theorem Executed.approval_after (h : Executed L L' accts amount approval tokenState mint source
    destination) : L'.accounts accts.transferApproval = account (consumeApproval approval) := by
  obtain ⟨L₁, -, rfl⟩ := h.routed
  exact put_accounts_self _

theorem Executed.frame (h : Executed L L' accts amount approval tokenState mint source
    destination) : Frame hookKinds L L' := by
  obtain ⟨L₁, hrouter, rfl⟩ := h.routed
  obtain ⟨state, hstep⟩ := Compliance.transferred_step hrouter
  have happroval : L₁.accounts accts.transferApproval = account approval :=
    hstep.frame.accounts_eq (by decide) h.approvalAt
  exact (hstep.frame.mono (by decide)).trans (.put happroval (by decide))

/-- Approvals under other keys are left alone. -/
theorem Executed.approval_other (h : Executed L L' accts amount approval tokenState mint source
    destination) {k : Pubkey} (hk : k ≠ accts.transferApproval) :
    L'.view TransferApproval k = L.view TransferApproval k := by
  obtain ⟨L₁, hrouter, rfl⟩ := h.routed
  obtain ⟨state, hstep⟩ := Compliance.transferred_step hrouter
  rw [view_put_of_ne _ hk, hstep.frame.view_eq (by decide)]

end Executed

/-! ## The hook call of a transfer -/

/-- Resolution only appends to the accounts it starts from. -/
theorem addExtraAccounts_prefix {program : Pubkey} {additional accounts resolved : List Pubkey}
    {metas : List ExtraAccountMeta}
    (h : addExtraAccounts L program additional metas accounts = .ok resolved) :
    ∃ extra, resolved = accounts ++ extra := by
  induction metas generalizing accounts with
  | nil => exact ⟨[], by simpa [addExtraAccounts] using h.symm⟩
  | cons entry rest ih =>
      simp only [addExtraAccounts, bind_eq_ok, okOr_eq_ok, require_eq_ok, exists_const] at h
      obtain ⟨k, -, -, hrest⟩ := h
      obtain ⟨extra, rfl⟩ := ih hrest
      exact ⟨k :: extra, by simp⟩

theorem hookAccounts_prefix {call : HookCall} {accounts : List Pubkey}
    (h : hookAccounts L call = .ok accounts) :
    ∃ extra, accounts =
      [call.source, call.mint, call.destination, call.authority] ++ extra := by
  simp only [hookAccounts] at h
  split at h
  · simp only [bind_eq_ok, okOr_eq_ok] at h
    obtain ⟨stored, -, hresolve⟩ := h
    obtain ⟨extra, rfl⟩ := addExtraAccounts_prefix hresolve
    exact ⟨extraAccountMetasAddress call.mint call.program :: extra, by simp⟩
  · exact ⟨[], by simpa using h.symm⟩

theorem executeEntry_ok {accounts : List Pubkey} {amount : ℕ}
    (h : executeEntry L accounts amount = .ok L') :
    ∃ accts : ExecuteAccounts, executeTransferHook L accts amount = .ok L' ∧
      ∃ extra, accounts =
        [accts.source, accts.mint, accts.destination, accts.authority] ++ extra := by
  unfold executeEntry at h
  split at h
  case h_1 => exact ⟨_, h, _, rfl⟩
  case h_2 => simp at h

/-- A successful hook call is an execution of this program for exactly the
transfer under way, or a call of a hook outside the repository. -/
theorem invokeHook_ok {call : HookCall} (h : invokeHook L call = .ok L') :
    (call.program = hookProgram ∧ ∃ accts : ExecuteAccounts, accts.source = call.source ∧
      accts.mint = call.mint ∧ accts.destination = call.destination ∧
        accts.authority = call.authority ∧ executeTransferHook L accts call.amount = .ok L') ∨
      (call.program ≠ hookProgram ∧ L' = L) := by
  unfold invokeHook at h
  split at h
  case isTrue hprogram =>
    obtain ⟨accounts, haccounts, hentry⟩ := bind_eq_ok.1 h
    obtain ⟨extra, rfl⟩ := hookAccounts_prefix haccounts
    obtain ⟨accts, hexecute, extra', hprefix⟩ := executeEntry_ok hentry
    simp only [List.cons_append, List.nil_append, List.cons.injEq] at hprefix
    obtain ⟨hsource, hmint, hdestination, hauthority, -⟩ := hprefix
    exact .inl ⟨hprogram, accts, hsource.symm, hmint.symm, hdestination.symm, hauthority.symm,
      hexecute⟩
  case isFalse hprogram =>
    split at h
    · simp at h
    · exact .inr ⟨hprogram, (Except.ok.inj h).symm⟩

theorem frame_invokeHook {call : HookCall} (h : invokeHook L call = .ok L') :
    Frame hookKinds L L' := by
  rcases invokeHook_ok h with ⟨-, accts, -, -, -, -, hexecute⟩ | ⟨-, rfl⟩
  · obtain ⟨_, _, _, _, _, hexecuted⟩ := executeTransferHook_ok hexecute
    exact hexecuted.frame
  · exact .refl _ _

end TokenHook

/-! ## Transfers -/

namespace Token2022

open TokenHook

variable {L L' : Ledger} {signers : List Pubkey}
  {source mintKey destination authority T : Pubkey} {additional : List Pubkey}
  {amount decimals : ℕ}

/-- The source account after its debit. -/
def debited (a a' : TokenAccount) (amount : ℕ) : TokenAccount :=
  { a' with amount := a.amount - amount }

/-- The destination account after its credit. -/
def credited (b : TokenAccount) (amount : ℕ) : TokenAccount :=
  { b with amount := b.amount + amount }

/-- The ledger the hook sees: balances moved and flags raised. -/
def movedLedger (L : Ledger) (source destination : Pubkey) (a'' b' : TokenAccount) : Ledger :=
  (L.put source (setTransferring true a'')).put destination (setTransferring true b')

/-- A transfer between two accounts that has gone through its hook. -/
structure HookedTransfer (L L' : Ledger) (signers : List Pubkey)
    (source mintKey destination authority : Pubkey) (additional : List Pubkey) (amount : ℕ)
    (program : Pubkey) (m : Mint) (a a' b : TokenAccount) (L₂ : Ledger) : Prop where
  ne : source ≠ destination
  sourceAt : L.accounts source = account a
  destinationAt : L.accounts destination = account b
  mintAt : L.accounts mintKey = account m
  sourceMint : a.mint = mintKey
  destinationMint : b.mint = mintKey
  enough : amount ≤ a.amount
  debit : Debit signers m.permanentDelegate.join authority a a'
  hook : m.transferHook.bind TransferHook.programId = some program
  invoked : invokeHook (movedLedger L source destination (debited a a' amount)
      (credited b amount))
    { program, source, mint := mintKey, destination, authority, additional, amount } = .ok L₂
  sourceSeen : L₂.accounts source = account (setTransferring true (debited a a' amount))
  destinationSeen : L₂.accounts destination = account (setTransferring true (credited b amount))
  result : L' = (L₂.put source (setTransferring false (debited a a' amount))).put destination
    (setTransferring false (credited b amount))

theorem transferChecked_ok
    (h : transferChecked invokeHook L signers source mintKey destination authority additional
      amount decimals = .ok L') :
    (source = destination ∧ L' = L) ∨
      (∃ (m : Mint) (a a' b : TokenAccount), source ≠ destination ∧
        L.accounts source = account a ∧ L.accounts destination = account b ∧
          L.accounts mintKey = account m ∧ a.mint = mintKey ∧ b.mint = mintKey ∧
            amount ≤ a.amount ∧ Debit signers m.permanentDelegate.join authority a a' ∧
              m.transferHook.bind TransferHook.programId = none ∧
                L' = (L.put source (debited a a' amount)).put destination (credited b amount)) ∨
      ∃ program m a a' b L₂, HookedTransfer L L' signers source mintKey destination authority
        additional amount program m a a' b L₂ := by
  simp only [transferChecked, bind_eq_ok, unpackAccount_eq_ok, unpackMint_eq_ok, require_eq_ok,
    checkDecimals_eq_ok, exists_const] at h
  obtain ⟨a, ha, -, hle, hmint, m, hm, -, a', hdebit, h⟩ := h
  have hdebit' := authorizeDebit_ok hdebit
  split at h
  case isTrue hself => exact .inl ⟨hself, (Except.ok.inj h).symm⟩
  case isFalse hne =>
    simp only [bind_eq_ok, unpackAccount_eq_ok, require_eq_ok, okOr_eq_ok, checkedAdd_eq_some,
      exists_const] at h
    obtain ⟨b, hb, -, hbmint, _, ⟨-, rfl⟩, h⟩ := h
    split at h
    case h_1 program hprogram =>
      obtain ⟨L₂, hhook, hs, hd, rfl⟩ :=
        runTransferHook_ok (S := hookKinds) (by decide) (fun _ _ ↦ frame_invokeHook) hne h
      exact .inr (.inr ⟨program, m, a, a', b, L₂,
        { ne := hne, sourceAt := ha, destinationAt := hb, mintAt := hm, sourceMint := hmint
          destinationMint := hbmint, enough := hle, debit := hdebit', hook := hprogram
          invoked := hhook, sourceSeen := hs, destinationSeen := hd, result := rfl }⟩)
    case h_2 hnone =>
      refine .inr (.inl ⟨m, a, a', b, hne, ha, hb, hm, hmint, hbmint, hle, hdebit', hnone, ?_⟩)
      exact (Except.ok.inj h).symm

section Books

variable {program : Pubkey} {m : Mint} {a a' b : TokenAccount} {L₂ : Ledger}

/-- Two entries move when both accounts of a transfer are written. -/
theorem balance_move {x y : TokenAccount} (ha : L.accounts source = account a)
    (hb : L.accounts destination = account b) (hamint : a.mint = mintKey)
    (hbmint : b.mint = mintKey) (hxmint : x.mint = mintKey) (hymint : y.mint = mintKey)
    (hx : x.amount = a.amount - amount)
    (hy : y.amount = b.amount + amount) :
    balance ((L.put source x).put destination y) T =
      Function.update (Function.update (balance L T) source
        (balance L T source - if T = mintKey then amount else 0)) destination
        (balance L T destination + if T = mintKey then amount else 0) := by
  rw [balance_put, balance_put, balance_of_account ha, balance_of_account hb, hamint, hbmint,
    hxmint, hymint, hx, hy]
  by_cases hT : T = mintKey
  · simp [hT]
  · simp [hT, Ne.symm hT]

/-- Moving the balances and raising the flags writes two token accounts. -/
theorem HookedTransfer.frame_moved (h : HookedTransfer L L' signers source mintKey destination
    authority additional amount program m a a' b L₂) :
    Frame [.tokenAccount] L
      (movedLedger L source destination (debited a a' amount) (credited b amount)) := by
  have hsource : Frame [.tokenAccount] L
      (L.put source (setTransferring true (debited a a' amount))) := .put h.sourceAt (by decide)
  refine hsource.trans (.put (a := b) ?_ (by decide))
  rw [put_accounts_of_ne _ h.ne.symm, h.destinationAt]

/-- So does clearing the flags. -/
theorem HookedTransfer.frame_down (h : HookedTransfer L L' signers source mintKey destination
    authority additional amount program m a a' b L₂) : Frame [.tokenAccount] L₂ L' := by
  rw [h.result]
  have hsource : Frame [.tokenAccount] L₂
      (L₂.put source (setTransferring false (debited a a' amount))) :=
    .put h.sourceSeen (by decide)
  refine hsource.trans (.put (a := setTransferring true (credited b amount)) ?_ (by decide))
  rw [put_accounts_of_ne _ h.ne.symm, h.destinationSeen]

theorem HookedTransfer.frame (h : HookedTransfer L L' signers source mintKey destination authority
    additional amount program m a a' b L₂) :
    Frame (.tokenAccount :: hookKinds) L L' :=
  (h.frame_moved.mono (by decide)).trans
    (((frame_invokeHook h.invoked).mono (by decide)).trans (h.frame_down.mono (by decide)))

/-- With this program as the hook, the hook call is an execution for exactly
this transfer, and its approval has recorded the balances before it. -/
theorem HookedTransfer.executed (h : HookedTransfer L L' signers source mintKey destination
    authority additional amount hookProgram m a a' b L₂) :
    ∃ (accts : ExecuteAccounts) (approval : TransferApproval) (ts : TokenState),
      accts.source = source ∧ accts.mint = mintKey ∧ accts.destination = destination ∧
        accts.authority = authority ∧ approval.fromBalance = a.amount ∧
          approval.toBalance = b.amount ∧
            Executed (movedLedger L source destination (debited a a' amount) (credited b amount))
              L₂ accts amount approval ts m (setTransferring true (debited a a' amount))
              (setTransferring true (credited b amount)) := by
  rcases invokeHook_ok h.invoked with
    ⟨-, accts, hsource, hmint, hdestination, hauthority, hexecute⟩ | ⟨hprogram, -⟩
  · obtain ⟨approval, ts, m', s, d, hexecuted⟩ := executeTransferHook_ok hexecute
    -- the records the hook has seen are the ones the transfer has written
    have hs := hexecuted.sourceAt
    have hd := hexecuted.destinationAt
    have hm := hexecuted.mintAt
    have hm' := h.frame_moved.accounts_eq (by decide) h.mintAt
    rw [hsource, movedLedger, put_accounts_of_ne _ h.ne, put_accounts_self] at hs
    rw [hdestination, movedLedger, put_accounts_self] at hd
    rw [hmint] at hm
    obtain rfl := account_inj.1 hs
    obtain rfl := account_inj.1 hd
    obtain rfl := account_inj.1 (hm.symm.trans hm')
    have hfrom := hexecuted.fromBalance
    have hto := hexecuted.toBalance
    have henough := h.enough
    simp only [setTransferring, debited, credited] at hfrom hto
    exact ⟨accts, approval, ts, hsource, hmint, hdestination, hauthority, by omega, by omega,
      hexecuted⟩
  · exact absurd rfl hprogram

theorem frame_transferChecked
    (h : transferChecked invokeHook L signers source mintKey destination authority additional
      amount decimals = .ok L') : Frame (.tokenAccount :: hookKinds) L L' := by
  rcases transferChecked_ok h with ⟨-, rfl⟩ |
    ⟨m, a, a', b, hne, ha, hb, -, -, -, -, -, -, rfl⟩ | ⟨_, _, _, _, _, _, hhooked⟩
  · exact .refl _ _
  · refine (Frame.put ha (by decide)).trans (.put (a := b) ?_ (by decide))
    rw [put_accounts_of_ne _ hne.symm, hb]
  · exact hhooked.frame

theorem HookedTransfer.flagsDown (h : HookedTransfer L L' signers source mintKey destination
    authority additional amount program m a a' b L₂) (hdown : FlagsDown L) : FlagsDown L' := by
  have hclear : ∀ x : TokenAccount, (setTransferring false x).transferring ≠ some true := by
    intro x hx
    simp [setTransferring] at hx
  -- away from the two accounts nothing has changed
  have hframe := frame_invokeHook h.invoked
  rw [h.result]
  intro k x hx
  by_cases hkd : k = destination
  · subst hkd
    rw [put_accounts_self] at hx
    exact account_inj.1 hx ▸ hclear _
  · rw [put_accounts_of_ne _ hkd] at hx
    by_cases hks : k = source
    · subst hks
      rw [put_accounts_self] at hx
      exact account_inj.1 hx ▸ hclear _
    · rw [put_accounts_of_ne _ hks, ← view_eq_some,
        hframe.view_eq (α := TokenAccount) (by decide), view_eq_some, movedLedger,
        put_accounts_of_ne _ hkd, put_accounts_of_ne _ hks] at hx
      exact hdown k x hx

/-- A hooked transfer moves its amount from one balance to the other. -/
theorem HookedTransfer.books (h : HookedTransfer L L' signers source mintKey destination authority
    additional amount program m a a' b L₂) (T : Pubkey) :
    balance L' T = Function.update (Function.update (balance L T) source
        (balance L T source - if T = mintKey then amount else 0)) destination
        (balance L T destination + if T = mintKey then amount else 0) ∧
      supply L' T = supply L T := by
  constructor
  · -- the hook leaves the moved balances alone, and so does clearing the flags
    have hseen : balance L₂ T = balance
        (movedLedger L source destination (debited a a' amount) (credited b amount)) T :=
      congrFun (balance_frame (frame_invokeHook h.invoked) (by decide)) T
    have hmoved := balance_move (T := T) (x := setTransferring true (debited a a' amount))
      (y := setTransferring true (credited b amount)) h.sourceAt
      h.destinationAt h.sourceMint h.destinationMint (h.debit.mint.trans h.sourceMint)
      h.destinationMint rfl rfl
    have hsource := balance_of_account (T := T) h.sourceSeen
    have hdestination := balance_of_account (T := T) h.destinationSeen
    have hdown : balance L' T = balance L₂ T := by
      rw [h.result, balance_put, balance_put]
      funext x
      by_cases hxd : x = destination
      · subst hxd
        rw [Function.update_self, hdestination]
        rfl
      · rw [Function.update_of_ne hxd]
        by_cases hxs : x = source
        · subst hxs
          rw [Function.update_self, hsource]
          rfl
        · rw [Function.update_of_ne hxs]
    rw [hdown, hseen]
    exact hmoved
  · exact congrFun (supply_frame h.frame (by decide)) T

end Books

end Token2022

end Fracks
