import Fracks.Deployment
import Fracks.Lib.OneShot

/-!
# Approvals are used once

The hook program keeps one approval under each key and overwrites or consumes
it.  Its ledgers are mapped to the store of pending permissions, in which the
approvals that are not consumed are what is pending; every step of the hook is a
step of that store, and so executions are matched with earlier approvals.
-/

namespace Fracks.TokenHook

open Checked AccountType Ledger Token2022 Runs

/-! ## Histories of the hook -/

/-- A transfer that has gone through the hook, with the balances before it. -/
structure Execution where
  mint : Pubkey
  source : Pubkey
  destination : Pubkey
  authority : Pubkey
  amount : ℕ
  fromBalance : ℕ
  toBalance : ℕ

inductive Event
  | approved (accts : ApproveTransferAccounts) (args : ApproveTransferArgs)
  | executed (e : Execution)
  | other

/-- The approval is for exactly this transfer and its balances. -/
structure Approves (accts : ApproveTransferAccounts) (args : ApproveTransferArgs)
    (e : Execution) : Prop where
  mint : accts.tokenMintAccount = e.mint
  source : accts.sourceTokenAccount = e.source
  destination : accts.destinationTokenAccount = e.destination
  authority : args.authority = e.authority
  amount : args.amount = e.amount
  fromBalance : args.fromBalance = e.fromBalance
  toBalance : args.toBalance = e.toBalance

/-- A step of other programs: approvals are accounts of the hook, token states
keep their mint, and outside of a transfer no flag is up. -/
structure Unrelated (L L' : Ledger) : Prop where
  approvals : ∀ k, L'.view TransferApproval k = L.view TransferApproval k
  tokenMints : ∀ (k : Pubkey) (ts : TokenState), L.accounts k = account ts →
    ∃ ts' : TokenState, L'.accounts k = account ts' ∧ ts'.tokenMint = ts.tokenMint
  flags : FlagsDown L'

/-- Approvals by any signers, transfers that run the hook, direct calls of the
hook, and everything else. -/
inductive HookStep : Ledger → Event → Ledger → Prop
  | approve {L L' : Ledger} (signers : List Pubkey) (accts : ApproveTransferAccounts)
      (args : ApproveTransferArgs) :
      approveTransfer L signers accts args = .ok L' → HookStep L (.approved accts args) L'
  | transfer {L L' : Ledger} (signers : List Pubkey)
      (source mint destination authority : Pubkey) (additional : List Pubkey)
      (amount decimals : ℕ) (m : Mint) :
      source ≠ destination → L.accounts mint = account m →
        m.transferHook.bind TransferHook.programId = some hookProgram →
          transferChecked invokeHook L signers source mint destination authority additional amount
            decimals = .ok L' →
            HookStep L
              (.executed ⟨mint, source, destination, authority, amount, balance L mint source,
                balance L mint destination⟩) L'
  | direct {L L' : Ledger} (accts : ExecuteAccounts) (amount : ℕ) :
      executeTransferHook L accts amount = .ok L' →
        HookStep L
          (.executed ⟨accts.mint, accts.source, accts.destination, accts.authority, amount,
            balance L accts.mint accts.source, balance L accts.mint accts.destination⟩) L'
  | other {L L' : Ledger} : Unrelated L L' → HookStep L .other L'

/-! ## The store of pending approvals -/

/-- The approval pending under a key, with the mint of its token state. -/
def pending (L : Ledger) (k : Pubkey) : Option (Pubkey × TransferApproval) :=
  match L.view TransferApproval k with
  | some a =>
      if a.consumed then none
      else (L.view TokenState a.tokenState).map fun ts ↦ (ts.tokenMint, a)
  | none => none

/-- Every pending approval has its token state. -/
def Controlled (L : Ledger) : Prop :=
  ∀ (k : Pubkey) (a : TransferApproval), L.accounts k = account a → a.consumed = false →
    ∃ ts : TokenState, L.accounts a.tokenState = account ts

/-- What an event of the hook does to the store. -/
inductive Corresponds : Event → OneShot.Event Pubkey (Pubkey × TransferApproval) → Prop
  | approved (accts : ApproveTransferAccounts) (args : ApproveTransferArgs) :
      Corresponds (.approved accts args)
        (.grant accts.transferApproval (accts.tokenMintAccount, newApproval accts args))
  | executed (e : Execution) (k : Pubkey) (a : TransferApproval) :
      a.sourceTokenAccount = e.source → a.destinationTokenAccount = e.destination →
        a.authority = e.authority → a.amount = e.amount → a.fromBalance = e.fromBalance →
          a.toBalance = e.toBalance → Corresponds (.executed e) (.use k (e.mint, a))
  | other : Corresponds .other .other

variable {L L' : Ledger} {k : Pubkey}

theorem pending_of_account {a : TransferApproval} {ts : TokenState}
    (ha : L.accounts k = account a) (hts : L.accounts a.tokenState = account ts) :
    pending L k = if a.consumed then none else some (ts.tokenMint, a) := by
  simp [pending, view_eq_some.2 ha, view_eq_some.2 hts]

theorem pending_congr (happroval : L'.view TransferApproval k = L.view TransferApproval k)
    (hstate : ∀ x, L'.view TokenState x = L.view TokenState x) : pending L' k = pending L k := by
  simp only [pending, happroval, hstate]

theorem Controlled.of_views (h : Controlled L)
    (happroval : ∀ k (a : TransferApproval), L'.accounts k = account a → a.consumed = false →
      L.accounts k = account a)
    (hstate : ∀ x, L'.view TokenState x = L.view TokenState x) : Controlled L' := by
  intro k a ha hconsumed
  obtain ⟨ts, hts⟩ := h k a (happroval k a ha hconsumed) hconsumed
  exact ⟨ts, by rw [← view_eq_some, hstate, view_eq_some]; exact hts⟩

/-! ## Each step of the hook is a step of the store -/

/-- An approval writes the store under its key. -/
theorem pending_approve {signers : List Pubkey} {accts : ApproveTransferAccounts}
    {args : ApproveTransferArgs} (hc : Controlled L)
    (h : approveTransfer L signers accts args = .ok L') :
    Controlled L' ∧ pending L' = Function.update (pending L) accts.transferApproval
      (some (accts.tokenMintAccount, newApproval accts args)) := by
  obtain ⟨-, -, -, ⟨ts, hts, hmint⟩, -, hnew, hother, hframe⟩ := approveTransfer_ok h
  have hstate : ∀ x, L'.view TokenState x = L.view TokenState x := hframe.view_eq (by decide)
  have hts' : L'.accounts accts.tokenState = account ts := hframe.accounts_eq (by decide) hts
  constructor
  · intro x a ha hconsumed
    by_cases hx : x = accts.transferApproval
    · subst hx
      obtain rfl := account_inj.1 (ha.symm.trans hnew)
      exact ⟨ts, hts'⟩
    · obtain ⟨ts₀, hts₀⟩ := hc x a (hother x hx ▸ ha) hconsumed
      exact ⟨ts₀, by rw [← view_eq_some, hstate, view_eq_some]; exact hts₀⟩
  · funext x
    by_cases hx : x = accts.transferApproval
    · subst hx
      rw [Function.update_self, pending_of_account hnew hts', hmint]
      rfl
    · rw [Function.update_of_ne hx]
      exact pending_congr (view_congr (hother x hx)) hstate

/-- An execution takes the approval of its transfer out of the store. -/
theorem pending_executed {accts : ExecuteAccounts} {amount : ℕ} {approval : TransferApproval}
    {ts : TokenState} {m : Mint} {s d : TokenAccount} (hc : Controlled L)
    (h : Executed L L' accts amount approval ts m s d) :
    Controlled L' ∧ pending L accts.transferApproval = some (accts.mint, approval) ∧
      pending L' = Function.update (pending L) accts.transferApproval none := by
  have hstate : ∀ x, L'.view TokenState x = L.view TokenState x := h.frame.view_eq (by decide)
  have hafter := h.approval_after
  refine ⟨hc.of_views (fun x a ha hconsumed ↦ ?_) hstate, ?_, ?_⟩
  · by_cases hx : x = accts.transferApproval
    · subst hx
      obtain rfl := account_inj.1 (ha.symm.trans hafter)
      simp [consumeApproval] at hconsumed
    · rw [← view_eq_some, h.approval_other hx, view_eq_some] at ha
      exact ha
  · rw [pending_of_account h.approvalAt (h.approvalTokenState ▸ h.tokenStateAt), h.unconsumed,
      h.tokenMint]
    rfl
  · funext x
    by_cases hx : x = accts.transferApproval
    · subst hx
      simp [pending, view_eq_some.2 hafter, consumeApproval]
    · rw [Function.update_of_ne hx]
      exact pending_congr (h.approval_other hx) hstate

theorem pending_unrelated (hc : Controlled L) (h : Unrelated L L') :
    Controlled L' ∧ pending L' = pending L := by
  constructor
  · intro k a ha hconsumed
    rw [← view_eq_some, h.approvals, view_eq_some] at ha
    obtain ⟨ts, hts⟩ := hc k a ha hconsumed
    obtain ⟨ts', hts', -⟩ := h.tokenMints _ ts hts
    exact ⟨ts', hts'⟩
  · funext k
    simp only [pending, h.approvals]
    cases hview : L.view TransferApproval k with
    | none => rfl
    | some a =>
        by_cases hconsumed : a.consumed = true
        · simp [hconsumed]
        · obtain ⟨ts, hts⟩ := hc k a (view_eq_some.1 hview) (by simpa using hconsumed)
          obtain ⟨ts', hts', hmint⟩ := h.tokenMints _ ts hts
          simp [hconsumed, view_eq_some.2 hts, view_eq_some.2 hts', hmint]

/-- Frames without approvals, token states and token accounts are unrelated. -/
theorem pending_frame {S : List AccountKind} (hframe : Frame S L L')
    (hS : AccountKind.transferApproval ∉ S) (hS' : AccountKind.tokenState ∉ S)
    (hc : Controlled L) : Controlled L' ∧ pending L' = pending L := by
  have happroval : ∀ x, L'.view TransferApproval x = L.view TransferApproval x :=
    hframe.view_eq hS
  have hstate : ∀ x, L'.view TokenState x = L.view TokenState x := hframe.view_eq hS'
  refine ⟨hc.of_views (fun k a ha _ ↦ ?_) hstate, funext fun k ↦ pending_congr (happroval k) hstate⟩
  rwa [← view_eq_some, happroval, view_eq_some] at ha

theorem HookStep.simulates {e : Event} (hflags : FlagsDown L) (hc : Controlled L)
    (h : HookStep L e L') :
    (FlagsDown L' ∧ Controlled L') ∧
      ∃ e', Corresponds e e' ∧ OneShot.Step (pending L) e' (pending L') := by
  cases h with
  | approve signers accts args h =>
      obtain ⟨hc', hpending⟩ := pending_approve hc h
      refine ⟨⟨hflags.of_frame (approveTransfer_frame h (List.Subset.refl _)) (by decide), hc'⟩,
        _, .approved accts args, ?_⟩
      rw [hpending]
      exact .grant _ _ _
  | transfer signers source mint destination authority additional amount decimals m hne hm hhook
      h =>
      rcases transferChecked_ok h with ⟨heq, -⟩ |
        ⟨m', _, _, _, -, -, -, hm', -, -, -, -, hnone, -⟩ | ⟨program, m', a, a', b, L₂, hhooked⟩
      · exact absurd heq hne
      · obtain rfl := account_inj.1 (hm.symm.trans hm')
        rw [hhook] at hnone
        simp at hnone
      · obtain rfl := account_inj.1 (hm.symm.trans hhooked.mintAt)
        have hprogram := hhooked.hook
        rw [hhook] at hprogram
        obtain rfl := Option.some.inj hprogram
        obtain ⟨accts, approval, ts, rfl, rfl, rfl, rfl, hfrom, hto, hexecuted⟩ := hhooked.executed
        obtain ⟨hc₁, hpending₁⟩ := pending_frame hhooked.frame_moved (by decide) (by decide) hc
        obtain ⟨hc₂, huse, hpending₂⟩ := pending_executed hc₁ hexecuted
        obtain ⟨hc₃, hpending₃⟩ := pending_frame hhooked.frame_down (by decide) (by decide) hc₂
        refine ⟨⟨hhooked.flagsDown hflags, hc₃⟩, _,
          .executed _ accts.transferApproval approval hexecuted.approvalSource
            hexecuted.approvalDestination hexecuted.approvalAuthority hexecuted.approvalAmount
            ?_ ?_, ?_⟩
        · rw [hfrom, balance_of_account hhooked.sourceAt, if_pos hhooked.sourceMint]
        · rw [hto, balance_of_account hhooked.destinationAt, if_pos hhooked.destinationMint]
        · rw [hpending₃, hpending₂, hpending₁]
          exact .use _ _ _ (hpending₁ ▸ huse)
  | direct accts amount h =>
      obtain ⟨_, _, _, s, _, hexecuted⟩ := executeTransferHook_ok h
      exact absurd hexecuted.sourceFlag (hflags _ s hexecuted.sourceAt)
  | other h =>
      obtain ⟨hc', hpending⟩ := pending_unrelated hc h
      refine ⟨⟨h.flags, hc'⟩, _, .other, ?_⟩
      rw [hpending]
      exact .other _

/-! ## The matching -/

/-- Corresponding histories have corresponding events at each index. -/
theorem corresponds_getElem? {events : List Event}
    {events' : List (OneShot.Event Pubkey (Pubkey × TransferApproval))}
    (h : List.Forall₂ Corresponds events events') {i : ℕ} {e : Event}
    (he : events[i]? = some e) : ∃ e', events'[i]? = some e' ∧ Corresponds e e' := by
  induction h generalizing i with
  | nil => simp at he
  | cons hhead _ ih =>
      cases i with
      | zero =>
          obtain rfl : _ = e := by simpa using he
          exact ⟨_, by simp, hhead⟩
      | succ i => simpa using ih (by simpa using he)

theorem corresponds_getElem?' {events : List Event}
    {events' : List (OneShot.Event Pubkey (Pubkey × TransferApproval))}
    (h : List.Forall₂ Corresponds events events') {i : ℕ}
    {e' : OneShot.Event Pubkey (Pubkey × TransferApproval)}
    (he : events'[i]? = some e') : ∃ e, events[i]? = some e ∧ Corresponds e e' := by
  induction h generalizing i with
  | nil => simp at he
  | cons hhead _ ih =>
      cases i with
      | zero =>
          obtain rfl : _ = e' := by simpa using he
          exact ⟨_, by simp, hhead⟩
      | succ i => simpa using ih (by simpa using he)

/-- Every execution is matched with a distinct earlier approval of exactly that
transfer, which has recorded the balances just before it. -/
def ExecutionsMatched (events : List Event) : Prop :=
  ∃ m : ℕ → ℕ,
    (∀ j e, events[j]? = some (.executed e) → m j < j ∧ ∃ accts args,
      events[m j]? = some (.approved accts args) ∧ Approves accts args e) ∧
    ∀ j j' e e', events[j]? = some (.executed e) → events[j']? = some (.executed e') →
      m j = m j' → j = j'

/-- In every interleaving that starts without pending approvals the executions
are matched. -/
theorem executions_matched {events : List Event} (hrun : Run HookStep L events L')
    (hflags : FlagsDown L)
    (hconsumed : ∀ (k : Pubkey) (a : TransferApproval), L.accounts k = account a →
      a.consumed = true) : ExecutionsMatched events := by
  have hc : Controlled L := fun k a ha hfalse ↦ by simp [hconsumed k a ha] at hfalse
  obtain ⟨events', hevents, hrun'⟩ := hrun.simulate (P := fun L ↦ FlagsDown L ∧ Controlled L)
    (f := pending) (R := Corresponds) (fun _ _ _ hinv hstep ↦ hstep.simulates hinv.1 hinv.2)
    ⟨hflags, hc⟩
  have hempty : pending L = fun _ ↦ none := by
    funext k
    unfold pending
    split
    case h_1 a ha => simp [hconsumed k a (view_eq_some.1 ha)]
    case h_2 => rfl
  rw [hempty] at hrun'
  obtain ⟨m, hm⟩ := OneShot.exists_matching hrun'
  have huse : ∀ (j : ℕ) (e : Execution), events[j]? = some (Event.executed e) →
      ∃ k a, events'[j]? = some (OneShot.Event.use k (e.mint, a)) ∧
        Corresponds (.executed e) (.use k (e.mint, a)) := by
    intro j e he
    obtain ⟨e', he', hcorr⟩ := corresponds_getElem? hevents he
    have hcorr' := hcorr
    cases hcorr' with
    | executed _ k a => exact ⟨k, a, he', hcorr⟩
  refine ⟨m, fun j e he ↦ ?_, fun j j' e e' he he' heq ↦ ?_⟩
  · obtain ⟨k, a, hj, hcorr⟩ := huse j e he
    obtain ⟨hlt, hgrant⟩ := hm.earlier j k _ hj
    obtain ⟨e₀, he₀, hcorr₀⟩ := corresponds_getElem?' hevents hgrant
    -- the grant is an approval that has written the approval used
    cases hcorr with
    | executed _ _ _ hsource hdestination hauthority hamount hfrom hto =>
        generalize hv : (e.mint, a) = v at hcorr₀
        cases hcorr₀ with
        | approved accts args =>
            obtain ⟨hmint, rfl⟩ := Prod.mk.inj hv
            exact ⟨hlt, accts, args, he₀,
              ⟨hmint.symm, hsource, hdestination, hauthority, hamount, hfrom, hto⟩⟩
  · obtain ⟨k, a, hj, -⟩ := huse j e he
    obtain ⟨k', a', hj', -⟩ := huse j' e' he'
    exact hm.injective j j' _ _ _ _ hj hj' heq

/-! ## One approval and its execution -/

def seller : Holding := ⟨.address 10, .address 11, 10⟩

def buyer : Holding := ⟨.address 20, .address 21, 0⟩

def saleDeployment : Deployment where
  tokenMint := .address 0
  issuer := .address 1
  paused := false
  modules := []
  modulesPaused := false
  metas := baseMetas
  wallets := [(seller.wallet, 276), (buyer.wallet, 276)]
  holdings := [seller, buyer]

def saleAccounts : ApproveTransferAccounts :=
  Token.approvalAccounts
    (saleDeployment.transferAccounts seller buyer .default .default .default [])

def saleArgs : ApproveTransferArgs where
  sourceWallet := seller.wallet
  destinationWallet := buyer.wallet
  authority := seller.wallet
  amount := 3
  fromBalance := 10
  toBalance := 0
  fromCountry := 276
  toCountry := 276
  kind := transferApprovalKindTransfer

theorem sale_matched : ExecutionsMatched
    [.approved saleAccounts saleArgs,
      .executed ⟨saleDeployment.tokenMint, seller.key, buyer.key, seller.wallet, 3, 10, 0⟩] := by
  obtain ⟨L₁, L₂, happrove, htransfer⟩ : ∃ L₁ L₂ : Ledger,
      approveTransfer (saleDeployment.ledger []) [saleDeployment.tokenState, seller.wallet]
        saleAccounts saleArgs = .ok L₁ ∧
      transferChecked invokeHook L₁ [seller.wallet] seller.key saleDeployment.tokenMint buyer.key
        seller.wallet (saleDeployment.hookAccounts seller.key buyer.key seller.wallet) 3 0 =
          .ok L₂ := ⟨_, _, rfl, rfl⟩
  have hframe := approveTransfer_frame happrove (List.Subset.refl _)
  have hmint : L₁.accounts saleDeployment.tokenMint = account saleDeployment.mintRecord :=
    hframe.accounts_eq (by decide) rfl
  have hstep := HookStep.transfer _ _ _ _ _ _ _ _ _ (by decide) hmint rfl htransfer
  rw [balance_frame hframe (by decide)] at hstep
  have hrun : Run HookStep (saleDeployment.ledger []) _ L₂ :=
    .cons (.approve _ _ _ happrove) (.single hstep)
  exact executions_matched hrun (saleDeployment.flagsDown (by simp))
    fun k a ha ↦ absurd ha (saleDeployment.not_account (by simp) (by decide) k a)

end Fracks.TokenHook
