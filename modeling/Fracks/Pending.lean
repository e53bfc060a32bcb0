import Fracks.Movements
import Fracks.Token.Approvals

/-!
# Pending approvals of a token

Between its approval and its execution a transfer exists only as an approval
that is not consumed.  Which instructions leave such an approval behind, and
what an execution finds in the one it uses, is said here once for all that is
proved about transfers in two steps.
-/

namespace Fracks

open Checked AccountType Ledger TokenHook Token2022 Compliance

/-- The approval `a` at `k` is for a transfer of `T` and not consumed. -/
structure PendingAt (T : Pubkey) (L : Ledger) (k : Pubkey) (a : TransferApproval) : Prop where
  loaded : L.accounts k = account a
  unconsumed : a.consumed = false
  tokenState : a.tokenState = Token.tokenStateAddress T

/-- The two steps of a transfer by the owner: its approval and its execution. -/
def Instruction.Transfers (T : Pubkey) : Instruction → Prop
  | .token (.transfer accts _ _ _) => accts.tokenState = Token.tokenStateAddress T
  | .token2022 (.transferChecked _ mint _ _ _ _ _) => mint = T
  | _ => False

variable {L L' L₁ L₂ : Ledger} {T k : Pubkey} {a : TransferApproval} {signers : List Pubkey}
  {S : List AccountKind}

theorem PendingAt.of_view (h : PendingAt T L' k a)
    (hview : L'.view TransferApproval k = L.view TransferApproval k) : PendingAt T L k a := by
  refine ⟨?_, h.unconsumed, h.tokenState⟩
  rw [← view_eq_some, ← hview, view_eq_some]
  exact h.loaded

theorem PendingAt.of_frame (h : PendingAt T L' k a) (hframe : Frame S L L')
    (hS : AccountKind.transferApproval ∉ S) : PendingAt T L k a :=
  h.of_view (hframe.view_eq hS k)

/-! ## Approvals and executions -/

/-- What is pending after an approval is the approval itself or was pending
before. -/
theorem PendingAt.approved {accts : ApproveTransferAccounts} {args : ApproveTransferArgs}
    (h : PendingAt T L' k a) (happrove : approveTransfer L signers accts args = .ok L') :
    PendingAt T L k a ∨
      (k = accts.transferApproval ∧ a = newApproval accts args ∧
        accts.tokenState = Token.tokenStateAddress T) := by
  obtain ⟨-, -, -, -, -, hnew, hother, -⟩ := approveTransfer_ok happrove
  by_cases hk : k = accts.transferApproval
  · subst hk
    obtain rfl := account_inj.1 (h.loaded.symm.trans hnew)
    exact .inr ⟨rfl, rfl, h.tokenState⟩
  · exact .inl ⟨(hother k hk).symm.trans h.loaded, h.unconsumed, h.tokenState⟩

/-- An execution leaves no new approval. -/
theorem PendingAt.executed {accts : ExecuteAccounts} {amount : ℕ} {approval : TransferApproval}
    {ts : TokenState} {m : Mint} {s d : TokenAccount} (h : PendingAt T L' k a)
    (hexecuted : Executed L L' accts amount approval ts m s d) : PendingAt T L k a := by
  by_cases hk : k = accts.transferApproval
  · subst hk
    obtain rfl := account_inj.1 (h.loaded.symm.trans hexecuted.approval_after)
    exact nomatch h.unconsumed
  · exact h.of_view (hexecuted.approval_other hk)

theorem PendingAt.hooked {call : HookCall} (h : PendingAt T L' k a)
    (hinvoke : invokeHook L call = .ok L') : PendingAt T L k a := by
  rcases invokeHook_ok hinvoke with ⟨-, accts, -, -, -, -, hexecute⟩ | ⟨-, rfl⟩
  · obtain ⟨_, _, _, _, _, hexecuted⟩ := executeTransferHook_ok hexecute
    exact h.executed hexecuted
  · exact h

theorem PendingAt.transferred {source mintKey destination authority : Pubkey}
    {additional : List Pubkey} {amount decimals : ℕ} (h : PendingAt T L' k a)
    (htransfer : transferChecked invokeHook L signers source mintKey destination authority
      additional amount decimals = .ok L') : PendingAt T L k a := by
  rcases transferChecked_ok htransfer with ⟨-, rfl⟩ |
    ⟨m, _, _, _, hne, ha, hb, -, -, -, -, -, -, rfl⟩ | ⟨_, _, _, _, _, _, hhooked⟩
  · exact h
  · exact h.of_frame (frame_put_pair hne ha hb) (by decide)
  · have hbefore := h.of_frame hhooked.frame_down (by decide)
    exact (hbefore.hooked hhooked.invoked).of_frame hhooked.frame_moved (by decide)

/-- The transfers that a token program makes are the only ones of its
instructions that touch approvals. -/
theorem PendingAt.token2022 {i : Token2022.Instruction} (h : PendingAt T L' k a)
    (hprocess : Token2022.process L signers i = .ok L') : PendingAt T L k a := by
  cases hmoves : i.moves with
  | false => exact h.of_frame (Token2022.process_quiet hprocess hmoves).frame (by decide)
  | true =>
      cases i with
      | mintTo => exact h.of_frame (Token2022.frame_mintTo hprocess) (by decide)
      | burn => exact h.of_frame (Token2022.frame_burn hprocess) (by decide)
      | transferChecked => exact h.transferred hprocess
      | transfer =>
          rcases Token2022.transfer_ok hprocess with ⟨-, rfl⟩ |
            ⟨_, _, _, hne, ha, hb, -, -, -, -, rfl⟩
          · exact h
          · exact h.of_frame (frame_put_pair hne ha hb) (by decide)
      | _ => exact nomatch hmoves

/-! ## What leaves an approval behind -/

/-- The instruction has written the approval `a` of `T`: a transfer, which stops
there, or a transfer by the controller. -/
inductive Granted [Borsh] (T : Pubkey) (L : Ledger) : Instruction → TransferApproval → Prop
  | transfer (signers : List Pubkey) (L' : Ledger) (accts : Token.TransferEvaluation)
      (amount fromBalance toBalance fromCountry toCountry : ℕ) (ts : TokenState)
      (s d : TokenAccount) :
      Token.Approved L L' signers accts amount fromBalance toBalance ts s d fromCountry toCountry →
        (∃ n, Token.FreezesRead L ts accts n ∧ amount ≤ fromBalance - n) →
          accts.tokenState = Token.tokenStateAddress T →
            Granted T L (.token (.transfer accts amount fromBalance toBalance))
              (newApproval (Token.approvalAccounts accts)
                (Token.approvalArgs accts amount fromBalance toBalance fromCountry toCountry))
  | forcedTransfer (signers : List Pubkey) (L₁ L₂ : Ledger) (operator : Token.OperatorAccounts)
      (fromPartialFreeze : Pubkey) (accts : Token.ControllerTransferAccounts)
      (source destination : Pubkey) (amount fromBalance toBalance fromCountry toCountry : ℕ)
      (ts : TokenState) (s d : TokenAccount) :
      Token.ControllerApproved L L₁ L₂ signers operator accts ts s d
          (Token.controllerArgs operator source destination amount fromBalance toBalance fromCountry
            toCountry transferApprovalKindForced) →
        Token.evaluateCompliance L ts accts.complianceState accts.remaining source amount toBalance
            fromCountry toCountry = .ok () →
          operator.tokenState = Token.tokenStateAddress T →
            Granted T L (.token (.forcedTransfer operator fromPartialFreeze accts source destination
                amount fromBalance toBalance))
              (newApproval (Token.controllerApprovalAccounts operator accts)
                (Token.controllerArgs operator source destination amount fromBalance toBalance
                  fromCountry toCountry transferApprovalKindForced))
  | recovery (signers : List Pubkey) (L₁ L₂ : Ledger) (operator : Token.OperatorAccounts)
      (irsProgram : Pubkey) (accts : Token.ControllerTransferAccounts)
      (lostWallet newWallet : Pubkey) (amount fromCountry toCountry : ℕ)
      (ts : TokenState) (s d : TokenAccount) :
      Token.ControllerApproved L L₁ L₂ signers operator accts ts s d
          (Token.controllerArgs operator lostWallet newWallet amount s.amount d.amount fromCountry
            toCountry transferApprovalKindRecovery) →
        operator.tokenState = Token.tokenStateAddress T →
          Granted T L (.token (.recovery operator irsProgram accts lostWallet newWallet amount))
            (newApproval (Token.controllerApprovalAccounts operator accts)
              (Token.controllerArgs operator lostWallet newWallet amount s.amount d.amount
                fromCountry toCountry transferApprovalKindRecovery))

section Process

variable [Borsh]

theorem TokenInstruction.pending {i : TokenInstruction} (h : i.process L signers = .ok L')
    (ha : PendingAt T L' k a) : PendingAt T L k a ∨ Granted T L (.token i) a := by
  cases i with
  | transfer accts amount fromBalance toBalance =>
      obtain ⟨ts, s, d, fromCountry, toCountry, happroved, hfreezes⟩ := Token.transfer_eq_ok.1 h
      rcases ha.approved happroved.approves with hbefore | ⟨-, rfl, hstate⟩
      · exact .inl hbefore
      · exact .inr (.transfer _ _ _ _ _ _ _ _ _ _ _ happroved hfreezes hstate)
  | forcedTransfer operator fromPartialFreeze accts source destination amount fromBalance
      toBalance =>
      obtain ⟨ts, s, d, fromCountry, toCountry, L₁, L₂, happroved, -, -, hcomplies, record, hrecord,
        record', -, rfl⟩ := Token.forcedTransfer_approved h
      obtain ⟨_, _, htransfer⟩ := happroved.transfers
      have hreleased : Frame [.partialFreeze] L₂ (L₂.put fromPartialFreeze record') :=
        .put hrecord (by decide)
      have hmoved := (ha.of_frame hreleased (by decide)).transferred htransfer
      rcases hmoved.approved happroved.approves with hbefore | ⟨-, rfl, hstate⟩
      · exact .inl hbefore
      · exact .inr (.forcedTransfer _ _ _ _ _ _ _ _ _ _ _ _ _ _ _ _ happroved hcomplies hstate)
  | recovery operator irsProgram accts lostWallet newWallet amount =>
      obtain ⟨ts, s, d, fromCountry, toCountry, L₁, happroved, -⟩ := Token.recovery_approved h
      obtain ⟨_, _, htransfer⟩ := happroved.transfers
      rcases (ha.transferred htransfer).approved happroved.approves with hbefore | ⟨-, rfl, hstate⟩
      · exact .inl hbefore
      · exact .inr (.recovery _ _ _ _ _ _ _ _ _ _ _ _ _ _ happroved hstate)
  | _ =>
      exact .inl (ha.of_frame (TokenInstruction.frame h)
        (by simp [TokenInstruction.kinds, Irs.identityKinds]))

omit [Borsh] in
/-- Nobody but the controller approves transfers of `T`. -/
theorem HookInstruction.pending {i : HookInstruction} (h : i.process L signers = .ok L')
    (hexternal : ∀ k ∈ signers, k.External) (ha : PendingAt T L' k a) : PendingAt T L k a := by
  cases i with
  | approveTransfer accts args =>
      rcases ha.approved h with hbefore | ⟨-, -, hstate⟩
      · exact hbefore
      · -- the token state does not sign a transaction
        obtain ⟨-, hsigned, -⟩ := approveTransfer_ok h
        rw [hstate] at hsigned
        exact absurd (hexternal _ hsigned) not_external_tokenStateAddress
  | executeTransferHook =>
      obtain ⟨_, _, _, _, _, hexecuted⟩ := executeTransferHook_ok h
      exact ha.executed hexecuted
  | _ => exact ha.of_frame (HookInstruction.frame h) (by simp [HookInstruction.kinds])

/-- What is pending after an instruction was pending before, or the instruction
has written it. -/
theorem process_pending {i : Instruction} (h : process L signers i = .ok L')
    (hexternal : ∀ k ∈ signers, k.External) (ha : PendingAt T L' k a) :
    PendingAt T L k a ∨ Granted T L i.core a := by
  induction i with
  | token i => exact TokenInstruction.pending h ha
  | hook i => exact .inl (HookInstruction.pending h hexternal ha)
  | compliance i =>
      have hframe := ComplianceInstruction.frame h
      exact .inl (ha.of_frame hframe
        (by cases i <;> simp [ComplianceInstruction.kinds, PostHook.kinds]))
  | module i =>
      have hframe := ModuleInstruction.frame h
      exact .inl (ha.of_frame hframe (by cases i <;> simp [ModuleInstruction.kinds]))
  | token2022 i => exact .inl (ha.token2022 h)
  | createTokenMint =>
      exact .inl (ha.of_frame (Factory.frame_createTokenMint h) (by decide))
  | callModuleFunction owner complianceState inner ih =>
      obtain ⟨_, -, hinner⟩ := bind_eq_ok.1 h
      exact ih hinner

end Process

/-! ## What an execution uses -/

/-- A transfer of `T` that has used the approval `a` at `k`: the balances it has
found, and the post-hook with the wallet and the countries of the approval. -/
structure Uses (T : Pubkey) (L L' : Ledger) (source destination authority : Pubkey) (n : ℕ)
    (k : Pubkey) (a : TransferApproval) : Prop where
  pending : PendingAt T L k a
  key : k = approvalAddress source destination authority
  sourceAccount : a.sourceTokenAccount = source
  destinationAccount : a.destinationTokenAccount = destination
  authority : a.authority = authority
  amount : a.amount = n
  fromBalance : a.fromBalance = balance L T source
  toBalance : a.toBalance = balance L T destination
  consumed : L'.accounts k = account (consumeApproval a)
  booked : Booked T (complianceAddress T) (.moved source destination n) L L'
  posted : ∃ L₁ L₂ remaining, Frame [.tokenAccount] L L₁ ∧ L₁.now = L.now ∧
    Compliance.transferred L₁ (complianceAddress T) remaining a.sourceWallet n
      (balance L T source - n) (balance L T destination + n) a.fromCountry a.toCountry = .ok L₂ ∧
        Frame [.tokenAccount, .transferApproval] L₂ L'

variable {source destination authority : Pubkey} {additional : List Pubkey} {amount decimals : ℕ}

theorem Token2022.HookedTransfer.uses {m : Mint} {x x' y : TokenAccount} {L₂ : Ledger}
    (hT : Anchored T L)
    (h : HookedTransfer L L' signers source T destination authority additional amount hookProgram
      m x x' y L₂) :
    ∃ k a, Uses T L L' source destination authority amount k a := by
  obtain ⟨accts, a, ts, rfl, hmint, rfl, rfl, hfrom, hto, hexecuted⟩ := h.executed
  have hback : ∀ {α : Type} [AccountType α], kind α ∉ [AccountKind.tokenAccount] →
      ∀ {k : Pubkey} {r : α}, (movedLedger L accts.source accts.destination (debited x x' amount)
        (credited y amount)).accounts k = account r → L.accounts k = account r := by
    intro α _ hα k r hr
    rw [← view_eq_some, h.frame_moved.view_eq hα, view_eq_some] at hr
    exact hr
  have hts := hback (by decide) hexecuted.tokenStateAt
  have hstate : accts.tokenState = Token.tokenStateAddress T := by
    rw [hT.wellFormed.tokenStates _ _ hts, hexecuted.tokenMint, hmint]
  have hcompliance := (hT.compliance (hstate ▸ hts)).2
  have hsource : x.amount = balance L T accts.source := by
    rw [balance_of_account h.sourceAt, if_pos h.sourceMint]
  have hdestination : y.amount = balance L T accts.destination := by
    rw [balance_of_account h.destinationAt, if_pos h.destinationMint]
  have hafter : L'.accounts accts.transferApproval = account (consumeApproval a) :=
    h.frame_down.accounts_eq (by decide) hexecuted.approval_after
  obtain ⟨L₁, hrouter, hresult⟩ := hexecuted.routed
  have happroval : Frame [.transferApproval] L₁ L₂ := by
    rw [hresult]
    obtain ⟨state, hstep⟩ := Compliance.transferred_step hrouter
    exact .put (hstep.frame.accounts_eq (by decide) hexecuted.approvalAt) (by decide)
  rw [hcompliance] at hrouter
  have hbooked : Booked T (complianceAddress T) (.moved accts.source accts.destination amount)
      L L' := by
    obtain ⟨_, ts', hts', hmint', hdelegate', hbooked⟩ := h.booked
    have hstate' := hT.wellFormed.tokenStates _ _ hts'
    rw [hmint'] at hstate'
    exact (hT.compliance (hstate' ▸ hts')).2 ▸ hbooked
  refine ⟨accts.transferApproval, a, ?_⟩
  exact
    { pending := ⟨hback (by decide) hexecuted.approvalAt, hexecuted.unconsumed,
        hexecuted.approvalTokenState.trans hstate⟩
      key := hexecuted.approvalKey
      sourceAccount := hexecuted.approvalSource
      destinationAccount := hexecuted.approvalDestination
      authority := hexecuted.approvalAuthority
      amount := hexecuted.approvalAmount
      fromBalance := hfrom.trans hsource
      toBalance := hto.trans hdestination
      consumed := hafter
      booked := hbooked
      posted := ⟨_, L₁, accts.remaining, h.frame_moved, rfl, hsource ▸ hdestination ▸ hrouter,
        (happroval.mono (by decide)).trans (h.frame_down.mono (by decide))⟩ }

/-- A transfer of `T` between different accounts uses a pending approval. -/
theorem Anchored.uses (hT : Anchored T L)
    (h : transferChecked invokeHook L signers source T destination authority additional amount
      decimals = .ok L') :
    (source = destination ∧ L' = L) ∨
      source ≠ destination ∧ ∃ k a, Uses T L L' source destination authority amount k a := by
  obtain ⟨m₀, hm₀, -, -, hprogram⟩ := hT.control.mint
  rcases transferChecked_ok h with hsame | ⟨m, _, _, _, -, -, -, hm, -, -, -, -, hnone, -⟩ |
    ⟨program, m, x, x', y, L₂, hhooked⟩
  · exact .inl hsame
  · obtain rfl := account_inj.1 (hm₀.symm.trans hm)
    rw [hnone] at hprogram
    exact nomatch hprogram
  · obtain rfl := account_inj.1 (hm₀.symm.trans hhooked.mintAt)
    obtain rfl := Option.some.inj (hhooked.hook.symm.trans hprogram)
    exact .inr ⟨hhooked.ne, hhooked.uses hT⟩

end Fracks
