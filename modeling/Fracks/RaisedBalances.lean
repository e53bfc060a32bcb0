import Fracks.Pending
import Fracks.Routes

/-!
# Raised balances

A balance of a token goes up by a mint, which the router has booked, or by a
transfer, which has used an approval with the balance and the amount it adds.
-/

namespace Fracks

open Checked AccountType Ledger TokenHook Token2022 Compliance

variable {L L' L₁ L₂ : Ledger} {T : Pubkey} {signers : List Pubkey}
  {source destination authority : Pubkey} {additional : List Pubkey} {amount decimals : ℕ}

/-! ## Movements -/

/-- The movement adds tokens at `x`. -/
def Movement.Delivers (x : Pubkey) : Movement → Prop
  | .minted k n => k = x ∧ 0 < n
  | .burned .. => False
  | .moved _ d n => d = x ∧ 0 < n

theorem Movement.Applies.delivers {v : Movement} {x : Pubkey} (h : v.Applies T L L')
    (hx : balance L T x < balance L' T x) : v.Delivers x := by
  cases v with
  | minted k n =>
      obtain ⟨hbalance, -⟩ := h
      by_cases hk : x = k
      · subst hk
        rw [hbalance, Tally.credit, Function.update_self] at hx
        exact ⟨rfl, by omega⟩
      · rw [hbalance, Tally.credit_of_ne hk] at hx
        exact absurd hx (Nat.lt_irrefl _)
  | burned k n =>
      obtain ⟨-, -, hbalance, -⟩ := h
      by_cases hk : x = k
      · subst hk
        rw [hbalance, Tally.debit, Function.update_self] at hx
        omega
      · rw [hbalance, Tally.debit_of_ne hk] at hx
        exact absurd hx (Nat.lt_irrefl _)
  | moved s d n =>
      obtain ⟨hne, -, hbalance, -⟩ := h
      by_cases hd : x = d
      · subst hd
        rw [hbalance, Tally.credit, Function.update_self, Tally.debit_of_ne hne] at hx
        exact ⟨rfl, by omega⟩
      · rw [hbalance, Tally.credit_of_ne hd] at hx
        by_cases hs : x = s
        · subst hs
          rw [Tally.debit, Function.update_self] at hx
          omega
        · rw [Tally.debit_of_ne hs] at hx
          exact absurd hx (Nat.lt_irrefl _)

/-- The balance at the destination after a move. -/
theorem Movement.Applies.credited {s d : Pubkey} {n : ℕ}
    (h : (Movement.moved s d n).Applies T L L') : balance L' T d = balance L T d + n := by
  obtain ⟨hne, -, hbalance, -⟩ := h
  rw [hbalance, Tally.credit, Function.update_self, Tally.debit_of_ne hne]

/-- Why a balance of `T` has gone up: by a mint, booked under the compliance
state of `T`, or by a transfer with an approval that was pending or has been
written in the same instruction. -/
inductive Raises [Borsh] (T : Pubkey) (i : Instruction) (L L' : Ledger) (x : Pubkey) : Prop
  | minted (n : ℕ) : Booked T (complianceAddress T) (.minted x n) L L' → Raises T i L L' x
  | moved (k : Pubkey) (a : TransferApproval) :
      PendingAt T L k a ∨ Granted T L i a → a.destinationTokenAccount = x →
        balance L' T x = a.toBalance + a.amount → Raises T i L L' x

section Raised

variable [Borsh] {x : Pubkey} {state : ComplianceState} {i : Instruction}

theorem Token.Issue.raises {ts : TokenState} {accts : Token.ReceiverAccounts}
    {n country : ℕ} {d : TokenAccount} (h : Token.Issue L L' ts accts n country d L₁ L₂)
    (hT : Anchored T L) (hstate : L.accounts (complianceAddress T) = account state)
    (hx : balance L T x < balance L' T x) : Raises T i L L' x := by
  by_cases hts : ts.tokenMint = T
  · have hbooked := h.booked_home hT hstate hts
    obtain ⟨rfl, -⟩ := hbooked.applies.delivers hx
    exact .minted n hbooked
  · rw [(h.moves.others T (Ne.symm hts)).1] at hx
    exact absurd hx (Nat.lt_irrefl _)

omit [Borsh] in
theorem Token.Redemption.not_raised {ts : TokenState} {accts : Token.BurnAccounts}
    {n country : ℕ} {s : TokenAccount} (h : Token.Redemption L L' ts accts n country s L₁) :
    ¬ balance L T x < balance L' T x := by
  intro hx
  by_cases hts : ts.tokenMint = T
  · have happlies : (Movement.burned accts.sourceTokenAccount n).Applies T L L' :=
      hts ▸ h.moves.applies
    exact happlies.delivers hx
  · rw [(h.moves.others T (Ne.symm hts)).1] at hx
    exact absurd hx (Nat.lt_irrefl _)

omit [Borsh] in
/-- The approval that has raised a balance. -/
theorem Anchored.raised_uses (hT : Anchored T L)
    (h : transferChecked invokeHook L signers source T destination authority additional amount
      decimals = .ok L') (hx : balance L T x < balance L' T x) :
    ∃ k a, PendingAt T L k a ∧ a.destinationTokenAccount = x ∧
      balance L' T x = a.toBalance + a.amount := by
  rcases hT.uses h with ⟨-, rfl⟩ | ⟨-, k, a, huses⟩
  · exact absurd hx (Nat.lt_irrefl _)
  · obtain ⟨rfl, -⟩ := huses.booked.applies.delivers hx
    refine ⟨k, a, huses.pending, huses.destinationAccount, ?_⟩
    rw [huses.booked.applies.credited, huses.toBalance, huses.amount]

omit [Borsh] in
/-- A transfer by the controller raises a balance by the approval it has written
or by an older one. -/
theorem Token.ControllerApproved.raised {operator : Token.OperatorAccounts}
    {accts : Token.ControllerTransferAccounts} {ts : TokenState} {s d : TokenAccount}
    {args : ApproveTransferArgs}
    (h : Token.ControllerApproved L L₁ L₂ signers operator accts ts s d args) (hT : Anchored T L)
    (hx : balance L T x < balance L₂ T x) :
    ∃ k a, (PendingAt T L k a ∨
        (a = newApproval (Token.controllerApprovalAccounts operator accts) args ∧
          operator.tokenState = Token.tokenStateAddress T)) ∧
      a.destinationTokenAccount = x ∧ balance L₂ T x = a.toBalance + a.amount := by
  obtain ⟨_, _, htransfer⟩ := h.transfers
  have hframe := approveTransfer_frame h.approves (List.Subset.refl _)
  rw [← balance_frame hframe (by decide)] at hx
  by_cases hts : ts.tokenMint = T
  · rw [hts] at htransfer
    have hT₁ := hT.of_frame hframe (by decide) (by decide) (by decide)
    obtain ⟨k, a, hpending, hdestination, hbalance⟩ := hT₁.raised_uses htransfer hx
    refine ⟨k, a, ?_, hdestination, hbalance⟩
    exact (hpending.approved h.approves).imp_right fun hnew ↦ hnew.2
  · rw [((transferChecked_moves htransfer).others T (Ne.symm hts)).1] at hx
    exact absurd hx (Nat.lt_irrefl _)

theorem TokenInstruction.raises {j : TokenInstruction} (h : j.process L signers = .ok L')
    (hT : Anchored T L) (hstate : L.accounts (complianceAddress T) = account state)
    (hx : balance L T x < balance L' T x) : Raises T (.token j) L L' x := by
  cases j with
  | mint =>
      obtain ⟨_, _, _, _, _, hissue⟩ := Token.mint_ok h
      exact hissue.raises hT hstate hx
  | purchaseMint =>
      obtain ⟨_, _, _, _, _, hissue⟩ := Token.purchaseMint_ok h
      exact hissue.raises hT hstate hx
  | settleSubscriptionMint =>
      obtain ⟨_, _, _, _, _, _, hissue⟩ := Token.settleSubscriptionMint_ok h
      exact hissue.raises hT hstate hx
  | burn =>
      obtain ⟨_, _, _, _, -, -, hredeemed⟩ := Token.burn_ok h
      exact absurd hx hredeemed.not_raised
  | forcedTransfer operator fromPartialFreeze =>
      obtain ⟨ts, s, d, _, _, L₁, L₂, happroved, -, -, hcomplies, record, hrecord, record', -,
        rfl⟩ := Token.forcedTransfer_approved h
      have hreleased : Frame [.partialFreeze] L₂ (L₂.put fromPartialFreeze record') :=
        .put hrecord (by decide)
      have hsame := congrFun (balance_frame hreleased (by decide)) T
      rw [hsame] at hx
      obtain ⟨k, a, hgranted, hdestination, hbalance⟩ := happroved.raised hT hx
      refine .moved k a (hgranted.imp_right ?_) hdestination (hsame ▸ hbalance)
      rintro ⟨rfl, hoperator⟩
      exact .forcedTransfer _ _ _ _ _ _ _ _ _ _ _ _ _ _ _ _ happroved hcomplies hoperator
  | recovery =>
      obtain ⟨ts, s, d, _, _, L₁, happroved, -⟩ := Token.recovery_approved h
      obtain ⟨k, a, hgranted, hdestination, hbalance⟩ := happroved.raised hT hx
      refine .moved k a (hgranted.imp_right ?_) hdestination hbalance
      rintro ⟨rfl, hoperator⟩
      exact .recovery _ _ _ _ _ _ _ _ _ _ _ _ _ _ happroved hoperator
  | _ =>
      have hbooks := process_books (i := .token _) h rfl
      rw [congrFun hbooks.balance T] at hx
      exact absurd hx (Nat.lt_irrefl _)

omit [Borsh] in
theorem Token2022.raised {j : Token2022.Instruction} (h : Token2022.process L signers j = .ok L')
    (hexternal : ∀ k ∈ signers, k.External) (hT : Anchored T L)
    (hx : balance L T x < balance L' T x) :
    ∃ k a, PendingAt T L k a ∧ a.destinationTokenAccount = x ∧
      balance L' T x = a.toBalance + a.amount := by
  cases hj : j.moves with
  | false =>
      rw [((Token2022.process_quiet h hj).books T).1] at hx
      exact absurd hx (Nat.lt_irrefl _)
  | true =>
      cases j with
      | mintTo mint destination authority n decimals =>
          by_cases hmint : mint = T
          · subst hmint
            exact absurd h (hT.not_mintTo hexternal)
          · rw [((mintTo_applies h).2 T (Ne.symm hmint)).1] at hx
            exact absurd hx (Nat.lt_irrefl _)
      | burn source mint authority n decimals =>
          by_cases hmint : mint = T
          · subst hmint
            exact absurd ((burn_applies h).1.delivers hx) id
          · rw [((burn_applies h).2 T (Ne.symm hmint)).1] at hx
            exact absurd hx (Nat.lt_irrefl _)
      | transferChecked source mint destination authority additional n decimals =>
          by_cases hmint : mint = T
          · subst hmint
            exact hT.raised_uses h hx
          · rw [((transferChecked_moves h).others T (Ne.symm hmint)).1] at hx
            exact absurd hx (Nat.lt_irrefl _)
      | transfer source destination authority n =>
          rcases hT.unhooked h with rfl | ⟨-, hbalance⟩
          · exact absurd hx (Nat.lt_irrefl _)
          · rw [hbalance] at hx
            exact absurd hx (Nat.lt_irrefl _)
      | _ => exact nomatch hj

/-- Every balance that an instruction raises is raised by a mint or by an
approval. -/
theorem process_raises {i : Instruction} (h : process L signers i = .ok L')
    (hexternal : ∀ k ∈ signers, k.External) (hT : Anchored T L)
    (hstate : L.accounts (complianceAddress T) = account state)
    (hx : balance L T x < balance L' T x) : Raises T i.core L L' x := by
  induction i with
  | token j => exact TokenInstruction.raises h hT hstate hx
  | token2022 j =>
      obtain ⟨k, a, hpending, hdestination, hbalance⟩ := Token2022.raised h hexternal hT hx
      exact .moved k a (.inl hpending) hdestination hbalance
  | createTokenMint =>
      have hframe := Factory.frame_createTokenMint h
      rw [congrFun (balance_frame hframe (by decide)) T] at hx
      exact absurd hx (Nat.lt_irrefl _)
  | callModuleFunction owner complianceState inner ih =>
      obtain ⟨_, -, hinner⟩ := bind_eq_ok.1 h
      exact ih hinner
  | _ =>
      have hbooks := process_books h rfl
      rw [congrFun hbooks.balance T] at hx
      exact absurd hx (Nat.lt_irrefl _)

end Raised

end Fracks
