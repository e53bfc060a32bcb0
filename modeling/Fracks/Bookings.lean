import Fracks.Footprints

/-!
# Bookings

A mint, a burn and a transfer of a token each move its balances and its supply
and come with one post-hook of the router, which is told the amount and the
balances after the move.  For every instruction that moves tokens the move and
the post-hook are tied together here, with everything else in between framed
away.
-/

namespace Fracks

open Checked AccountType Ledger Tally

/-! ## Moves of a token -/

inductive Movement
  | minted (k : Pubkey) (n : ℕ)
  | burned (k : Pubkey) (n : ℕ)
  | moved (s d : Pubkey) (n : ℕ)

/-- What a movement of `T` does to its balances and its supply. -/
def Movement.Applies (T : Pubkey) (L L' : Ledger) : Movement → Prop
  | .minted k n => balance L' T = credit (balance L T) k n ∧ supply L' T = supply L T + n
  | .burned k n =>
      n ≤ balance L T k ∧ n ≤ supply L T ∧ balance L' T = debit (balance L T) k n ∧
        supply L' T = supply L T - n
  | .moved s d n =>
      d ≠ s ∧ n ≤ balance L T s ∧ balance L' T = credit (debit (balance L T) s n) d n ∧
        supply L' T = supply L T

/-- The post-hook under `C` that goes with a movement of `T` in the ledger `L`. -/
def Movement.Posted (T C : Pubkey) (L L₁ L₂ : Ledger) : Movement → Prop
  | .minted k n => ∃ remaining country,
      Compliance.created L₁ C remaining n (balance L T k + n) country = .ok L₂
  | .burned k n => ∃ remaining country,
      Compliance.destroyed L₁ C remaining n (balance L T k - n) country = .ok L₂
  | .moved s d n => ∃ remaining wallet fromCountry toCountry,
      Compliance.transferred L₁ C remaining wallet n (balance L T s - n) (balance L T d + n)
        fromCountry toCountry = .ok L₂

/-- The kinds of accounts that a movement touches besides counters. -/
def movementKinds : List AccountKind :=
  [.mint, .tokenAccount, .transferApproval, .subscriptionEscrow, .partialFreeze]

/-- The other tokens are left alone. -/
def OnlyBooksOf (T : Pubkey) (L L' : Ledger) : Prop :=
  ∀ X, X ≠ T → balance L' X = balance L X ∧ supply L' X = supply L X

/-- A movement of `T` with its post-hook under `C`. -/
structure Booked (T C : Pubkey) (v : Movement) (L L' : Ledger) : Prop where
  applies : v.Applies T L L'
  others : OnlyBooksOf T L L'
  posted : ∃ L₁ L₂, Frame movementKinds L L₁ ∧ v.Posted T C L L₁ L₂ ∧ Frame movementKinds L₂ L'

/-- A movement of `T` without a post-hook of the router. -/
structure Unbooked (T : Pubkey) (v : Movement) (L L' : Ledger) : Prop where
  applies : v.Applies T L L'
  others : OnlyBooksOf T L L'
  frame : Frame movementKinds L L'

/-- A movement of `T`, booked under `C` when `hook` holds. -/
def Moves (T C : Pubkey) (hook : Prop) (v : Movement) (L L' : Ledger) : Prop :=
  (hook ∧ Booked T C v L L') ∨ (¬ hook ∧ Unbooked T v L L')

variable {L L' L'' L₁ L₂ : Ledger} {T C k : Pubkey} {signers : List Pubkey} {v : Movement}
  {S : List AccountKind}

/-! ## Frames around a movement -/

/-- The balances and the supply of all tokens are the same. -/
structure SameBooks (L L' : Ledger) : Prop where
  balance : balance L' = balance L
  supply : supply L' = supply L

theorem SameBooks.of_frame (h : Frame S L L') (hmint : AccountKind.mint ∉ S)
    (haccount : AccountKind.tokenAccount ∉ S) : SameBooks L L' :=
  ⟨balance_frame h haccount, supply_frame h hmint⟩

theorem SameBooks.trans (h : SameBooks L L') (h' : SameBooks L' L'') : SameBooks L L'' :=
  ⟨h'.balance.trans h.balance, h'.supply.trans h.supply⟩

theorem Movement.Applies.congr {M M' : Ledger} (h : v.Applies T L L') (hbefore : SameBooks M L)
    (hafter : SameBooks L' M') : v.Applies T M M' := by
  cases v <;> simpa only [Movement.Applies, hafter.balance, hafter.supply, ← hbefore.balance,
    ← hbefore.supply] using h

theorem Movement.Posted.congr {M : Ledger} (h : v.Posted T C L L₁ L₂)
    (hbefore : SameBooks M L) : v.Posted T C M L₁ L₂ := by
  cases v <;> simpa only [Movement.Posted, ← hbefore.balance] using h

theorem OnlyBooksOf.congr {M M' : Ledger} (h : OnlyBooksOf T L L') (hbefore : SameBooks M L)
    (hafter : SameBooks L' M') : OnlyBooksOf T M M' := by
  intro X hX
  rw [hafter.balance, hafter.supply, ← hbefore.balance, ← hbefore.supply]
  exact h X hX

/-- The kinds of accounts that may be touched around a movement. -/
def aroundKinds : List AccountKind := [.transferApproval, .subscriptionEscrow, .partialFreeze]

theorem SameBooks.around (h : Frame aroundKinds L L') : SameBooks L L' :=
  .of_frame h (by decide) (by decide)

theorem Booked.around (h : Booked T C v L L') {M M' : Ledger} (hbefore : Frame aroundKinds M L)
    (hafter : Frame aroundKinds L' M') : Booked T C v M M' := by
  have hb := SameBooks.around hbefore
  have ha := SameBooks.around hafter
  obtain ⟨happlies, hothers, L₁, L₂, hfirst, hposted, hlast⟩ := h
  exact ⟨happlies.congr hb ha, hothers.congr hb ha, L₁, L₂,
    (hbefore.mono (by decide)).trans hfirst, hposted.congr hb,
    hlast.trans (hafter.mono (by decide))⟩

theorem Unbooked.around (h : Unbooked T v L L') {M M' : Ledger} (hbefore : Frame aroundKinds M L)
    (hafter : Frame aroundKinds L' M') : Unbooked T v M M' := by
  have hb := SameBooks.around hbefore
  have ha := SameBooks.around hafter
  exact ⟨h.applies.congr hb ha, h.others.congr hb ha,
    ((hbefore.mono (by decide)).trans h.frame).trans (hafter.mono (by decide))⟩

theorem Moves.applies {hook : Prop} (h : Moves T C hook v L L') : v.Applies T L L' := by
  rcases h with ⟨-, hbooked⟩ | ⟨-, hunbooked⟩
  · exact hbooked.applies
  · exact hunbooked.applies

theorem Moves.others {hook : Prop} (h : Moves T C hook v L L') : OnlyBooksOf T L L' := by
  rcases h with ⟨-, hbooked⟩ | ⟨-, hunbooked⟩
  · exact hbooked.others
  · exact hunbooked.others

/-! ## Minting and burning -/

section Supply

variable {source destination authority mintKey : Pubkey} {amount : ℕ} {decimals : Option ℕ}

theorem mintTo_applies
    (h : Token2022.mintTo L signers T destination authority amount decimals = .ok L') :
    (Movement.minted destination amount).Applies T L L' ∧ OnlyBooksOf T L L' := by
  refine ⟨?_, fun X hX ↦ ?_⟩
  · simpa [Movement.Applies, credit] using Token2022.mintTo_books h T
  · simpa [hX] using Token2022.mintTo_books h X

theorem burn_applies
    (h : Token2022.burn L signers source T authority amount decimals = .ok L') :
    (Movement.burned source amount).Applies T L L' ∧ OnlyBooksOf T L L' := by
  refine ⟨?_, fun X hX ↦ ?_⟩
  · simpa [Movement.Applies, debit] using Token2022.burn_books h T
  · simpa [hX] using Token2022.burn_books h X

end Supply

section Controller

variable [Borsh] {ts : TokenState} {amount country : ℕ} {s d : TokenAccount}

/-- An issue is a mint, booked under the compliance state it is given when that
belongs to the router. -/
theorem Token.Issue.moves {accts : Token.ReceiverAccounts}
    (h : Token.Issue L L' ts accts amount country d L₁ L₂) :
    Moves ts.tokenMint accts.complianceState
      (accts.complianceProgram = .program .fracksCompliance)
      (.minted accts.destinationTokenAccount amount) L L' := by
  obtain ⟨_, hminted⟩ := h.minted
  have hpaid : Frame aroundKinds L L₁ := h.paid.mono (by decide)
  have hcreated := frame_invokeComplianceCreated h.booked
  have hbooks₁ := SameBooks.around hpaid
  have hbooks₂ : SameBooks L L₂ := hbooks₁.trans (.of_frame hcreated (by decide) (by decide))
  have hbalance : d.amount = balance L ts.tokenMint accts.destinationTokenAccount := by
    rw [balance_of_account h.destinationAt, if_pos h.destinationMint]
  obtain ⟨happlies, hothers⟩ := mintTo_applies hminted
  have happlies' := happlies.congr hbooks₂ ⟨rfl, rfl⟩
  have hothers' := hothers.congr hbooks₂ ⟨rfl, rfl⟩
  have hmint := Token2022.frame_mintTo hminted
  obtain ⟨-, ⟨hprogram, hcall⟩ | ⟨hprogram, rfl⟩⟩ := invokeCompliance_ok h.booked
  · rw [hbalance] at hcall
    exact .inl ⟨hprogram, happlies', hothers', L₁, L₂, hpaid.mono (by decide), ⟨_, _, hcall⟩,
      hmint.mono (by decide)⟩
  · exact .inr ⟨hprogram, happlies', hothers',
      (hpaid.mono (by decide)).trans (hmint.mono (by decide))⟩

/-- What an evaluation reads of the compliance state it is given: that of the
token, and made for its mint. -/
theorem Token.evaluateCompliance_ok {complianceState wallet : Pubkey} {remaining : List Pubkey}
    {toBalance fromCountry toCountry : ℕ} {u : Unit}
    (h : Token.evaluateCompliance L ts complianceState remaining wallet amount toBalance
      fromCountry toCountry = .ok u) :
    ts.compliance = complianceState ∧ ∀ state : ComplianceState,
      L.accounts complianceState = account state → state.tokenMint = ts.tokenMint := by
  simp only [Token.evaluateCompliance, Token.deserializeLocal, bind_eq_ok, require_eq_ok,
    okOr_eq_ok, exists_const] at h
  obtain ⟨hkey, -, state', hstate', hmint, -⟩ := h
  refine ⟨hkey, fun state hstate ↦ ?_⟩
  rw [hstate, account_data, Borsh.decodeView_encode] at hstate'
  obtain rfl := Option.some.inj hstate'
  exact hmint

/-- The compliance state an issue is given is that of its token. -/
theorem Token.Issue.compliance {accts : Token.ReceiverAccounts} {state : ComplianceState}
    (h : Token.Issue L L' ts accts amount country d L₁ L₂)
    (hstate : L.accounts accts.complianceState = account state) :
    ts.compliance = accts.complianceState ∧ state.tokenMint = ts.tokenMint ∧
      accts.complianceProgram = .program .fracksCompliance := by
  obtain ⟨hkey, hmint⟩ := Token.evaluateCompliance_ok h.complies
  have hstate₁ : L₁.accounts accts.complianceState = account state :=
    h.paid.accounts_eq (by decide) hstate
  obtain ⟨howner, -⟩ := invokeCompliance_ok h.booked
  rw [hstate₁, account_owner] at howner
  exact ⟨hkey, hmint state hstate, howner⟩

omit [Borsh] in
/-- A redemption is a burn, booked under the compliance state it is given when
that belongs to the router. -/
theorem Token.Redemption.moves {accts : Token.BurnAccounts}
    (h : Token.Redemption L L' ts accts amount country s L₁) :
    Moves ts.tokenMint accts.complianceState
      (accts.complianceProgram = .program .fracksCompliance)
      (.burned accts.sourceTokenAccount amount) L L' := by
  obtain ⟨_, hburned⟩ := h.burned
  have hdestroyed := frame_invokeComplianceDestroyed h.booked
  have hbooks : SameBooks L L₁ := .of_frame hdestroyed (by decide) (by decide)
  have hbalance : s.amount = balance L ts.tokenMint accts.sourceTokenAccount := by
    rw [balance_of_account h.sourceAt, if_pos h.sourceMint]
  obtain ⟨happlies, hothers⟩ := burn_applies hburned
  have happlies' := happlies.congr hbooks ⟨rfl, rfl⟩
  have hothers' := hothers.congr hbooks ⟨rfl, rfl⟩
  have hburn := Token2022.frame_burn hburned
  obtain ⟨-, ⟨hprogram, hcall⟩ | ⟨hprogram, rfl⟩⟩ := invokeCompliance_ok h.booked
  · rw [hbalance] at hcall
    exact .inl ⟨hprogram, happlies', hothers', L, L₁, .refl _ _, ⟨_, _, hcall⟩,
      hburn.mono (by decide)⟩
  · exact .inr ⟨hprogram, happlies', hothers', hburn.mono (by decide)⟩

omit [Borsh] in
theorem Token.Redemption.program {accts : Token.BurnAccounts} {state : ComplianceState}
    (h : Token.Redemption L L' ts accts amount country s L₁)
    (hstate : L.accounts accts.complianceState = account state) :
    accts.complianceProgram = .program .fracksCompliance := by
  obtain ⟨howner, -⟩ := invokeCompliance_ok h.booked
  rw [howner, hstate, account_owner]
  rfl

end Controller

/-! ## Transfers -/

section Transfer

open Token2022 TokenHook

variable {source mintKey destination authority : Pubkey} {additional : List Pubkey}
  {amount decimals : ℕ}

/-- A transfer through the hook of this repository is a move, booked under the
compliance state that the token state of its mint points to. -/
theorem Token2022.HookedTransfer.booked {m : Mint} {a a' b : TokenAccount}
    (h : HookedTransfer L L' signers source T destination authority additional amount hookProgram
      m a a' b L₂) :
    ∃ (accts : ExecuteAccounts) (ts : TokenState), L.accounts accts.tokenState = account ts ∧
      ts.tokenMint = T ∧ m.permanentDelegate = some (some accts.tokenState) ∧
        Booked T ts.compliance (.moved source destination amount) L L' := by
  obtain ⟨accts, approval, ts, -, hmint, -, -, -, -, hexecuted⟩ := h.executed
  have hstate : L.accounts accts.tokenState = account ts := by
    have hkind : kind TokenState ∉ [AccountKind.tokenAccount] := by decide
    have hview := h.frame_moved.view_eq hkind accts.tokenState
    rw [view_eq_some.2 hexecuted.tokenStateAt] at hview
    exact view_eq_some.1 hview.symm
  obtain ⟨L₁, hrouter, hresult⟩ := hexecuted.routed
  have hs : (setTransferring true (debited a a' amount)).amount =
      balance L T source - amount := by
    rw [balance_of_account h.sourceAt, if_pos h.sourceMint]
    rfl
  have hd : (setTransferring true (credited b amount)).amount =
      balance L T destination + amount := by
    rw [balance_of_account h.destinationAt, if_pos h.destinationMint]
    rfl
  rw [hs, hd] at hrouter
  have happroval : Frame movementKinds L₁ L₂ := by
    rw [hresult]
    obtain ⟨state, hstep⟩ := Compliance.transferred_step hrouter
    exact .put (hstep.frame.accounts_eq (by decide) hexecuted.approvalAt) (by decide)
  refine ⟨accts, ts, hstate, hexecuted.tokenMint.trans hmint, ?_, ?_, fun X hX ↦ ?_, _, L₁,
    h.frame_moved.mono (by decide), ⟨_, _, _, _, hrouter⟩,
    happroval.trans (h.frame_down.mono (by decide))⟩
  · exact hexecuted.delegate
  · have hle : amount ≤ balance L T source := by
      rw [balance_of_account h.sourceAt, if_pos h.sourceMint]
      exact h.enough
    have hbooks := h.books T
    simp only [if_true] at hbooks
    refine ⟨h.ne.symm, hle, ?_, hbooks.2⟩
    rw [hbooks.1, Tally.credit, Tally.debit, Function.update_of_ne h.ne.symm]
  · simpa [hX] using h.books X

/-- What a transfer of `T` does to the books: nothing when the two accounts are
the same, a booked move when the hook is that of this repository, and a move
without a post-hook otherwise. -/
inductive Transferred (T : Pubkey) (v : Movement) (L L' : Ledger) : Prop
  | same : Frame aroundKinds L L' → Transferred T v L L'
  | hooked (m : Mint) (k : Pubkey) (ts : TokenState) :
      L.accounts T = account m →
        m.transferHook.bind TransferHook.programId = some hookProgram →
          m.permanentDelegate = some (some k) → L.accounts k = account ts → ts.tokenMint = T →
            Booked T ts.compliance v L L' → Transferred T v L L'
  | unhooked (m : Mint) :
      L.accounts T = account m →
        m.transferHook.bind TransferHook.programId ≠ some hookProgram → Unbooked T v L L' →
          Transferred T v L L'

theorem Transferred.others (h : Transferred T v L L') : OnlyBooksOf T L L' := by
  cases h with
  | same h =>
      intro X _
      exact ⟨congrFun (SameBooks.around h).balance X, congrFun (SameBooks.around h).supply X⟩
  | hooked _ _ _ _ _ _ _ _ h => exact h.others
  | unhooked _ _ _ h => exact h.others

theorem transferChecked_moves
    (h : transferChecked invokeHook L signers source T destination authority additional amount
      decimals = .ok L') : Transferred T (.moved source destination amount) L L' := by
  rcases transferChecked_ok h with ⟨-, rfl⟩ |
    ⟨m, a, a', b, hne, ha, hb, hm, hamint, hbmint, hle, hdebit, hnone, rfl⟩ |
    ⟨program, m, a, a', b, L₂, hhooked⟩
  · exact .same (.refl _ _)
  · have hframe : Frame [.tokenAccount] L
        ((L.put source (debited a a' amount)).put destination (credited b amount)) :=
      frame_put_pair hne ha hb
    have hsupply := supply_frame hframe (by decide)
    refine .unhooked m hm (by simp [hnone]) ⟨⟨hne.symm, ?_, ?_, congrFun hsupply T⟩,
      fun X hX ↦ ⟨?_, congrFun hsupply X⟩, hframe.mono (by decide)⟩
    · rw [balance_of_account ha, if_pos hamint]
      exact hle
    · rw [balance_unhooked ha hb hamint hbmint hdebit]
      simp [credit, debit, hne.symm]
    · rw [balance_unhooked ha hb hamint hbmint hdebit]
      simp [hX]
  · by_cases hprogram : program = hookProgram
    · subst hprogram
      obtain ⟨accts, ts, hstate, hmint, hdelegate, hbooked⟩ := hhooked.booked
      exact .hooked m accts.tokenState ts hhooked.mintAt hhooked.hook hdelegate hstate hmint hbooked
    · -- the hook of another repository changes none of these accounts
      rcases invokeHook_ok hhooked.invoked with ⟨hsame, -⟩ | ⟨-, rfl⟩
      · exact absurd hsame hprogram
      · have hbooks := hhooked.books T
        simp only [if_true] at hbooks
        have hle : amount ≤ balance L T source := by
          rw [balance_of_account hhooked.sourceAt, if_pos hhooked.sourceMint]
          exact hhooked.enough
        refine .unhooked m hhooked.mintAt (by simpa [hhooked.hook] using hprogram)
          ⟨⟨hhooked.ne.symm, hle, ?_, hbooks.2⟩, fun X hX ↦ by simpa [hX] using hhooked.books X,
            (hhooked.frame_moved.trans hhooked.frame_down).mono (by decide)⟩
        rw [hbooks.1, credit, debit, Function.update_of_ne hhooked.ne.symm]

theorem Transferred.around (h : Transferred T v L L') {M M' : Ledger}
    (hbefore : Frame aroundKinds M L) (hafter : Frame aroundKinds L' M') :
    Transferred T v M M' := by
  have hback : ∀ {α : Type} [AccountType α], kind α ∉ aroundKinds → ∀ {k : Pubkey} {a : α},
      L.accounts k = account a → M.accounts k = account a := by
    intro α _ hα k a ha
    rw [← view_eq_some, ← hbefore.view_eq hα, view_eq_some]
    exact ha
  cases h with
  | same h => exact .same ((hbefore.trans h).trans hafter)
  | hooked m k ts hm hhook hdelegate hts hmint h =>
      exact .hooked m k ts (hback (by decide) hm) hhook hdelegate (hback (by decide) hts) hmint
        (h.around hbefore hafter)
  | unhooked m hm hhook h =>
      exact .unhooked m (hback (by decide) hm) hhook (h.around hbefore hafter)

/-- A forced transfer or a recovery is a transfer of its token. -/
theorem Token.ControllerTransfer.moves {ts : TokenState}
    {accts : Token.ControllerTransferAccounts} {s d : TokenAccount}
    (h : Token.ControllerTransfer L L' ts accts source destination amount s d L₁ L₂) :
    Transferred ts.tokenMint
      (.moved accts.sourceTokenAccount accts.destinationTokenAccount amount) L L' := by
  obtain ⟨_, _, _, -, -, -, -, happroved⟩ := h.approved
  obtain ⟨_, _, hmoved⟩ := h.moved
  exact (transferChecked_moves hmoved).around (approveTransfer_frame happroved (by decide))
    (h.released.mono (by decide))

end Transfer

end Fracks
