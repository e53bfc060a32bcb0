import Fracks.AccountOwners
import Fracks.RaisedBalances

/-!
# Balances of a lost wallet

A recovery moves the amount it is told, and its finalisation removes the
identity of the lost wallet without looking at what the wallet still holds.
Nothing is stranded when the recovery takes everything from the only funded
account of the wallet and nothing comes in afterwards.
-/

namespace Fracks

open Checked AccountType Ledger TokenHook Token2022 Runs

/-- The wallet holds none of `T`. -/
def NoHoldings (T w : Pubkey) (L : Ledger) : Prop :=
  ∀ (x : Pubkey) (a : TokenAccount), L.accounts x = account a → a.mint = T → a.owner = w →
    a.amount = 0

/-- All that the wallet holds of `T` are the `n` tokens at `source`. -/
def HoldsOnly (T w source : Pubkey) (n : ℕ) (L : Ledger) : Prop :=
  ∀ (x : Pubkey) (a : TokenAccount), L.accounts x = account a → a.mint = T → a.owner = w →
    a.amount = if x = source then n else 0

/-- The instruction adds tokens to the account at `x`; a settlement adds what its
escrow says. -/
def Instruction.Delivers (x : Pubkey) : Instruction → Prop
  | .token (.mint _ accts _ n _) => accts.destinationTokenAccount = x ∧ 0 < n
  | .token (.purchaseMint _ accts n _) => accts.destinationTokenAccount = x ∧ 0 < n
  | .token (.settleSubscriptionMint _ _ accts _) => accts.destinationTokenAccount = x
  | .token (.forcedTransfer _ _ accts _ _ n _ _) => accts.destinationTokenAccount = x ∧ 0 < n
  | .token (.recovery _ _ accts _ _ n) => accts.destinationTokenAccount = x ∧ 0 < n
  | .token2022 (.mintTo _ destination _ n _) => destination = x ∧ 0 < n
  | .token2022 (.transferChecked _ _ destination _ _ n _) => destination = x ∧ 0 < n
  | .token2022 (.transfer _ destination _ n) => destination = x ∧ 0 < n
  | _ => False

/-- The instruction gives tokens of `T` to the wallet: to one of its accounts, or
with an account that is handed over to it. -/
def Instruction.TopsUp (T w : Pubkey) (L : Ledger) (i : Instruction) : Prop :=
  ∃ (x : Pubkey) (a : TokenAccount), L.accounts x = account a ∧ a.mint = T ∧
    (a.owner = w ∧ i.Delivers x ∨ 0 < a.amount ∧ i.HandsOver x w)

variable {L L' L₁ L₂ : Ledger} {T X C w x : Pubkey} {signers : List Pubkey} {n : ℕ}
  {source destination authority : Pubkey}

/-! ## Deliveries -/

theorem OnlyBooksOf.delivers {v : Movement} (hothers : OnlyBooksOf X L L')
    (happlies : v.Applies X L L') (hx : balance L T x < balance L' T x) : v.Delivers x := by
  by_cases hT : T = X
  · subst hT
    exact happlies.delivers hx
  · rw [(hothers T hT).1] at hx
    exact absurd hx (Nat.lt_irrefl _)

theorem Moves.delivers {hook : Prop} {v : Movement} (h : Moves X C hook v L L')
    (hx : balance L T x < balance L' T x) : v.Delivers x :=
  h.others.delivers h.applies hx

theorem Transferred.delivers {v : Movement} (h : Transferred X v L L')
    (hx : balance L T x < balance L' T x) : v.Delivers x := by
  cases h with
  | same h =>
      rw [congrFun (balance_frame h (by decide)) T] at hx
      exact absurd hx (Nat.lt_irrefl _)
  | hooked _ _ _ _ _ _ _ _ h => exact h.others.delivers h.applies hx
  | unhooked _ _ _ h => exact h.others.delivers h.applies hx

theorem Token2022.delivers {j : Token2022.Instruction} (h : Token2022.process L signers j = .ok L')
    (hx : balance L T x < balance L' T x) : (Fracks.Instruction.token2022 j).Delivers x := by
  cases hj : j.moves with
  | false =>
      rw [((process_quiet h hj).books T).1] at hx
      exact absurd hx (Nat.lt_irrefl _)
  | true =>
      cases j with
      | mintTo =>
          obtain ⟨happlies, hothers⟩ := mintTo_applies h
          exact hothers.delivers happlies hx
      | burn =>
          obtain ⟨happlies, hothers⟩ := burn_applies h
          exact absurd (hothers.delivers happlies hx) id
      | transferChecked => exact (transferChecked_moves h).delivers hx
      | transfer source destination authority n =>
          rcases transfer_ok h with ⟨-, rfl⟩ | ⟨a, a', b, hne, ha, hb, hmint, -, -, hdebit, rfl⟩
          · exact absurd hx (Nat.lt_irrefl _)
          · rw [balance_unhooked ha hb rfl hmint.symm hdebit] at hx
            by_cases hd : x = destination
            · subst hd
              rw [Function.update_self] at hx
              split at hx
              · exact ⟨rfl, by omega⟩
              · omega
            · rw [Function.update_of_ne hd] at hx
              by_cases hs : x = source
              · subst hs
                rw [Function.update_self] at hx
                omega
              · rw [Function.update_of_ne hs] at hx
                exact absurd hx (Nat.lt_irrefl _)
      | _ => exact nomatch hj

section Process

variable [Borsh]

theorem TokenInstruction.delivers {j : TokenInstruction} (h : j.process L signers = .ok L')
    (hx : balance L T x < balance L' T x) : (Instruction.token j).Delivers x := by
  cases j with
  | mint =>
      obtain ⟨_, _, _, _, _, hissue⟩ := Token.mint_ok h
      exact hissue.moves.delivers hx
  | purchaseMint =>
      obtain ⟨_, _, _, _, _, hissue⟩ := Token.purchaseMint_ok h
      exact hissue.moves.delivers hx
  | settleSubscriptionMint =>
      obtain ⟨_, _, _, _, _, _, hissue⟩ := Token.settleSubscriptionMint_ok h
      exact (hissue.moves.delivers hx).1
  | burn =>
      obtain ⟨_, _, _, _, -, -, hredeemed⟩ := Token.burn_ok h
      exact absurd (hredeemed.moves.delivers hx) id
  | forcedTransfer =>
      obtain ⟨_, _, _, _, _, htransfer, -⟩ := Token.forcedTransfer_ok h
      exact htransfer.moves.delivers hx
  | recovery =>
      obtain ⟨_, _, _, _, htransfer⟩ := Token.recovery_ok h
      exact htransfer.moves.delivers hx
  | _ =>
      have hbooks := process_books (i := .token _) h rfl
      rw [congrFun hbooks.balance T] at hx
      exact absurd hx (Nat.lt_irrefl _)

/-- Only a delivery raises a balance. -/
theorem process_delivers {i : Instruction} (h : process L signers i = .ok L')
    (hx : balance L T x < balance L' T x) : i.core.Delivers x := by
  induction i with
  | token j => exact TokenInstruction.delivers h hx
  | token2022 j => exact Token2022.delivers h hx
  | createTokenMint =>
      have hframe := Factory.frame_createTokenMint h
      rw [congrFun (balance_frame hframe (by decide)) T] at hx
      exact absurd hx (Nat.lt_irrefl _)
  | callModuleFunction owner complianceState inner ih =>
      obtain ⟨_, -, hinner⟩ := bind_eq_ok.1 h
      exact ih hinner
  | _ =>
      have hbooks := process_books h rfl
      rw [congrFun hbooks.balance T] at hx
      exact absurd hx (Nat.lt_irrefl _)

/-! ## The wallet stays empty -/

omit [Borsh] in
theorem NoHoldings.balance (h : NoHoldings T w L) {a : TokenAccount}
    (ha : L.accounts x = account a) (howner : a.owner = w) : balance L T x = 0 := by
  rw [balance_of_account ha]
  split
  case isTrue hmint => exact h x a ha hmint howner
  case isFalse => rfl

theorem process_noHoldings {i : Instruction} (h : process L signers i = .ok L')
    (hL : NoHoldings T w L) (htop : ¬ i.core.TopsUp T w L) : NoHoldings T w L' := by
  intro x a' ha' hmint' howner'
  cases process_comesFrom h ha' with
  | opened _ hempty => exact hempty
  | handed a ha hmint hamount hhands =>
      by_contra hne
      refine htop ⟨x, a, ha, hmint.symm.trans hmint', .inr ⟨?_, howner' ▸ hhands⟩⟩
      omega
  | kept a ha hmint howner =>
      have hempty := hL.balance ha (howner.symm.trans howner')
      have hbalance : balance L' T x = a'.amount := by
        rw [balance_of_account ha', if_pos hmint']
      by_contra hne
      have hraised : balance L T x < balance L' T x := by omega
      exact htop ⟨x, a, ha, hmint.symm.trans hmint',
        .inl ⟨howner.symm.trans howner', process_delivers h hraised⟩⟩

omit [Borsh] in
theorem NoHoldings.of_frame {S : List AccountKind} (h : NoHoldings T w L) (hframe : Frame S L L')
    (hS : AccountKind.tokenAccount ∉ S) : NoHoldings T w L' := by
  intro x a ha
  rw [← view_eq_some, hframe.view_eq (α := TokenAccount) hS, view_eq_some] at ha
  exact h x a ha

/-- No step of a run gives tokens of `T` to the wallet. -/
def NoTopUp (T w : Pubkey) (L : Ledger) (l : Label) (_ : Ledger) : Prop :=
  l.Core fun i ↦ ¬ i.TopsUp T w L

theorem run_noHoldings {labels : List Label} (hrun : Run (restrict Step (NoTopUp T w)) L labels L')
    (hL : NoHoldings T w L) : NoHoldings T w L' := by
  refine hrun.invariant (fun L l L' hL hstep ↦ ?_) hL
  obtain ⟨hstep, htop⟩ := hstep
  cases hstep with
  | instruction signers i _ h => exact process_noHoldings h hL htop
  | environment hframe => exact hL.of_frame hframe (by decide)

/-! ## The recovery -/

omit [Borsh] in
/-- A transfer takes its amount from the source. -/
theorem transferChecked_source {additional : List Pubkey} {decimals : ℕ}
    (h : transferChecked invokeHook L signers source T destination authority additional n
      decimals = .ok L') (hne : source ≠ destination) :
    balance L' T source = balance L T source - n := by
  rcases transferChecked_ok h with ⟨heq, -⟩ |
    ⟨m, a, a', b, -, ha, hb, -, hamint, hbmint, -, hdebit, -, rfl⟩ | ⟨_, _, _, _, _, _, hhooked⟩
  · exact absurd heq hne
  · rw [balance_unhooked ha hb hamint hbmint hdebit, Function.update_of_ne hne,
      Function.update_self, if_pos rfl]
  · rw [(hhooked.books T).1, Function.update_of_ne hne, Function.update_self, if_pos rfl]

/-- A recovery of everything leaves nothing. -/
theorem recovery_noHoldings {operator : Token.OperatorAccounts} {irsProgram new : Pubkey}
    {accts : Token.ControllerTransferAccounts}
    (h : Token.recovery L signers operator irsProgram accts w new n = .ok L')
    (hT : operator.tokenState = Token.tokenStateAddress T)
    (hall : HoldsOnly T w accts.sourceTokenAccount n L) : NoHoldings T w L' := by
  have howners : OwnersKept L L' := TokenInstruction.owners (j := .recovery ..) h
  obtain ⟨ts, s, d, _, _, L₁, happroved, hwallets, -⟩ := Token.recovery_approved h
  obtain rfl := tokenStateAddress_inj.1 (happroved.tokenStateKey.symm.trans hT)
  have hframe := approveTransfer_frame happroved.approves (List.Subset.refl _)
  have hne : accts.sourceTokenAccount ≠ accts.destinationTokenAccount := by
    intro heq
    obtain rfl := account_inj.1 (happroved.sourceAt.symm.trans (heq ▸ happroved.destinationAt))
    exact hwallets (happroved.sourceOwner.symm.trans happroved.destinationOwner)
  obtain ⟨_, _, htransfer⟩ := happroved.transfers
  intro x a' ha' hmint' howner'
  obtain ⟨a, ha, hmint, howner⟩ := howners x a' ha'
  have hamount := hall x a ha (hmint.symm.trans hmint') (howner.symm.trans howner')
  have hbefore : balance L₁ ts.tokenMint x = a.amount := by
    rw [balance_frame hframe (by decide), balance_of_account ha,
      if_pos (hmint.symm.trans hmint')]
  have hafter : balance L' ts.tokenMint x = a'.amount := by
    rw [balance_of_account ha', if_pos hmint']
  by_cases hx : x = accts.sourceTokenAccount
  · subst hx
    have htaken := transferChecked_source htransfer hne
    rw [if_pos rfl] at hamount
    have hn : balance L' ts.tokenMint accts.sourceTokenAccount = a.amount - n := hbefore ▸ htaken
    omega
  · rw [if_neg hx] at hamount
    by_contra hpositive
    have hraised : balance L₁ ts.tokenMint x < balance L' ts.tokenMint x := by omega
    obtain ⟨rfl, -⟩ := (transferChecked_moves htransfer).delivers hraised
    -- the credited account belongs to the new wallet
    obtain rfl := account_inj.1 (happroved.destinationAt.symm.trans ha)
    exact hwallets ((howner.symm.trans howner').symm.trans happroved.destinationOwner)

/-- A run that recovers everything that the lost wallet holds of `T`, and after
that gives the wallet no tokens of `T`, strands nothing at the finalisation. -/
theorem nothing_stranded {operator finalizer : Token.OperatorAccounts}
    {irsProgram new new' : Pubkey} {accts : Token.ControllerTransferAccounts}
    {accts' : Token.FinalizeAccounts} {operators finalizers : List Pubkey} {i j : Instruction}
    {since : List Label} {n' : ℕ}
    (hrecovery : Step L (.instruction operators i) L₁)
    (hi : i.core = .token (.recovery operator irsProgram accts w new n))
    (hT : operator.tokenState = Token.tokenStateAddress T)
    (hall : HoldsOnly T w accts.sourceTokenAccount n L)
    (hsince : Run (restrict Step (NoTopUp T w)) L₁ since L₂)
    (hfinalize : Step L₂ (.instruction finalizers j) L')
    (hj : j.core = .token (.finalizeRecovery finalizer accts' w new' n')) : NoHoldings T w L' := by
  have hrecovered : NoHoldings T w L₁ := by
    cases hrecovery with
    | instruction _ _ _ h =>
        have hcore := process_core h
        rw [hi] at hcore
        exact recovery_noHoldings hcore hT hall
  have hkept := run_noHoldings hsince hrecovered
  cases hfinalize with
  | instruction _ _ _ h =>
      have hcore := process_core h
      rw [hj] at hcore
      exact hkept.of_frame (Token.frame_finalizeRecovery hcore) (by decide)

/-- Every finalisation after a run leaves the lost wallet without tokens of `T`. -/
def NothingStranded (T : Pubkey) (L : Ledger) : Prop :=
  ∀ (labels : List Label) (L₁ L₂ : Ledger) (signers : List Pubkey) (i : Instruction)
    (operator : Token.OperatorAccounts) (accts : Token.FinalizeAccounts) (lost new : Pubkey)
    (n : ℕ), Run Step L labels L₁ → Step L₁ (.instruction signers i) L₂ →
      i.core = .token (.finalizeRecovery operator accts lost new n) →
        operator.tokenState = Token.tokenStateAddress T → NoHoldings T lost L₂

end Process

/-! ## A partial recovery -/

def lostHolding : Holding := ⟨.address 10, .address 11, 10⟩

def newHolding : Holding := ⟨.address 20, .address 21, 0⟩

def recoveryDeployment : Deployment where
  tokenMint := .address 0
  issuer := .address 1
  paused := false
  modules := []
  modulesPaused := false
  metas := TokenHook.baseMetas
  wallets := [(lostHolding.wallet, 276), (newHolding.wallet, 276)]
  holdings := [lostHolding, newHolding]

def recoveryLedger : Ledger := recoveryDeployment.ledger []

/-- The issuer recovers some of the ten tokens. -/
def recoverTokens (n : ℕ) : Instruction :=
  .token (.recovery recoveryDeployment.operator (.program .fracksIrs)
    (recoveryDeployment.controllerAccounts lostHolding newHolding []) lostHolding.wallet
    newHolding.wallet n)

def finalizeTokens (n : ℕ) : Instruction :=
  .token (.finalizeRecovery recoveryDeployment.operator
    (recoveryDeployment.finalizeAccounts lostHolding newHolding) lostHolding.wallet
    newHolding.wallet n)

theorem issuer_external : ∀ k ∈ [recoveryDeployment.issuer], k.External := by
  intro k hk
  rw [List.mem_singleton.1 hk]
  exact Pubkey.external_address 1

/-- The other six tokens stay with the wallet that has lost its identity. -/
theorem partial_recovery_strands :
    ¬ @NothingStranded strictBorsh recoveryDeployment.tokenMint recoveryLedger := by
  intro hclaim
  obtain ⟨L₁, L₂, hrecover, hfinalize, hheld⟩ : ∃ L₁ L₂,
      @process strictBorsh recoveryLedger [recoveryDeployment.issuer] (recoverTokens 4) = .ok L₁ ∧
        @process strictBorsh L₁ [recoveryDeployment.issuer] (finalizeTokens 4) = .ok L₂ ∧
          L₂.accounts lostHolding.key =
            account (recoveryDeployment.holdingRecord { lostHolding with amount := 6 }) :=
    ⟨_, _, rfl, rfl, rfl⟩
  have hrun := Run.single (@Step.instruction strictBorsh _ _ _ _ issuer_external hrecover)
  have hstep := @Step.instruction strictBorsh _ _ _ _ issuer_external hfinalize
  have hempty := hclaim _ _ _ _ _ _ _ _ _ _ hrun hstep rfl rfl _ _ hheld rfl rfl
  exact absurd hempty (by decide)

/-- A recovery of all ten tokens does not. -/
theorem full_recovery_strands_nothing : ∃ L₁ L₂,
    @Step strictBorsh recoveryLedger (.instruction [recoveryDeployment.issuer] (recoverTokens 10))
        L₁ ∧
      @Step strictBorsh L₁ (.instruction [recoveryDeployment.issuer] (finalizeTokens 10)) L₂ ∧
        NoHoldings recoveryDeployment.tokenMint lostHolding.wallet L₂ := by
  obtain ⟨L₁, L₂, hrecover, hfinalize⟩ : ∃ L₁ L₂,
      @process strictBorsh recoveryLedger [recoveryDeployment.issuer] (recoverTokens 10) = .ok L₁ ∧
        @process strictBorsh L₁ [recoveryDeployment.issuer] (finalizeTokens 10) = .ok L₂ :=
    ⟨_, _, rfl, rfl⟩
  have hstep₁ := @Step.instruction strictBorsh _ _ _ _ issuer_external hrecover
  have hstep₂ := @Step.instruction strictBorsh _ _ _ _ issuer_external hfinalize
  have hall : HoldsOnly recoveryDeployment.tokenMint lostHolding.wallet lostHolding.key 10
      recoveryLedger := by
    intro x a ha _ howner
    obtain ⟨h, hh, rfl, rfl⟩ := recoveryDeployment.holding_of_account (by simp) ha
    rcases List.mem_pair.1 hh with rfl | rfl
    · rfl
    · exact nomatch howner
  exact ⟨L₁, L₂, hstep₁, hstep₂, @nothing_stranded _ _ _ _ _ _ _ strictBorsh _ _ _ _ _ _ _ _ _ _ _
    _ _ hstep₁ rfl rfl hall (.nil _) hstep₂ rfl⟩

end Fracks
