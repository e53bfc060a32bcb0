import Fracks.Routes

/-!
# Who moves the counters

The counters of a module answer to its owner and to its hook authority, the
address of a compliance state.  The router uses that address on behalf of
anyone.  A step that moves a counter is signed by the owner of the module or
is a mint, a burn or a transfer that is booked with its own amount, when the
calls that anyone may make are signed by the owners and every token is booked
under its own compliance state.
-/

namespace Fracks

open Checked AccountType Ledger TokenHook HookedModule Runs

/-! ## The condition on a step -/

/-- The owners of all modules that the router serves under `C` are among the
signers. -/
def RouterSigned (L : Ledger) (signers : List Pubkey) (C : Pubkey) : Prop :=
  ∀ (state : ComplianceState) (M : Pubkey), L.accounts C = account state → M ∈ state.modules →
    (L.accounts M).data.hookAuthority = some C → OwnerSigned L signers M

/-- The compliance state that the token `T` points to is for `T`. -/
def ComplianceHome (L : Ledger) (T : Pubkey) : Prop :=
  ∀ (ts : TokenState) (state : ComplianceState),
    L.accounts (Token.tokenStateAddress T) = account ts →
    L.accounts ts.compliance = account state → state.tokenMint = T

/-- Direct calls of the post-hooks, of the router or of a module, are signed by
the owners of the modules; burns and transfers are booked under the compliance
state of their own token. -/
def Guarded (L : Ledger) (signers : List Pubkey) : Instruction → Prop
  | .compliance i => ∀ C, i.router = some C → RouterSigned L signers C
  | .module i => ∀ M, i.called = some M → OwnerSigned L signers M
  | .token (.burn operator accts _ _ _) =>
      ∀ state : ComplianceState, L.accounts accts.complianceState = account state →
        operator.tokenState = Token.tokenStateAddress state.tokenMint
  | .token (.recovery _ _ accts _ _ _) => ComplianceHome L accts.tokenMintAccount
  | .token2022 (.transferChecked _ mint _ _ _ _ _) => ComplianceHome L mint
  | _ => True

/-! ## Real moves -/

/-- The step is a movement of the token of the compliance state that is the hook
authority of `M`, with one post-hook under that state for `M` and the other
bound modules, called with the amount of the movement. -/
def RealMove (M : Pubkey) (L L' : Ledger) : Prop :=
  ∃ (C : Pubkey) (state : ComplianceState) (v : Movement), L.accounts C = account state ∧
    M ∈ state.modules ∧ (L.accounts M).data.hookAuthority = some C ∧
      Booked state.tokenMint C v L L'

variable {L L' : Ledger} {signers : List Pubkey} {k M C T : Pubkey} {S : List AccountKind}

/-- A booked movement whose compliance state is for its own token is a real
move for every counter that it changes. -/
theorem Booked.realMove {v : Movement} (h : Booked T C v L L')
    (hM : (L.accounts k).counterModule k = some M) (hchange : L'.accounts k ≠ L.accounts k)
    (hhome : ∀ state : ComplianceState, L.accounts C = account state → state.tokenMint = T) :
    RealMove M L L' := by
  obtain ⟨state, hstate, hbound, hauthority⟩ := h.counter hM hchange
  exact ⟨C, state, v, hstate, hbound, hauthority, (hhome state hstate).symm ▸ h⟩

theorem Transferred.realMove {v : Movement} (h : Transferred T v L L')
    (hstates : TokenStatesDerived L)
    (hhome : ∀ (ts : TokenState) (state : ComplianceState),
      L.accounts (Token.tokenStateAddress T) = account ts →
        L.accounts ts.compliance = account state → state.tokenMint = T)
    (hM : (L.accounts k).counterModule k = some M) (hchange : L'.accounts k ≠ L.accounts k) :
    RealMove M L L' := by
  cases h with
  | same h => exact absurd (counter_untouched hM h (by decide)) hchange
  | hooked m x ts _ _ _ hts hmint h =>
      have hx := hstates x ts hts
      rw [hmint] at hx
      subst hx
      exact h.realMove hM hchange fun state hstate ↦ hhome ts state hts hstate
  | unhooked m _ _ h => exact absurd (counter_untouched hM h.frame (by decide)) hchange

/-- Where the direct calls are signed, all ways to a counter are. -/
theorem Reaches.signed {i : Instruction} (h : Reaches L signers M i)
    (hguard : Guarded L signers i) : OwnerSigned L signers M := by
  cases h with
  | router C state hi hstate hbound hauthority => exact hguard C hi state M hstate hbound hauthority
  | called hi => exact hguard M hi
  | administered _ hsigned => exact hsigned

/-! ## Every instruction -/

section Process

variable [Borsh]

theorem Token.Issue.realMove {ts : TokenState} {accts : Token.ReceiverAccounts}
    {amount country : ℕ} {d : TokenAccount} {L₁ L₂ : Ledger}
    (h : Token.Issue L L' ts accts amount country d L₁ L₂)
    (hM : (L.accounts k).counterModule k = some M) (hchange : L'.accounts k ≠ L.accounts k) :
    RealMove M L L' := by
  rcases h.moves with ⟨-, hbooked⟩ | ⟨-, hunbooked⟩
  · exact hbooked.realMove hM hchange fun state hstate ↦ (h.compliance hstate).2.1
  · exact absurd (counter_untouched hM hunbooked.frame (by decide)) hchange

theorem TokenInstruction.counter {i : TokenInstruction} (h : i.process L signers = .ok L')
    (hL : WellFormed L) (hguard : Guarded L signers (.token i))
    (hM : (L.accounts k).counterModule k = some M) (hchange : L'.accounts k ≠ L.accounts k) :
    RealMove M L L' := by
  cases i with
  | mint =>
      obtain ⟨_, _, _, _, _, hissue⟩ := Token.mint_ok h
      exact hissue.realMove hM hchange
  | purchaseMint =>
      obtain ⟨_, _, _, _, _, hissue⟩ := Token.purchaseMint_ok h
      exact hissue.realMove hM hchange
  | settleSubscriptionMint =>
      obtain ⟨_, _, _, _, _, _, hissue⟩ := Token.settleSubscriptionMint_ok h
      exact hissue.realMove hM hchange
  | burn =>
      obtain ⟨ts, _, _, _, -, hoperator, hredeemed⟩ := Token.burn_ok h
      rcases hredeemed.moves with ⟨-, hbooked⟩ | ⟨-, hunbooked⟩
      · refine hbooked.realMove hM hchange fun state hstate ↦ ?_
        exact (tokenStateAddress_inj.1 (hoperator.symm.trans (hguard state hstate))).symm
      · exact absurd (counter_untouched hM hunbooked.frame (by decide)) hchange
  | forcedTransfer =>
      obtain ⟨ts, _, _, _, _, htransfer, _, _, hcomplies⟩ := Token.forcedTransfer_ok h
      refine htransfer.moves.realMove hL.tokenStates (fun ts' state hts' hstate ↦ ?_) hM hchange
      obtain rfl := account_inj.1 (htransfer.tokenStateAt.symm.trans hts')
      obtain ⟨hkey, hmint⟩ := Token.evaluateCompliance_ok hcomplies
      exact hmint state (hkey ▸ hstate)
  | recovery =>
      obtain ⟨ts, _, _, _, htransfer⟩ := Token.recovery_ok h
      have hhome : ComplianceHome L ts.tokenMint := htransfer.mintKey ▸ hguard
      exact htransfer.moves.realMove hL.tokenStates hhome hM hchange
  | _ => exact absurd (counter_untouched hM (TokenInstruction.frame h)
      (by simp [TokenInstruction.kinds, Irs.identityKinds, counterKinds])) hchange

omit [Borsh] in
theorem Token2022.counter {i : Token2022.Instruction}
    (h : Token2022.process L signers i = .ok L') (hL : WellFormed L)
    (hguard : Guarded L signers (.token2022 i))
    (hM : (L.accounts k).counterModule k = some M) (hchange : L'.accounts k ≠ L.accounts k) :
    RealMove M L L' := by
  cases hi : i.moves with
  | false =>
      exact absurd (counter_untouched hM (Token2022.process_quiet h hi).frame (by decide)) hchange
  | true =>
      cases i with
      | mintTo => exact absurd (counter_untouched hM (Token2022.frame_mintTo h) (by decide)) hchange
      | burn => exact absurd (counter_untouched hM (Token2022.frame_burn h) (by decide)) hchange
      | transferChecked =>
          exact (transferChecked_moves h).realMove hL.tokenStates hguard hM hchange
      | transfer =>
          rcases Token2022.transfer_ok h with ⟨-, rfl⟩ | ⟨_, _, _, hne, ha, hb, -, -, -, -, rfl⟩
          · exact absurd rfl hchange
          · exact absurd (counter_untouched hM (Token2022.frame_put_pair hne ha hb) (by decide))
              hchange
      | _ => exact nomatch hi

theorem process_realMove {i : Instruction} (h : process L signers i = .ok L') (hL : WellFormed L)
    (hguard : Guarded L signers i.core) (hmoves : i.core.moves = true)
    (hM : (L.accounts k).counterModule k = some M) (hchange : L'.accounts k ≠ L.accounts k) :
    RealMove M L L' := by
  induction i with
  | token i => exact TokenInstruction.counter h hL hguard hM hchange
  | token2022 i => exact Token2022.counter h hL hguard hM hchange
  | createTokenMint =>
      exact absurd (counter_untouched hM (Factory.frame_createTokenMint h) (by decide)) hchange
  | callModuleFunction owner complianceState inner ih =>
      obtain ⟨_, -, hinner⟩ := bind_eq_ok.1 h
      exact ih hinner hguard hmoves
  | _ => exact nomatch hmoves

theorem process_counter {i : Instruction} (h : process L signers i = .ok L') (hL : WellFormed L)
    (hguard : Guarded L signers i.core) (hM : (L.accounts k).counterModule k = some M)
    (hchange : L'.accounts k ≠ L.accounts k) : OwnerSigned L signers M ∨ RealMove M L L' := by
  cases hmoves : i.core.moves with
  | true => exact .inr (process_realMove h hL hguard hmoves hM hchange)
  | false =>
      have hreaches := process_reaches h hL.flags hmoves hM hchange
      exact .inl (hreaches.signed hguard)

/-! ## Every run -/

/-- The calls of a step meet the condition. -/
def Label.Guarded (L : Ledger) : Label → Prop
  | .instruction signers i => Fracks.Guarded L signers i.core
  | .environment => True

/-- A counter that a step changes is that of a module whose owner has signed the
step, or the step really moves tokens. -/
def CountersAuthorised (L : Ledger) (l : Label) (L' : Ledger) : Prop :=
  ∀ k M, (L.accounts k).counterModule k = some M → L'.accounts k ≠ L.accounts k →
    (∃ signers i, l = .instruction signers i ∧ OwnerSigned L signers M) ∨ RealMove M L L'

theorem Step.counters {l : Label} (h : Step L l L') (hguard : l.Guarded L) (hL : WellFormed L) :
    CountersAuthorised L l L' := by
  intro k M hM hchange
  cases h with
  | instruction signers i _ h =>
      exact (process_counter h hL hguard hM hchange).imp_left fun hsigned ↦ ⟨_, _, rfl, hsigned⟩
  | environment h => exact absurd (counter_untouched hM h (by decide)) hchange

/-- In every run of guarded steps the counters change only when the owner of
their module signs or when tokens really move. -/
theorem counters_move_with_tokens {L₀ : Ledger} {labels : List Label} (hL : WellFormed L₀) :
    Run.AllSteps (restrict Step fun L l _ ↦ l.Guarded L) CountersAuthorised L₀ labels := by
  intro before l after t u _ hrun hstep
  have ht : WellFormed t := hrun.invariant (fun _ _ _ hL hstep ↦ hstep.1.wellFormed hL) hL
  exact hstep.1.counters hstep.2 ht

end Process

/-! ## A stranger empties the supply -/

def soldHolding : Holding := ⟨.address 10, .address 11, 10⟩

/-- A token with a supply cap, all ten tokens of which are held by one wallet. -/
def soldDeployment : Deployment where
  tokenMint := .address 0
  issuer := .address 1
  paused := false
  modules := [HookedModule.moduleAddress SupplyCapModule (.address 0)]
  modulesPaused := false
  metas := TokenHook.baseMetas
  wallets := [(soldHolding.wallet, 276)]
  holdings := [soldHolding]

def soldLedger : Ledger :=
  soldDeployment.ledger
    [(soldDeployment.supplyCap, account (soldDeployment.supplyCapRecord 100 10))]

def stranger : Pubkey := .address 9

/-- The accounts of the module and of its program. -/
def soldRemaining : List Pubkey := [soldDeployment.supplyCap, .program .modSupplyCap]

def strangerCall : Label :=
  .instruction [stranger]
    (.compliance (.destroyed soldDeployment.compliance soldRemaining 10 0 276))

theorem soldLedger_wellFormed : WellFormed soldLedger :=
  soldDeployment.wellFormed (by simp [kind]) (by
    intro r hr a ha
    obtain rfl := List.mem_singleton.1 hr
    exact absurd (congrArg Account.kind ha) (by simp [kind]))

/-- The stranger calls the router directly: the recorded supply drops to zero,
and no token is burned. -/
theorem stranger_empties_supply : WellFormed soldLedger ∧
    ¬ Run.AllSteps (@Step strictBorsh) CountersAuthorised soldLedger [strangerCall] := by
  refine ⟨soldLedger_wellFormed, fun hall ↦ ?_⟩
  obtain ⟨u, hu, hM, hM'⟩ : ∃ u, @process strictBorsh soldLedger [stranger] (.compliance
      (.destroyed soldDeployment.compliance soldRemaining 10 0 276)) = .ok u ∧
        soldLedger.accounts soldDeployment.supplyCap =
          account (soldDeployment.supplyCapRecord 100 10) ∧
        u.accounts soldDeployment.supplyCap = account (soldDeployment.supplyCapRecord 100 0) :=
    ⟨_, rfl, rfl, rfl⟩
  have hexternal : ∀ k ∈ [stranger], k.External :=
    List.forall_mem_singleton.2 (Pubkey.external_address 9)
  have hstep : @Step strictBorsh soldLedger strangerCall u :=
    @Step.instruction strictBorsh _ _ _ _ hexternal hu
  have hchange : u.accounts soldDeployment.supplyCap ≠
      soldLedger.accounts soldDeployment.supplyCap := by
    rw [hM, hM', Ne, account_inj]
    decide
  rcases hall [] strangerCall [] soldLedger u rfl (.nil _) hstep soldDeployment.supplyCap
    soldDeployment.supplyCap (hM ▸ rfl) hchange with
    ⟨signers, i, hlabel, owner, howner, hM₀⟩ | hreal
  · -- the owner of the module is the issuer
    obtain rfl : [stranger] = signers := by injection hlabel
    rw [hM] at hM₀
    obtain rfl := Option.some.inj hM₀
    exact absurd howner (by decide)
  · obtain ⟨C, state, v, hstate, hbound, hauthority, hbooked⟩ := hreal
    have hbooks : SameBooks soldLedger u :=
      .of_frame (@process_frame _ _ _ strictBorsh _ hu) (by decide) (by decide)
    have hzero := hbooked.applies.amount_eq_zero hbooks
    rw [hM] at hauthority
    obtain rfl := Option.some.inj hauthority
    obtain rfl : state = soldDeployment.complianceRecord := (account_inj.1 hstate).symm
    have hsame := hbooked.supplyCap_of_zero hzero hstate rfl (by decide) hbound hM
    exact hchange (hsame.trans hM.symm)

def issuerMint : Label :=
  .instruction [soldDeployment.issuer] (.token (.mint soldDeployment.operator
    (soldDeployment.receiverAccounts soldHolding .default soldRemaining) soldHolding.wallet 5 15))

/-- The mint of the issuer is a guarded step that moves the counter. -/
theorem issuer_mint_authorised : ∃ u, @Step strictBorsh soldLedger issuerMint u ∧
    u.accounts soldDeployment.supplyCap = account (soldDeployment.supplyCapRecord 100 15) ∧
      CountersAuthorised soldLedger issuerMint u := by
  obtain ⟨u, hu, hM⟩ : ∃ u, @process strictBorsh soldLedger [soldDeployment.issuer] (.token
      (.mint soldDeployment.operator (soldDeployment.receiverAccounts soldHolding .default
        soldRemaining) soldHolding.wallet 5 15)) = .ok u ∧
        u.accounts soldDeployment.supplyCap = account (soldDeployment.supplyCapRecord 100 15) :=
    ⟨_, rfl, rfl⟩
  have hexternal : ∀ k ∈ [soldDeployment.issuer], k.External :=
    List.forall_mem_singleton.2 (Pubkey.external_address 1)
  have hstep : @Step strictBorsh soldLedger issuerMint u :=
    @Step.instruction strictBorsh _ _ _ _ hexternal hu
  exact ⟨u, hstep, hM, @counters_move_with_tokens strictBorsh soldLedger [issuerMint]
    soldLedger_wellFormed [] issuerMint [] soldLedger u rfl (.nil _) ⟨hstep, trivial⟩⟩

end Fracks
