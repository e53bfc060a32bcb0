import Fracks.Binding
import Fracks.RaisedBalances
import Fracks.Token.SupportAccounts

/-!
# The balance cap over runs

A bound balance cap is checked when tokens are minted and when a transfer is
approved.  An approval fixes the balance it was checked with, and its execution
refuses any other, so that the sum it admits is what the balance becomes.
-/

namespace Fracks

open Checked AccountType Ledger TokenHook Compliance Runs

variable {L L' : Ledger} {T M C k : Pubkey} {signers : List Pubkey} {i : Instruction}
  {state : ComplianceState} {m : MaxBalanceModule} {a : TransferApproval}

/-! ## The checks of the cap -/

/-- The post-hook of a mint compares the balance after it with the cap. -/
theorem Compliance.created_maxBalance {remaining : List Pubkey} {amount toAfter toCountry : ℕ}
    (h : created L C remaining amount toAfter toCountry = .ok L')
    (hstate : L.accounts C = account state) (hactive : state.modulesPaused = false)
    (hnodup : state.modules.Nodup) (hbound : M ∈ state.modules) (hM : L.accounts M = account m) :
    toAfter ≤ m.maxBalance := by
  obtain ⟨state', hstate', -, hloop⟩ := created_eq_ok.1 h
  obtain rfl := account_inj.1 (hstate.symm.trans hstate')
  rcases hloop with ⟨hpaused, -⟩ | ⟨-, hloop⟩
  · simp [hactive] at hpaused
  · refine Fold.foldlM_once (g := fun L ↦ L.view MaxBalanceModule M)
      (R := fun v _ ↦ ∀ m, v = some m → toAfter ≤ m.maxBalance) hnodup hbound
      (fun M' _ _ L L' hstep ↦ ?_) (fun L L' hstep m hm ↦ ?_) hloop m (view_eq_some.2 hM)
    · exact (moduleCreated_iteration hstep).frame.view_eq (by decide) M
    · rw [view_eq_some] at hm
      simp only [moduleCreated, hm, account_data, encode, bind_eq_ok, require_eq_ok,
        exists_const] at hstep
      exact hstep.2.1

/-- The compliance check compares the balance and the amount with the cap.  It
adds them with saturation, which makes no difference for an amount that is a
64-bit number or below the cap. -/
theorem Token.complies_maxBalance [Borsh] {ts : TokenState} {remaining : List Pubkey}
    {source : Pubkey} {amount toBalance fromCountry toCountry : ℕ}
    (h : Token.evaluateCompliance L ts C remaining source amount toBalance fromCountry toCountry =
      .ok ()) (hstate : L.accounts C = account state) (hactive : state.modulesPaused = false)
    (hbound : M ∈ state.modules) (hM : L.accounts M = account m)
    (hfits : amount ≤ m.maxBalance) : toBalance + amount ≤ m.maxBalance := by
  have hloaded : Token.deserializeLocal ComplianceState L C = .ok state := by
    simp [Token.deserializeLocal, hstate, Borsh.decodeView_encode]
  obtain ⟨hreferences, hmodules, -⟩ := (Token.evaluateCompliance_eq_ok hloaded hactive).1 h
  have hmodule := hmodules M hbound
  simp only [Token.ReferencesRefused, not_or, not_lt, not_not] at hreferences
  simp only [Token.ModuleRefuses, hM, account_data, encode, not_or, not_lt] at hmodule
  have hsum := hreferences.2.1
  have hcap := hmodule.2
  unfold saturatingAdd at hcap
  omega

/-! ## The record of the cap -/

/-- The cap of a module never changes. -/
theorem ModuleInstruction.maxBalance_eq {j : ModuleInstruction} (h : j.process L signers = .ok L')
    (hM : L.accounts M = account m) : L'.accounts M = account m := by
  cases j with
  | initializeMaxBalance owner moduleState tokenMint maxBalance =>
      obtain ⟨-, hvacant, -, hother⟩ := initializeModuleAccount_ok h
      have hne : M ≠ moduleState := by
        rintro rfl
        exact account_ne_vacant m (hM.symm.trans hvacant)
      exact (hother M hne).trans hM
  | _ => exact (ModuleInstruction.frame h).accounts_eq (by simp [ModuleInstruction.kinds, kind]) hM

theorem process_maxBalance [Borsh] (h : process L signers i = .ok L')
    (hM : L.accounts M = account m) : L'.accounts M = account m := by
  induction i with
  | module j => exact ModuleInstruction.maxBalance_eq h hM
  | token j =>
      have hframe := TokenInstruction.frame h
      exact hframe.accounts_eq (by
        cases j <;> simp [TokenInstruction.kinds, hookKinds, Irs.identityKinds, kind]) hM
  | hook j =>
      have hframe := HookInstruction.frame h
      exact hframe.accounts_eq (by cases j <;> simp [HookInstruction.kinds, hookKinds, kind]) hM
  | compliance j =>
      have hframe := ComplianceInstruction.frame h
      exact hframe.accounts_eq (by
        cases j <;> simp [ComplianceInstruction.kinds, PostHook.kinds, kind]) hM
  | token2022 j => exact (Token2022.process_frame h).accounts_eq (by decide) hM
  | createTokenMint => exact (Factory.frame_createTokenMint h).accounts_eq (by decide) hM
  | callModuleFunction owner complianceState inner ih =>
      obtain ⟨_, -, hinner⟩ := bind_eq_ok.1 h
      exact ih hinner

/-! ## The invariant -/

/-- No balance of `T` is above the cap, and no pending approval would bring one
above it. -/
structure CapHeld (T : Pubkey) (cap : ℕ) (L : Ledger) : Prop where
  balances : ∀ k, balance L T k ≤ cap
  pending : ∀ k a, PendingAt T L k a → a.toBalance + a.amount ≤ cap

/-- The balance cap `m` at `M` is bound to `T` and in force. -/
structure CapBound (T M : Pubkey) (m : MaxBalanceModule) (L : Ledger) : Prop where
  anchored : Anchored T L
  bound : ∃ state, BoundAt T M L state ∧ state.modulesPaused = false
  module : L.accounts M = account m

/-- The cap is bound and never paused, the compliance state is not replaced, and
nothing of `T` is recovered. -/
structure CapPermitted (T M : Pubkey) (i : Instruction) : Prop where
  anchor : KeepsAnchor T i
  binding : KeepsBinding T M i
  running : ¬ i.Pauses T
  ordinary : ∀ operator irsProgram accts lostWallet newWallet amount,
    i = .token (.recovery operator irsProgram accts lostWallet newWallet amount) →
      operator.tokenState ≠ Token.tokenStateAddress T

section Process

variable [Borsh]

theorem process_capBound (h : process L signers i = .ok L')
    (hexternal : ∀ k ∈ signers, k.External) (hpermitted : CapPermitted T M i.core)
    (hL : CapBound T M m L) : CapBound T M m L' := by
  obtain ⟨state, hbound, hrunning⟩ := hL.bound
  obtain ⟨state', hrebound⟩ := process_rebound h hpermitted.binding hbound
  exact ⟨process_anchored h hexternal hpermitted.anchor hL.anchored,
    ⟨state', hrebound.bound, (hrebound.paused hpermitted.running).trans hrunning⟩,
    process_maxBalance h hL.module⟩

omit [Borsh] in
theorem CapBound.environment (hL : CapBound T M m L) (h : Frame environmentKinds L L') :
    CapBound T M m L' := by
  obtain ⟨state, hbound, hrunning⟩ := hL.bound
  exact ⟨hL.anchored.environment h, ⟨state, hbound.of_frame h (by decide), hrunning⟩,
    h.accounts_eq (by decide) hL.module⟩

omit [Borsh] in
/-- What a booked mint leaves in the account is within the cap. -/
theorem CapBound.minted {n : ℕ} (hL : CapBound T M m L)
    (h : Booked T (complianceAddress T) (.minted k n) L L') : balance L' T k ≤ m.maxBalance := by
  obtain ⟨state, hbound, hrunning⟩ := hL.bound
  obtain ⟨L₁, L₂, hbefore, ⟨_, _, hcreated⟩, -⟩ := h.posted
  have hcap := created_maxBalance hcreated (hbefore.accounts_eq (by decide) hbound.loaded) hrunning
    hbound.nodup hbound.bound (hbefore.accounts_eq (by decide) hL.module)
  rw [h.applies.1, Tally.credit, Function.update_self]
  exact hcap

/-- The compliance check of an instruction of `T` looks at the cap. -/
theorem CapBound.complies {ts : TokenState} {remaining : List Pubkey} {source : Pubkey}
    {amount toBalance fromCountry toCountry : ℕ} (hL : CapBound T M m L)
    (hts : L.accounts (Token.tokenStateAddress T) = account ts)
    (h : Token.evaluateCompliance L ts C remaining source amount toBalance fromCountry toCountry =
      .ok ()) (hfits : amount ≤ m.maxBalance) : toBalance + amount ≤ m.maxBalance := by
  obtain ⟨state, hbound, hrunning⟩ := hL.bound
  obtain ⟨hkey, -⟩ := Token.evaluateCompliance_ok h
  have hC : C = complianceAddress T := hkey.symm.trans (hL.anchored.compliance hts).2
  exact Token.complies_maxBalance h (hC ▸ hbound.loaded) hrunning hbound.bound hL.module hfits

/-- An approval that an instruction writes has been checked against the cap. -/
theorem CapBound.granted (hL : CapBound T M m L) (hheld : CapHeld T m.maxBalance L)
    (hpermitted : CapPermitted T M i) (h : Granted T L i a) :
    a.toBalance + a.amount ≤ m.maxBalance := by
  cases h with
  | transfer signers L' accts amount fromBalance toBalance fromCountry toCountry ts s d happroved
      hfreezes hstate =>
      obtain ⟨n, -, hamount⟩ := hfreezes
      have hts : L.accounts (Token.tokenStateAddress T) = account ts :=
        hstate ▸ happroved.tokenStateAt
      have hsource := hheld.balances accts.sourceTokenAccount
      rw [balance_of_account happroved.sourceAt, if_pos, happroved.sourceAmount] at hsource
      · have hfits : amount ≤ m.maxBalance := by omega
        exact hL.complies hts happroved.evaluated.complies hfits
      · exact happroved.sourceValid.1.trans (hL.anchored.compliance hts).1
  | forcedTransfer signers L₁ L₂ operator fromPartialFreeze accts source destination amount
      fromBalance toBalance fromCountry toCountry ts s d happroved hcomplies hstate =>
      have hts : L.accounts (Token.tokenStateAddress T) = account ts :=
        hstate ▸ happroved.tokenStateAt
      have hsource := hheld.balances accts.sourceTokenAccount
      rw [balance_of_account happroved.sourceAt, if_pos] at hsource
      · have hfits : amount ≤ m.maxBalance := happroved.enough.trans hsource
        exact hL.complies hts hcomplies hfits
      · exact happroved.sourceMint.trans (hL.anchored.compliance hts).1
  | recovery signers L₁ L₂ operator irsProgram accts lostWallet newWallet amount fromCountry
      toCountry ts s d happroved hstate =>
      exact absurd hstate (hpermitted.ordinary _ _ _ _ _ _ rfl)

theorem process_capHeld (h : process L signers i = .ok L')
    (hexternal : ∀ k ∈ signers, k.External) (hpermitted : CapPermitted T M i.core)
    (hL : CapBound T M m L) (hheld : CapHeld T m.maxBalance L) : CapHeld T m.maxBalance L' := by
  have happroval : ∀ k a, PendingAt T L k a ∨ Granted T L i.core a →
      a.toBalance + a.amount ≤ m.maxBalance := by
    rintro k a (hbefore | hgranted)
    · exact hheld.pending k a hbefore
    · exact hL.granted hheld hpermitted hgranted
  refine ⟨fun k ↦ ?_, fun k a hafter ↦ happroval k a (process_pending h hexternal hafter)⟩
  by_cases hraised : balance L T k < balance L' T k
  · obtain ⟨state, hbound, -⟩ := hL.bound
    cases process_raises h hexternal hL.anchored hbound.loaded hraised with
    | minted n hbooked => exact hL.minted hbooked
    | moved key a horigin hdestination hbalance =>
        rw [hbalance]
        exact happroval key a horigin
  · have hbefore := hheld.balances k
    omega

end Process

/-! ## Runs -/

/-- No token account of `T` holds more than the cap. -/
def BalancesCapped (T : Pubkey) (cap : ℕ) (L : Ledger) : Prop :=
  ∀ (k : Pubkey) (a : TokenAccount), L.accounts k = account a → a.mint = T → a.amount ≤ cap

/-- Before the first mint the cap is bound; an approval that is pending then is one
of nothing. -/
structure CapStart (T M : Pubkey) (m : MaxBalanceModule) (L : Ledger) : Prop where
  bound : CapBound T M m L
  unheld : ∀ k, balance L T k = 0
  idle : ∀ k a, PendingAt T L k a → a.toBalance = 0 ∧ a.amount = 0

theorem CapStart.held (h : CapStart T M m L) : CapHeld T m.maxBalance L where
  balances k := by
    rw [h.unheld k]
    exact Nat.zero_le _
  pending k a ha := by
    obtain ⟨hbalance, hamount⟩ := h.idle k a ha
    omega

theorem CapHeld.capped {cap : ℕ} (h : CapHeld T cap L) : BalancesCapped T cap L := by
  intro k a ha hmint
  have hbalance := h.balances k
  rwa [balance_of_account ha, if_pos hmint] at hbalance

/-- In every run from before the first mint in which the cap stays in force and
nothing is recovered, no token account holds more than the cap. -/
theorem balances_capped [Borsh] {labels : List Label} (hstart : CapStart T M m L)
    (hrun : Run (restrict Step fun _ l _ ↦ l.Core (CapPermitted T M)) L labels L') :
    BalancesCapped T m.maxBalance L' := by
  have hL' : CapBound T M m L' ∧ CapHeld T m.maxBalance L' := by
    refine hrun.invariant (P := fun L ↦ CapBound T M m L ∧ CapHeld T m.maxBalance L)
      (fun L l L' hL hstep ↦ ?_) ⟨hstart.bound, hstart.held⟩
    obtain ⟨hbound, hheld⟩ := hL
    obtain ⟨hstep, hpermitted⟩ := hstep
    cases hstep with
    | instruction signers i hexternal h =>
        exact ⟨process_capBound h hexternal hpermitted hbound,
          process_capHeld h hexternal hpermitted hbound hheld⟩
    | environment h =>
        refine ⟨hbound.environment h, fun k ↦ ?_, fun k a ha ↦ ?_⟩
        · rw [congrFun (balance_frame h (by decide)) T]
          exact hheld.balances k
        · exact hheld.pending k a (ha.of_frame h (by decide))
  exact hL'.2.capped

/-! ## A mint up to the cap -/

def cappedHolder : Holding := ⟨.address 10, .address 11, 0⟩

def balanceCap : Pubkey :=
  .findProgramAddress .modMaxBalance [.key (.address 0)] (.program .modMaxBalance)

/-- A token with a balance cap before its first mint. -/
def boundedDeployment : Deployment where
  tokenMint := .address 0
  issuer := .address 1
  paused := false
  modules := [balanceCap]
  modulesPaused := false
  metas := TokenHook.baseMetas
  wallets := [(cappedHolder.wallet, 276)]
  holdings := [cappedHolder]

def balanceCapRecord : MaxBalanceModule where
  owner := boundedDeployment.issuer
  tokenMint := boundedDeployment.tokenMint
  maxBalance := 10

def boundedLedger : Ledger := boundedDeployment.ledger [(balanceCap, account balanceCapRecord)]

theorem boundedLedger_start :
    CapStart boundedDeployment.tokenMint balanceCap balanceCapRecord boundedLedger where
  bound :=
    { anchored := boundedDeployment.anchored rfl rfl (by simp [kind])
      bound := ⟨_, ⟨rfl, rfl, List.nodup_singleton _, .head _⟩, rfl⟩
      module := rfl }
  unheld k := boundedDeployment.unheld (by simp [kind])
    (by simp [boundedDeployment, cappedHolder]) k
  idle k a ha := absurd ha.loaded
    (boundedDeployment.not_account (by simp [kind]) (by decide) k a)

/-- A mint of exactly what the cap allows. -/
def fullMint : Instruction :=
  .token (.mint boundedDeployment.operator
    (boundedDeployment.receiverAccounts cappedHolder .default [balanceCap]) cappedHolder.wallet
      10 10)

theorem fullMint_capped : ∃ u, @Step strictBorsh boundedLedger
      (.instruction [boundedDeployment.issuer] fullMint) u ∧
    balance u boundedDeployment.tokenMint cappedHolder.key = 10 ∧
      BalancesCapped boundedDeployment.tokenMint 10 u := by
  obtain ⟨u, hu, hbalance⟩ : ∃ u,
      @process strictBorsh boundedLedger [boundedDeployment.issuer] fullMint = .ok u ∧
      balance u boundedDeployment.tokenMint cappedHolder.key = 10 := ⟨_, rfl, rfl⟩
  have hexternal : ∀ k ∈ [boundedDeployment.issuer], k.External :=
    List.forall_mem_singleton.2 (Pubkey.external_address 1)
  have hstep := @Step.instruction strictBorsh _ _ _ _ hexternal hu
  have hpermitted : CapPermitted boundedDeployment.tokenMint balanceCap fullMint :=
    ⟨trivial, trivial, not_false, fun _ _ _ _ _ _ hi ↦ nomatch hi⟩
  exact ⟨u, hstep, hbalance, @balances_capped _ _ _ _ _ strictBorsh _ boundedLedger_start
    (.single ⟨hstep, hpermitted⟩)⟩

end Fracks
