import Fracks.SupplyAccounting

/-!
# Holder accounting

A bound investor cap counts the token accounts with a positive balance.  The
post-hooks infer from the balances after a movement whether it has filled an
empty account or emptied one, so that every booked movement shifts the counter
as it shifts the number of holders.
-/

namespace Fracks

open Checked AccountType Ledger Tally Compliance HookedModule Runs

/-! ## The counter of the investor cap -/

/-- The investor cap at `M` counts the holders of `T` up to the comparison `R`. -/
structure HoldersTracked (R : ℕ → ℕ → Prop) (T M : Pubkey) (L : Ledger) : Prop where
  finite : Tally.Finite (balance L T)
  counted : ∃ c : MaxInvestorsModule, L.accounts M = account c ∧
    Served T M c ∧ R (positives (balance L T)) c.holderCount

variable {L L' : Ledger} {T M k s d : Pubkey} {signers : List Pubkey} {i : Instruction}
  {state : ComplianceState} {R : ℕ → ℕ → Prop} {n : ℕ}

/-- Nothing changes that the counter depends on. -/
theorem HoldersTracked.congr (h : HoldersTracked R T M L) (hbalance : balance L' T = balance L T)
    (hM : ∀ c : MaxInvestorsModule, L.accounts M = account c →
      Served T M c → L'.accounts M = account c) :
    HoldersTracked R T M L' := by
  obtain ⟨c, hc, hserved, hR⟩ := h.counted
  exact ⟨hbalance ▸ h.finite, c, hM c hc hserved, hserved, hbalance ▸ hR⟩

theorem Untouched.maxInvestors {c : MaxInvestorsModule} (h : Untouched (complianceAddress T) L L')
    (hc : L.accounts M = account c) (hserved : Served T M c) :
    L'.accounts M = account c := by
  have hcounter : (L.accounts M).counterModule M = some M := hc ▸ rfl
  have hhook : (L.accounts M).data.hookAuthority = some (complianceAddress T) :=
    hc ▸ congrArg some hserved.1
  exact (h.counters M M hcounter hhook).trans hc

theorem HoldersTracked.minted (hR : Tracks R) (hL : HoldersTracked R T M L)
    (hb : BoundAt T M L state) (h : Booked T (complianceAddress T) (.minted k n) L L')
    (hactive : 0 < n → state.modulesPaused = false) : HoldersTracked R T M L' := by
  obtain ⟨c, hc, hserved, hcounted⟩ := hL.counted
  have hfinite := h.applies.finite hL.finite
  have hpositives := positives_credit hL.finite k n
  rw [← h.applies.1] at hpositives
  cases hpaused : state.modulesPaused with
  | true =>
      have hn : n = 0 := by
        by_contra hne
        have hrunning := hactive (Nat.pos_of_ne_zero hne)
        rw [hpaused] at hrunning
        exact nomatch hrunning
      have hM := h.minted_paused hb.loaded hpaused (by decide) hc
      refine ⟨hfinite, c, hM, hserved, ?_⟩
      rw [hpositives, hn]
      simpa using hcounted
  | false =>
      have hM := h.minted_maxInvestors hb.loaded hpaused hb.nodup hb.bound hc
      refine ⟨hfinite, _, hM, hserved, ?_⟩
      rw [hpositives]
      exact (hR _ _ _).2 hcounted

theorem HoldersTracked.burned (hR : Tracks R) (hL : HoldersTracked R T M L)
    (hb : BoundAt T M L state) (h : Booked T (complianceAddress T) (.burned k n) L L') :
    HoldersTracked R T M L' := by
  obtain ⟨c, hc, hserved, hcounted⟩ := hL.counted
  obtain ⟨count, hM, hcount⟩ := h.burned_maxInvestors hb.loaded hb.nodup hb.bound hc
  obtain ⟨hheld, -, hbalance, -⟩ := h.applies
  have hpositives := positives_debit hL.finite hheld
  rw [← hbalance] at hpositives
  exact ⟨h.applies.finite hL.finite, _, hM, hserved,
    hR.shift (m := 0) hcounted hpositives hcount⟩

theorem HoldersTracked.moved (hR : Tracks R) (hL : HoldersTracked R T M L)
    (hb : BoundAt T M L state) (h : Booked T (complianceAddress T) (.moved s d n) L L') :
    HoldersTracked R T M L' := by
  obtain ⟨c, hc, hserved, hcounted⟩ := hL.counted
  obtain ⟨count, hM, hcount⟩ := h.moved_maxInvestors hb.loaded hb.nodup hb.bound hc
  obtain ⟨hne, hheld, hbalance, -⟩ := h.applies
  have hpositives := positives_move hL.finite hne hheld
  rw [← hbalance] at hpositives
  exact ⟨h.applies.finite hL.finite, _, hM, hserved, hR.shift hcounted hpositives hcount⟩

/-- The counter follows every movement, when mints are not made under paused
modules, other tokens are not booked here, and the comparison allows for the
burns that are booked elsewhere. -/
theorem HoldersTracked.effect (hR : Tracks R) (hL : HoldersTracked R T M L)
    (hb : BoundAt T M L state) (h : Effect T i L L')
    (hactive : ∀ n, i.Issues T n → 0 < n → state.modulesPaused = false)
    (hlost : i.Loses T → ∀ x y n, R (x + n) y → R x y) (hmisburned : ¬ i.Misburns T)
    (hmismoved : ¬ i.Mismoves T L) : HoldersTracked R T M L' := by
  cases h with
  | booked v h hissues =>
      cases v with
      | minted k n => exact hL.minted hR hb h (hactive n (hissues k n rfl))
      | burned k n => exact hL.burned hR hb h
      | moved s d n => exact hL.moved hR hb h
  | lost k n h huntouched hi =>
      obtain ⟨c, hc, hserved, hcounted⟩ := hL.counted
      refine ⟨h.finite hL.finite, c, huntouched.maxInvestors hc hserved, hserved, ?_⟩
      obtain ⟨hheld, -, hbalance, -⟩ := h
      have hpositives := positives_debit hL.finite hheld
      rw [← hpositives] at hcounted
      rw [hbalance]
      exact hlost hi _ _ _ hcounted
  | misburned X k n hX h hi => exact absurd hi hmisburned
  | mismoved X s d n hX h hi => exact absurd hi hmismoved
  | outside hbalance _ huntouched =>
      exact hL.congr hbalance fun c hc hserved ↦ huntouched.maxInvestors hc hserved

/-! ## Instructions that move nothing -/

/-- The counter is not moved by direct calls, and its module keeps its hook
authority. -/
def HolderCapLeft (T M : Pubkey) : Instruction → Prop
  | .compliance i => i.router ≠ some (complianceAddress T)
  | .module (.setMaxInvestorsHookAuthority _ M' _) => M' ≠ M
  | .module i => i.called ≠ some M
  | _ => True

theorem HoldersTracked.still [Borsh] (hL : HoldersTracked R T M L)
    (h : process L signers i = .ok L') (hflags : TokenHook.FlagsDown L)
    (hstill : i.core.moves = false) (hleft : HolderCapLeft T M i.core) :
    HoldersTracked R T M L' := by
  have hbalance := congrFun (process_books h hstill).balance T
  by_cases hsame : L'.accounts M = L.accounts M
  · exact hL.congr hbalance fun c hc _ ↦ hsame.trans hc
  · obtain ⟨c, hc, hserved, -⟩ := hL.counted
    have hcounter : (L.accounts M).counterModule M = some M := hc ▸ rfl
    have hcore := process_core h
    have hreaches := process_reaches h hflags hstill hcounter hsame
    generalize i.core = j at hcore hreaches hleft
    cases hreaches with
    | @router j C state hj hstate hbound hhook =>
        rw [hc] at hhook
        have hC : c.hookAuthority = C := Option.some.inj hhook
        have hC' : C = complianceAddress T := hC.symm.trans hserved.1
        exact absurd (hC' ▸ hj) hleft
    | @called j hj =>
        cases j with
        | setMaxInvestorsHookAuthority => exact nomatch hj
        | _ => exact absurd hj hleft
    | @administered j hj hsigned =>
        cases j with
        | setMaxInvestorsHookAuthority owner M' hookAuthority =>
            obtain rfl := Option.some.inj hj
            exact absurd rfl hleft
        | setSupplyCapHookAuthority owner M' hookAuthority =>
            obtain rfl := Option.some.inj hj
            obtain ⟨-, m, _, hm, -⟩ := updateModuleOwner_eq_ok.1 hcore
            exact absurd (hc.symm.trans hm) (account_ne_of_kind (by decide))
        | setMaxSupply owner M' maxSupply =>
            obtain rfl := Option.some.inj hj
            obtain ⟨-, m, hm, -⟩ := ModSupplyCap.setMaxSupply_eq_ok.1 hcore
            exact absurd (hc.symm.trans hm) (account_ne_of_kind (by decide))
        | _ => exact nomatch hj

/-! ## Runs -/

/-- The investor cap is bound, served and never paused, the compliance state is
not replaced, and the counter is not moved by direct calls. -/
structure HoldersPermitted (T M : Pubkey) (i : Instruction) : Prop where
  anchor : KeepsAnchor T i
  binding : KeepsBinding T M i
  running : ¬ i.Pauses T
  counter : HolderCapLeft T M i
  direct : NoHolderBurn T i

/-- A token whose holders are counted. -/
structure HoldersCounted (T M : Pubkey) (L : Ledger) : Prop where
  anchored : Anchored T L
  bound : ∃ state, BoundAt T M L state ∧ state.modulesPaused = false
  tracked : HoldersTracked (· = ·) T M L

/-- Before the first mint the cap is bound with its hook authority. -/
structure HoldersStart (T M : Pubkey) (L : Ledger) : Prop where
  anchored : Anchored T L
  bound : ∃ state, BoundAt T M L state ∧ state.modulesPaused = false
  module : ∃ c : MaxInvestorsModule, L.accounts M = account c ∧
    Served T M c ∧ c.holderCount = 0
  unheld : ∀ k, balance L T k = 0

theorem HoldersStart.counted (h : HoldersStart T M L) : HoldersCounted T M L := by
  obtain ⟨hfinite, -, hpositives⟩ := eq_zero_of_forall h.unheld
  obtain ⟨c, hc, hserved, hzero⟩ := h.module
  exact ⟨h.anchored, h.bound, hfinite, c, hc, hserved, hpositives.trans hzero.symm⟩

theorem process_holdersCounted [Borsh] (h : process L signers i = .ok L')
    (hexternal : ∀ k ∈ signers, k.External) (hpermitted : HoldersPermitted T M i.core)
    (hburns : BurnsBooked T i.core) (hmoves : ¬ i.core.Mismoves T L)
    (hL : HoldersCounted T M L) : HoldersCounted T M L' := by
  obtain ⟨state, hbound, hrunning⟩ := hL.bound
  obtain ⟨state', hrebound⟩ := process_rebound h hpermitted.binding hbound
  have hrunning' := (hrebound.paused hpermitted.running).trans hrunning
  have hanchored := process_anchored h hexternal hpermitted.anchor hL.anchored
  refine ⟨hanchored, ⟨state', hrebound.bound, hrunning'⟩, ?_⟩
  cases hcore : i.core.moves with
  | true =>
      have heffect := process_effect h hexternal hcore hL.anchored hbound.loaded hbound.home
      have hlost := hburns.not_loses hpermitted.direct
      exact hL.tracked.effect tracks_eq hbound heffect (fun _ _ _ ↦ hrunning)
        (fun hloses ↦ absurd hloses hlost) hburns.not_misburns hmoves
  | false => exact hL.tracked.still h hL.anchored.wellFormed.flags hcore hpermitted.counter

theorem HoldersCounted.environment (hL : HoldersCounted T M L) (h : Frame environmentKinds L L') :
    HoldersCounted T M L' := by
  obtain ⟨state, hbound, hrunning⟩ := hL.bound
  have hbalance : balance L' T = balance L T := congrFun (balance_frame h (by decide)) T
  exact ⟨hL.anchored.environment h, ⟨state, hbound.of_frame h (by decide), hrunning⟩,
    hL.tracked.congr hbalance fun c hc _ ↦ h.accounts_eq (by decide) hc⟩

/-- The counter is the number of token accounts with a positive balance. -/
def HoldersExact (T M : Pubkey) (L : Ledger) : Prop :=
  ∃ c : MaxInvestorsModule, L.accounts M = account c ∧ c.holderCount = positives (balance L T)

/-- In every run whose burns and transfers are booked under the compliance state
of their own mint, the counter of the investor cap is the number of holders. -/
theorem holders_counted [Borsh] {labels : List Label} (hstart : HoldersStart T M L)
    (hrun : Run (restrict Step fun L l _ ↦ l.Core fun i ↦
      HoldersPermitted T M i ∧ BurnsBooked T i ∧ ¬ i.Mismoves T L) L labels L') :
    HoldersExact T M L' := by
  have hL' : HoldersCounted T M L' := by
    refine hrun.invariant (fun L l L' hL hstep ↦ ?_) hstart.counted
    obtain ⟨hstep, hcore⟩ := hstep
    cases hstep with
    | instruction signers i hexternal h =>
        obtain ⟨hpermitted, hburns, hmoves⟩ := hcore
        exact process_holdersCounted h hexternal hpermitted hburns hmoves hL
    | environment h => exact hL.environment h
  obtain ⟨c, hc, -, hcounted⟩ := hL'.tracked.counted
  exact ⟨c, hc, hcounted.symm⟩

/-! ## A burn under another compliance state -/

theorem cappedLedger_holders :
    HoldersStart cappedDeployment.tokenMint cappedDeployment.maxInvestors cappedLedger where
  anchored := cappedLedger_anchored
  bound := ⟨_, cappedLedger_bound (.tail _ (.head _)), rfl⟩
  module := ⟨_, rfl, ⟨rfl, rfl⟩, rfl⟩
  unheld := cappedLedger_unheld

theorem capMint_holder : ∃ u, @Step strictBorsh cappedLedger
      (.instruction [cappedDeployment.issuer] capMint) u ∧
    u.accounts cappedDeployment.maxInvestors = account (cappedDeployment.maxInvestorsRecord 5 1) ∧
      ∃ v, @Step strictBorsh u (.instruction [cappedDeployment.issuer] (strayBurn 10)) v ∧
        v.accounts cappedDeployment.maxInvestors =
            account (cappedDeployment.maxInvestorsRecord 5 1) ∧
          supply v cappedDeployment.tokenMint = 0 := by
  obtain ⟨u, v, hu, hM, hv, hM', hsupply⟩ : ∃ u v,
      @process strictBorsh cappedLedger [cappedDeployment.issuer] capMint = .ok u ∧
      u.accounts cappedDeployment.maxInvestors =
        account (cappedDeployment.maxInvestorsRecord 5 1) ∧
      @process strictBorsh u [cappedDeployment.issuer] (strayBurn 10) = .ok v ∧
      v.accounts cappedDeployment.maxInvestors =
        account (cappedDeployment.maxInvestorsRecord 5 1) ∧
      supply v cappedDeployment.tokenMint = 0 := ⟨_, _, rfl, rfl, rfl, rfl, rfl⟩
  have hexternal : ∀ k ∈ [cappedDeployment.issuer], k.External :=
    List.forall_mem_singleton.2 (Pubkey.external_address 1)
  exact ⟨u, @Step.instruction strictBorsh _ _ _ _ hexternal hu, hM, v,
    @Step.instruction strictBorsh _ _ _ _ hexternal hv, hM', hsupply⟩

theorem capMint_admitted :
    HoldersPermitted cappedDeployment.tokenMint cappedDeployment.maxInvestors capMint :=
  ⟨trivial, trivial, not_false, trivial, trivial⟩

theorem strayBurn_admitted (n : ℕ) :
    HoldersPermitted cappedDeployment.tokenMint cappedDeployment.maxInvestors (strayBurn n) :=
  ⟨trivial, trivial, not_false, trivial, trivial⟩

/-- The burn of all tokens is booked under the compliance state of another mint:
the counter keeps counting a holder. -/
theorem stray_burn_keeps_holder : ¬ ∀ (T M : Pubkey) (L L' : Ledger) (labels : List Label),
    HoldersStart T M L → Run (restrict (@Step strictBorsh) fun _ l _ ↦
      l.Core fun i ↦ HoldersPermitted T M i) L labels L' → HoldersExact T M L' := by
  intro hall
  obtain ⟨u, hu, -, v, hv, hM, hsupply⟩ := capMint_holder
  obtain ⟨c, hc, hcounted⟩ := hall _ _ _ _ _ cappedLedger_holders
    (.cons ⟨hu, capMint_admitted⟩ (.single ⟨hv, strayBurn_admitted 10⟩))
  obtain rfl := account_inj.1 (hM.symm.trans hc)
  -- nothing is left to hold
  have hv' : BooksBalanced cappedDeployment.tokenMint v := by
    obtain ⟨hfinite, htotal, -⟩ := eq_zero_of_forall cappedLedger_unheld
    have hbound := cappedLedger_bound (.head _)
    cases hu with
    | instruction _ _ hexternal hu =>
        obtain ⟨_, hbound'⟩ := @process_rebound _ _ _ _ _ _ strictBorsh _ hu trivial hbound
        have hanchored := @process_anchored _ _ _ _ strictBorsh _ hu hexternal trivial
          cappedLedger_anchored
        have hbalanced := @process_balanced _ _ _ _ _ _ _ strictBorsh hu hexternal
          cappedLedger_anchored hbound ⟨hfinite, htotal⟩
        cases hv with
        | instruction _ _ hexternal' hv =>
            exact @process_balanced _ _ _ _ _ _ _ strictBorsh hv hexternal' hanchored
              hbound'.bound hbalanced
  have hnone := positives_eq_zero hv'.finite (hv'.total.trans hsupply)
  rw [hnone] at hcounted
  exact absurd hcounted (by decide)

theorem capMint_adds_holder : ∃ u, @Step strictBorsh cappedLedger
      (.instruction [cappedDeployment.issuer] capMint) u ∧
    u.accounts cappedDeployment.maxInvestors = account (cappedDeployment.maxInvestorsRecord 5 1) ∧
      HoldersExact cappedDeployment.tokenMint cappedDeployment.maxInvestors u := by
  obtain ⟨u, hu, hM, -⟩ := capMint_holder
  exact ⟨u, hu, hM, @holders_counted _ _ _ _ strictBorsh _ cappedLedger_holders
    (.single ⟨hu, capMint_admitted, trivial, not_false⟩)⟩

end Fracks
