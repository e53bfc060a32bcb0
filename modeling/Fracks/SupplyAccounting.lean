import Fracks.Binding

/-!
# Supply accounting

The balances of a token add up to the supply of its mint.  The counter of a
bound supply cap moves with them: every mint and every burn comes with one
post-hook of the same amount, and transfers do not touch it.  What can break
this is a burn that is booked under the wrong compliance state.
-/

namespace Fracks

open Checked AccountType Ledger Tally Compliance HookedModule Runs

/-! ## The books of the mint -/

/-- The balances of `T` add up to the supply of its mint. -/
structure BooksBalanced (T : Pubkey) (L : Ledger) : Prop where
  finite : Tally.Finite (balance L T)
  total : total (balance L T) = supply L T

variable {L L' : Ledger} {T M k : Pubkey} {signers : List Pubkey} {i : Instruction}
  {state : ComplianceState} {R : ℕ → ℕ → Prop} {v : Movement}

theorem Movement.Applies.finite (h : v.Applies T L L') (hL : Tally.Finite (balance L T)) :
    Tally.Finite (balance L' T) := by
  cases v with
  | minted k n => exact h.1 ▸ hL.credit k n
  | burned k n => exact h.2.2.1 ▸ hL.debit k n
  | moved s d n => exact h.2.2.1 ▸ (hL.debit s n).credit d n

theorem Movement.Applies.balanced (h : v.Applies T L L') (hL : BooksBalanced T L) :
    BooksBalanced T L' := by
  refine ⟨h.finite hL.finite, ?_⟩
  have htotal := hL.total
  cases v with
  | minted k n =>
      obtain ⟨hbalance, hsupply⟩ := h
      rw [hbalance, hsupply, total_credit hL.finite, htotal]
  | burned k n =>
      obtain ⟨hle, hsupplied, hbalance, hsupply⟩ := h
      have hdebit := total_debit hL.finite hle
      rw [hbalance, hsupply]
      omega
  | moved s d n =>
      obtain ⟨-, hle, hbalance, hsupply⟩ := h
      rw [hbalance, hsupply, total_move hL.finite d hle, htotal]

theorem BooksBalanced.congr (hL : BooksBalanced T L) (hbalance : balance L' T = balance L T)
    (hsupply : supply L' T = supply L T) : BooksBalanced T L' :=
  ⟨hbalance ▸ hL.finite, by rw [hbalance, hsupply, hL.total]⟩

theorem BooksBalanced.effect (hL : BooksBalanced T L) (h : Effect T i L L') :
    BooksBalanced T L' := by
  cases h with
  | booked v h _ => exact h.applies.balanced hL
  | lost k n h _ _ => exact h.balanced hL
  | misburned X k n hX h _ =>
      obtain ⟨hbalance, hsupply⟩ := h.others T hX.symm
      exact hL.congr hbalance hsupply
  | mismoved X s d n hX h _ =>
      obtain ⟨hbalance, hsupply⟩ := h.others T hX.symm
      exact hL.congr hbalance hsupply
  | outside hbalance hsupply _ => exact hL.congr hbalance hsupply

/-- Every instruction keeps the balances of an anchored token balanced. -/
theorem process_balanced [Borsh] (h : process L signers i = .ok L')
    (hexternal : ∀ k ∈ signers, k.External) (hT : Anchored T L) (hb : BoundAt T M L state)
    (hL : BooksBalanced T L) : BooksBalanced T L' := by
  cases hmoves : i.core.moves with
  | true => exact hL.effect (process_effect h hexternal hmoves hT hb.loaded hb.home)
  | false =>
      have hbooks := process_books h hmoves
      exact hL.congr (congrFun hbooks.balance T) (congrFun hbooks.supply T)

/-! ## The counter of the supply cap -/

/-- The supply cap at `M` counts the balances of `T` up to the comparison `R`. -/
structure SupplyTracked (R : ℕ → ℕ → Prop) (T M : Pubkey) (L : Ledger) : Prop where
  finite : Tally.Finite (balance L T)
  counted : ∃ m : SupplyCapModule, L.accounts M = account m ∧
    Served T M m ∧ R (total (balance L T)) m.totalSupply ∧
      m.totalSupply ≤ m.maxSupply

/-- Nothing changes that the counter depends on. -/
theorem SupplyTracked.congr (h : SupplyTracked R T M L) (hbalance : balance L' T = balance L T)
    (hM : ∀ m : SupplyCapModule, L.accounts M = account m →
      Served T M m → L'.accounts M = account m) :
    SupplyTracked R T M L' := by
  obtain ⟨m, hm, hserved, hR, hcap⟩ := h.counted
  exact ⟨hbalance ▸ h.finite, m, hM m hm hserved, hserved, hbalance ▸ hR, hcap⟩

theorem Untouched.supplyCap {m : SupplyCapModule} (h : Untouched (complianceAddress T) L L')
    (hm : L.accounts M = account m) (hserved : Served T M m) :
    L'.accounts M = account m := by
  have hcounter : (L.accounts M).counterModule M = some M := hm ▸ rfl
  have hhook : (L.accounts M).data.hookAuthority = some (complianceAddress T) :=
    hm ▸ congrArg some hserved.1
  exact (h.counters M M hcounter hhook).trans hm

theorem SupplyTracked.minted {n : ℕ} (hR : Tracks R) (hL : SupplyTracked R T M L)
    (hb : BoundAt T M L state) (h : Booked T (complianceAddress T) (.minted k n) L L')
    (hactive : 0 < n → state.modulesPaused = false) : SupplyTracked R T M L' := by
  obtain ⟨m, hm, hserved, hcounted, hcap⟩ := hL.counted
  have hfinite := h.applies.finite hL.finite
  have htotal : total (balance L' T) = total (balance L T) + n := by
    rw [h.applies.1, total_credit hL.finite]
  cases hpaused : state.modulesPaused with
  | true =>
      have hn : n = 0 := by
        by_contra hne
        have hrunning := hactive (Nat.pos_of_ne_zero hne)
        rw [hpaused] at hrunning
        exact nomatch hrunning
      have hM := h.minted_paused hb.loaded hpaused (by decide) hm
      refine ⟨hfinite, m, hM, hserved, ?_, hcap⟩
      rw [htotal, hn]
      exact hcounted
  | false =>
      obtain ⟨hM, hcap'⟩ := h.minted_supplyCap hb.loaded hpaused hb.nodup hb.bound hm
      refine ⟨hfinite, _, hM, hserved, ?_, hcap'⟩
      rw [htotal]
      exact (hR _ _ n).2 hcounted

theorem SupplyTracked.burned {n : ℕ} (hR : Tracks R) (hL : SupplyTracked R T M L)
    (hb : BoundAt T M L state) (h : Booked T (complianceAddress T) (.burned k n) L L') :
    SupplyTracked R T M L' := by
  obtain ⟨m, hm, hserved, hcounted, hcap⟩ := hL.counted
  obtain ⟨hM, hle⟩ := h.burned_supplyCap hb.loaded hb.nodup hb.bound hm
  obtain ⟨hheld, -, hbalance, -⟩ := h.applies
  have htotal : total (balance L' T) + n = total (balance L T) := by
    rw [hbalance]
    exact total_debit hL.finite hheld
  have hcounter : m.totalSupply - n + n = m.totalSupply := Nat.sub_add_cancel hle
  have hcap' : m.totalSupply - n ≤ m.maxSupply := (Nat.sub_le _ _).trans hcap
  exact ⟨h.applies.finite hL.finite, _, hM, hserved,
    hR.shift (m := 0) hcounted htotal hcounter, hcap'⟩

/-- The counter follows every movement, when mints are not made under paused
modules, burns of other tokens are not booked here, and the comparison allows
for the burns that are booked elsewhere. -/
theorem SupplyTracked.effect (hR : Tracks R) (hL : SupplyTracked R T M L)
    (hb : BoundAt T M L state) (h : Effect T i L L')
    (hactive : ∀ n, i.Issues T n → 0 < n → state.modulesPaused = false)
    (hlost : i.Loses T → ∀ x y n, R (x + n) y → R x y) (hmisburned : ¬ i.Misburns T) :
    SupplyTracked R T M L' := by
  cases h with
  | booked v h hissues =>
      cases v with
      | minted k n => exact hL.minted hR hb h (hactive n (hissues k n rfl))
      | burned k n => exact hL.burned hR hb h
      | moved s d n =>
          obtain ⟨m, hm, hserved, hcounted, hcap⟩ := hL.counted
          obtain ⟨-, hle, hbalance, -⟩ := h.applies
          refine ⟨h.applies.finite hL.finite, m, h.moved_supplyCap hm, hserved, ?_, hcap⟩
          rw [hbalance, total_move hL.finite d hle]
          exact hcounted
  | lost k n h huntouched hi =>
      obtain ⟨m, hm, hserved, hcounted, hcap⟩ := hL.counted
      refine ⟨h.finite hL.finite, m, huntouched.supplyCap hm hserved, hserved, ?_, hcap⟩
      obtain ⟨hheld, -, hbalance, -⟩ := h
      have htotal := total_debit hL.finite hheld
      rw [← htotal] at hcounted
      rw [hbalance]
      exact hlost hi _ _ n hcounted
  | misburned X k n hX h hi => exact absurd hi hmisburned
  | mismoved X s d n hX h _ =>
      exact hL.congr (h.others T hX.symm).1 fun m hm _ ↦ h.moved_supplyCap hm
  | outside hbalance _ huntouched =>
      exact hL.congr hbalance fun m hm hserved ↦ huntouched.supplyCap hm hserved

/-! ## Instructions that move nothing -/

/-- The counter is not moved by direct calls, and its module keeps its hook
authority. -/
def SupplyCapLeft (T M : Pubkey) : Instruction → Prop
  | .compliance (.created C _ _ _ _) | .compliance (.destroyed C _ _ _ _) =>
      C ≠ complianceAddress T
  | .module (.setSupplyCapHookAuthority _ M' _) => M' ≠ M
  | .module i => i.called ≠ some M
  | _ => True

theorem SupplyTracked.setMaxSupply {owner : Pubkey} {maxSupply : ℕ}
    (h : ModSupplyCap.setMaxSupply L signers owner M maxSupply = .ok L')
    (hbalance : balance L' T = balance L T) (hL : SupplyTracked R T M L) :
    SupplyTracked R T M L' := by
  obtain ⟨m, hm, hserved, hcounted, hcap⟩ := hL.counted
  obtain ⟨-, m', hm', -, -, hle, rfl⟩ := ModSupplyCap.setMaxSupply_eq_ok.1 h
  obtain rfl := account_inj.1 (hm.symm.trans hm')
  exact ⟨hbalance ▸ hL.finite, _, put_accounts_self _, hserved, hbalance ▸ hcounted, hle⟩

theorem SupplyTracked.still [Borsh] (hL : SupplyTracked R T M L)
    (h : process L signers i = .ok L') (hflags : TokenHook.FlagsDown L)
    (hstill : i.core.moves = false) (hleft : SupplyCapLeft T M i.core) :
    SupplyTracked R T M L' := by
  have hbalance := congrFun (process_books h hstill).balance T
  by_cases hsame : L'.accounts M = L.accounts M
  · exact hL.congr hbalance fun m hm _ ↦ hsame.trans hm
  · obtain ⟨m, hm, hserved, -, -⟩ := hL.counted
    have hcounter : (L.accounts M).counterModule M = some M := hm ▸ rfl
    have hcore := process_core h
    have hreaches := process_reaches h hflags hstill hcounter hsame
    generalize i.core = j at hcore hreaches hleft
    cases hreaches with
    | @router j C state hj hstate hbound hhook =>
        rw [hm] at hhook
        have hC : m.hookAuthority = C := Option.some.inj hhook
        have hC' : C = complianceAddress T := hC.symm.trans hserved.1
        cases j with
        | transferred C₀ =>
            -- this post-hook does not serve supply caps
            obtain ⟨_, hstep⟩ := transferred_step hcore
            exact absurd ((hstep.frame.accounts_eq (by decide) hm).trans hm.symm) hsame
        | created C₀ =>
            obtain rfl := Option.some.inj hj
            exact absurd hC' hleft
        | destroyed C₀ =>
            obtain rfl := Option.some.inj hj
            exact absurd hC' hleft
        | _ => exact nomatch hj
    | @called j hj =>
        cases j with
        | setSupplyCapHookAuthority => exact nomatch hj
        | _ => exact absurd hj hleft
    | @administered j hj hsigned =>
        cases j with
        | setMaxInvestorsHookAuthority owner M' hookAuthority =>
            obtain rfl := Option.some.inj hj
            obtain ⟨-, c, _, hc, -⟩ := updateModuleOwner_eq_ok.1 hcore
            exact absurd (hm.symm.trans hc) (account_ne_of_kind (by decide))
        | setSupplyCapHookAuthority owner M' hookAuthority =>
            obtain rfl := Option.some.inj hj
            exact absurd rfl hleft
        | setMaxSupply owner M' maxSupply =>
            obtain rfl := Option.some.inj hj
            exact hL.setMaxSupply hcore hbalance
        | _ => exact nomatch hj

/-! ## The condition on burns -/

/-- The compliance state given to a burn is that of the burned mint. -/
def BurnsBooked (T : Pubkey) : Instruction → Prop
  | .token (.burn operator accts _ _ _) =>
      operator.tokenState = Token.tokenStateAddress T ↔ accts.complianceState = complianceAddress T
  | _ => True

/-- Token-2022 does not burn `T` at the request of a holder. -/
def NoHolderBurn (T : Pubkey) : Instruction → Prop
  | .token2022 (.burn _ mint _ _ _) => mint ≠ T
  | _ => True

theorem BurnsBooked.not_loses (h : BurnsBooked T i) (hdirect : NoHolderBurn T i) :
    ¬ i.Loses T := by
  intro hloses
  unfold Instruction.Loses at hloses
  split at hloses
  · exact hloses.2 (h.1 hloses.1)
  · exact hdirect hloses
  · exact hloses

theorem BurnsBooked.not_misburns (h : BurnsBooked T i) : ¬ i.Misburns T := by
  intro hmisburns
  unfold Instruction.Misburns at hmisburns
  split at hmisburns
  · exact hmisburns.1 (h.2 hmisburns.2)
  · exact hmisburns

/-! ## Runs -/

/-- The supply cap is bound, served and never paused, the compliance state is not
replaced, and the counter is not moved by direct calls. -/
structure SupplyPermitted (T M : Pubkey) (i : Instruction) : Prop where
  anchor : KeepsAnchor T i
  binding : KeepsBinding T M i
  running : ¬ i.Pauses T
  counter : SupplyCapLeft T M i
  direct : NoHolderBurn T i

/-- A token whose supply is counted. -/
structure SupplyCounted (T M : Pubkey) (L : Ledger) : Prop where
  anchored : Anchored T L
  bound : ∃ state, BoundAt T M L state ∧ state.modulesPaused = false
  balanced : BooksBalanced T L
  tracked : SupplyTracked (· = ·) T M L

/-- Before the first mint the cap is bound with its hook authority. -/
structure SupplyStart (T M : Pubkey) (L : Ledger) : Prop where
  anchored : Anchored T L
  bound : ∃ state, BoundAt T M L state ∧ state.modulesPaused = false
  module : ∃ m : SupplyCapModule, L.accounts M = account m ∧
    Served T M m ∧ m.totalSupply = 0
  unminted : supply L T = 0
  unheld : ∀ k, balance L T k = 0

theorem SupplyStart.counted (h : SupplyStart T M L) : SupplyCounted T M L := by
  obtain ⟨hfinite, htotal, -⟩ := eq_zero_of_forall h.unheld
  obtain ⟨m, hm, hserved, hzero⟩ := h.module
  have hcap : m.totalSupply ≤ m.maxSupply := hzero ▸ Nat.zero_le _
  exact ⟨h.anchored, h.bound, ⟨hfinite, htotal.trans h.unminted.symm⟩,
    hfinite, m, hm, hserved, htotal.trans hzero.symm, hcap⟩

theorem process_supplyCounted [Borsh] (h : process L signers i = .ok L')
    (hexternal : ∀ k ∈ signers, k.External) (hpermitted : SupplyPermitted T M i.core)
    (hburns : BurnsBooked T i.core) (hL : SupplyCounted T M L) : SupplyCounted T M L' := by
  obtain ⟨state, hbound, hrunning⟩ := hL.bound
  obtain ⟨state', hrebound⟩ := process_rebound h hpermitted.binding hbound
  have hrunning' := (hrebound.paused hpermitted.running).trans hrunning
  have hanchored := process_anchored h hexternal hpermitted.anchor hL.anchored
  refine ⟨hanchored, ⟨state', hrebound.bound, hrunning'⟩,
    process_balanced h hexternal hL.anchored hbound hL.balanced, ?_⟩
  cases hmoves : i.core.moves with
  | true =>
      have heffect := process_effect h hexternal hmoves hL.anchored hbound.loaded hbound.home
      have hlost := hburns.not_loses hpermitted.direct
      exact hL.tracked.effect tracks_eq hbound heffect (fun _ _ _ ↦ hrunning)
        (fun hloses ↦ absurd hloses hlost) hburns.not_misburns
  | false => exact hL.tracked.still h hL.anchored.wellFormed.flags hmoves hpermitted.counter

theorem SupplyCounted.environment (hL : SupplyCounted T M L) (h : Frame environmentKinds L L') :
    SupplyCounted T M L' := by
  obtain ⟨state, hbound, hrunning⟩ := hL.bound
  have hbalance : balance L' T = balance L T := congrFun (balance_frame h (by decide)) T
  have hsupply : supply L' T = supply L T := congrFun (supply_frame h (by decide)) T
  exact ⟨hL.anchored.environment h, ⟨state, hbound.of_frame h (by decide), hrunning⟩,
    hL.balanced.congr hbalance hsupply,
    hL.tracked.congr hbalance fun m hm _ ↦ h.accounts_eq (by decide) hm⟩

/-- The counter is the supply of the mint and the sum of the balances, and at most
the cap. -/
def SupplyExact (T M : Pubkey) (L : Ledger) : Prop :=
  ∃ m : SupplyCapModule, L.accounts M = account m ∧ m.totalSupply = supply L T ∧
    supply L T = total (balance L T) ∧ m.totalSupply ≤ m.maxSupply

theorem SupplyCounted.exact (h : SupplyCounted T M L) : SupplyExact T M L := by
  obtain ⟨m, hm, -, hcounted, hcap⟩ := h.tracked.counted
  have htotal := h.balanced.total
  exact ⟨m, hm, hcounted.symm.trans htotal, htotal.symm, hcap⟩

/-- In every run whose burns are booked under the compliance state of the burned
mint, the counter of the supply cap is the supply. -/
theorem supply_counted [Borsh] {labels : List Label} (hstart : SupplyStart T M L)
    (hrun : Run (restrict Step fun _ l _ ↦
      l.Core fun i ↦ SupplyPermitted T M i ∧ BurnsBooked T i) L labels L') :
    SupplyExact T M L' := by
  refine SupplyCounted.exact ?_
  refine hrun.invariant (fun L l L' hL hstep ↦ ?_) hstart.counted
  obtain ⟨hstep, hcore⟩ := hstep
  cases hstep with
  | instruction signers i hexternal h =>
      exact process_supplyCounted h hexternal hcore.1 hcore.2 hL
  | environment h => exact hL.environment h

/-! ## A burn under another compliance state -/

def capHolding : Holding := ⟨.address 10, .address 11, 0⟩

/-- A token with a supply cap and an investor cap before its first mint. -/
def cappedDeployment : Deployment where
  tokenMint := .address 0
  issuer := .address 1
  paused := false
  modules := [HookedModule.moduleAddress SupplyCapModule (.address 0),
    HookedModule.moduleAddress MaxInvestorsModule (.address 0)]
  modulesPaused := false
  metas := TokenHook.baseMetas
  wallets := [(capHolding.wallet, 276)]
  holdings := [capHolding]

/-- The compliance state of another mint, without modules. -/
def otherCompliance : Pubkey := complianceAddress (.address 5)

def otherComplianceRecord : ComplianceState where
  owner := .address 1
  tokenMint := .address 5
  modules := []
  modulesPaused := false

def cappedLedger : Ledger :=
  cappedDeployment.ledger
    [(cappedDeployment.supplyCap, account (cappedDeployment.supplyCapRecord 100 0)),
      (cappedDeployment.maxInvestors, account (cappedDeployment.maxInvestorsRecord 5 0)),
      (otherCompliance, account otherComplianceRecord)]

/-- The modules with their programs. -/
def cappedRemaining : List Pubkey :=
  [cappedDeployment.supplyCap, .program .modSupplyCap, cappedDeployment.maxInvestors,
    .program .modMaxInvestors]

def capMint : Instruction :=
  .token (.mint cappedDeployment.operator
    (cappedDeployment.receiverAccounts capHolding .default cappedRemaining) capHolding.wallet 10 10)

/-- A burn that names the compliance state of the other mint. -/
def strayBurn (amount : ℕ) : Instruction :=
  .token (.burn cappedDeployment.operator
    (cappedDeployment.burnAccounts capHolding otherCompliance []) capHolding.wallet amount
    (10 - amount))

theorem cappedLedger_anchored : Anchored cappedDeployment.tokenMint cappedLedger :=
  cappedDeployment.anchored rfl rfl (by simp [kind])

theorem cappedLedger_bound {M : Pubkey} (hM : M ∈ cappedDeployment.modules) :
    BoundAt cappedDeployment.tokenMint M cappedLedger cappedDeployment.complianceRecord :=
  ⟨rfl, rfl, by simp [cappedDeployment, Deployment.complianceRecord, moduleAddress,
    Pubkey.findProgramAddress, Pubkey.addSeed], hM⟩

theorem cappedLedger_unheld (k : Pubkey) : balance cappedLedger cappedDeployment.tokenMint k = 0 :=
  cappedDeployment.unheld (by simp [kind]) (by simp [cappedDeployment, capHolding]) k

theorem cappedLedger_start :
    SupplyStart cappedDeployment.tokenMint cappedDeployment.supplyCap cappedLedger where
  anchored := cappedLedger_anchored
  bound := ⟨_, cappedLedger_bound (.head _), rfl⟩
  module := ⟨_, rfl, ⟨rfl, rfl⟩, rfl⟩
  unminted := rfl
  unheld := cappedLedger_unheld

theorem capMint_step : ∃ u, @Step strictBorsh cappedLedger
      (.instruction [cappedDeployment.issuer] capMint) u ∧
    u.accounts cappedDeployment.supplyCap = account (cappedDeployment.supplyCapRecord 100 10) ∧
      ∃ v, @Step strictBorsh u (.instruction [cappedDeployment.issuer] (strayBurn 3)) v ∧
        v.accounts cappedDeployment.supplyCap = account (cappedDeployment.supplyCapRecord 100 10) ∧
          supply v cappedDeployment.tokenMint = 7 := by
  obtain ⟨u, v, hu, hM, hv, hM', hsupply⟩ : ∃ u v,
      @process strictBorsh cappedLedger [cappedDeployment.issuer] capMint = .ok u ∧
      u.accounts cappedDeployment.supplyCap = account (cappedDeployment.supplyCapRecord 100 10) ∧
      @process strictBorsh u [cappedDeployment.issuer] (strayBurn 3) = .ok v ∧
      v.accounts cappedDeployment.supplyCap = account (cappedDeployment.supplyCapRecord 100 10) ∧
      supply v cappedDeployment.tokenMint = 7 := ⟨_, _, rfl, rfl, rfl, rfl, rfl⟩
  have hexternal : ∀ k ∈ [cappedDeployment.issuer], k.External :=
    List.forall_mem_singleton.2 (Pubkey.external_address 1)
  exact ⟨u, @Step.instruction strictBorsh _ _ _ _ hexternal hu, hM, v,
    @Step.instruction strictBorsh _ _ _ _ hexternal hv, hM', hsupply⟩

theorem capMint_permitted :
    SupplyPermitted cappedDeployment.tokenMint cappedDeployment.supplyCap capMint :=
  ⟨trivial, trivial, not_false, trivial, trivial⟩

theorem strayBurn_permitted (n : ℕ) :
    SupplyPermitted cappedDeployment.tokenMint cappedDeployment.supplyCap (strayBurn n) :=
  ⟨trivial, trivial, not_false, trivial, trivial⟩

/-- The burn of three tokens is booked under the compliance state of another mint:
the counter keeps saying ten. -/
theorem stray_burn_uncounted : ¬ ∀ (T M : Pubkey) (L L' : Ledger) (labels : List Label),
    SupplyStart T M L → Run (restrict (@Step strictBorsh) fun _ l _ ↦
      l.Core fun i ↦ SupplyPermitted T M i) L labels L' → SupplyExact T M L' := by
  intro hall
  obtain ⟨u, hu, -, v, hv, hM, hsupply⟩ := capMint_step
  obtain ⟨m, hm, hcounted, -⟩ := hall _ _ _ _ _ cappedLedger_start
    (.cons ⟨hu, capMint_permitted⟩ (.single ⟨hv, strayBurn_permitted 3⟩))
  obtain rfl := account_inj.1 (hM.symm.trans hm)
  rw [hsupply] at hcounted
  exact absurd hcounted (by decide)

theorem capMint_counted : ∃ u, @Step strictBorsh cappedLedger
      (.instruction [cappedDeployment.issuer] capMint) u ∧
    u.accounts cappedDeployment.supplyCap = account (cappedDeployment.supplyCapRecord 100 10) ∧
      SupplyExact cappedDeployment.tokenMint cappedDeployment.supplyCap u := by
  obtain ⟨u, hu, hM, -⟩ := capMint_step
  exact ⟨u, hu, hM, @supply_counted _ _ _ _ strictBorsh _ cappedLedger_start
    (.single ⟨hu, capMint_permitted, trivial⟩)⟩

end Fracks
