import Fracks.HolderAccounting

/-!
# Burns after a pause

While the modules are paused a mint is not recorded, but the burns and the
transfers that follow it are.  As long as nothing is minted under paused
modules, the counters stay at least as high as the balances need, and a burn of
what an account holds finds enough to count down.
-/

namespace Fracks

open Checked AccountType Ledger Tally Compliance HookedModule Runs

variable {L L' : Ledger} {T S H M : Pubkey} {signers remaining : List Pubkey} {i : Instruction}
  {state : ComplianceState} {n after country : ℕ}

/-! ## The calls of the two modules -/

/-- The call of the supply cap in the post-hook of a burn. -/
theorem moduleDestroyed_supplyCap_ok {m : SupplyCapModule} (hM : L.accounts M = account m)
    (hkey : M = moduleAddress SupplyCapModule m.tokenMint)
    (hserved : M ∈ remaining ∧ .program .modSupplyCap ∈ remaining) (hn : n ≤ m.totalSupply) :
    ∃ L', moduleDestroyed m.hookAuthority remaining n after country L M = .ok L' :=
  ⟨_, (moduleDestroyed_supplyCap hM).2 ⟨hserved.1, ⟨rfl, hserved.2⟩,
    ModSupplyCap.destroyed_eq_ok.2 ⟨.head _, m, hM, hkey, .inr rfl, hn, rfl⟩⟩⟩

/-- The call of the investor cap in the post-hook of a burn. -/
theorem moduleDestroyed_maxInvestors_ok {c : MaxInvestorsModule} (hM : L.accounts M = account c)
    (hkey : M = moduleAddress MaxInvestorsModule c.tokenMint)
    (hserved : M ∈ remaining ∧ .program .modMaxInvestors ∈ remaining)
    (hn : senderExits n after → 0 < c.holderCount) :
    ∃ L', moduleDestroyed c.hookAuthority remaining n after country L M = .ok L' := by
  have hcount : c.holderCount = c.holderCount - (if senderExits n after then 1 else 0) +
      (if senderExits n after then 1 else 0) := by
    by_cases hexits : senderExits n after
    · have hpos := hn hexits
      rw [if_pos hexits, Nat.sub_add_cancel hpos]
    · simp [hexits]
  exact ⟨_, (moduleDestroyed_maxInvestors hM).2 ⟨hserved.1, ⟨rfl, hserved.2⟩,
    ModMaxInvestors.destroyed_eq_ok.2 ⟨.head _, c, _, hM, hkey, .inr rfl, hcount, rfl⟩⟩⟩

/-! ## What the counters need -/

/-- Both caps are bound, and count at least what the accounts hold. -/
structure CapsSuffice (T S H : Pubkey) (L : Ledger) : Prop where
  anchored : Anchored T L
  bound : ∃ state, BoundAt T S L state ∧ BoundAt T H L state
  supply : SupplyTracked (· ≤ ·) T S L
  holders : HoldersTracked (· ≤ ·) T H L

/-- Both modules are in the accounts of a post-hook, with their programs. -/
structure CapsAtHand (S H : Pubkey) (remaining : List Pubkey) : Prop where
  supply : S ∈ remaining ∧ .program .modSupplyCap ∈ remaining
  holders : H ∈ remaining ∧ .program .modMaxInvestors ∈ remaining

/-- The other modules bound to the state let the post-hook of a burn pass. -/
def OthersAccept (T S H : Pubkey) (L : Ledger) (remaining : List Pubkey) (n after country : ℕ) :
    Prop :=
  ∀ (state : ComplianceState) (before : List Pubkey) (M : Pubkey) (rest : List Pubkey)
    (L₁ : Ledger), L.accounts (complianceAddress T) = account state →
      state.modules = before ++ M :: rest → M ≠ S → M ≠ H →
        before.foldlM (moduleDestroyed (complianceAddress T) remaining n after country) L = .ok L₁ →
          ∃ L₂, moduleDestroyed (complianceAddress T) remaining n after country L₁ M = .ok L₂

/-- The post-hook of a burn of at most the balance of an account is not rejected
by the two caps. -/
def BurnsAccepted (T S H : Pubkey) (L : Ledger) : Prop :=
  ∀ (k : Pubkey) (n country : ℕ) (remaining : List Pubkey), n ≤ balance L T k →
    CapsAtHand S H remaining →
      OthersAccept T S H L remaining n (balance L T k - n) country →
        ∃ L₁, destroyed L (complianceAddress T) remaining n (balance L T k - n) country = .ok L₁

/-- The calls of the modules before `M` leave its record alone. -/
theorem foldlM_moduleDestroyed_before {α : Type} [AccountType α] (hα : OwnCounter α) {m : α}
    {C : Pubkey} {before rest : List Pubkey} {L₁ : Ledger} (hnodup : (before ++ M :: rest).Nodup)
    (h : before.foldlM (moduleDestroyed C remaining n after country) L = .ok L₁)
    (hM : L.accounts M = account m) : L₁.accounts M = account m := by
  have hview : L₁.view α M = L.view α M := by
    refine Fold.foldlM_frame (g := fun L ↦ L.view α M) (fun M' hM' L L' hstep ↦ ?_) h
    have hne : M' ≠ M := by
      rintro rfl
      exact (List.nodup_append.1 hnodup).2.2 M' hM' M' (List.mem_cons_self ..) rfl
    exact (moduleDestroyed_iteration hstep).view_of_ne hα hne
  rw [← view_eq_some, hview, view_eq_some]
  exact hM

theorem CapsSuffice.burnsAccepted (h : CapsSuffice T S H L) : BurnsAccepted T S H L := by
  intro k n country remaining hn hhand hothers
  obtain ⟨state, hboundS, hboundH⟩ := h.bound
  obtain ⟨m, hm, hservedS, htotal, -⟩ := h.supply.counted
  obtain ⟨c, hc, hservedH, hpositives⟩ := h.holders.counted
  have hheld : n ≤ m.totalSupply := (hn.trans (le_total h.supply.finite k)).trans htotal
  have hexits : senderExits n (balance L T k - n) → 0 < c.holderCount := by
    rintro ⟨hpos, -⟩
    exact (positives_pos h.supply.finite (hpos.trans_le hn)).trans_le hpositives
  have hloop := Fold.foldlM_succeeds
    (f := moduleDestroyed (complianceAddress T) remaining n (balance L T k - n) country)
    (l := state.modules) (b := L) (I := fun before L₁ ↦ before.foldlM
      (moduleDestroyed (complianceAddress T) remaining n (balance L T k - n) country) L = .ok L₁)
    (fun before M rest L₁ hsplit hbefore ↦ ?_) rfl
  · obtain ⟨L₁, hL₁, -⟩ := hloop
    exact ⟨L₁, destroyed_eq_ok.2 ⟨state, hboundS.loaded, by rw [hboundS.home], hL₁⟩⟩
  · have hnodup := hsplit ▸ hboundS.nodup
    have hstep : ∃ L₂, moduleDestroyed (complianceAddress T) remaining n (balance L T k - n)
        country L₁ M = .ok L₂ := by
      by_cases hS : M = S
      · subst hS
        have hm₁ := foldlM_moduleDestroyed_before ownCounter_supplyCap hnodup hbefore hm
        exact hservedS.1 ▸ moduleDestroyed_supplyCap_ok hm₁ hservedS.2 hhand.supply hheld
      · by_cases hH : M = H
        · subst hH
          have hc₁ := foldlM_moduleDestroyed_before ownCounter_maxInvestors hnodup hbefore hc
          exact hservedH.1 ▸ moduleDestroyed_maxInvestors_ok hc₁ hservedH.2 hhand.holders hexits
        · exact hothers state before M rest L₁ hboundS.loaded hsplit hS hH hbefore
    obtain ⟨L₂, hL₂⟩ := hstep
    refine ⟨L₂, hL₂, ?_⟩
    rw [List.foldlM_append, bind_eq_ok]
    exact ⟨L₁, hbefore, by simpa using hL₂⟩

/-! ## Runs -/

/-- Both caps stay bound and served, the compliance state is not replaced, and the
counters are not moved by direct calls. -/
structure CapsPermitted (T S H : Pubkey) (i : Instruction) : Prop where
  anchor : KeepsAnchor T i
  supplyBinding : KeepsBinding T S i
  holdersBinding : KeepsBinding T H i
  supply : SupplyCapLeft T S i
  holders : HolderCapLeft T H i

/-- What an instruction mints is recorded: the modules are not paused. -/
def MintsRecorded (T : Pubkey) (L : Ledger) (i : Instruction) : Prop :=
  ∀ n, i.Issues T n → 0 < n → ∀ state : ComplianceState,
    L.accounts (complianceAddress T) = account state → state.modulesPaused = false

/-- Both caps are bound with their hook authority before the first mint. -/
structure CapsStart (T S H : Pubkey) (L : Ledger) : Prop where
  anchored : Anchored T L
  bound : ∃ state, BoundAt T S L state ∧ BoundAt T H L state
  supply : ∃ m : SupplyCapModule, L.accounts S = account m ∧ Served T S m ∧ m.totalSupply = 0
  holders : ∃ c : MaxInvestorsModule, L.accounts H = account c ∧ Served T H c ∧ c.holderCount = 0
  unheld : ∀ k, balance L T k = 0

theorem CapsStart.suffice (h : CapsStart T S H L) : CapsSuffice T S H L := by
  obtain ⟨hfinite, htotal, hpositives⟩ := eq_zero_of_forall h.unheld
  obtain ⟨m, hm, hservedS, hsupply⟩ := h.supply
  obtain ⟨c, hc, hservedH, hcount⟩ := h.holders
  have hcap : m.totalSupply ≤ m.maxSupply := hsupply ▸ Nat.zero_le _
  exact ⟨h.anchored, h.bound, ⟨hfinite, m, hm, hservedS, htotal.trans_le (Nat.zero_le _), hcap⟩,
    hfinite, c, hc, hservedH, hpositives.trans_le (Nat.zero_le _)⟩

theorem process_capsSuffice [Borsh] (h : process L signers i = .ok L')
    (hexternal : ∀ k ∈ signers, k.External) (hpermitted : CapsPermitted T S H i.core)
    (hmints : MintsRecorded T L i.core) (hmisburned : ¬ i.core.Misburns T)
    (hmismoved : ¬ i.core.Mismoves T L) (hL : CapsSuffice T S H L) : CapsSuffice T S H L' := by
  obtain ⟨state, hboundS, hboundH⟩ := hL.bound
  obtain ⟨stateS, hreboundS⟩ := process_rebound h hpermitted.supplyBinding hboundS
  obtain ⟨stateH, hreboundH⟩ := process_rebound h hpermitted.holdersBinding hboundH
  obtain rfl := account_inj.1 (hreboundS.bound.loaded.symm.trans hreboundH.bound.loaded)
  have hanchored := process_anchored h hexternal hpermitted.anchor hL.anchored
  have hcaps : SupplyTracked (· ≤ ·) T S L' ∧ HoldersTracked (· ≤ ·) T H L' := by
    cases hmoves : i.core.moves with
    | true =>
        have heffect := process_effect h hexternal hmoves hL.anchored hboundS.loaded hboundS.home
        have hactive : ∀ n, i.core.Issues T n → 0 < n → state.modulesPaused = false :=
          fun n hissues hn ↦ hmints n hissues hn state hboundS.loaded
        -- a burn that is booked elsewhere leaves the counters too high, not too low
        have hlost : i.core.Loses T → ∀ x y n : ℕ, x + n ≤ y → x ≤ y :=
          fun _ x y n hle ↦ (Nat.le_add_right x n).trans hle
        exact ⟨hL.supply.effect tracks_le hboundS heffect hactive hlost hmisburned,
          hL.holders.effect tracks_le hboundH heffect hactive hlost hmisburned hmismoved⟩
    | false =>
        have hflags := hL.anchored.wellFormed.flags
        exact ⟨hL.supply.still h hflags hmoves hpermitted.supply,
          hL.holders.still h hflags hmoves hpermitted.holders⟩
  exact ⟨hanchored, ⟨stateS, hreboundS.bound, hreboundH.bound⟩, hcaps.1, hcaps.2⟩

theorem CapsSuffice.environment (hL : CapsSuffice T S H L) (h : Frame environmentKinds L L') :
    CapsSuffice T S H L' := by
  obtain ⟨state, hboundS, hboundH⟩ := hL.bound
  have hbalance : balance L' T = balance L T := congrFun (balance_frame h (by decide)) T
  exact ⟨hL.anchored.environment h,
    ⟨state, hboundS.of_frame h (by decide), hboundH.of_frame h (by decide)⟩,
    hL.supply.congr hbalance fun m hm _ ↦ h.accounts_eq (by decide) hm,
    hL.holders.congr hbalance fun c hc _ ↦ h.accounts_eq (by decide) hc⟩

/-- In every run whose mints are recorded and whose burns and transfers of other
tokens are booked elsewhere, the post-hook accepts every burn of at most a
balance. -/
theorem burns_accepted [Borsh] {labels : List Label} (hstart : CapsStart T S H L)
    (hrun : Run (restrict Step fun L l _ ↦ l.Core fun i ↦ CapsPermitted T S H i ∧
      MintsRecorded T L i ∧ ¬ i.Misburns T ∧ ¬ i.Mismoves T L) L labels L') :
    BurnsAccepted T S H L' := by
  refine CapsSuffice.burnsAccepted ?_
  refine hrun.invariant (fun L l L' hL hstep ↦ ?_) hstart.suffice
  obtain ⟨hstep, hcore⟩ := hstep
  cases hstep with
  | instruction signers i hexternal h =>
      obtain ⟨hpermitted, hmints, hmisburned, hmismoved⟩ := hcore
      exact process_capsSuffice h hexternal hpermitted hmints hmisburned hmismoved hL
  | environment h => exact hL.environment h

/-! ## A mint under paused modules -/

theorem cappedLedger_caps : CapsStart cappedDeployment.tokenMint cappedDeployment.supplyCap
    cappedDeployment.maxInvestors cappedLedger where
  anchored := cappedLedger_anchored
  bound := ⟨_, cappedLedger_bound (.head _), cappedLedger_bound (.tail _ (.head _))⟩
  supply := ⟨_, rfl, ⟨rfl, rfl⟩, rfl⟩
  holders := ⟨_, rfl, ⟨rfl, rfl⟩, rfl⟩
  unheld := cappedLedger_unheld

def pauseModules : Instruction :=
  .compliance (.setModulesPaused cappedDeployment.issuer cappedDeployment.compliance true)

theorem pauseModules_permitted : CapsPermitted cappedDeployment.tokenMint
    cappedDeployment.supplyCap cappedDeployment.maxInvestors pauseModules :=
  ⟨trivial, trivial, trivial, trivial, nofun⟩

theorem capMint_capsPermitted : CapsPermitted cappedDeployment.tokenMint
    cappedDeployment.supplyCap cappedDeployment.maxInvestors capMint :=
  ⟨trivial, trivial, trivial, trivial, trivial⟩

/-- Only the two caps are bound. -/
theorem cappedDeployment_others {v : Ledger} {state : ComplianceState}
    (hstate : v.accounts (complianceAddress cappedDeployment.tokenMint) = account state)
    (hmodules : state.modules = cappedDeployment.modules) :
    OthersAccept cappedDeployment.tokenMint cappedDeployment.supplyCap
      cappedDeployment.maxInvestors v remaining n after country := by
  intro state' before M rest L₁ hstate' hsplit hS hH
  obtain rfl := account_inj.1 (hstate.symm.trans hstate')
  have hM : M ∈ cappedDeployment.modules := by
    rw [← hmodules, hsplit]
    exact List.mem_append_right _ (List.mem_cons_self ..)
  rcases List.mem_cons.1 hM with rfl | hM
  · exact absurd rfl hS
  · exact absurd (List.mem_singleton.1 hM) hH

theorem cappedRemaining_atHand :
    CapsAtHand cappedDeployment.supplyCap cappedDeployment.maxInvestors cappedRemaining :=
  ⟨⟨by decide, by decide⟩, by decide, by decide⟩

/-- Ten tokens are minted while the modules are paused: the burn of all of them
finds no supply to count down. -/
theorem paused_mint_strands_holder : ¬ ∀ (T S H : Pubkey) (L L' : Ledger) (labels : List Label),
    CapsStart T S H L → Run (restrict (@Step strictBorsh) fun _ l _ ↦
      l.Core fun i ↦ CapsPermitted T S H i) L labels L' → BurnsAccepted T S H L' := by
  intro hall
  obtain ⟨u, v, state, hu, hv, hstate, hmodules, hheld, hrejected⟩ : ∃ u v state,
      @process strictBorsh cappedLedger [cappedDeployment.issuer] pauseModules = .ok u ∧
      @process strictBorsh u [cappedDeployment.issuer] capMint = .ok v ∧
      v.accounts (complianceAddress cappedDeployment.tokenMint) = account state ∧
      state.modules = cappedDeployment.modules ∧
      balance v cappedDeployment.tokenMint capHolding.key = 10 ∧
      destroyed v (complianceAddress cappedDeployment.tokenMint) cappedRemaining 10 0 276 =
        .error (.supplyCap .arithmeticOverflow) := ⟨_, _, _, rfl, rfl, rfl, rfl, rfl, rfl⟩
  have hexternal : ∀ k ∈ [cappedDeployment.issuer], k.External :=
    List.forall_mem_singleton.2 (Pubkey.external_address 1)
  have haccepted := hall _ _ _ _ _ _ cappedLedger_caps
    (.cons ⟨@Step.instruction strictBorsh _ _ _ _ hexternal hu, pauseModules_permitted⟩
      (.single ⟨@Step.instruction strictBorsh _ _ _ _ hexternal hv, capMint_capsPermitted⟩))
    capHolding.key 10 276 cappedRemaining hheld.ge cappedRemaining_atHand
    (cappedDeployment_others hstate hmodules)
  obtain ⟨L₁, hL₁⟩ := haccepted
  rw [hheld, Nat.sub_self, hrejected] at hL₁
  exact nomatch hL₁

/-- After a mint that is recorded the burn is accepted. -/
theorem recorded_mint_burns : ∃ u, @Step strictBorsh cappedLedger
      (.instruction [cappedDeployment.issuer] capMint) u ∧
    balance u cappedDeployment.tokenMint capHolding.key = 10 ∧
      BurnsAccepted cappedDeployment.tokenMint cappedDeployment.supplyCap
        cappedDeployment.maxInvestors u := by
  obtain ⟨u, hu, hheld⟩ : ∃ u,
      @process strictBorsh cappedLedger [cappedDeployment.issuer] capMint = .ok u ∧
      balance u cappedDeployment.tokenMint capHolding.key = 10 := ⟨_, rfl, rfl⟩
  have hexternal : ∀ k ∈ [cappedDeployment.issuer], k.External :=
    List.forall_mem_singleton.2 (Pubkey.external_address 1)
  have hstep : @Step strictBorsh cappedLedger (.instruction [cappedDeployment.issuer] capMint) u :=
    @Step.instruction strictBorsh _ _ _ _ hexternal hu
  have hrecorded : MintsRecorded cappedDeployment.tokenMint cappedLedger capMint := by
    intro n _ _ state hstate
    have hrecord := cappedLedger_bound (M := cappedDeployment.supplyCap) (.head _)
    obtain rfl := account_inj.1 (hrecord.loaded.symm.trans hstate)
    rfl
  exact ⟨u, hstep, hheld, @burns_accepted _ _ _ _ _ strictBorsh _ cappedLedger_caps
    (.single ⟨hstep, capMint_capsPermitted, hrecorded, not_false, not_false⟩)⟩

end Fracks
