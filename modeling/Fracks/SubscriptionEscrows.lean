import Fracks.Bookings
import Fracks.Deployment
import Fracks.Tables

/-!
# Subscriptions in escrow

A deposit puts the price of a subscription into an escrow of its investor, and a
settlement pays it out to the issuer and mints what was subscribed.  Between the
two the escrow holds its rent and the price, and no deposit is settled twice.
-/

namespace Fracks

open Checked AccountType Ledger Token Runs Fold Tally Compliance

variable {L L' L₁ L₂ : Ledger} {signers : List Pubkey} {k x : Pubkey}
  {e : SubscriptionEscrow}

/-! ## Lamports -/

theorem systemTransfer_lamports {source destination : Pubkey} {n : ℕ}
    (h : L.systemTransfer source destination n = .ok L') :
    L.accounts source = .vacant ∧ n ≤ L.lamports source ∧
      L'.lamports = credit (debit L.lamports source n) destination n := by
  simp only [systemTransfer, bind_eq_ok, require_eq_ok, exists_const, Except.ok.injEq] at h
  obtain ⟨hvacant, hle, rfl⟩ := h
  exact ⟨hvacant, hle, rfl⟩

theorem createAccount_lamports {payer : Pubkey} {program : ProgramName} {space : ℕ}
    (h : L.createAccount payer k program space = .ok L') :
    L.accounts payer = .vacant ∧
      L'.lamports = credit (debit L.lamports payer (rentExempt space - L.lamports k)) k
        (rentExempt space - L.lamports k) := by
  simp only [createAccount, bind_eq_ok, require_eq_ok, exists_const, Except.ok.injEq] at h
  obtain ⟨-, L₁, htransfer, rfl⟩ := h
  obtain ⟨hvacant, -, hlamports⟩ := systemTransfer_lamports htransfer
  exact ⟨hvacant, hlamports⟩

/-- The modules only write records. -/
theorem Compliance.ModuleCall.lamports {C M : Pubkey} {hook : PostHook}
    (h : ModuleCall C M L L' hook) :
    L'.lamports = L.lamports := by
  cases h with
  | maxInvestorsTransferred _ _ _ h =>
      obtain ⟨-, m, n, -, -, -, -, rfl⟩ := ModMaxInvestors.transferred_ok h
      rfl
  | maxInvestorsCreated _ _ h =>
      obtain ⟨-, m, -, -, -, rfl⟩ := ModMaxInvestors.created_ok h
      rfl
  | maxInvestorsDestroyed _ _ h =>
      obtain ⟨-, m, n, -, -, -, -, rfl⟩ := ModMaxInvestors.destroyed_eq_ok.1 h
      rfl
  | supplyCapCreated _ h =>
      obtain ⟨-, m, -, -, -, -, -, rfl⟩ := ModSupplyCap.created_eq_ok.1 h
      rfl
  | supplyCapDestroyed _ h =>
      obtain ⟨-, m, -, -, -, -, rfl⟩ := ModSupplyCap.destroyed_eq_ok.1 h
      rfl
  | countryCapTransferred f t _ _ _ _ _ h =>
      obtain ⟨-, m, cf, ct, cf', ct', -, -, -, -, -, -, -, -, rfl⟩ :=
        ModCountryCap.transferred_ok h
      rfl
  | countryCapCreated t _ _ _ h =>
      obtain ⟨-, m, c, c', -, -, -, -, -, -, rfl⟩ := ModCountryCap.updateSingleCountryCount_ok h
      rfl
  | countryCapDestroyed f _ _ _ h =>
      obtain ⟨-, m, c, c', -, -, -, -, -, -, rfl⟩ := ModCountryCap.updateSingleCountryCount_ok h
      rfl
  | dailyLimitTransferred u wallet _ h =>
      obtain ⟨-, m, r, -, -, -, -, -, -, -, -, rfl⟩ := ModDailyLimit.transferred_ok h
      rfl

theorem invokeComplianceCreated_lamports {program C : Pubkey} {remaining : List Pubkey}
    {amount after country : ℕ}
    (h : invokeComplianceCreated L program C remaining amount after country = .ok L') :
    L'.lamports = L.lamports := by
  obtain ⟨-, ⟨-, hcall⟩ | ⟨-, rfl⟩⟩ := invokeCompliance_ok h
  · obtain ⟨state, -, -, ⟨-, rfl⟩ | ⟨-, hloop⟩⟩ := created_eq_ok.1 hcall
    · rfl
    · refine foldlM_frame (g := Ledger.lamports) (fun M _ c c' hc ↦ ?_) hloop
      rcases moduleCreated_iteration hc with rfl | ⟨-, hmodule⟩
      · rfl
      · exact hmodule.lamports
  · rfl

/-! ## What the two instructions do -/

/-- The deposit `e` has been put into the escrow at `k`. -/
structure Deposited (L L' : Ledger) (k : Pubkey) (e : SubscriptionEscrow) : Prop where
  key : k = subscriptionAddress e.tokenMint e.investor
  vacant : L.accounts k = .vacant
  escrows : L'.view SubscriptionEscrow = Function.update (L.view SubscriptionEscrow) k (some e)
  unsettled : e.settled = false
  payer : L.accounts e.investor = .vacant
  payer_ne : e.investor ≠ k
  lamports : L'.lamports =
    credit (debit (credit (debit L.lamports e.investor
      (rentExempt subscriptionEscrowSpace - L.lamports k)) k
      (rentExempt subscriptionEscrowSpace - L.lamports k)) e.investor e.paidLamports) k
      e.paidLamports
  books : SameBooks L L'

/-- The deposit `e` of the escrow at `k` has been settled: what was paid goes to
the issuer, what was subscribed to an account of the investor, and the escrow is
marked. -/
structure Settled (L L' : Ledger) (k : Pubkey) (e : SubscriptionEscrow) : Prop where
  loaded : L.accounts k = account e
  unsettled : e.settled = false
  escrows : L'.view SubscriptionEscrow =
    Function.update (L.view SubscriptionEscrow) k (some { e with settled := true })
  paid : e.paidLamports ≤ L.lamports k
  lamports : L'.lamports = credit (debit L.lamports k e.paidLamports) e.issuer e.paidLamports
  minted : ∃ (x : Pubkey) (d : TokenAccount), L.accounts x = account d ∧ d.owner = e.investor ∧
    d.mint = e.tokenMint ∧ (Movement.minted x e.amount).Applies e.tokenMint L L' ∧
      OnlyBooksOf e.tokenMint L L'

section Instructions

variable [Borsh]

theorem depositSubscription_ok {accts : SubscriptionAccounts} {amount : ℕ}
    (h : depositSubscription L signers accts amount = .ok L') :
    ∃ e, Deposited L L' accts.subscriptionEscrow e ∧ e.investor = accts.investor ∧
      e.issuer = accts.issuer ∧ e.amount = amount := by
  have hbooks := SameBooks.of_frame (Token.frame_depositSubscription h) (by decide) (by decide)
  simp only [depositSubscription, bind_eq_ok, requireSigner_eq_ok, requireSeeds_eq_ok,
    exists_const] at h
  obtain ⟨-, ts, -, hkey, L₁, hcreate, _, -, _, -, _, -, terms, -, due, -, hpay⟩ := h
  obtain ⟨hvacant, hother, -⟩ := createAccount_ok hcreate
  obtain ⟨hpayer, hcreated⟩ := createAccount_lamports hcreate
  obtain ⟨haccounts, -⟩ := systemTransfer_ok hpay
  obtain ⟨hplain, -, hpaid⟩ := systemTransfer_lamports hpay
  have hne : accts.investor ≠ accts.subscriptionEscrow := by
    intro hne
    rw [hne, put_accounts_self] at hplain
    exact account_ne_vacant _ hplain
  refine ⟨⟨accts.investor, ts.tokenMint, accts.issuer, amount, due, L₁.now, false⟩,
    ⟨hkey, hvacant, ?_, rfl, hpayer, hne, ?_, hbooks⟩, rfl, rfl, rfl⟩
  · funext x
    by_cases hx : x = accts.subscriptionEscrow
    · subst hx
      rw [Function.update_self, view_eq_some, haccounts, put_accounts_self]
    · rw [Function.update_of_ne hx]
      apply view_congr
      rw [haccounts, put_accounts_of_ne _ hx, hother x hx]
  · rw [hpaid, ← hcreated]
    rfl

theorem settleSubscriptionMint_settled {operator : OperatorAccounts} {settle : SettleAccounts}
    {accts : ReceiverAccounts} {after : ℕ}
    (h : settleSubscriptionMint L signers operator settle accts after = .ok L') :
    ∃ e, Settled L L' settle.subscriptionEscrow e := by
  simp only [settleSubscriptionMint, bind_eq_ok, load_eq_ok, requireSeeds_eq_ok,
    require_eq_ok, exists_const] at h
  obtain ⟨ts, hcheck, e, he, -, -, hunsettled, hmint, hissuer, -, _, -, country, hreceiver, L₁,
    hrelease, hissue⟩ := h
  obtain ⟨hmintKey, -, d, hd, hdmint, howner, -, -⟩ := checkReceiver_ok hreceiver
  simp only [releaseEscrow, bind_eq_ok, okOr_eq_ok, checkedSub_eq_some, Except.ok.injEq] at hrelease
  obtain ⟨left, ⟨hpaid, rfl⟩, rfl⟩ := hrelease
  obtain ⟨L₂, hcreated, signers', hminted⟩ := issueTokens_ok hissue
  rw [hmintKey, ← hmint] at hminted
  -- the release and the mark are only seen by the escrow
  set M : Ledger := ((L.setLamports settle.subscriptionEscrow
    (L.lamports settle.subscriptionEscrow - e.paidLamports)).setLamports settle.issuer _).put
      settle.subscriptionEscrow { e with settled := true } with hM
  have hmarked : Frame [.subscriptionEscrow] L M :=
    (Frame.of_accounts_eq rfl).trans (.put (a := e) he (by decide))
  have hrecorded := frame_invokeComplianceCreated hcreated
  have hbefore : SameBooks L L₂ :=
    (SameBooks.of_frame hmarked (by decide) (by decide)).trans
      (.of_frame hrecorded (by decide) (by decide))
  obtain ⟨happlies, hothers⟩ := mintTo_applies hminted
  refine ⟨e, he, hunsettled, ?_, hpaid, ?_, accts.destinationTokenAccount, d, hd, howner,
    hdmint.trans hmint.symm, happlies.congr hbefore ⟨rfl, rfl⟩, hothers.congr hbefore ⟨rfl, rfl⟩⟩
  · rw [(Token2022.frame_mintTo hminted).table_eq (by decide), hrecorded.table_eq (by decide), hM,
      view_put]
    rfl
  · obtain ⟨_, _, -, -, -, -, -, rfl⟩ := Token2022.mintTo_ok hminted
    have hkept : L₂.lamports = M.lamports := invokeComplianceCreated_lamports hcreated
    rw [hissuer]
    exact hkept

end Instructions

/-! ## Escrows over runs -/

inductive EscrowInstruction
  | deposit (accts : SubscriptionAccounts) (amount : ℕ)
  | settle (operator : OperatorAccounts) (settlement : SettleAccounts) (accts : ReceiverAccounts)
      (toBalanceAfter : ℕ)

/-- An attempt is executed or refused; in between anything else may happen. -/
inductive EscrowLabel
  | executed (signers : List Pubkey) (i : EscrowInstruction)
  | refused (signers : List Pubkey) (i : EscrowInstruction)
  | environment

/-- The escrow that a step settles. -/
def EscrowLabel.settles : EscrowLabel → Option Pubkey
  | .executed _ (.settle _ settlement _ _) => some settlement.subscriptionEscrow
  | _ => none

/-- Other programs neither write the escrows nor take lamports from them; only
the program that owns an account can. -/
structure SparesEscrows (L L' : Ledger) : Prop where
  escrows : L'.view SubscriptionEscrow = L.view SubscriptionEscrow
  lamports : ∀ (k : Pubkey) (e : SubscriptionEscrow), L.accounts k = account e →
    L.lamports k ≤ L'.lamports k

section Runs

variable [Borsh]

def EscrowInstruction.process (L : Ledger) (signers : List Pubkey) :
    EscrowInstruction → Result Ledger
  | .deposit accts amount => depositSubscription L signers accts amount
  | .settle operator settlement accts toBalanceAfter =>
      settleSubscriptionMint L signers operator settlement accts toBalanceAfter

/-- A transaction that fails is rolled back. -/
inductive EscrowStep : Ledger → EscrowLabel → Ledger → Prop
  | executed {L L' : Ledger} (signers : List Pubkey) (i : EscrowInstruction) :
      i.process L signers = .ok L' → EscrowStep L (.executed signers i) L'
  | refused {L : Ledger} (signers : List Pubkey) (i : EscrowInstruction) (error : ProgramError) :
      i.process L signers = .error error → EscrowStep L (.refused signers i) L
  | environment {L L' : Ledger} : SparesEscrows L L' → EscrowStep L .environment L'

/-- An escrow whose deposit is not settled holds its rent and the price. -/
def EscrowsFunded (L : Ledger) : Prop :=
  ∀ (k : Pubkey) (e : SubscriptionEscrow), L.accounts k = account e → e.settled = false →
    rentExempt subscriptionEscrowSpace + e.paidLamports ≤ L.lamports k

/-- Each settled escrow is marked, and was settled once. -/
structure SettledOnce (labels : List EscrowLabel) (L : Ledger) : Prop where
  nodup : (labels.filterMap EscrowLabel.settles).Nodup
  marked : ∀ k ∈ labels.filterMap EscrowLabel.settles, ∃ e : SubscriptionEscrow,
    L.accounts k = account e ∧ e.settled = true

omit [Borsh] in
theorem Deposited.funded (h : Deposited L L' k e) (hL : EscrowsFunded L) : EscrowsFunded L' := by
  intro x e' he' hopen
  have hview := view_eq_some.2 he'
  rw [h.escrows] at hview
  rw [h.lamports]
  by_cases hx : x = k
  · subst hx
    rw [Function.update_self] at hview
    obtain rfl := Option.some.inj hview
    have hne := h.payer_ne.symm
    simp only [credit, debit, Function.update_self, Function.update_of_ne hne]
    omega
  · rw [Function.update_of_ne hx, view_eq_some] at hview
    have hpayer : x ≠ e.investor := by
      rintro rfl
      exact account_ne_vacant e' (hview.symm.trans h.payer)
    simp only [credit, debit, Function.update_of_ne hx, Function.update_of_ne hpayer]
    exact hL x e' hview hopen

omit [Borsh] in
theorem Settled.funded (h : Settled L L' k e) (hL : EscrowsFunded L) : EscrowsFunded L' := by
  intro x e' he' hopen
  have hview := view_eq_some.2 he'
  rw [h.escrows] at hview
  by_cases hx : x = k
  · subst hx
    rw [Function.update_self] at hview
    obtain rfl := Option.some.inj hview
    exact nomatch hopen
  · rw [Function.update_of_ne hx, view_eq_some] at hview
    have hfunded := hL x e' hview hopen
    rw [h.lamports]
    by_cases hissuer : x = e.issuer
    · subst hissuer
      simp only [credit, debit, Function.update_self, Function.update_of_ne hx]
      omega
    · simp only [credit, debit, Function.update_of_ne hissuer, Function.update_of_ne hx]
      exact hfunded

theorem EscrowStep.funded {l : EscrowLabel} (h : EscrowStep L l L') (hL : EscrowsFunded L) :
    EscrowsFunded L' := by
  cases h with
  | executed signers i h =>
      cases i with
      | deposit accts amount =>
          obtain ⟨e, hdeposited, -⟩ := depositSubscription_ok h
          exact hdeposited.funded hL
      | settle operator settlement accts toBalanceAfter =>
          obtain ⟨e, hsettled⟩ := settleSubscriptionMint_settled h
          exact hsettled.funded hL
  | refused => exact hL
  | environment hspares =>
      intro x e he hopen
      rw [← view_eq_some, hspares.escrows, view_eq_some] at he
      exact (hL x e he hopen).trans (hspares.lamports x e he)

omit [Borsh] in
theorem SettledOnce.of_kept {labels : List EscrowLabel} {l : EscrowLabel}
    (h : SettledOnce labels L) (hl : l.settles = none)
    (hkept : ∀ (k : Pubkey) (e : SubscriptionEscrow), L.accounts k = account e →
      L'.accounts k = account e) : SettledOnce (labels ++ [l]) L' := by
  have hsame : (labels ++ [l]).filterMap EscrowLabel.settles =
      labels.filterMap EscrowLabel.settles := by simp [hl]
  refine ⟨hsame ▸ h.nodup, fun k hk ↦ ?_⟩
  obtain ⟨e, he, hmarked⟩ := h.marked k (hsame ▸ hk)
  exact ⟨e, hkept k e he, hmarked⟩

/-- A settled escrow is not settled again. -/
theorem SettledOnce.step {labels : List EscrowLabel} {l : EscrowLabel} (h : SettledOnce labels L)
    (hstep : EscrowStep L l L') : SettledOnce (labels ++ [l]) L' := by
  cases hstep with
  | executed signers i hprocess =>
      cases i with
      | deposit accts amount =>
          obtain ⟨e, hdeposited, -⟩ := depositSubscription_ok hprocess
          refine h.of_kept rfl fun k e' he' ↦ ?_
          have hne : k ≠ accts.subscriptionEscrow := by
            rintro rfl
            exact account_ne_vacant e' (he'.symm.trans hdeposited.vacant)
          rw [← view_eq_some, hdeposited.escrows, Function.update_of_ne hne, view_eq_some]
          exact he'
      | settle operator settlement accts toBalanceAfter =>
          obtain ⟨e, hsettled⟩ := settleSubscriptionMint_settled hprocess
          have hfresh : settlement.subscriptionEscrow ∉ labels.filterMap EscrowLabel.settles := by
            intro hmem
            obtain ⟨e', he', hmarked⟩ := h.marked _ hmem
            obtain rfl := account_inj.1 (he'.symm.trans hsettled.loaded)
            have hopen := hsettled.unsettled
            rw [hmarked] at hopen
            exact nomatch hopen
          have hlist : (labels ++ [EscrowLabel.executed signers (.settle operator settlement accts
              toBalanceAfter)]).filterMap EscrowLabel.settles =
                labels.filterMap EscrowLabel.settles ++ [settlement.subscriptionEscrow] := by
            simp [EscrowLabel.settles]
          refine ⟨?_, fun k hk ↦ ?_⟩
          · rw [hlist, List.nodup_append]
            refine ⟨h.nodup, List.nodup_singleton _, fun a ha b hb ↦ ?_⟩
            rintro rfl
            exact hfresh (List.mem_singleton.1 hb ▸ ha)
          · by_cases hkk : k = settlement.subscriptionEscrow
            · refine ⟨{ e with settled := true }, ?_, rfl⟩
              rw [← view_eq_some, hsettled.escrows, hkk, Function.update_self]
            · rw [hlist, List.mem_append, List.mem_singleton] at hk
              obtain ⟨e', he', hmarked⟩ := h.marked k (hk.resolve_right hkk)
              refine ⟨e', ?_, hmarked⟩
              rw [← view_eq_some, hsettled.escrows, Function.update_of_ne hkk, view_eq_some]
              exact he'
  | refused => exact h.of_kept rfl fun _ _ he ↦ he
  | environment hspares =>
      refine h.of_kept rfl fun k e he ↦ ?_
      rw [← view_eq_some, hspares.escrows, view_eq_some]
      exact he

/-- In the run the deposit `e` was put into the escrow at `k`. -/
def DepositedIn (L : Ledger) (labels : List EscrowLabel) (k : Pubkey) (e : SubscriptionEscrow) :
    Prop :=
  ∃ pre signers accts post u v,
    labels = pre ++ .executed signers (.deposit accts e.amount) :: post ∧ Run EscrowStep L pre u ∧
      EscrowStep u (.executed signers (.deposit accts e.amount)) v ∧ Deposited u v k e ∧
        accts.subscriptionEscrow = k ∧ accts.investor = e.investor ∧ accts.issuer = e.issuer

/-- Only the deposit brings its record about. -/
theorem EscrowStep.deposited {l : EscrowLabel} (h : EscrowStep L l L') (hopen : e.settled = false)
    (hL : L.accounts k ≠ account e) (hL' : L'.accounts k = account e) :
    ∃ signers accts, l = .executed signers (.deposit accts e.amount) ∧ Deposited L L' k e ∧
      accts.subscriptionEscrow = k ∧ accts.investor = e.investor ∧ accts.issuer = e.issuer := by
  have hview := view_eq_some.2 hL'
  cases h with
  | executed signers i hprocess =>
      cases i with
      | deposit accts amount =>
          obtain ⟨e', hdeposited, hinvestor, hissuer, rfl⟩ := depositSubscription_ok hprocess
          rw [hdeposited.escrows] at hview
          by_cases hk : k = accts.subscriptionEscrow
          · subst hk
            rw [Function.update_self] at hview
            obtain rfl := Option.some.inj hview
            exact ⟨signers, accts, rfl, hdeposited, rfl, hinvestor.symm, hissuer.symm⟩
          · rw [Function.update_of_ne hk, view_eq_some] at hview
            exact absurd hview hL
      | settle operator settlement accts toBalanceAfter =>
          obtain ⟨e', hsettled⟩ := settleSubscriptionMint_settled hprocess
          rw [hsettled.escrows] at hview
          by_cases hk : k = settlement.subscriptionEscrow
          · subst hk
            rw [Function.update_self] at hview
            obtain rfl := Option.some.inj hview
            exact nomatch hopen
          · rw [Function.update_of_ne hk, view_eq_some] at hview
            exact absurd hview hL
  | refused => exact absurd hL' hL
  | environment hspares =>
      rw [hspares.escrows, view_eq_some] at hview
      exact absurd hview hL

/-- What a step of a run does to the escrows: a deposit goes into its own new
escrow, a settlement pays out and mints what one deposit recorded, and what
fails changes nothing. -/
inductive Conserves (start : Ledger) (pre : List EscrowLabel) (L L' : Ledger) : EscrowLabel → Prop
  | deposited (signers : List Pubkey) (accts : SubscriptionAccounts) (e : SubscriptionEscrow) :
      Deposited L L' accts.subscriptionEscrow e → e.investor = accts.investor →
        e.issuer = accts.issuer →
          Conserves start pre L L' (.executed signers (.deposit accts e.amount))
  | settled (signers : List Pubkey) (operator : OperatorAccounts) (settlement : SettleAccounts)
      (accts : ReceiverAccounts) (toBalanceAfter : ℕ) (e : SubscriptionEscrow) :
      DepositedIn start pre settlement.subscriptionEscrow e →
        Settled L L' settlement.subscriptionEscrow e →
          Conserves start pre L L' (.executed signers (.settle operator settlement accts
            toBalanceAfter))
  | refused (signers : List Pubkey) (i : EscrowInstruction) : L' = L →
      Conserves start pre L L' (.refused signers i)
  | environment : Conserves start pre L L' .environment

/-- The escrows over a run that starts without any: no deposit is settled twice,
what is not settled is in its escrow, and every step conserves. -/
theorem subscriptions_conserved {labels : List EscrowLabel}
    (hstart : ∀ (k : Pubkey) (e : SubscriptionEscrow), L.accounts k ≠ account e)
    (hrun : Run EscrowStep L labels L') :
    (labels.filterMap EscrowLabel.settles).Nodup ∧ EscrowsFunded L' ∧
      ∀ pre l post u v, labels = pre ++ l :: post → Run EscrowStep L pre u →
        EscrowStep u l v → Conserves L pre u v l := by
  have honce : SettledOnce labels L' := by
    have hnone : SettledOnce [] L := ⟨List.nodup_nil, by simp⟩
    exact hrun.history (P := fun labels L ↦ SettledOnce labels L)
      (fun _ _ _ _ h hstep ↦ h.step hstep) hnone
  have hfunded : EscrowsFunded L' := by
    refine hrun.invariant (P := EscrowsFunded) (fun _ _ _ h hstep ↦ hstep.funded h) ?_
    exact fun k e he ↦ absurd he (hstart k e)
  refine ⟨honce.nodup, hfunded, fun pre l post u v _ hpre hstep ↦ ?_⟩
  cases hstep with
  | executed signers i hprocess =>
      cases i with
      | deposit accts amount =>
          obtain ⟨e, hdeposited, hinvestor, hissuer, rfl⟩ := depositSubscription_ok hprocess
          exact .deposited signers accts e hdeposited hinvestor hissuer
      | settle operator settlement accts toBalanceAfter =>
          obtain ⟨e, hsettled⟩ := settleSubscriptionMint_settled hprocess
          refine .settled signers operator settlement accts toBalanceAfter e ?_ hsettled
          obtain ⟨pre', l', post', u', v', rfl, hpre', hu', hstep', hv', -⟩ :=
            hpre.since (P := fun L ↦ L.accounts settlement.subscriptionEscrow = account e)
              (hstart _ e) hsettled.loaded
          obtain ⟨signers', accts', rfl, hdeposited, hkey, hinvestor, hissuer⟩ :=
            hstep'.deposited hsettled.unsettled hu' hv'
          exact ⟨pre', signers', accts', post', u', v', rfl, hpre', hstep', hdeposited, hkey,
            hinvestor, hissuer⟩
  | refused => exact .refused _ _ rfl
  | environment => exact .environment

end Runs

/-! ## A subscription -/

def subscriber : Holding := ⟨.address 10, .address 11, 0⟩

def subscribedDeployment : Deployment where
  tokenMint := .address 0
  issuer := .address 1
  paused := false
  modules := []
  modulesPaused := false
  metas := TokenHook.baseMetas
  wallets := [(subscriber.wallet, 276)]
  holdings := [subscriber]

def subscriptionTerms : Pubkey × Account :=
  (.address 30, account
    { issuer := .address 1, tokenMint := .address 0, pricePerToken := 7, priceDecimals := 0,
      paymentMint := none, active := true, createdAt := 0 : OfferingTerms })

def subscriptionLedger : Ledger := subscribedDeployment.ledger [subscriptionTerms]

def subscriptionAccounts : SubscriptionAccounts where
  investor := subscriber.wallet
  issuer := .address 1
  offeringTerms := .address 30
  tokenState := subscribedDeployment.tokenState
  subscriptionEscrow := subscriptionAddress (.address 0) subscriber.wallet
  systemProgram := .program .system

def settleSubscription : EscrowInstruction :=
  .settle subscribedDeployment.operator
    ⟨.address 1, subscriptionAddress (.address 0) subscriber.wallet⟩
    (subscribedDeployment.receiverAccounts subscriber .default []) 5

theorem subscription_conserved : ∃ labels L', labels.filterMap EscrowLabel.settles ≠ [] ∧
    Run (@EscrowStep strictBorsh) subscriptionLedger labels L' ∧
      (labels.filterMap EscrowLabel.settles).Nodup ∧ EscrowsFunded L' ∧
        ∀ pre l post u v, labels = pre ++ l :: post →
          Run (@EscrowStep strictBorsh) subscriptionLedger pre u →
            @EscrowStep strictBorsh u l v →
              @Conserves strictBorsh subscriptionLedger pre u v l := by
  obtain ⟨L₁, L₂, hdeposit, hsettle⟩ : ∃ L₁ L₂,
      @EscrowInstruction.process strictBorsh subscriptionLedger [subscriber.wallet]
        (.deposit subscriptionAccounts 5) = .ok L₁ ∧
      @EscrowInstruction.process strictBorsh L₁ [.address 1] settleSubscription = .ok L₂ :=
    ⟨_, _, rfl, rfl⟩
  have hrun : Run (@EscrowStep strictBorsh) subscriptionLedger
      [.executed [subscriber.wallet] (.deposit subscriptionAccounts 5),
        .executed [.address 1] settleSubscription] L₂ :=
    .cons (@EscrowStep.executed strictBorsh _ _ _ _ hdeposit)
      (.single (@EscrowStep.executed strictBorsh _ _ _ _ hsettle))
  exact ⟨_, L₂, by simp [EscrowLabel.settles, settleSubscription], hrun,
    @subscriptions_conserved _ _ strictBorsh _ (fun k e ↦
      subscribedDeployment.not_account (by simp [subscriptionTerms, kind]) (by decide) k e) hrun⟩

end Fracks
