import Fracks.Deployment
import Fracks.Tables
import Fracks.Trades

/-!
# The chronicle of a trade

The record of a trade tells its history: which of its instructions have succeeded, by whom and
in which order, and the times of its record are those of the stages that it has passed.
-/

namespace Fracks.Trades

open Checked AccountType Ledger Runs

/-! ## Deeds -/

inductive Action
  | initiate
  | lock
  | confirm
  | settle
  | cancel
  deriving DecidableEq

/-- The trade that an instruction is about, what it does to it and on whose behalf. -/
def Instruction.deed : Instruction → Option (Pubkey × Action × Pubkey)
  | .grantInstitutionRole .. | .revokeInstitutionRole .. => none
  | .initiateTrade seller tradeEscrow _ => some (tradeEscrow, .initiate, seller)
  | .lockTokens authority tradeEscrow => some (tradeEscrow, .lock, authority)
  | .confirmBuyerPayment authority tradeEscrow _ => some (tradeEscrow, .confirm, authority)
  | .settleTrade authority tradeEscrow _ => some (tradeEscrow, .settle, authority)
  | .cancelTrade authority tradeEscrow _ => some (tradeEscrow, .cancel, authority)

def Label.deedOn (k : Pubkey) : Label → Option (Action × Pubkey)
  | .instruction _ i => (i.deed.filter fun deed ↦ deed.1 = k).map Prod.snd
  | .environment => none

/-- What a history has done to the trade at `k`. -/
def deeds (k : Pubkey) (labels : List Label) : List (Action × Pubkey) :=
  labels.filterMap (Label.deedOn k)

def Passed (action : Action) (done : List (Action × Pubkey)) : Prop := ∃ who, (action, who) ∈ done

/-- Without a buyer anybody stands for the buyer. -/
def Party (e : TradeEscrow) (who : Pubkey) : Prop :=
  e.buyer = .default ∨ who = e.buyer ∨ who = e.seller

/-! ## Moves -/

/-- The record of a trade that has just been opened. -/
structure Opened (now : ℤ) (seller : Pubkey) (e : TradeEscrow) : Prop where
  seller : e.seller = seller
  status : e.status = .initiated
  createdAt : e.createdAt = now
  lockedAt : e.lockedAt = 0
  paymentConfirmedAt : e.paymentConfirmedAt = 0
  settledAt : e.settledAt = 0
  cancelledAt : e.cancelledAt = 0

/-- What an action makes of a record. -/
inductive Move (now : ℤ) (who : Pubkey) : Action → TradeEscrow → TradeEscrow → Prop
  | lock {e : TradeEscrow} : who = e.seller → e.status = .initiated →
      Move now who .lock e { e with status := .tokensLocked, lockedAt := now }
  | confirm {e : TradeEscrow} (paymentReferenceHash : ℕ) : e.status = .tokensLocked →
      Party e who → Move now who .confirm e
        { e with paymentReferenceHash, status := .paymentConfirmed, paymentConfirmedAt := now }
  | settle {e : TradeEscrow} (settlementHash : ℕ) : e.status = .paymentConfirmed →
      Party e who → Move now who .settle e
        { e with settlementHash, status := .settled, settledAt := now }
  | cancel {e : TradeEscrow} (cancellationReasonHash : ℕ) :
      e.status = .initiated ∨ e.status = .tokensLocked → Party e who → Move now who .cancel e
        { e with cancellationReasonHash, status := .cancelled, cancelledAt := now }

variable {L L' : Ledger} {signers : List Pubkey} {k who : Pubkey} {e e' : TradeEscrow}
  {now now' : ℤ} {action : Action} {done : List (Action × Pubkey)}

theorem mutateTrade_eq_ok {authority : Pubkey} {f : TradeEscrow → Result TradeEscrow} :
    mutateTrade L signers authority k f = .ok L' ↔
      authority ∈ signers ∧ ∃ e e', L.accounts k = account e ∧ k = tradeAddress e.tradeId ∧
        f e = .ok e' ∧ L' = L.put k e' := by
  simp only [mutateTrade, bind_eq_ok, requireSigner_eq_ok, modify_eq_ok, requireSeeds_eq_ok,
    exists_const, and_assoc]

theorem initiateTrade_ok {seller : Pubkey} {args : InitiateTradeArgs}
    (h : initiateTrade L signers seller k args = .ok L') :
    seller ∈ signers ∧ ∃ e : TradeEscrow, Opened L.now seller e ∧
      L.initRecord seller k (tradeAddress args.tradeId) tradeEscrowSpace e = .ok L' := by
  simp only [initiateTrade, bind_eq_ok, requireSigner_eq_ok, require_eq_ok, exists_const] at h
  obtain ⟨hsigned, -, -, hinit⟩ := h
  exact ⟨hsigned, _, ⟨rfl, rfl, rfl, rfl, rfl, rfl, rfl⟩, hinit⟩

/-- An instruction on a trade opens it or makes a move on its record. -/
theorem process_deed {i : Instruction} (h : process L signers i = .ok L')
    (hdeed : i.deed = some (k, action, who)) :
    who ∈ signers ∧ ∃ e', L'.view TradeEscrow = Function.update (L.view TradeEscrow) k (some e') ∧
      ((action = .initiate ∧ L.view TradeEscrow k = none ∧ Opened L.now who e') ∨
        ∃ e, L.view TradeEscrow k = some e ∧ Move L.now who action e e') := by
  cases i with
  | grantInstitutionRole | revokeInstitutionRole => cases hdeed
  | initiateTrade seller tradeEscrow args =>
      cases hdeed
      obtain ⟨hsigned, e, hopened, hinit⟩ := initiateTrade_ok h
      obtain ⟨-, hnone, hview⟩ := view_initRecord hinit
      exact ⟨hsigned, e, hview, .inl ⟨rfl, hnone, hopened⟩⟩
  | lockTokens authority tradeEscrow =>
      cases hdeed
      obtain ⟨hsigned, e, e', he, -, hf, rfl⟩ := mutateTrade_eq_ok.1 h
      simp only [bind_eq_ok, require_eq_ok, exists_const, Except.ok.injEq] at hf
      obtain ⟨hseller, hstatus, rfl⟩ := hf
      exact ⟨hsigned, _, view_put _, .inr ⟨e, view_eq_some.2 he, .lock hseller hstatus⟩⟩
  | confirmBuyerPayment authority tradeEscrow hash =>
      cases hdeed
      obtain ⟨hsigned, e, e', he, -, hf, rfl⟩ := mutateTrade_eq_ok.1 h
      simp only [bind_eq_ok, require_eq_ok, exists_const, Except.ok.injEq] at hf
      obtain ⟨hstatus, hparty, rfl⟩ := hf
      exact ⟨hsigned, _, view_put _, .inr ⟨e, view_eq_some.2 he, .confirm hash hstatus hparty⟩⟩
  | settleTrade authority tradeEscrow hash =>
      cases hdeed
      obtain ⟨hsigned, e, e', he, -, hf, rfl⟩ := mutateTrade_eq_ok.1 h
      simp only [bind_eq_ok, require_eq_ok, exists_const, Except.ok.injEq] at hf
      obtain ⟨hstatus, hparty, rfl⟩ := hf
      have hparty : Party e who := by
        rcases hparty with hseller | hopen | hbuyer
        · exact .inr (.inr hseller)
        · exact .inl hopen
        · exact .inr (.inl hbuyer)
      exact ⟨hsigned, _, view_put _, .inr ⟨e, view_eq_some.2 he, .settle hash hstatus hparty⟩⟩
  | cancelTrade authority tradeEscrow hash =>
      cases hdeed
      obtain ⟨hsigned, e, e', he, -, hf, rfl⟩ := mutateTrade_eq_ok.1 h
      simp only [bind_eq_ok, require_eq_ok, exists_const, Except.ok.injEq] at hf
      obtain ⟨hstatus, hparty, rfl⟩ := hf
      have hparty : Party e who := by
        rcases hparty with hseller | hopen | hbuyer
        · exact .inr (.inr hseller)
        · exact .inl hopen
        · exact .inr (.inl hbuyer)
      exact ⟨hsigned, _, view_put _, .inr ⟨e, view_eq_some.2 he, .cancel hash hstatus hparty⟩⟩

/-! ## The stages of a trade -/

/-- What has been done to a trade of the seller that has come to a status. -/
inductive Deeds (seller : Pubkey) : TradeStatus → List (Action × Pubkey) → Prop
  | initiated : Deeds seller .initiated [(.initiate, seller)]
  | tokensLocked : Deeds seller .tokensLocked [(.initiate, seller), (.lock, seller)]
  | paymentConfirmed (payer : Pubkey) : Deeds seller .paymentConfirmed
      [(.initiate, seller), (.lock, seller), (.confirm, payer)]
  | settled (payer settler : Pubkey) : Deeds seller .settled
      [(.initiate, seller), (.lock, seller), (.confirm, payer), (.settle, settler)]
  | cancelledOpen (who : Pubkey) : Deeds seller .cancelled [(.initiate, seller), (.cancel, who)]
  | cancelledLocked (who : Pubkey) : Deeds seller .cancelled
      [(.initiate, seller), (.lock, seller), (.cancel, who)]

/-- The time of a stage: zero until it is passed, and then no earlier than the stage before. -/
structure Stamped (passed : Prop) (earliest stamp now : ℤ) : Prop where
  behind : passed → earliest ≤ stamp ∧ stamp ≤ now
  ahead : ¬ passed → stamp = 0

/-- The record of a trade tells what has been done to it. -/
structure Chronicle (now : ℤ) (done : List (Action × Pubkey)) (e : TradeEscrow) : Prop where
  deeds : Deeds e.seller e.status done
  created : 0 < e.createdAt ∧ e.createdAt ≤ now
  locked : Stamped (Passed .lock done) e.createdAt e.lockedAt now
  confirmed : Stamped (Passed .confirm done) e.lockedAt e.paymentConfirmedAt now
  settled : Stamped (Passed .settle done) e.paymentConfirmedAt e.settledAt now
  cancelled : Stamped (Passed .cancel done) e.createdAt e.cancelledAt now

@[simp] theorem passed_append_single {action' : Action} :
    Passed action (done ++ [(action', who)]) ↔ Passed action done ∨ action = action' := by
  simp [Passed, exists_or]

theorem passed_last : Passed action (done ++ [(action, who)]) := ⟨who, by simp⟩

theorem Stamped.later {passed : Prop} {earliest stamp : ℤ}
    (h : Stamped passed earliest stamp now) (hnow : now ≤ now') :
    Stamped passed earliest stamp now' := by
  refine ⟨?_, h.ahead⟩
  intro hpassed
  obtain ⟨hearliest, hstamp⟩ := h.behind hpassed
  exact ⟨hearliest, hstamp.trans hnow⟩

theorem Chronicle.later (h : Chronicle now done e) (hnow : now ≤ now') :
    Chronicle now' done e where
  deeds := h.deeds
  created := ⟨h.created.1, h.created.2.trans hnow⟩
  locked := h.locked.later hnow
  confirmed := h.confirmed.later hnow
  settled := h.settled.later hnow
  cancelled := h.cancelled.later hnow

/-- A stage that the trade has come to is passed now. -/
theorem Stamped.fresh {passed : Prop} {earliest : ℤ} (hpassed : passed) (h : earliest ≤ now) :
    Stamped passed earliest now now :=
  ⟨fun _ ↦ ⟨h, le_rfl⟩, fun hahead ↦ absurd hpassed hahead⟩

/-- A stage ahead of the trade is stamped with zero, whatever comes before it. -/
theorem Stamped.unpassed {passed passed' : Prop} {earliest earliest' stamp : ℤ}
    (h : Stamped passed earliest stamp now) (hpassed : ¬ passed) (hpassed' : ¬ passed') :
    Stamped passed' earliest' stamp now :=
  ⟨fun hp ↦ absurd hp hpassed', fun _ ↦ h.ahead hpassed⟩

/-- Another action passes no stage of this one. -/
theorem Stamped.other {action' : Action} {earliest stamp : ℤ}
    (h : Stamped (Passed action done) earliest stamp now) (hne : action ≠ action') :
    Stamped (Passed action (done ++ [(action', who)])) earliest stamp now := by
  have hpassed : Passed action (done ++ [(action', who)]) ↔ Passed action done := by
    rw [passed_append_single, or_iff_left hne]
  rwa [hpassed]

theorem Opened.chronicle (h : Opened now who e) (hnow : 0 < now) :
    Chronicle now [(.initiate, who)] e := by
  have hahead (action : Action) (hne : action ≠ .initiate) (earliest stamp : ℤ)
      (hstamp : stamp = 0) : Stamped (Passed action [(.initiate, who)]) earliest stamp now := by
    refine ⟨?_, fun _ ↦ hstamp⟩
    rintro ⟨other, hmem⟩
    cases List.mem_singleton.1 hmem
    exact absurd rfl hne
  refine ⟨?_, ?_, hahead _ (by decide) _ _ h.lockedAt,
    hahead _ (by decide) _ _ h.paymentConfirmedAt,
    hahead _ (by decide) _ _ h.settledAt, hahead _ (by decide) _ _ h.cancelledAt⟩
  · rw [h.status, h.seller]
    exact .initiated
  · rw [h.createdAt]
    exact ⟨hnow, le_rfl⟩

theorem Move.chronicle (hmove : Move now who action e e') (h : Chronicle now done e) :
    Chronicle now (done ++ [(action, who)]) e' := by
  obtain ⟨hdeeds, hcreated, hlocked, hconfirmed, hsettled, hcancelled⟩ := h
  cases hmove with
  | lock hseller hstatus =>
      rw [hstatus] at hdeeds
      cases hdeeds
      exact ⟨hseller ▸ .tokensLocked, hcreated, .fresh passed_last hcreated.2,
        hconfirmed.unpassed (by simp [Passed]) (by simp [Passed]),
        hsettled.other (by decide), hcancelled.other (by decide)⟩
  | confirm hash hstatus hparty =>
      rw [hstatus] at hdeeds
      cases hdeeds
      have hlockedNow : e.lockedAt ≤ now := (hlocked.behind (by simp [Passed])).2
      exact ⟨.paymentConfirmed who, hcreated, hlocked.other (by decide),
        .fresh passed_last hlockedNow,
        hsettled.unpassed (by simp [Passed]) (by simp [Passed]),
        hcancelled.other (by decide)⟩
  | settle hash hstatus hparty =>
      rw [hstatus] at hdeeds
      cases hdeeds with
      | paymentConfirmed payer =>
          have hconfirmedNow : e.paymentConfirmedAt ≤ now :=
            (hconfirmed.behind (by simp [Passed])).2
          exact ⟨.settled payer who, hcreated, hlocked.other (by decide),
            hconfirmed.other (by decide), .fresh passed_last hconfirmedNow,
            hcancelled.other (by decide)⟩
  | cancel hash hstatus hparty =>
      have hdeeds' : Deeds e.seller .cancelled (done ++ [(.cancel, who)]) := by
        rcases hstatus with hstatus | hstatus
        · rw [hstatus] at hdeeds
          cases hdeeds
          exact .cancelledOpen who
        · rw [hstatus] at hdeeds
          cases hdeeds
          exact .cancelledLocked who
      exact ⟨hdeeds', hcreated, hlocked.other (by decide), hconfirmed.other (by decide),
        hsettled.other (by decide), .fresh passed_last hcreated.2⟩

/-! ## Terms -/

/-- What the parties of a trade have agreed on. -/
structure SameTerms (e e' : TradeEscrow) : Prop where
  tradeId : e'.tradeId = e.tradeId
  seller : e'.seller = e.seller
  buyer : e'.buyer = e.buyer
  tokenMint : e'.tokenMint = e.tokenMint
  tokenAmount : e'.tokenAmount = e.tokenAmount
  pricePerToken : e'.pricePerToken = e.pricePerToken

/-- A closed trade has come to its last status. -/
def Closed (e : TradeEscrow) : Prop := e.status = .settled ∨ e.status = .cancelled

/-- The later record of a trade: its terms are the same, and when it was closed all of it is. -/
def Later (e e' : TradeEscrow) : Prop := SameTerms e e' ∧ (Closed e → e' = e)

theorem Later.refl (e : TradeEscrow) : Later e e := ⟨⟨rfl, rfl, rfl, rfl, rfl, rfl⟩, fun _ ↦ rfl⟩

theorem Later.trans {e'' : TradeEscrow} (h : Later e e') (h' : Later e' e'') : Later e e'' := by
  obtain ⟨hterms, hclosed⟩ := h
  obtain ⟨hterms', hclosed'⟩ := h'
  refine ⟨⟨hterms'.tradeId.trans hterms.tradeId, hterms'.seller.trans hterms.seller,
    hterms'.buyer.trans hterms.buyer, hterms'.tokenMint.trans hterms.tokenMint,
    hterms'.tokenAmount.trans hterms.tokenAmount,
    hterms'.pricePerToken.trans hterms.pricePerToken⟩, ?_⟩
  intro h
  have hsame : e' = e := hclosed h
  exact (hclosed' (hsame ▸ h)).trans hsame

theorem Move.later (h : Move now who action e e') : Later e e' := by
  cases h with
  | lock _ hstatus => exact ⟨⟨rfl, rfl, rfl, rfl, rfl, rfl⟩, fun h ↦ by simp [Closed, hstatus] at h⟩
  | confirm _ hstatus _ =>
      exact ⟨⟨rfl, rfl, rfl, rfl, rfl, rfl⟩, fun h ↦ by simp [Closed, hstatus] at h⟩
  | settle _ hstatus _ =>
      exact ⟨⟨rfl, rfl, rfl, rfl, rfl, rfl⟩, fun h ↦ by simp [Closed, hstatus] at h⟩
  | cancel _ hstatus _ =>
      refine ⟨⟨rfl, rfl, rfl, rfl, rfl, rfl⟩, fun h ↦ ?_⟩
      rcases hstatus with hstatus | hstatus <;> simp [Closed, hstatus] at h

theorem Move.party (h : Move now who action e e') : Party e who := by
  cases h with
  | lock hseller _ => exact .inr (.inr hseller)
  | confirm _ _ hparty | settle _ _ hparty | cancel _ _ hparty => exact hparty

/-! ## Runs -/

theorem process_now {i : Instruction} (h : process L signers i = .ok L') : L'.now = L.now := by
  have hmutate {authority tradeEscrow : Pubkey} {f : TradeEscrow → Result TradeEscrow}
      (h : mutateTrade L signers authority tradeEscrow f = .ok L') : L'.now = L.now := by
    obtain ⟨-, e, e', -, -, -, rfl⟩ := mutateTrade_eq_ok.1 h
    rfl
  cases i with
  | grantInstitutionRole owner institutionRole tokenMint institutionWallet maxBalanceOverride =>
      simp only [process, Trades.grantInstitutionRole, bind_eq_ok] at h
      obtain ⟨-, -, hinit⟩ := h
      exact initRecord_now hinit
  | revokeInstitutionRole owner institutionRole =>
      simp only [process, Trades.revokeInstitutionRole, bind_eq_ok, modify_eq_ok] at h
      obtain ⟨-, -, role, role', -, -, rfl⟩ := h
      rfl
  | initiateTrade seller tradeEscrow args =>
      obtain ⟨-, e, -, hinit⟩ := initiateTrade_ok h
      exact initRecord_now hinit
  | lockTokens | confirmBuyerPayment | settleTrade | cancelTrade => exact hmutate h

/-- The instructions on institutions are about no trade. -/
theorem process_other {i : Instruction} (h : process L signers i = .ok L')
    (hdeed : i.deed = none) : L'.view TradeEscrow = L.view TradeEscrow := by
  have hkind : kind TradeEscrow ≠ kind InstitutionRole := by decide
  cases i with
  | grantInstitutionRole owner institutionRole tokenMint institutionWallet maxBalanceOverride =>
      simp only [process, Trades.grantInstitutionRole, bind_eq_ok] at h
      obtain ⟨-, -, hinit⟩ := h
      funext x
      obtain ⟨-, hvacant, hnew, hother⟩ := initRecord_ok hinit
      by_cases hx : x = institutionRole
      · rw [hx, view_none_of_vacant hvacant]
        exact view_none_of_kind (view_eq_some.2 hnew) hkind
      · exact view_congr (hother x hx)
  | revokeInstitutionRole owner institutionRole =>
      simp only [process, Trades.revokeInstitutionRole, bind_eq_ok, modify_eq_ok] at h
      obtain ⟨-, -, role, role', hrole, -, rfl⟩ := h
      exact view_overwrite hrole hkind
  | initiateTrade | lockTokens | confirmBuyerPayment | settleTrade | cancelTrade => cases hdeed

/-- The instruction `i` of the label acts on the trade at `k` for a signer. -/
def Label.ActsOn (l : Label) (k : Pubkey) (action : Action) (who : Pubkey) : Prop :=
  ∃ signers i, l = .instruction signers i ∧ i.deed = some (k, action, who) ∧ who ∈ signers

/-- A step leaves a trade alone, opens it or makes a move on its record. -/
theorem step_trade {l : Label} (h : Step L l L') (k : Pubkey) :
    (l.deedOn k = none ∧ L'.view TradeEscrow k = L.view TradeEscrow k) ∨
      ∃ action who e', l.ActsOn k action who ∧ l.deedOn k = some (action, who) ∧
        L'.view TradeEscrow k = some e' ∧ L'.now = L.now ∧
          ((action = .initiate ∧ L.view TradeEscrow k = none ∧ Opened L.now who e') ∨
            ∃ e, L.view TradeEscrow k = some e ∧ Move L.now who action e e') := by
  cases h with
  | environment S hframe hkinds _ =>
      exact .inl ⟨rfl, hframe.view_eq (hkinds _ (by decide)) k⟩
  | instruction signers i hprocess =>
      cases hdeed : i.deed with
      | none =>
          refine .inl ⟨?_, congrFun (process_other hprocess hdeed) k⟩
          rw [Label.deedOn, hdeed]
          rfl
      | some deed =>
          obtain ⟨x, action, who⟩ := deed
          obtain ⟨hsigned, e', hview, hcase⟩ := process_deed hprocess hdeed
          by_cases hx : x = k
          · subst hx
            refine .inr ⟨action, who, e', ⟨signers, i, rfl, hdeed, hsigned⟩, ?_, ?_,
              process_now hprocess, hcase⟩
            · simp [Label.deedOn, hdeed]
            · rw [hview, Function.update_self]
          · refine .inl ⟨by simp [Label.deedOn, hdeed, hx], ?_⟩
            rw [hview, Function.update_of_ne (Ne.symm hx)]

theorem step_now {l : Label} (h : Step L l L') : L.now ≤ L'.now := by
  cases h with
  | environment _ _ _ hnow => exact hnow
  | instruction signers i hprocess => exact (process_now hprocess).ge

/-- Every record of a trade tells what the history has done to it. -/
def Chronicled (history : List Label) (L : Ledger) : Prop :=
  0 < L.now ∧ ∀ k, (L.view TradeEscrow k = none → deeds k history = []) ∧
    ∀ e, L.view TradeEscrow k = some e → Chronicle L.now (deeds k history) e

theorem step_chronicled {history : List Label} {l : Label} (h : Chronicled history L)
    (hstep : Step L l L') : Chronicled (history ++ [l]) L' := by
  obtain ⟨hclock, hall⟩ := h
  have hlater : L.now ≤ L'.now := step_now hstep
  refine ⟨by omega, fun k ↦ ?_⟩
  have hdeeds : deeds k (history ++ [l]) = deeds k history ++ (l.deedOn k).toList := by
    simp only [deeds, List.filterMap_append]
    cases hl : l.deedOn k <;> simp [hl]
  obtain ⟨hnone, hsome⟩ := hall k
  rcases step_trade hstep k with ⟨hnothing, hview⟩ | ⟨action, who, e', -, hdeed, hview, hnow, hcase⟩
  · rw [hdeeds, hnothing, hview]
    simp only [Option.toList_none, List.append_nil]
    exact ⟨hnone, fun e he ↦ (hsome e he).later hlater⟩
  · rw [hdeeds, hdeed, hview, hnow]
    refine ⟨fun hvacant ↦ ?_, fun e he ↦ ?_⟩
    · cases hvacant
    · obtain rfl := Option.some.inj he
      rcases hcase with ⟨rfl, hvacant, hopened⟩ | ⟨e, he, hmove⟩
      · rw [hnone hvacant]
        exact hopened.chronicle hclock
      · exact hmove.chronicle (hsome e he)

/-- A record stays, with its terms, and a closed one as it is. -/
theorem step_later {l : Label} (hstep : Step L l L') (he : L.view TradeEscrow k = some e) :
    ∃ e', L'.view TradeEscrow k = some e' ∧ Later e e' := by
  rcases step_trade hstep k with ⟨-, hview⟩ | ⟨action, who, e', -, -, hview, -, hcase⟩
  · exact ⟨e, hview.trans he, .refl e⟩
  · rcases hcase with ⟨-, hvacant, -⟩ | ⟨d, hd, hmove⟩
    · rw [hvacant] at he
      cases he
    · rw [hd] at he
      obtain rfl := Option.some.inj he
      exact ⟨e', hview, hmove.later⟩

theorem run_later {labels : List Label} (hrun : Run Step L labels L')
    (he : L.view TradeEscrow k = some e) : ∃ e', L'.view TradeEscrow k = some e' ∧ Later e e' := by
  refine hrun.invariant (P := fun L ↦ ∃ e', L.view TradeEscrow k = some e' ∧ Later e e') ?_
    ⟨e, he, .refl e⟩
  rintro M l M' ⟨d, hd, hlater⟩ hstep
  obtain ⟨d', hd', hlater'⟩ := step_later hstep hd
  exact ⟨d', hd', hlater.trans hlater'⟩

theorem run_chronicled {labels : List Label} (hclock : 0 < L.now)
    (hempty : ∀ k, L.view TradeEscrow k = none) (hrun : Run Step L labels L') :
    Chronicled labels L' := by
  have hstart : Chronicled [] L := by
    refine ⟨hclock, fun k ↦ ⟨fun _ ↦ rfl, fun e he ↦ ?_⟩⟩
    rw [hempty k] at he
    cases he
  have hend := hrun.history (P := Chronicled) (fun _ _ _ _ h hstep ↦ step_chronicled h hstep) hstart
  exact hend

/-- The passed stages follow each other. -/
theorem Deeds.passed {seller : Pubkey} {status : TradeStatus} (h : Deeds seller status done) :
    (Passed .confirm done → Passed .lock done) ∧ (Passed .settle done → Passed .confirm done) ∧
      ¬ (Passed .settle done ∧ Passed .cancel done) := by
  cases h <;> simp [Passed]

theorem Stamped.ne_zero_iff {passed : Prop} {earliest stamp : ℤ}
    (h : Stamped passed earliest stamp now) (hearliest : passed → 0 < earliest) :
    stamp ≠ 0 ↔ passed := by
  constructor
  · intro hne
    by_contra hpassed
    exact hne (h.ahead hpassed)
  · intro hpassed
    have hle : earliest ≤ stamp := (h.behind hpassed).1
    have hpos : 0 < earliest := hearliest hpassed
    omega

/-- Each time of a chronicled record is set exactly when its stage is passed. -/
theorem Chronicle.stamps (h : Chronicle now done e) :
    (e.lockedAt ≠ 0 ↔ Passed .lock done) ∧ (e.paymentConfirmedAt ≠ 0 ↔ Passed .confirm done) ∧
      (e.settledAt ≠ 0 ↔ Passed .settle done) ∧ (e.cancelledAt ≠ 0 ↔ Passed .cancel done) := by
  obtain ⟨hconfirmedLocked, hsettledConfirmed, -⟩ := h.deeds.passed
  have hcreated : 0 < e.createdAt := h.created.1
  have hlocked (hpassed : Passed .lock done) : 0 < e.lockedAt := by
    have hle : e.createdAt ≤ e.lockedAt := (h.locked.behind hpassed).1
    omega
  have hconfirmed (hpassed : Passed .confirm done) : 0 < e.paymentConfirmedAt := by
    have hle : e.lockedAt ≤ e.paymentConfirmedAt := (h.confirmed.behind hpassed).1
    have hpos : 0 < e.lockedAt := hlocked (hconfirmedLocked hpassed)
    omega
  refine ⟨h.locked.ne_zero_iff fun _ ↦ hcreated, ?_, ?_, h.cancelled.ne_zero_iff fun _ ↦ hcreated⟩
  · exact h.confirmed.ne_zero_iff fun hpassed ↦ hlocked (hconfirmedLocked hpassed)
  · exact h.settled.ne_zero_iff fun hpassed ↦ hconfirmed (hsettledConfirmed hpassed)

/-- A settled trade was locked by its seller, then paid, then settled, each no earlier than the
stage before. -/
theorem Chronicle.of_settled (h : Chronicle now done e) (hsettled : e.status = .settled) :
    (∃ payer settler, done = [(.initiate, e.seller), (.lock, e.seller), (.confirm, payer),
      (.settle, settler)]) ∧ e.createdAt ≤ e.lockedAt ∧ e.lockedAt ≤ e.paymentConfirmedAt ∧
        e.paymentConfirmedAt ≤ e.settledAt := by
  obtain ⟨hdeeds, -, hlocked, hconfirmed, hsettledAt, -⟩ := h
  rw [hsettled] at hdeeds
  cases hdeeds with
  | settled payer settler =>
      refine ⟨⟨payer, settler, rfl⟩, ?_, ?_, ?_⟩
      · exact (hlocked.behind (by simp [Passed])).1
      · exact (hconfirmed.behind (by simp [Passed])).1
      · exact (hsettledAt.behind (by simp [Passed])).1

/-- A trade with a buyer is changed by its seller or by that buyer. -/
theorem step_party {l : Label} (hstep : Step L l L') (he : L.view TradeEscrow k = some e)
    (he' : L'.view TradeEscrow k = some e') (hne : e' ≠ e) (hbuyer : e.buyer ≠ .default) :
    ∃ action who, l.ActsOn k action who ∧ (who = e.seller ∨ who = e.buyer) := by
  rcases step_trade hstep k with ⟨-, hview⟩ | ⟨action, who, e₁, hacts, -, hview, -, hcase⟩
  · rw [hview, he] at he'
    exact absurd (Option.some.inj he').symm hne
  · rcases hcase with ⟨-, hvacant, -⟩ | ⟨d, hd, hmove⟩
    · rw [hvacant] at he
      cases he
    · rw [hd] at he
      obtain rfl := Option.some.inj he
      refine ⟨action, who, hacts, ?_⟩
      rcases hmove.party with hopen | hwho | hwho
      · exact absurd hopen hbuyer
      · exact .inr hwho
      · exact .inl hwho

/-- The state machine of the trades, over all histories from a ledger without trades. -/
theorem trade_lifecycle {L₀ : Ledger} {labels : List Label} (hclock : 0 < L₀.now)
    (hempty : ∀ k, L₀.view TradeEscrow k = none) (hrun : Run Step L₀ labels L) :
    (∀ k e, L.view TradeEscrow k = some e →
      (e.status = .settled →
        (∃ payer settler, deeds k labels = [(.initiate, e.seller), (.lock, e.seller),
          (.confirm, payer), (.settle, settler)]) ∧
            e.createdAt ≤ e.lockedAt ∧ e.lockedAt ≤ e.paymentConfirmedAt ∧
              e.paymentConfirmedAt ≤ e.settledAt) ∧
      (e.createdAt ≠ 0 ∧ (e.lockedAt ≠ 0 ↔ Passed .lock (deeds k labels)) ∧
        (e.paymentConfirmedAt ≠ 0 ↔ Passed .confirm (deeds k labels)) ∧
          (e.settledAt ≠ 0 ↔ Passed .settle (deeds k labels)) ∧
            (e.cancelledAt ≠ 0 ↔ Passed .cancel (deeds k labels))) ∧
      ¬ (Passed .settle (deeds k labels) ∧ Passed .cancel (deeds k labels))) ∧
    (∀ labels' L' k e, Run Step L labels' L' → L.view TradeEscrow k = some e →
      ∃ e', L'.view TradeEscrow k = some e' ∧ SameTerms e e' ∧
        (e.status = .settled ∨ e.status = .cancelled → e' = e)) ∧
    ∀ l L' k e e', Step L l L' → L.view TradeEscrow k = some e →
      L'.view TradeEscrow k = some e' → e' ≠ e → e.buyer ≠ .default →
        ∃ action who, l.ActsOn k action who ∧ (who = e.seller ∨ who = e.buyer) := by
  obtain ⟨-, hall⟩ := run_chronicled hclock hempty hrun
  refine ⟨?_, ?_, ?_⟩
  · intro k e he
    have hchronicle : Chronicle L.now (deeds k labels) e := (hall k).2 e he
    refine ⟨hchronicle.of_settled, ⟨?_, hchronicle.stamps⟩, hchronicle.deeds.passed.2.2⟩
    exact hchronicle.created.1.ne'
  · intro labels' L' k e hrun' he
    exact run_later hrun' he
  · intro l L' k e e' hstep he he' hne hbuyer
    exact step_party hstep he he' hne hbuyer

/-! ## A settled trade -/

def tradeSeller : Pubkey := .address 1

def tradeBuyer : Pubkey := .address 2

def tradeKey : Pubkey := tradeAddress 7

def tradeArgs : InitiateTradeArgs where
  tradeId := 7
  tokenMint := .address 3
  buyer := tradeBuyer
  tokenAmount := 10
  pricePerToken := 5
  paymentReferenceHash := 0
  quickExit := false

/-- The instructions of a sale, each with its signer. -/
def sale : List (Pubkey × Instruction) :=
  [(tradeSeller, .initiateTrade tradeSeller tradeKey tradeArgs),
    (tradeSeller, .lockTokens tradeSeller tradeKey),
    (tradeBuyer, .confirmBuyerPayment tradeBuyer tradeKey 11),
    (tradeSeller, .settleTrade tradeSeller tradeKey 12)]

def processAll (L : Ledger) (calls : List (Pubkey × Instruction)) : Result Ledger :=
  calls.foldlM (fun L call ↦ process L [call.1] call.2) L

theorem processAll_run {calls : List (Pubkey × Instruction)} (h : processAll L calls = .ok L') :
    Run Step L (calls.map fun call ↦ .instruction [call.1] call.2) L' := by
  induction calls generalizing L with
  | nil =>
      cases h
      exact .nil _
  | cons call calls ih =>
      rw [processAll, List.foldlM_cons, bind_eq_ok] at h
      obtain ⟨M, hfirst, hrest⟩ := h
      exact .cons (.instruction _ _ hfirst) (ih hrest)

theorem sale_settles : ∃ L, processAll (.ofRecords []) sale = .ok L ∧
    ((L.view TradeEscrow tradeKey).map fun e ↦ (e.seller, e.status)) =
      some (tradeSeller, .settled) :=
  ⟨_, rfl, rfl⟩

theorem sale_lifecycle : ∃ labels L e, Run Step (.ofRecords []) labels L ∧
    L.view TradeEscrow tradeKey = some e ∧
      ∃ payer settler, deeds tradeKey labels = [(.initiate, tradeSeller), (.lock, tradeSeller),
        (.confirm, payer), (.settle, settler)] := by
  obtain ⟨L, hsale, hrecord⟩ := sale_settles
  obtain ⟨e, he, hfields⟩ := Option.map_eq_some_iff.1 hrecord
  obtain ⟨hseller, hstatus⟩ := Prod.mk.inj hfields
  have hrun := processAll_run hsale
  have hempty (k : Pubkey) : (Ledger.ofRecords []).view TradeEscrow k = none :=
    view_none_of_vacant rfl
  obtain ⟨hrecords, -⟩ := trade_lifecycle (by decide) hempty hrun
  obtain ⟨hdeeds, -⟩ := (hrecords tradeKey e he).1 hstatus
  rw [hseller] at hdeeds
  exact ⟨_, L, e, hrun, he, hdeeds⟩

end Fracks.Trades
