import Fracks.Anchored
import Fracks.BookedCounters

/-!
# What an instruction does to one token

Seen from a token under its own compliance state, every instruction either
moves its balances with a post-hook under that state, or burns tokens that are
booked elsewhere, or books another token under that state, or leaves the
balances and the counters of the token alone.  The two middle cases name the
instructions that can do so.
-/

namespace Fracks

open Checked AccountType Ledger TokenHook Compliance

/-! ## Instructions that matter for a token -/

/-- Instructions that may change balances. -/
def Instruction.moves : Instruction → Bool
  | .token (.mint ..) | .token (.purchaseMint ..) | .token (.settleSubscriptionMint ..)
  | .token (.burn ..) | .token (.forcedTransfer ..) | .token (.recovery ..) => true
  | .token2022 _ | .createTokenMint .. => true
  | _ => false

/-- The instruction issues `n` tokens of `T`; a settlement issues what its escrow
says. -/
def Instruction.Issues (T : Pubkey) (n : ℕ) : Instruction → Prop
  | .token (.mint _ accts _ amount _) => accts.tokenMintAccount = T ∧ amount = n
  | .token (.purchaseMint _ accts amount _) => accts.tokenMintAccount = T ∧ amount = n
  | .token (.settleSubscriptionMint _ _ accts _) => accts.tokenMintAccount = T
  | _ => False

/-- A burn of `T` that is not booked under its compliance state. -/
def Instruction.Loses (T : Pubkey) : Instruction → Prop
  | .token (.burn operator accts _ _ _) =>
      operator.tokenState = Token.tokenStateAddress T ∧
        accts.complianceState ≠ complianceAddress T
  | .token2022 (.burn _ mint _ _ _) => mint = T
  | _ => False

/-- A burn of another token that is given the compliance state of `T`. -/
def Instruction.Misburns (T : Pubkey) : Instruction → Prop
  | .token (.burn operator accts _ _ _) =>
      operator.tokenState ≠ Token.tokenStateAddress T ∧
        accts.complianceState = complianceAddress T
  | _ => False

/-- A transfer of another token whose token state points to the compliance state
of `T`. -/
def Instruction.Mismoves (T : Pubkey) (L : Ledger) : Instruction → Prop
  | .token (.recovery _ _ accts _ _ _) =>
      accts.tokenMintAccount ≠ T ∧
        PointsTo (Token.tokenStateAddress accts.tokenMintAccount) (complianceAddress T) L
  | .token2022 (.transferChecked _ mint _ _ _ _ _) =>
      mint ≠ T ∧ PointsTo (Token.tokenStateAddress mint) (complianceAddress T) L
  | _ => False

/-! ## Counters that stay -/

variable {L L' L₁ L₂ : Ledger} {T X C k M : Pubkey} {signers : List Pubkey}
  {S : List AccountKind} {v : Movement} {i : Instruction} {state : ComplianceState}

/-- The counters under the hook authority `C` and the compliance states stay. -/
structure Untouched (C : Pubkey) (L L' : Ledger) : Prop where
  counters : ∀ k M, (L.accounts k).counterModule k = some M →
    (L.accounts M).data.hookAuthority = some C → L'.accounts k = L.accounts k
  states : ∀ (x : Pubkey) (state : ComplianceState), L.accounts x = account state →
    L'.accounts x = account state

/-- Counters outside a frame stay. -/
theorem counter_untouched (hM : (L.accounts k).counterModule k = some M) (hframe : Frame S L L')
    (hS : ∀ K ∈ counterKinds, K ∉ S) : L'.accounts k = L.accounts k := by
  by_contra hne
  have hkind := CounterChange.counterModule_kind hM
  rcases (hframe k hne).1 with hvacant | hin
  · rw [hvacant] at hkind
    exact absurd hkind (by decide)
  · exact hS _ hkind hin

theorem Untouched.of_frame (h : Frame S L L') (hcounters : ∀ K ∈ counterKinds, K ∉ S)
    (hstates : AccountKind.complianceState ∉ S) : Untouched C L L' where
  counters _ _ hM _ := counter_untouched hM h hcounters
  states _ _ hstate := h.accounts_eq hstates hstate

/-- Modules do not change around a movement. -/
theorem hookAuthority_frame (hframe : Frame movementKinds L L')
    (hauthority : (L'.accounts M).data.hookAuthority = some C) :
    (L.accounts M).data.hookAuthority = some C := by
  by_cases hsame : L'.accounts M = L.accounts M
  · rw [← hsame]
    exact hauthority
  · have hafter := (hframe M hsame).2
    unfold AccountData.hookAuthority at hauthority
    split at hauthority
    case h_5 => simp at hauthority
    all_goals
      rename_i m hm
      rcases hafter with hvacant | hin
      · simp [hvacant, Account.vacant] at hm
      · unfold Account.kind at hin
        split at hin <;> simp [hm, AccountData.kind, movementKinds] at hin

/-- The router has run once in a booked movement. -/
theorem Movement.Posted.step (h : v.Posted T C L L₁ L₂) :
    ∃ hook state, RouterStep hook C state L₁ L₂ := by
  cases v with
  | minted k n =>
      obtain ⟨_, _, h⟩ := h
      exact ⟨.created, created_step h⟩
  | burned k n =>
      obtain ⟨_, _, h⟩ := h
      exact ⟨.destroyed, destroyed_step h⟩
  | moved s d n =>
      obtain ⟨_, _, _, _, h⟩ := h
      exact ⟨.transferred, transferred_step h⟩

/-- A counter that a booked movement changes belongs to a module bound to the
compliance state, whose hook authority is that state. -/
theorem Booked.counter (h : Booked T C v L L')
    (hM : (L.accounts k).counterModule k = some M) (hchange : L'.accounts k ≠ L.accounts k) :
    ∃ state : ComplianceState, L.accounts C = account state ∧ M ∈ state.modules ∧
      (L.accounts M).data.hookAuthority = some C := by
  obtain ⟨L₁, L₂, hbefore, hposted, hafter⟩ := h.posted
  obtain ⟨hook, state, hstep⟩ := hposted.step
  have hfirst : L₁.accounts k = L.accounts k := counter_untouched hM hbefore (by decide)
  have hM₁ : (L₁.accounts k).counterModule k = some M := hfirst ▸ hM
  have hM₂ : (L₂.accounts k).counterModule k = some M := (hstep.change.same k).counterModule ▸ hM₁
  have hlast : L'.accounts k = L₂.accounts k := counter_untouched hM₂ hafter (by decide)
  have hmoved : L₂.accounts k ≠ L₁.accounts k := by rwa [← hlast, hfirst]
  obtain ⟨M', hM', hbound, hauthority⟩ := hstep.change.changes k hmoved
  obtain rfl := Option.some.inj (hM₁.symm.trans hM')
  refine ⟨state, ?_, hbound, hookAuthority_frame hbefore hauthority⟩
  have hkind : kind ComplianceState ∉ movementKinds := by decide
  rw [← view_eq_some, ← hbefore.view_eq hkind, view_eq_some]
  exact hstep.loaded

/-- A movement booked under one compliance state leaves the counters of the
others alone. -/
theorem Booked.untouched {C' : Pubkey} (h : Booked X C' v L L') (hne : C' ≠ C) :
    Untouched C L L' where
  counters k M hM hauthority := by
    by_contra hchange
    obtain ⟨_, -, -, hauthority'⟩ := h.counter hM hchange
    exact hne (Option.some.inj (hauthority'.symm.trans hauthority))
  states _ _ hstate := h.state_eq hstate

/-! ## The effect of an instruction -/

inductive Effect (T : Pubkey) (i : Instruction) (L L' : Ledger) : Prop
  | booked (v : Movement) :
      Booked T (complianceAddress T) v L L' → (∀ k n, v = .minted k n → i.Issues T n) →
        Effect T i L L'
  | lost (k : Pubkey) (n : ℕ) :
      (Movement.burned k n).Applies T L L' → Untouched (complianceAddress T) L L' → i.Loses T →
        Effect T i L L'
  | misburned (X k : Pubkey) (n : ℕ) :
      X ≠ T → Booked X (complianceAddress T) (.burned k n) L L' → i.Misburns T → Effect T i L L'
  | mismoved (X s d : Pubkey) (n : ℕ) :
      X ≠ T → Booked X (complianceAddress T) (.moved s d n) L L' → i.Mismoves T L →
        Effect T i L L'
  | outside :
      balance L' T = balance L T → supply L' T = supply L T →
        Untouched (complianceAddress T) L L' → Effect T i L L'

theorem Effect.of_others (h : OnlyBooksOf X L L') (hX : X ≠ T)
    (huntouched : Untouched (complianceAddress T) L L') : Effect T i L L' := by
  obtain ⟨hbalance, hsupply⟩ := h T hX.symm
  exact .outside hbalance hsupply huntouched

theorem Effect.of_unbooked (h : Unbooked X v L L') (hX : X ≠ T) : Effect T i L L' :=
  .of_others h.others hX (.of_frame h.frame (by decide) (by decide))

theorem Effect.of_around (h : Frame aroundKinds L L') : Effect T i L L' := by
  have hbooks := SameBooks.around h
  exact .outside (congrFun hbooks.balance T) (congrFun hbooks.supply T)
    (.of_frame h (by decide) (by decide))

section Controller

variable [Borsh]

/-- An issue of `T` is booked under the compliance state of `T`. -/
theorem Token.Issue.booked_home {ts : TokenState} {accts : Token.ReceiverAccounts}
    {amount country : ℕ} {d : TokenAccount}
    (h : Token.Issue L L' ts accts amount country d L₁ L₂) (hT : Anchored T L)
    (hstate : L.accounts (complianceAddress T) = account state) (hts : ts.tokenMint = T) :
    Booked T (complianceAddress T) (.minted accts.destinationTokenAccount amount) L L' := by
  obtain ⟨hkey, -⟩ := Token.evaluateCompliance_ok h.complies
  have hstateAt : L.accounts (Token.tokenStateAddress T) = account ts := hts ▸ h.tokenStateAt
  have haccts : accts.complianceState = complianceAddress T :=
    hkey.symm.trans (hT.compliance hstateAt).2
  obtain ⟨-, -, hprogram⟩ := h.compliance (haccts ▸ hstate)
  rcases h.moves with ⟨-, hbooked⟩ | ⟨hforeign, -⟩
  · rwa [hts, haccts] at hbooked
  · exact absurd hprogram hforeign

/-- An issue of another token is not booked under the compliance state of `T`. -/
theorem Token.Issue.aside {ts : TokenState} {accts : Token.ReceiverAccounts}
    {amount country : ℕ} {d : TokenAccount}
    (h : Token.Issue L L' ts accts amount country d L₁ L₂)
    (hstate : L.accounts (complianceAddress T) = account state) (hhome : state.tokenMint = T)
    (hts : ts.tokenMint ≠ T) : Untouched (complianceAddress T) L L' := by
  obtain ⟨-, hmint⟩ := Token.evaluateCompliance_ok h.complies
  rcases h.moves with ⟨-, hbooked⟩ | ⟨-, hunbooked⟩
  · have hne : accts.complianceState ≠ complianceAddress T := by
      intro haccts
      exact hts ((hmint state (haccts ▸ hstate)).symm.trans hhome)
    exact hbooked.untouched hne
  · exact .of_frame hunbooked.frame (by decide) (by decide)

theorem Token.Issue.effect {ts : TokenState} {accts : Token.ReceiverAccounts}
    {amount country : ℕ} {d : TokenAccount}
    (h : Token.Issue L L' ts accts amount country d L₁ L₂) (hT : Anchored T L)
    (hstate : L.accounts (complianceAddress T) = account state) (hhome : state.tokenMint = T)
    (hi : accts.tokenMintAccount = T → i.Issues T amount) : Effect T i L L' := by
  by_cases hts : ts.tokenMint = T
  · have hissues : i.Issues T amount := hi (h.mintKey.trans hts)
    refine .booked _ (h.booked_home hT hstate hts) fun k n hv ↦ ?_
    cases hv
    exact hissues
  · have haside := h.aside hstate hhome hts
    exact .of_others h.moves.others hts haside

omit [Borsh] in
/-- A burn given another compliance state is not booked under that of `T`. -/
theorem Token.Redemption.aside {ts : TokenState} {accts : Token.BurnAccounts}
    {amount country : ℕ} {s : TokenAccount}
    (h : Token.Redemption L L' ts accts amount country s L₁)
    (haccts : accts.complianceState ≠ complianceAddress T) :
    Untouched (complianceAddress T) L L' := by
  rcases h.moves with ⟨-, hbooked⟩ | ⟨-, hunbooked⟩
  · exact hbooked.untouched haccts
  · exact .of_frame hunbooked.frame (by decide) (by decide)

omit [Borsh] in
/-- A burn given the compliance state of `T` is booked under it. -/
theorem Token.Redemption.booked_home {ts : TokenState} {accts : Token.BurnAccounts}
    {amount country : ℕ} {s : TokenAccount}
    (h : Token.Redemption L L' ts accts amount country s L₁)
    (hstate : L.accounts (complianceAddress T) = account state)
    (haccts : accts.complianceState = complianceAddress T) :
    Booked ts.tokenMint (complianceAddress T) (.burned accts.sourceTokenAccount amount) L L' := by
  have hprogram := h.program (haccts ▸ hstate)
  rcases h.moves with ⟨-, hbooked⟩ | ⟨hforeign, -⟩
  · rwa [haccts] at hbooked
  · exact absurd hprogram hforeign

omit [Borsh] in
theorem Token.Redemption.effect {ts : TokenState} {accts : Token.BurnAccounts}
    {amount country : ℕ} {s : TokenAccount}
    (h : Token.Redemption L L' ts accts amount country s L₁)
    (hstate : L.accounts (complianceAddress T) = account state)
    (hlost : ts.tokenMint = T → accts.complianceState ≠ complianceAddress T → i.Loses T)
    (hmisburned : ts.tokenMint ≠ T → accts.complianceState = complianceAddress T →
      i.Misburns T) : Effect T i L L' := by
  by_cases haccts : accts.complianceState = complianceAddress T
  · have hbooked := h.booked_home hstate haccts
    by_cases hts : ts.tokenMint = T
    · rw [hts] at hbooked
      exact .booked _ hbooked fun k n hv ↦ nomatch hv
    · exact .misburned _ _ _ hts hbooked (hmisburned hts haccts)
  · have haside := h.aside haccts
    by_cases hts : ts.tokenMint = T
    · exact .lost _ _ (hts ▸ h.moves.applies) haside (hlost hts haccts)
    · exact .of_others h.moves.others hts haside

omit [Borsh] in
/-- A transfer of a token with another compliance state is not booked under that
of `T`. -/
theorem Transferred.aside (h : Transferred X v L L') (hL : TokenStatesDerived L)
    (hX : ¬ PointsTo (Token.tokenStateAddress X) (complianceAddress T) L) :
    Untouched (complianceAddress T) L L' := by
  cases h with
  | same h => exact .of_frame h (by decide) (by decide)
  | hooked m k ts _ _ _ hts hmint h =>
      have hk := hL k ts hts
      rw [hmint] at hk
      exact h.untouched fun hcompliance ↦ hX ⟨ts, hk ▸ hts, hcompliance⟩
  | unhooked m _ _ h => exact .of_frame h.frame (by decide) (by decide)

omit [Borsh] in
theorem Transferred.effect {s d : Pubkey} {n : ℕ} (h : Transferred X (.moved s d n) L L')
    (hT : Anchored T L)
    (hmismoved : X ≠ T → PointsTo (Token.tokenStateAddress X) (complianceAddress T) L →
      i.Mismoves T L) : Effect T i L L' := by
  by_cases hX : X = T
  · subst hX
    rcases hT.transferred h with hframe | hbooked
    · exact .of_around hframe
    · exact .booked _ hbooked fun k n hv ↦ nomatch hv
  · cases h with
    | same h => exact .of_around h
    | hooked m k ts _ _ _ hts hmint h =>
        have hk := hT.wellFormed.tokenStates k ts hts
        rw [hmint] at hk
        subst hk
        by_cases hcompliance : ts.compliance = complianceAddress T
        · have hpoints : PointsTo (Token.tokenStateAddress X) (complianceAddress T) L :=
            ⟨ts, hts, hcompliance⟩
          rw [hcompliance] at h
          exact .mismoved _ _ _ _ hX h (hmismoved hX hpoints)
        · exact .of_others h.others hX (h.untouched hcompliance)
    | unhooked m _ _ h => exact .of_unbooked h hX

/-- A forced transfer of another token is not booked under the compliance state
of `T`: its evaluation has compared the mints. -/
theorem Token.not_pointsTo_of_complies {ts : TokenState} {complianceState wallet : Pubkey}
    {remaining : List Pubkey} {amount toBalance fromCountry toCountry : ℕ} {u : Unit}
    (hts : L.accounts (Token.tokenStateAddress ts.tokenMint) = account ts)
    (hcomplies : Token.evaluateCompliance L ts complianceState remaining wallet amount toBalance
      fromCountry toCountry = .ok u)
    (hstate : L.accounts (complianceAddress T) = account state) (hhome : state.tokenMint = T)
    (hX : ts.tokenMint ≠ T) :
    ¬ PointsTo (Token.tokenStateAddress ts.tokenMint) (complianceAddress T) L := by
  rintro ⟨ts', hts', hcompliance⟩
  obtain rfl := account_inj.1 (hts.symm.trans hts')
  obtain ⟨hkey, hmint⟩ := Token.evaluateCompliance_ok hcomplies
  have haccts : complianceAddress T = complianceState := hcompliance.symm.trans hkey
  exact hX ((hmint state (haccts ▸ hstate)).symm.trans hhome)

theorem TokenInstruction.effect {j : TokenInstruction} (h : j.process L signers = .ok L')
    (hmoves : Instruction.moves (.token j) = true) (hT : Anchored T L)
    (hstate : L.accounts (complianceAddress T) = account state) (hhome : state.tokenMint = T) :
    Effect T (.token j) L L' := by
  cases j with
  | mint operator accts =>
      obtain ⟨_, _, _, _, _, hissue⟩ := Token.mint_ok h
      exact hissue.effect hT hstate hhome fun hmint ↦ ⟨hmint, rfl⟩
  | purchaseMint purchase accts =>
      obtain ⟨_, _, _, _, _, hissue⟩ := Token.purchaseMint_ok h
      exact hissue.effect hT hstate hhome fun hmint ↦ ⟨hmint, rfl⟩
  | settleSubscriptionMint operator settle accts =>
      obtain ⟨_, _, _, _, _, _, hissue⟩ := Token.settleSubscriptionMint_ok h
      exact hissue.effect hT hstate hhome fun hmint ↦ hmint
  | burn operator accts =>
      obtain ⟨ts, _, _, _, -, hoperator, hredeemed⟩ := Token.burn_ok h
      refine hredeemed.effect hstate (fun hts hne ↦ ⟨hts ▸ hoperator, hne⟩)
        (fun hts haccts ↦ ⟨fun heq ↦ hts ?_, haccts⟩)
      exact tokenStateAddress_inj.1 (hoperator.symm.trans heq)
  | forcedTransfer operator fromPartialFreeze accts =>
      obtain ⟨ts, _, _, _, _, htransfer, _, _, hcomplies⟩ := Token.forcedTransfer_ok h
      refine htransfer.moves.effect hT fun hX hpoints ↦ absurd hpoints ?_
      exact Token.not_pointsTo_of_complies htransfer.tokenStateAt hcomplies hstate hhome hX
  | recovery operator irsProgram accts =>
      obtain ⟨ts, _, _, _, htransfer⟩ := Token.recovery_ok h
      refine htransfer.moves.effect hT fun hX hpoints ↦ ?_
      rw [← htransfer.mintKey] at hX hpoints
      exact ⟨hX, hpoints⟩
  | _ => exact nomatch hmoves

end Controller

/-! ## Token-2022 and the factory -/

/-- The token state of `T` does not sign a transaction, and so nobody mints `T`
without the controller. -/
theorem Anchored.not_mintTo {destination authority : Pubkey} {amount : ℕ} {decimals : Option ℕ}
    (hT : Anchored T L) (hexternal : ∀ k ∈ signers, k.External) :
    Token2022.mintTo L signers T destination authority amount decimals ≠ .ok L' := by
  intro h
  obtain ⟨m₀, hm₀, hauthority₀, -, -⟩ := hT.control.mint
  obtain ⟨_, m, -, hm, -, hauthority, hsigned, -⟩ := Token2022.mintTo_ok h
  obtain rfl := account_inj.1 (hm₀.symm.trans hm)
  have hkey := Option.some.inj (hauthority.symm.trans hauthority₀)
  rw [hkey] at hsigned
  exact not_external_tokenStateAddress (hexternal _ hsigned)

/-- The accounts of `T` have the flag that a transfer without its mint refuses. -/
theorem Anchored.unhooked {source destination authority : Pubkey} {amount : ℕ}
    (hT : Anchored T L)
    (h : Token2022.transfer L signers source destination authority amount = .ok L') :
    L' = L ∨ Frame [.tokenAccount] L L' ∧ balance L' T = balance L T := by
  rcases Token2022.transfer_ok h with ⟨-, rfl⟩ |
    ⟨a, a', b, hne, ha, hb, hmint, hflag, -, hdebit, rfl⟩
  · exact .inl rfl
  · have hX : T ≠ a.mint := by
      rintro rfl
      have hcarried := hT.control.accounts source a ha rfl
      simp [hflag] at hcarried
    refine .inr ⟨Token2022.frame_put_pair hne ha hb, ?_⟩
    rw [Token2022.balance_unhooked ha hb rfl hmint.symm hdebit]
    simp [hX]

theorem Token2022.effect {j : Token2022.Instruction}
    (h : Token2022.process L signers j = .ok L') (hexternal : ∀ k ∈ signers, k.External)
    (hT : Anchored T L) : Effect T (.token2022 j) L L' := by
  cases hj : j.moves with
  | false =>
      have hquiet := Token2022.process_quiet h hj
      obtain ⟨hbalance, hsupply⟩ := hquiet.books T
      exact .outside hbalance hsupply (.of_frame hquiet.frame (by decide) (by decide))
  | true =>
      cases j with
      | mintTo mint destination authority amount decimals =>
          by_cases hmint : mint = T
          · subst hmint
            exact absurd h (hT.not_mintTo hexternal)
          · exact .of_others (mintTo_applies h).2 hmint
              (.of_frame (Token2022.frame_mintTo h) (by decide) (by decide))
      | burn source mint authority amount decimals =>
          have huntouched : Untouched (complianceAddress T) L L' :=
            .of_frame (Token2022.frame_burn h) (by decide) (by decide)
          by_cases hmint : mint = T
          · subst hmint
            exact .lost source amount (burn_applies h).1 huntouched rfl
          · exact .of_others (burn_applies h).2 hmint huntouched
      | transferChecked source mint destination authority additional amount decimals =>
          exact (transferChecked_moves h).effect hT fun hX hpoints ↦ ⟨hX, hpoints⟩
      | transfer source destination authority amount =>
          rcases hT.unhooked h with rfl | ⟨hframe, hbalance⟩
          · exact .of_around (.refl _ _)
          · exact .outside hbalance (congrFun (supply_frame hframe (by decide)) T)
              (.of_frame hframe (by decide) (by decide))
      | _ => exact nomatch hj

theorem createTokenMint_effect {accts : Factory.CreateTokenMint} {decimals : ℕ}
    (h : Factory.createTokenMint L signers accts decimals = .ok L') (hT : Anchored T L) :
    Effect T i L L' := by
  have hframe := Factory.frame_createTokenMint h
  obtain ⟨hvacant, -, hother⟩ := Factory.createTokenMint_ok h
  obtain ⟨m, hm, -⟩ := hT.control.mint
  have hne : T ≠ accts.tokenMintAccount := by
    rintro rfl
    exact account_ne_vacant m (hm.symm.trans hvacant)
  have hsupply : supply L' T = supply L T := by
    rw [supply_of_account ((hother T hne).trans hm), supply_of_account hm]
  exact .outside (congrFun (balance_frame hframe (by decide)) T) hsupply
    (.of_frame hframe (by decide) (by decide))

/-! ## Every instruction that moves tokens -/

theorem process_effect [Borsh] (h : process L signers i = .ok L')
    (hexternal : ∀ k ∈ signers, k.External) (hmoves : i.core.moves = true) (hT : Anchored T L)
    (hstate : L.accounts (complianceAddress T) = account state) (hhome : state.tokenMint = T) :
    Effect T i.core L L' := by
  induction i with
  | token j => exact TokenInstruction.effect h hmoves hT hstate hhome
  | token2022 j => exact Token2022.effect h hexternal hT
  | createTokenMint => exact createTokenMint_effect h hT
  | callModuleFunction owner complianceState inner ih =>
      obtain ⟨_, -, hinner⟩ := bind_eq_ok.1 h
      exact ih hinner hmoves
  | _ => exact nomatch hmoves

end Fracks
