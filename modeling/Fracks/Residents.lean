import Fracks.Binding
import Fracks.CountryMoves
import Fracks.Postings
import Fracks.Residences

/-!
# Residents and their counts

The country cap is to count, for every country, the accounts with tokens whose owner is there.  An
issue, a redemption and a transfer shift its counts by the countries that they report, and the
residents by the countries of the registry; the two agree where the reports are true and no exit
is lost.
-/

namespace Fracks

open Checked AccountType Ledger Tally Compliance HookedModule TokenHook Irp Runs

variable {L L' L₁ L₂ : Ledger} {T M irs k source destination authority : Pubkey}
  {signers : List Pubkey} {S : List AccountKind} {n country fromCountry toCountry : ℕ}
  {a : TransferApproval}

/-! ## What the post-hooks do to the counts -/

section Posted

variable {state : ComplianceState} {m : InvestorCountryCapModule}

theorem Token.Issue.counts [Borsh] {ts : TokenState} {accts : Token.ReceiverAccounts}
    {amount country : ℕ} {d : TokenAccount}
    (h : Token.Issue L L' ts accts amount country d L₁ L₂) (hT : Anchored T L)
    (hb : BoundAt T M L state) (hactive : state.modulesPaused = false) (hts : ts.tokenMint = T)
    (hM : L.accounts M = account m) (c : ℕ) :
    countsOf L' M c = countsOf L M c +
      (if c = country ∧ receiverEnters amount (balance L T accts.destinationTokenAccount + amount)
        then 1 else 0) := by
  obtain ⟨hkey, -⟩ := Token.evaluateCompliance_ok h.complies
  have hstateAt : L.accounts (Token.tokenStateAddress T) = account ts := hts ▸ h.tokenStateAt
  have haccts : accts.complianceState = complianceAddress T :=
    hkey.symm.trans (hT.compliance hstateAt).2
  obtain ⟨-, -, hprogram⟩ := h.compliance (haccts ▸ hb.loaded)
  obtain ⟨_, hminted⟩ := h.minted
  obtain ⟨-, ⟨-, hcreated⟩ | ⟨hforeign, -⟩⟩ := invokeCompliance_ok h.booked
  · rw [haccts] at hcreated
    have hcounts := created_counts hcreated (h.paid.accounts_eq (by decide) hb.loaded) hactive
      hb.nodup hb.bound (h.paid.accounts_eq (by decide) hM) c
    have hbalance : balance L T accts.destinationTokenAccount = d.amount := by
      rw [balance_of_account h.destinationAt, if_pos (h.destinationMint.trans hts)]
    rw [countsOf_of_frame (Token2022.frame_mintTo hminted) (by decide), hcounts,
      countsOf_of_frame h.paid (by decide), hbalance]
  · exact absurd hprogram hforeign

/-- A burn under the compliance state of `T` is counted, whatever it burns. -/
theorem Token.Redemption.counts {ts : TokenState} {accts : Token.BurnAccounts}
    {amount country : ℕ} {s : TokenAccount}
    (h : Token.Redemption L L' ts accts amount country s L₁) (hb : BoundAt T M L state)
    (haccts : accts.complianceState = complianceAddress T) (hM : L.accounts M = account m)
    (c : ℕ) :
    countsOf L' M c + (if c = country ∧ senderExits amount (s.amount - amount) then 1 else 0) =
      countsOf L M c := by
  have hprogram := h.program (haccts ▸ hb.loaded)
  obtain ⟨_, hburned⟩ := h.burned
  obtain ⟨-, ⟨-, hdestroyed⟩ | ⟨hforeign, -⟩⟩ := invokeCompliance_ok h.booked
  · rw [haccts] at hdestroyed
    have hcounts := destroyed_counts hdestroyed hb.loaded hb.nodup hb.bound hM c
    rw [countsOf_of_frame (Token2022.frame_burn hburned) (by decide), hcounts]
  · exact absurd hprogram hforeign

/-- The counts move as the approval says, unless a holder leaves a country inside which nobody
enters. -/
theorem Uses.counts (h : Uses T L L' source destination authority n k a) (hb : BoundAt T M L state)
    (hM : L.accounts M = account m)
    (hpaired : a.fromCountry = a.toCountry → senderExits n (balance L T source - n) →
      receiverEnters n (balance L T destination + n)) :
    CountsMove (senderExits n (balance L T source - n))
      (receiverEnters n (balance L T destination + n)) a.fromCountry a.toCountry (countsOf L M)
      (countsOf L' M) := by
  obtain ⟨L₁, L₂, remaining, hbefore, -, htransferred, hafter⟩ := h.posted
  have hcounts := transferred_counts htransferred (hbefore.accounts_eq (by decide) hb.loaded)
    hb.nodup hb.bound (hbefore.accounts_eq (by decide) hM)
  rw [countsOf_of_frame hbefore (by decide), ← countsOf_of_frame hafter (by decide)] at hcounts
  refine (countsMove_iff hcounts).2 fun hlost ↦ ?_
  exact hlost.2.2 (hpaired hlost.1 hlost.2.1)

end Posted

/-! ## The counts and the residents -/

/-- The counts at `M` are those of the residents. -/
structure ResidentsCounted (T M irs : Pubkey) (L : Ledger) : Prop where
  finite : Tally.Finite (balance L T)
  counted : ∀ country, countsOf L M country = (residents T irs L country).ncard

/-- A token with a country cap that counts the holders in every country. -/
structure CountriesCounted (T M irs : Pubkey) (L : Ledger) : Prop where
  anchored : Anchored T L
  bound : ∃ state, BoundAt T M L state ∧ state.modulesPaused = false
  module : ∃ m : InvestorCountryCapModule, L.accounts M = account m ∧ Served T M m
  linked : Linked T irs L
  tracked : ResidentsCounted T M irs L

theorem resides_iff {P : Prop} (h : P → residence L irs k = some fromCountry) :
    residence L irs k = some country ∧ P ↔ country = fromCountry ∧ P := by
  constructor
  · rintro ⟨hcountry, hP⟩
    exact ⟨Option.some.inj (hcountry.symm.trans (h hP)), hP⟩
  · rintro ⟨rfl, hP⟩
    exact ⟨h hP, hP⟩

theorem ResidentsCounted.kept (hL : ResidentsCounted T M irs L)
    (hkept : ResidencesKept T irs L L') (hbalance : balance L' T = balance L T)
    (hcounts : countsOf L' M = countsOf L M) : ResidentsCounted T M irs L' where
  finite := hbalance ▸ hL.finite
  counted country := by
    rw [ncard_residents hkept, hbalance, hcounts, hL.counted, ncard_residents .refl]

theorem ResidentsCounted.credited (hL : ResidentsCounted T M irs L)
    (hkept : ResidencesKept T irs L L') (hbalance : balance L' T = credit (balance L T) k n)
    (henters : receiverEnters n (balance L T k + n) → residence L irs k = some toCountry)
    (hcounts : ∀ country, countsOf L' M country = countsOf L M country +
      (if country = toCountry ∧ receiverEnters n (balance L T k + n) then 1 else 0)) :
    ResidentsCounted T M irs L' where
  finite := hbalance ▸ hL.finite.credit k n
  counted country := by
    rw [ncard_residents hkept, hbalance, positives_among_credit hL.finite, hcounts, hL.counted,
      ncard_residents .refl]
    exact congrArg _ (if_congr (resides_iff henters).symm rfl rfl)

theorem ResidentsCounted.debited (hL : ResidentsCounted T M irs L)
    (hkept : ResidencesKept T irs L L') (hheld : n ≤ balance L T k)
    (hbalance : balance L' T = debit (balance L T) k n)
    (hleaves : senderExits n (balance L T k - n) → residence L irs k = some fromCountry)
    (hcounts : ∀ country, countsOf L' M country +
      (if country = fromCountry ∧ senderExits n (balance L T k - n) then 1 else 0) =
        countsOf L M country) : ResidentsCounted T M irs L' where
  finite := hbalance ▸ hL.finite.debit k n
  counted country := by
    have hpositives := positives_among_debit
      (p := fun k ↦ residence L irs k = some country) hL.finite hheld
    have hcount := hcounts country
    rw [hL.counted, ncard_residents .refl, ← hpositives,
      if_congr (resides_iff hleaves) rfl rfl] at hcount
    rw [ncard_residents hkept, hbalance]
    exact Nat.add_right_cancel hcount

/-- A move is counted: who leaves or enters is where the move says, and nobody leaves a country
inside which nobody enters. -/
structure MoveCounted (T irs : Pubkey) (L : Ledger) (source destination : Pubkey)
    (n fromCountry toCountry : ℕ) : Prop where
  leaves : senderExits n (balance L T source - n) → residence L irs source = some fromCountry
  enters : receiverEnters n (balance L T destination + n) →
    residence L irs destination = some toCountry
  paired : fromCountry = toCountry → senderExits n (balance L T source - n) →
    receiverEnters n (balance L T destination + n)

theorem ResidentsCounted.moved (hL : ResidentsCounted T M irs L)
    (hkept : ResidencesKept T irs L L') (hne : destination ≠ source)
    (hheld : n ≤ balance L T source)
    (hbalance : balance L' T = credit (debit (balance L T) source n) destination n)
    (hmove : MoveCounted T irs L source destination n fromCountry toCountry)
    (hcounts : CountsMove (senderExits n (balance L T source - n))
      (receiverEnters n (balance L T destination + n)) fromCountry toCountry (countsOf L M)
      (countsOf L' M)) : ResidentsCounted T M irs L' where
  finite := hbalance ▸ (hL.finite.debit source n).credit destination n
  counted country := by
    have hpositives := positives_among_move
      (p := fun k ↦ residence L irs k = some country) hL.finite hne hheld
    have hcount := hcounts country
    rw [hL.counted, ncard_residents .refl, ← if_congr (resides_iff hmove.leaves) rfl rfl,
      ← if_congr (resides_iff hmove.enters) rfl rfl] at hcount
    rw [ncard_residents hkept, hbalance]
    exact Nat.add_right_cancel (hcount.trans hpositives.symm)

/-- A transfer that uses an approval moves the residents with the counts. -/
theorem ResidentsCounted.used {state : ComplianceState} {m : InvestorCountryCapModule}
    (hL : ResidentsCounted T M irs L) (hkept : ResidencesKept T irs L L')
    (huses : Uses T L L' source destination authority n k a) (hb : BoundAt T M L state)
    (hM : L.accounts M = account m)
    (hmove : MoveCounted T irs L source destination n a.fromCountry a.toCountry) :
    ResidentsCounted T M irs L' := by
  obtain ⟨hne, hheld, hbalance, -⟩ := huses.booked.applies
  exact hL.moved hkept hne hheld hbalance hmove (huses.counts hb hM hmove.paired)

/-! ## The operations -/

/-- An exit out of the country of the receiver comes with the entry of the receiver. -/
def ExitPaired (T irs : Pubkey) (L : Ledger) (source destination : Pubkey) (n : ℕ) : Prop :=
  residence L irs source = residence L irs destination →
    senderExits n (balance L T source - n) → receiverEnters n (balance L T destination + n)

/-- Issues, redemptions and transfers of tokens, the finalization of a recovery and the change of
a country; anyone may open the record of a country before. -/
def Platform.Instruction.MovesResidents : Platform.Instruction → Prop
  | .core (.token (.mint ..)) | .core (.token (.purchaseMint ..))
  | .core (.token (.settleSubscriptionMint ..)) | .core (.token (.burn ..))
  | .core (.token (.transfer ..)) | .core (.token2022 (.transferChecked ..))
  | .core (.token (.forcedTransfer ..)) | .core (.token (.recovery ..))
  | .core (.token (.finalizeRecovery ..)) | .core (.module (.initializeCountryCount ..))
  | .irs (.updateCountry ..) => True
  | _ => False

/-- The condition on an operation in the state before it.  A burn that empties an account is booked
under the compliance state of its mint, with the country that the registry has; an approval is used
while its countries are those of the parties that leave and enter; nobody leaves a country inside
which nobody enters; and the countries of holders stay. -/
def FollowsResidences (T irs : Pubkey) (L : Ledger) : Platform.Instruction → Prop
  | .core (.token (.burn operator accts wallet amount fromAfter)) =>
      senderExits amount fromAfter →
        (operator.tokenState = Token.tokenStateAddress T ↔
          accts.complianceState = complianceAddress T) ∧
        (operator.tokenState = Token.tokenStateAddress T →
          registeredIn L accts.irsState wallet = registeredIn L irs wallet)
  | .core (.token (.forcedTransfer _ _ accts _ _ amount _ _)) =>
      ExitPaired T irs L accts.sourceTokenAccount accts.destinationTokenAccount amount
  | .core (.token (.recovery operator irsProgram accts lostWallet newWallet amount)) =>
      ¬ Instruction.Mismoves T L (.token (.recovery operator irsProgram accts lostWallet newWallet
          amount)) ∧
        ExitPaired T irs L accts.sourceTokenAccount accts.destinationTokenAccount amount
  | .core (.token2022 (.transferChecked source mint destination authority additional n decimals)) =>
      ¬ Instruction.Mismoves T L (.token2022 (.transferChecked source mint destination authority
          additional n decimals)) ∧
        (mint = T → ∀ a, PendingAt T L (approvalAddress source destination authority) a →
          MoveCounted T irs L source destination n a.fromCountry a.toCountry)
  | .core (.token (.finalizeRecovery _ accts _ _ _)) =>
      (∀ lost : WalletIdentity, L.accounts accts.lostWalletIdentity = account lost →
        MayBecome T irs accts.newWalletIdentity L (some lost.country)) ∧
          MayBecome T irs accts.lostWalletIdentity L none
  | .irs (.updateCountry accts newCountry) =>
      MayBecome T irs accts.walletIdentity L (some newCountry)
  | _ => True

theorem ResidentsCounted.of_frame (hL : ResidentsCounted T M irs L) (h : Frame S L L')
    (htokens : AccountKind.tokenAccount ∉ S) (hidentities : AccountKind.walletIdentity ∉ S)
    (hcounts : AccountKind.countryInvestorCount ∉ S) : ResidentsCounted T M irs L' :=
  hL.kept (.of_frame h htokens hidentities) (congrFun (balance_frame h htokens) T)
    (countsOf_of_frame h hcounts)

/-! ## Tokens that move -/

section Moving

variable [Borsh] {ts : TokenState} {amount country : ℕ} {s d : TokenAccount}

/-- The records of counts after a step were there before or are new and at zero. -/
def CountsOpened (M : Pubkey) (L L' : Ledger) : Prop :=
  ∀ k, (L'.accounts k).counterModule k = some M → KnownOrOpened L L' k M

omit [Borsh] in
theorem CountriesCounted.countsOf_untouched (hL : CountriesCounted T M irs L)
    (hopened : CountsOpened M L L') (huntouched : Untouched (complianceAddress T) L L') :
    countsOf L' M = countsOf L M := by
  obtain ⟨m, hm, hserved⟩ := hL.module
  refine countsOf_of_untouched hopened fun k hk ↦ ?_
  exact huntouched.counters k M hk (hm ▸ congrArg some hserved.1)

omit [Borsh] in
theorem CountriesCounted.aside (hL : CountriesCounted T M irs L)
    (hkept : ResidencesKept T irs L L') (hopened : CountsOpened M L L')
    (hbalance : balance L' T = balance L T)
    (huntouched : Untouched (complianceAddress T) L L') : ResidentsCounted T M irs L' :=
  hL.tracked.kept hkept hbalance (hL.countsOf_untouched hopened huntouched)

theorem Token.Issue.residentsCounted {accts : Token.ReceiverAccounts}
    (h : Token.Issue L L' ts accts amount country d L₁ L₂) (hL : CountriesCounted T M irs L)
    (hown : OnlyIdentities L) (hkept : ResidencesKept T irs L L')
    (hopened : CountsOpened M L L') : ResidentsCounted T M irs L' := by
  obtain ⟨state, hb, hactive⟩ := hL.bound
  by_cases hts : ts.tokenMint = T
  · obtain ⟨m, hm, -⟩ := hL.module
    obtain ⟨identity, hverified, rfl⟩ := h.receiver
    obtain ⟨-, hcountry⟩ := hL.linked.verified hown (hts ▸ h.tokenStateAt) hverified
    have hresides := (residence_of_account h.destinationAt).trans hcountry
    have hbooked := h.booked_home hL.anchored hb.loaded hts
    exact hL.tracked.credited hkept hbooked.applies.1 (fun _ ↦ hresides)
      (h.counts hL.anchored hb hactive hts hm)
  · have hbalance := (h.moves.others T (Ne.symm hts)).1
    exact hL.aside hkept hopened hbalance (h.aside hb.loaded hb.home hts)

theorem Token.burn_residentsCounted {operator : Token.OperatorAccounts}
    {accts : Token.BurnAccounts} {wallet : Pubkey} {fromAfter : ℕ}
    (h : Token.burn L signers operator accts wallet amount fromAfter = .ok L')
    (hL : CountriesCounted T M irs L) (hown : OnlyIdentities L)
    (hkept : ResidencesKept T irs L L') (hopened : CountsOpened M L L')
    (hfollows : FollowsResidences T irs L (.core (.token (.burn operator accts wallet amount
      fromAfter)))) : ResidentsCounted T M irs L' := by
  obtain ⟨state, hb, -⟩ := hL.bound
  obtain ⟨m, hm, -⟩ := hL.module
  obtain ⟨ts, country, s, L₁, ⟨-, hoperator, hredeemed⟩, howner, rfl, sender, hsender, rfl⟩ :=
    Token.burn_parts h
  have hhome (hexits : senderExits amount (s.amount - amount)) :
      ts.tokenMint = T ↔ accts.complianceState = complianceAddress T := by
    rw [← tokenStateAddress_inj, ← hoperator]
    exact (hfollows hexits).1
  by_cases hts : ts.tokenMint = T
  · have hbalance : balance L T accts.sourceTokenAccount = s.amount := by
      rw [balance_of_account hredeemed.sourceAt, if_pos (hredeemed.sourceMint.trans hts)]
    have hresides (hexits : senderExits amount (s.amount - amount)) :
        residence L irs accts.sourceTokenAccount = some sender.country := by
      have hstorage := (hfollows hexits).2 (hts ▸ hoperator)
      rw [residence_of_account hredeemed.sourceAt, howner, ← hstorage]
      exact registeredIn_of_found hown (Token.requireWalletIdentity_found hsender)
    have happlies : (Movement.burned accts.sourceTokenAccount amount).Applies T L L' :=
      hts ▸ hredeemed.moves.applies
    obtain ⟨hheld, -, hdebit, -⟩ := happlies
    refine hL.tracked.debited hkept hheld hdebit (hbalance ▸ hresides) fun c ↦ ?_
    rw [hbalance]
    by_cases haccts : accts.complianceState = complianceAddress T
    · exact hredeemed.counts hb haccts hm c
    · have hcounts := hL.countsOf_untouched hopened (hredeemed.aside haccts)
      rw [if_neg fun hexits ↦ haccts ((hhome hexits.2).1 hts), hcounts, Nat.add_zero]
  · have hbalance := (hredeemed.moves.others T (Ne.symm hts)).1
    refine hL.tracked.kept hkept hbalance ?_
    by_cases haccts : accts.complianceState = complianceAddress T
    · funext c
      have hcount := hredeemed.counts hb haccts hm c
      rwa [if_neg fun hexits ↦ hts ((hhome hexits.2).2 haccts), Nat.add_zero] at hcount
    · exact hL.countsOf_untouched hopened (hredeemed.aside haccts)

omit [Borsh] in
/-- A transfer by the controller, with the countries that the registry has. -/
theorem Token.ControllerApproved.residentsCounted {operator : Token.OperatorAccounts}
    {accts : Token.ControllerTransferAccounts} {args : ApproveTransferArgs}
    (h : Token.ControllerApproved L L₁ L₂ signers operator accts ts s d args)
    (hreleased : Frame [.partialFreeze] L₂ L') (hL : CountriesCounted T M irs L)
    (hkept : ResidencesKept T irs L L') (hopened : CountsOpened M L L')
    (hfrom : ts.tokenMint = T → registeredIn L irs args.sourceWallet = some args.fromCountry)
    (hto : ts.tokenMint = T → registeredIn L irs args.destinationWallet = some args.toCountry)
    (hpaired : ExitPaired T irs L accts.sourceTokenAccount accts.destinationTokenAccount
      args.amount)
    (haside : ts.tokenMint ≠ T →
      ¬ PointsTo (Token.tokenStateAddress ts.tokenMint) (complianceAddress T) L) :
    ResidentsCounted T M irs L' := by
  obtain ⟨state, hb, -⟩ := hL.bound
  obtain ⟨m, hm, -⟩ := hL.module
  obtain ⟨_, _, htransfer⟩ := h.transfers
  have happrove : Frame [.transferApproval] L L₁ :=
    approveTransfer_frame h.approves (List.Subset.refl _)
  have htracked : ResidentsCounted T M irs L₁ :=
    hL.tracked.of_frame happrove (by decide) (by decide) (by decide)
  by_cases hts : ts.tokenMint = T
  · rcases h.uses hL.anchored hts with rfl | ⟨k, huses⟩
    · exact htracked.of_frame hreleased (by decide) (by decide) (by decide)
    · have hframe : ResidencesKept T irs L L₁ := .of_frame happrove (by decide) (by decide)
      have hbalance : balance L₁ T = balance L T := congrFun (balance_frame happrove (by decide)) T
      have hsource := (residence_of_account h.sourceAt).trans (h.sourceOwner ▸ hfrom hts)
      have hdestination :=
        (residence_of_account h.destinationAt).trans (h.destinationOwner ▸ hto hts)
      have hsame (k : Pubkey) : residence L₁ irs k = residence L irs k := by
        simp only [residence, registeredIn, happrove.view_eq (α := TokenAccount) (by decide),
          happrove.view_eq (α := WalletIdentity) (by decide)]
      have hmove : MoveCounted T irs L₁ accts.sourceTokenAccount accts.destinationTokenAccount
          args.amount args.fromCountry args.toCountry := by
        refine ⟨fun _ ↦ (hsame _).trans hsource, fun _ ↦ (hsame _).trans hdestination, ?_⟩
        intro hcountries
        rw [hbalance]
        exact hpaired (by rw [hsource, hdestination, hcountries])
      have hkept₁ : ResidencesKept T irs L₁ L₂ := .of_owners (Token2022.transferChecked_owners
        htransfer) (funext ((Token2022.frame_transferChecked htransfer).view_eq (by decide)))
      have hused := htracked.used hkept₁ huses (hb.of_frame happrove (by decide))
        (happrove.accounts_eq (by decide) hm) hmove
      exact hused.of_frame hreleased (by decide) (by decide) (by decide)
  · have hmoved := (transferChecked_moves htransfer).around
      (approveTransfer_frame h.approves (by decide)) (hreleased.mono (by decide))
    exact hL.aside hkept hopened (hmoved.others T (Ne.symm hts)).1
      (h.aside hL.anchored.wellFormed.tokenStates (haside hts) hreleased)

end Moving

end Fracks
