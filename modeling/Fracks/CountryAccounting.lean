import Fracks.Identity.Changes
import Fracks.Residents

/-!
# Country accounting

Over whole runs the counts of a country cap are the numbers of residents, when the reports of the
steps are true and nobody who holds tokens changes country otherwise.  What breaks this is an exit
inside one country, an approval that outlives a change of country, a burn that names other
accounts, and a country that is changed or an identity that is removed while its wallet holds
tokens.
-/

namespace Fracks

open Checked AccountType Ledger Tally Compliance HookedModule TokenHook Irp Runs

section Steps

variable [Borsh] {L L' : Ledger} {T M irs k : Pubkey} {signers : List Pubkey}
  {i : Instruction} {S : List AccountKind}

/-- What the operations of the core leave alone. -/
structure LeavesSettings (T M : Pubkey) (i : Instruction) : Prop where
  anchor : KeepsAnchor T i.core
  binding : KeepsBinding T M i.core
  running : ¬ i.core.Pauses T
  counters : CountersLeft T M i.core
  links : AccountKind.tokenState ∉ i.kinds ∧ AccountKind.identityRegistryState ∉ i.kinds

omit [Borsh] in
theorem leavesSettings (hi : Platform.Instruction.MovesResidents (.core i)) :
    LeavesSettings T M i := by
  cases i with
  | token j =>
      cases j with
      | mint | purchaseMint | settleSubscriptionMint | burn | transfer | forcedTransfer | recovery
      | finalizeRecovery =>
          exact ⟨trivial, trivial, not_false, trivial, by simp [Instruction.kinds,
            TokenInstruction.kinds, hookKinds, Irs.identityKinds]⟩
      | _ => exact hi.elim
  | token2022 j =>
      cases j with
      | transferChecked => exact ⟨trivial, trivial, not_false, trivial, by simp [Instruction.kinds,
          hookKinds]⟩
      | _ => exact hi.elim
  | module j =>
      cases j with
      | initializeCountryCount => exact ⟨trivial, trivial, not_false,
          (Option.some_ne_none M).symm, by simp [Instruction.kinds, ModuleInstruction.kinds]⟩
      | _ => exact hi.elim
  | _ => exact hi.elim

theorem process_residencesKept (h : process L signers i = .ok L') (hown : OnlyIdentities L)
    (hi : Platform.Instruction.MovesResidents (.core i))
    (hfollows : FollowsResidences T irs L (.core i)) : ResidencesKept T irs L L' := by
  have hkept (howners : OwnersKept L L') (hcore : ¬ i.Finalizes) : ResidencesKept T irs L L' :=
    .of_owners howners (funext ((frame_core_of_not_finalizes hcore h).view_eq (by decide)))
  cases i with
  | token j =>
      cases j with
      | finalizeRecovery operator accts lostWallet newWallet amount =>
          obtain ⟨_, lost, L₁, L₂, -, -, -, -, -, -, hlost, hcalls⟩ := Token.finalizeRecovery_ok h
          obtain ⟨-, hview, -⟩ :=
            findWalletIdentity_view hown (Token.requireWalletIdentity_found hlost)
          exact hcalls.residencesKept (hfollows.1 lost (view_eq_some.1 hview)) hfollows.2
      | _ =>
          exact hkept (TokenInstruction.owners h)
            (by simp [Instruction.Finalizes, Instruction.core])
  | token2022 j =>
      cases j with
      | transferChecked =>
          exact hkept (Token2022.transferChecked_owners h)
            (by simp [Instruction.Finalizes, Instruction.core])
      | _ => exact hi.elim
  | module j =>
      have howners : OwnersKept L L' := .of_frame (ModuleInstruction.frame h) (by
        cases j <;> simp [ModuleInstruction.kinds])
      exact hkept howners (by simp [Instruction.Finalizes, Instruction.core])
  | _ => exact hi.elim

/-- Operations that move nothing. -/
theorem process_residents_still (h : process L signers i = .ok L')
    (hstill : i.core.moves = false) (hleft : CountersLeft T M i.core)
    (hL : CountriesCounted T M irs L) (hkept : ResidencesKept T irs L L') :
    ResidentsCounted T M irs L' := by
  obtain ⟨m, hm, hserved⟩ := hL.module
  have hflags := hL.anchored.wellFormed.flags
  have hcounts : countsOf L' M = countsOf L M := by
    refine countsOf_of_untouched (fun k hk ↦ process_opened h hflags hk) fun k hk ↦ ?_
    exact process_countersLeft h hflags hstill hleft (hm ▸ congrArg some hserved.1)
      (fun s hs ↦ account_ne_of_kind (by decide) (hm.symm.trans hs)) hk
  exact hL.tracked.kept hkept (congrFun (process_books h hstill).balance T) hcounts

theorem process_residentsCounted (h : process L signers i = .ok L') (hown : OnlyIdentities L)
    (hi : Platform.Instruction.MovesResidents (.core i))
    (hfollows : FollowsResidences T irs L (.core i)) (hL : CountriesCounted T M irs L) :
    ResidentsCounted T M irs L' := by
  have hkept := process_residencesKept h hown hi hfollows
  have hopened : CountsOpened M L L' := fun k hk ↦
    process_opened h hL.anchored.wellFormed.flags hk
  have hleft : CountersLeft T M i.core := (leavesSettings hi).counters
  obtain ⟨state, hb, -⟩ := hL.bound
  cases i with
  | token j =>
      cases j with
      | mint =>
          obtain ⟨_, _, _, _, _, hissue⟩ := Token.mint_ok h
          exact hissue.residentsCounted hL hown hkept hopened
      | purchaseMint =>
          obtain ⟨_, _, _, _, _, hissue⟩ := Token.purchaseMint_ok h
          exact hissue.residentsCounted hL hown hkept hopened
      | settleSubscriptionMint =>
          obtain ⟨_, _, _, _, _, _, hissue⟩ := Token.settleSubscriptionMint_ok h
          exact hissue.residentsCounted hL hown hkept hopened
      | burn => exact Token.burn_residentsCounted h hL hown hkept hopened hfollows
      | forcedTransfer operator fromPartialFreeze accts source destination amount fromBalance
          toBalance =>
          obtain ⟨ts, s, d, _, _, L₁, L₂, happroved, ⟨sender, hsender, rfl⟩,
            ⟨receiver, hreceiver, rfl⟩, hcomplies, record, hrecord, record', -, rfl⟩ :=
            Token.forcedTransfer_approved h
          have hts' := happroved.tokenStateKey ▸ happroved.tokenStateAt
          refine happroved.residentsCounted (.put hrecord (by decide)) hL hkept hopened
            (fun hts ↦ ?_) (fun hts ↦ ?_) hfollows fun hts ↦ ?_
          · obtain ⟨hirs, -⟩ := hL.linked.verified hown (hts ▸ hts') hreceiver
            exact registeredIn_of_found hown (hirs ▸ Token.requireWalletIdentity_found hsender)
          · exact (hL.linked.verified hown (hts ▸ hts') hreceiver).2
          · exact Token.not_pointsTo_of_complies hts' hcomplies hb.loaded hb.home hts
      | recovery operator irsProgram accts lostWallet newWallet amount =>
          obtain ⟨ts, s, d, _, _, L₁, happroved, -, -, ⟨lost, hlost, rfl⟩,
            receiver, hreceiver, rfl⟩ := Token.recovery_approved h
          have hts' := happroved.tokenStateKey ▸ happroved.tokenStateAt
          refine happroved.residentsCounted (.refl _ _) hL hkept hopened
            (fun hts ↦ ?_) (fun hts ↦ ?_) hfollows.2 fun hts hpoints ↦ ?_
          · obtain ⟨hirs, -⟩ := hL.linked.verified hown (hts ▸ hts') hreceiver
            exact registeredIn_of_found hown (hirs ▸ Token.requireWalletIdentity_found hlost)
          · exact (hL.linked.verified hown (hts ▸ hts') hreceiver).2
          · rw [← happroved.mintKey] at hts hpoints
            exact hfollows.1 ⟨hts, hpoints⟩
      | transfer => exact process_residents_still h rfl hleft hL hkept
      | finalizeRecovery => exact process_residents_still h rfl hleft hL hkept
      | _ => exact hi.elim
  | token2022 j =>
      cases j with
      | transferChecked source mint destination authority additional n decimals =>
          obtain ⟨hmismoves, hcurrent⟩ := hfollows
          by_cases hmint : mint = T
          · subst hmint
            rcases hL.anchored.uses h with ⟨-, rfl⟩ | ⟨-, k, a, huses⟩
            · exact hL.tracked
            · obtain ⟨m, hm, -⟩ := hL.module
              have hpending := huses.key ▸ huses.pending
              exact hL.tracked.used hkept huses hb hm (hcurrent rfl a hpending)
          · have hmoved := transferChecked_moves h
            refine hL.aside hkept hopened (hmoved.others T (Ne.symm hmint)).1 ?_
            exact hmoved.aside hL.anchored.wellFormed.tokenStates fun hpoints ↦
              hmismoves ⟨hmint, hpoints⟩
      | _ => exact hi.elim
  | module j =>
      cases j with
      | initializeCountryCount => exact process_residents_still h rfl hleft hL hkept
      | _ => exact hi.elim
  | _ => exact hi.elim

theorem process_countriesCounted (h : process L signers i = .ok L')
    (hexternal : ∀ k ∈ signers, k.External) (hown : OnlyIdentities L)
    (hi : Platform.Instruction.MovesResidents (.core i))
    (hfollows : FollowsResidences T irs L (.core i)) (hL : CountriesCounted T M irs L) :
    CountriesCounted T M irs L' := by
  have hleaves : LeavesSettings T M i := leavesSettings hi
  obtain ⟨state, hbound, hrunning⟩ := hL.bound
  obtain ⟨state', hrebound⟩ := process_rebound h hleaves.binding hbound
  obtain ⟨m, hm, hserved⟩ := hL.module
  exact
    { anchored := process_anchored h hexternal hleaves.anchor hL.anchored
      bound := ⟨state', hrebound.bound, (hrebound.paused hleaves.running).trans hrunning⟩
      module := ⟨m, process_settings h (by simp [kind]) hleaves.counters hm, hserved⟩
      linked := hL.linked.of_frame (process_frame h) hleaves.links.1 hleaves.links.2
      tracked := process_residentsCounted h hown hi hfollows hL }

omit [Borsh] in
/-- Other programs and the identity storage leave everything else alone. -/
theorem CountriesCounted.outside (hL : CountriesCounted T M irs L) (h : Frame S L L')
    (hS : S ⊆ environmentKinds) (hregistry : AccountKind.identityRegistryState ∉ S)
    (hkept : ResidencesKept T irs L L') : CountriesCounted T M irs L' := by
  have henvironment := h.mono hS
  obtain ⟨state, hbound, hrunning⟩ := hL.bound
  obtain ⟨m, hm, hserved⟩ := hL.module
  exact
    { anchored := hL.anchored.environment henvironment
      bound := ⟨state, hbound.of_frame henvironment (by decide), hrunning⟩
      module := ⟨m, henvironment.accounts_eq (by decide) hm, hserved⟩
      linked := hL.linked.of_frame h (fun htoken ↦ absurd (hS htoken) (by decide)) hregistry
      tracked := hL.tracked.kept hkept (congrFun (balance_frame henvironment (by decide)) T)
        (countsOf_of_frame henvironment (by decide)) }

/-- The condition on a step: an operation that follows the residences. -/
def Platform.Label.FollowsResidences (T irs : Pubkey) (L : Ledger) (l : Platform.Label) : Prop :=
  l.Meets fun i ↦ i.MovesResidents ∧ Fracks.FollowsResidences T irs L i

theorem CountriesCounted.step {l : Platform.Label} (hL : CountriesCounted T M irs L)
    (h : Platform.Step L l L') (hown : OnlyIdentities L) (hl : l.FollowsResidences T irs L) :
    CountriesCounted T M irs L' := by
  cases h with
  | instruction signers i hexternal h =>
      obtain ⟨hi, hfollows⟩ := hl
      cases i with
      | core i => exact process_countriesCounted h hexternal hown hi hfollows hL
      | irs i =>
          cases i with
          | updateCountry accts newCountry =>
              obtain ⟨identity, hwritten⟩ := Irs.updateCountry_rewritten h
              exact hL.outside (Irs.frame_updateCountry h) (by decide) (by decide)
                (hwritten.residencesKept hfollows)
          | _ => exact hi.elim
      | _ => exact hi.elim
  | environment hframe =>
      exact hL.outside hframe (by decide) (by decide)
        (.of_frame hframe (by decide) (by decide))

/-- Before the first issue the cap is bound with its hook authority, and no country is counted. -/
structure CountriesStart (T M irs : Pubkey) (L : Ledger) : Prop where
  anchored : Anchored T L
  bound : ∃ state, BoundAt T M L state ∧ state.modulesPaused = false
  module : ∃ m : InvestorCountryCapModule, L.accounts M = account m ∧ Served T M m
  linked : Linked T irs L
  unheld : ∀ k, balance L T k = 0
  uncounted : ∀ country, countsOf L M country = 0

omit [Borsh] in
theorem CountriesStart.counted (h : CountriesStart T M irs L) : CountriesCounted T M irs L := by
  obtain ⟨hfinite, -, -⟩ := eq_zero_of_forall h.unheld
  refine ⟨h.anchored, h.bound, h.module, h.linked, hfinite, fun country ↦ ?_⟩
  have hnone : residents T irs L country = ∅ := by
    ext k
    simp [residents, h.unheld k]
  rw [h.uncounted, hnone, Set.ncard_empty]

/-- In every run of these operations that follows the residences, the count of every country is
the number of accounts with a positive balance whose owner is registered in it. -/
theorem residents_counted {labels : List Platform.Label} (hstart : CountriesStart T M irs L)
    (hrun : Run (restrict Platform.Step fun L l _ ↦
      OnlyIdentities L ∧ l.FollowsResidences T irs L) L labels L') (country : ℕ) :
    countsOf L' M country = (residents T irs L' country).ncard := by
  have hL' : CountriesCounted T M irs L' := by
    refine hrun.invariant (fun L l L' hL hstep ↦ ?_) hstart.counted
    exact hL.step hstep.1 hstep.2.1 hstep.2.2
  exact hL'.tracked.counted country

end Steps

/-! ## An exit inside one country -/

/-- In a deployment there is nothing but identities at their addresses. -/
theorem Deployment.onlyIdentities (d : Deployment) {extra : List (Pubkey × Account)}
    (hextra : ∀ r ∈ extra, ∀ irs wallet, r.1 ≠ walletIdentityAddress irs wallet)
    (hmint : ∀ irs wallet, d.tokenMint ≠ walletIdentityAddress irs wallet)
    (hholdings : ∀ h ∈ d.holdings, ∀ irs wallet, h.key ≠ walletIdentityAddress irs wallet) :
    OnlyIdentities (d.ledger extra) := by
  intro irs wallet
  refine d.ledger_forall (P := fun k acc ↦ k = walletIdentityAddress irs wallet →
    acc = .vacant ∨ ∃ identity : WalletIdentity, acc = account identity)
    (fun r hr hkey ↦ absurd hkey (hextra r hr irs wallet)) (fun r hr hkey ↦ ?_)
    (fun _ _ ↦ .inl rfl) _ rfl
  simp only [records, List.mem_append, List.mem_map, List.mem_cons, List.not_mem_nil,
    or_false] at hr
  rcases hr with (hr | ⟨w, -, rfl⟩) | ⟨h, hh, rfl⟩
  · rcases hr with rfl | rfl | rfl | rfl | rfl | rfl | rfl | rfl | rfl
    case inr.inr.inl => exact absurd hkey (hmint irs wallet)
    all_goals cases hkey
  · exact .inr ⟨_, rfl⟩
  · exact absurd hkey (hholdings h hh irs wallet)

def resident : Holding := ⟨.address 10, .address 11, 0⟩

def neighbour : Holding := ⟨.address 12, .address 13, 0⟩

def foreigner : Holding := ⟨.address 20, .address 21, 0⟩

/-- A token with a country cap before its first mint. -/
def residentDeployment : Deployment where
  tokenMint := .address 0
  issuer := .address 1
  paused := false
  modules := [residenceCap]
  modulesPaused := false
  metas := baseMetas ++ [.pubkeyData 8 76 true, .fixed (.program .modCountryCap) false,
    .externalPda 11 [.literal .countryCount, .accountKey 10, .accountData 7 224 2] true,
    .externalPda 11 [.literal .countryCount, .accountKey 10, .accountData 7 226 2] true]
  wallets := [(resident.wallet, 276), (neighbour.wallet, 276), (foreigner.wallet, 586)]
  holdings := [resident, neighbour, foreigner]

def residentRecords : List (Pubkey × Account) :=
  [(residenceCap, account residenceCapRecord),
    (countKey residenceCap 276, account (residenceRecord 276 0)),
    (countKey residenceCap 586, account (residenceRecord 586 0))]

def residentLedger : Ledger := residentDeployment.ledger residentRecords

def mintTo (receiver : Holding) (country : ℕ) : Instruction :=
  .token (.mint residentDeployment.operator
    (residentDeployment.receiverAccounts receiver .default
      [residenceCap, .program .modCountryCap, countKey residenceCap country])
    receiver.wallet 10 10)

/-- The approval of a sale of all tokens. -/
def sellAll (buyer : Holding) (toBalance : ℕ) (countries : List ℕ) : Instruction :=
  .token (.transfer (residentDeployment.transferAccounts resident buyer .default .default .default
    (residenceCap :: countries.map (countKey residenceCap))) 10 10 toBalance)

def deliverAll (buyer : Holding) (countries : List ℕ) : Instruction :=
  .token2022 (.transferChecked resident.key residentDeployment.tokenMint buyer.key resident.wallet
    (residentDeployment.hookAccounts resident.key buyer.key resident.wallet ++
      residenceCap :: .program .modCountryCap :: countries.map (countKey residenceCap)) 10 0)

theorem residentLedger_start :
    CountriesStart residentDeployment.tokenMint residenceCap residentDeployment.registry.irsState
      residentLedger where
  anchored := residentDeployment.anchored rfl rfl (by simp [residentRecords, kind])
  bound := ⟨_, ⟨rfl, rfl, List.nodup_singleton _, .head _⟩, rfl⟩
  module := ⟨_, rfl, rfl, rfl⟩
  linked := ⟨_, _, rfl, rfl, rfl⟩
  unheld := residentDeployment.unheld (by simp [residentRecords, kind])
    (by simp [residentDeployment, resident, neighbour, foreigner])
  uncounted country := by
    have hrecords : ∀ k, ∀ c : CountryInvestorCount, residentLedger.accounts k = account c →
        c.count = 0 := by
      refine residentDeployment.ledger_forall (P := fun _ acc ↦ ∀ c : CountryInvestorCount,
        acc = account c → c.count = 0) ?_ (fun r hr c hc ↦ ?_) fun _ c hc ↦
          absurd hc.symm (account_ne_vacant c)
      · simp only [residentRecords, List.forall_mem_cons, List.not_mem_nil, false_implies,
          implies_true, and_true]
        refine ⟨fun c hc ↦ absurd hc (account_ne_of_kind (by decide)), fun c hc ↦ ?_,
          fun c hc ↦ ?_⟩
        · exact account_inj.1 hc ▸ rfl
        · exact account_inj.1 hc ▸ rfl
      · rcases residentDeployment.records_kind hr with hkind | ⟨h, -, rfl⟩
        · simp [hc, kind, Deployment.recordKinds] at hkind
        · exact absurd hc (account_ne_of_kind (by decide))
    cases hrecord : Token.countRecord residentLedger residenceCap country with
    | none => rw [countsOf, hrecord]; rfl
    | some c =>
        rw [countsOf_of_record hrecord]
        exact hrecords _ c (countRecord_eq_some.1 hrecord).1

theorem residentLedger_identities : OnlyIdentities residentLedger :=
  residentDeployment.onlyIdentities (by simp [residentRecords, residenceCap, countKey,
    ModCountryCap.countAddress, moduleAddress, walletIdentityAddress, Pubkey.findProgramAddress,
    Pubkey.addSeed]) nofun (by simp [residentDeployment, resident, neighbour, foreigner,
      walletIdentityAddress, Pubkey.findProgramAddress, Pubkey.addSeed])

theorem Irp.OnlyIdentities.of_same {L L' : Ledger} (hL : OnlyIdentities L)
    (h : ∀ irs wallet, L'.accounts (walletIdentityAddress irs wallet) =
      L.accounts (walletIdentityAddress irs wallet)) : OnlyIdentities L' := by
  intro irs wallet
  rw [h]
  exact hL irs wallet

theorem core_step [Borsh] {L L' : Ledger} {signers : List Pubkey} {i : Instruction}
    (hexternal : ∀ k ∈ signers, k.External) (h : process L signers i = .ok L') :
    Platform.Step L (.instruction signers (.core i)) L' :=
  .instruction signers (.core i) hexternal h

theorem residentIssuer_external : ∀ k ∈ [residentDeployment.issuer], k.External :=
  List.forall_mem_singleton.2 (Pubkey.external_address 1)

theorem resident_external : ∀ k ∈ [resident.wallet], k.External :=
  List.forall_mem_singleton.2 (Pubkey.external_address 11)

/-- One of two residents gives all its tokens to the other: one is left, and two are counted. -/
theorem exit_inside_country_miscounted : ¬ ∀ (T M irs : Pubkey) (L L' : Ledger)
    (labels : List Platform.Label), CountriesStart T M irs L →
      Run (restrict (@Platform.Step strictBorsh) fun L l _ ↦
        OnlyIdentities L ∧ l.Meets Platform.Instruction.MovesResidents) L labels L' →
          ∀ country, countsOf L' M country = (residents T irs L' country).ncard := by
  intro hall
  obtain ⟨s, t, u, v, hs, ht, hu, hv, hsame, hcount, hbalances⟩ : ∃ s t u v,
      @process strictBorsh residentLedger [residentDeployment.issuer] (mintTo resident 276) =
        .ok s ∧
      @process strictBorsh s [residentDeployment.issuer] (mintTo neighbour 276) = .ok t ∧
      @process strictBorsh t [resident.wallet] (sellAll neighbour 10 [276]) = .ok u ∧
      @process strictBorsh u [resident.wallet] (deliverAll neighbour [276]) = .ok v ∧
      (∀ irs wallet, s.accounts (walletIdentityAddress irs wallet) =
          residentLedger.accounts (walletIdentityAddress irs wallet) ∧
        t.accounts (walletIdentityAddress irs wallet) =
          residentLedger.accounts (walletIdentityAddress irs wallet) ∧
        u.accounts (walletIdentityAddress irs wallet) =
          residentLedger.accounts (walletIdentityAddress irs wallet)) ∧
      countsOf v residenceCap 276 = 2 ∧
      balance v residentDeployment.tokenMint resident.key = 0 ∧
        balance v residentDeployment.tokenMint foreigner.key = 0 :=
    ⟨_, _, _, _, rfl, rfl, rfl, rfl, fun _ _ ↦ ⟨rfl, rfl, rfl⟩, rfl, rfl, rfl⟩
  have hidentities := residentLedger_identities
  have hrun : Run (restrict (@Platform.Step strictBorsh) fun L l _ ↦
      OnlyIdentities L ∧ l.Meets Platform.Instruction.MovesResidents) residentLedger _ v :=
    .cons ⟨@core_step strictBorsh _ _ _ _ residentIssuer_external hs,
        hidentities, trivial⟩ <|
      .cons ⟨@core_step strictBorsh _ _ _ _ residentIssuer_external ht,
        hidentities.of_same fun irs wallet ↦ (hsame irs wallet).1, trivial⟩ <|
      .cons ⟨@core_step strictBorsh _ _ _ _ resident_external hu,
        hidentities.of_same fun irs wallet ↦ (hsame irs wallet).2.1, trivial⟩ <|
      .single ⟨@core_step strictBorsh _ _ _ _ resident_external hv,
        hidentities.of_same fun irs wallet ↦ (hsame irs wallet).2.2, trivial⟩
  -- no other account has tokens
  have howners : OwnersKept residentLedger v :=
    (((@TokenInstruction.owners _ _ _ strictBorsh _ hs).trans
      (@TokenInstruction.owners _ _ _ strictBorsh _ ht)).trans
        (@TokenInstruction.owners _ _ _ strictBorsh _ hu)).trans
          (Token2022.transferChecked_owners hv)
  have hone : residents residentDeployment.tokenMint residentDeployment.registry.irsState v 276 ⊆
      {neighbour.key} := by
    rintro k ⟨hpos, -⟩
    obtain ⟨a', ha', -⟩ := account_of_positive hpos
    obtain ⟨a, ha, -⟩ := howners k a' ha'
    obtain ⟨h, hh, rfl, -⟩ :=
      residentDeployment.holding_of_account (by simp [residentRecords, kind]) ha
    simp only [residentDeployment, List.mem_cons, List.not_mem_nil, or_false] at hh
    rcases hh with rfl | rfl | rfl
    · exact absurd hpos (hbalances.1 ▸ Nat.lt_irrefl 0)
    · rfl
    · exact absurd hpos (hbalances.2 ▸ Nat.lt_irrefl 0)
  have hle := Set.ncard_le_ncard hone
  rw [Set.ncard_singleton, ← hall _ _ _ _ _ _ residentLedger_start hrun 276, hcount] at hle
  exact absurd hle (by decide)

/-- A resident gives all its tokens to a foreigner. -/
theorem exit_abroad_counted : ∃ v, Run (@Platform.Step strictBorsh) residentLedger
      [.instruction [residentDeployment.issuer] (.core (mintTo resident 276)),
        .instruction [resident.wallet] (.core (sellAll foreigner 0 [276, 586])),
        .instruction [resident.wallet] (.core (deliverAll foreigner [276, 586]))] v ∧
    (countsOf v residenceCap 276 = 0 ∧ countsOf v residenceCap 586 = 1) ∧
      ∀ country, countsOf v residenceCap country =
        (residents residentDeployment.tokenMint residentDeployment.registry.irsState v
          country).ncard := by
  obtain ⟨s, t, v, a, hs, ht, ha, hresidences, hcountries, hsame, hv, hcounts⟩ : ∃ s t v a,
      @process strictBorsh residentLedger [residentDeployment.issuer] (mintTo resident 276) =
        .ok s ∧
      @process strictBorsh s [resident.wallet] (sellAll foreigner 0 [276, 586]) = .ok t ∧
      t.accounts (approvalAddress resident.key foreigner.key resident.wallet) = account a ∧
      (residence t residentDeployment.registry.irsState resident.key = some 276 ∧
        residence t residentDeployment.registry.irsState foreigner.key = some 586) ∧
      (a.fromCountry = 276 ∧ a.toCountry = 586) ∧
      (∀ irs wallet, s.accounts (walletIdentityAddress irs wallet) =
          residentLedger.accounts (walletIdentityAddress irs wallet) ∧
        t.accounts (walletIdentityAddress irs wallet) =
          residentLedger.accounts (walletIdentityAddress irs wallet)) ∧
      @process strictBorsh t [resident.wallet] (deliverAll foreigner [276, 586]) = .ok v ∧
      countsOf v residenceCap 276 = 0 ∧ countsOf v residenceCap 586 = 1 :=
    ⟨_, _, _, _, rfl, rfl, rfl, ⟨rfl, rfl⟩, ⟨rfl, rfl⟩, fun _ _ ↦ ⟨rfl, rfl⟩, rfl, rfl, rfl⟩
  have hfirst := @core_step strictBorsh _ _ _ _ residentIssuer_external hs
  have hsecond := @core_step strictBorsh _ _ _ _ resident_external ht
  have hthird := @core_step strictBorsh _ _ _ _ resident_external hv
  have hidentities := residentLedger_identities
  have hcurrent : FollowsResidences residentDeployment.tokenMint
      residentDeployment.registry.irsState t (.core (deliverAll foreigner [276, 586])) := by
    refine ⟨fun hmismoves ↦ hmismoves.1 rfl, fun _ b hb ↦ ?_⟩
    obtain rfl := account_inj.1 (ha.symm.trans hb.loaded)
    rw [hcountries.1, hcountries.2]
    exact ⟨fun _ ↦ hresidences.1, fun _ ↦ hresidences.2, fun hequal ↦ absurd hequal (by decide)⟩
  refine ⟨v, .cons hfirst (.cons hsecond (.single hthird)), hcounts, ?_⟩
  exact @residents_counted strictBorsh _ _ _ _ _ _ residentLedger_start
    (.cons ⟨hfirst, hidentities, trivial, trivial⟩
      (.cons ⟨hsecond, hidentities.of_same fun irs wallet ↦ (hsame irs wallet).1, trivial, trivial⟩
        (.single ⟨hthird, hidentities.of_same fun irs wallet ↦ (hsame irs wallet).2, trivial,
          hcurrent⟩)))

end Fracks
