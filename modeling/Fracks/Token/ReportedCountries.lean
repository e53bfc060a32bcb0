import Fracks.World
import Fracks.Deployment

/-!
# Reported countries

The controller reports the country of a wallet to the compliance check, to a post-hook or in an
approval.  It reads the country from the identity of the wallet in a storage of identities: the
one that the registry of the token links to, except in a burn, where the caller names the storage.
-/

namespace Fracks.Token

open Checked AccountType Ledger Irp

section Reports

variable [Borsh] {L L' : Ledger} {signers : List Pubkey} {ts : TokenState}
  {wallet irs walletIdentity : Pubkey} {identity : WalletIdentity} {country : ℕ}
  {remaining : List Pubkey}

/-! ## The registry's country -/

/-- The identity of the wallet in a storage of identities. -/
structure Registered (L : Ledger) (irs wallet : Pubkey) (identity : WalletIdentity) : Prop where
  stored : Borsh.decodeView WalletIdentity
    (L.accounts (walletIdentityAddress irs wallet)).data = some identity
  wallet : identity.wallet = wallet
  irs : identity.irs = irs

def CountryIn (L : Ledger) (irs wallet : Pubkey) (country : ℕ) : Prop :=
  ∃ identity, Registered L irs wallet identity ∧ identity.country = country

/-- The storage of identities that the registry of the token links to. -/
def linkedStorage (L : Ledger) (ts : TokenState) : Option Pubkey :=
  (Borsh.decodeView IdentityRegistryState (L.accounts ts.identityRegistry).data).map
    IdentityRegistryState.irsAccount

def RegistryCountry (L : Ledger) (ts : TokenState) (wallet : Pubkey) (country : ℕ) : Prop :=
  ∃ irs, linkedStorage L ts = some irs ∧ CountryIn L irs wallet country

theorem CountryIn.unique {country' : ℕ} (h : CountryIn L irs wallet country)
    (h' : CountryIn L irs wallet country') : country = country' := by
  obtain ⟨identity, hregistered, rfl⟩ := h
  obtain ⟨identity', hregistered', rfl⟩ := h'
  obtain rfl := Option.some.inj (hregistered.stored.symm.trans hregistered'.stored)
  rfl

theorem findWalletIdentity_registered
    (h : findWalletIdentity L wallet irs walletIdentity = .ok (some identity)) :
    Registered L irs wallet identity := by
  unfold findWalletIdentity at h
  split at h
  case isTrue => cases h
  case isFalse =>
    split at h
    case isTrue => cases h
    case isFalse hkey =>
      simp only [deserializeView, bind_eq_ok, okOr_eq_ok] at h
      obtain ⟨found, hfound, h⟩ := h
      split at h
      case isTrue => cases h
      case isFalse hmatch =>
        obtain rfl := Option.some.inj (Except.ok.inj h)
        push Not at hkey hmatch
        exact ⟨hkey ▸ hfound, hmatch.1, hmatch.2⟩

theorem requireWalletIdentity_found
    (h : requireWalletIdentity L walletIdentity wallet irs = .ok identity) :
    findWalletIdentity L wallet irs walletIdentity = .ok (some identity) := by
  simp only [requireWalletIdentity, bind_eq_ok, okOr_eq_ok, toOption_eq_some, require_eq_ok,
    exists_const, Except.ok.injEq] at h
  obtain ⟨found, hfound, _, rfl, -, rfl⟩ := h
  exact hfound

theorem requireWalletIdentity_registered
    (h : requireWalletIdentity L walletIdentity wallet irs = .ok identity) :
    Registered L irs wallet identity :=
  findWalletIdentity_registered (requireWalletIdentity_found h)

/-- A verified wallet is found in the storage that the registry links to. -/
theorem verifyWalletAgainstIrp_found {accts : RegistryAccounts}
    (h : verifyWalletAgainstIrp L ts wallet accts walletIdentity remaining = .ok identity) :
    linkedStorage L ts = some accts.irsState ∧
      findWalletIdentity L wallet accts.irsState walletIdentity = .ok (some identity) := by
  simp only [verifyWalletAgainstIrp, deserializeLocal, bind_eq_ok, okOr_eq_ok, require_eq_ok,
    exists_const, Except.ok.injEq] at h
  obtain ⟨hirp, registry, hregistry, _, -, _, -, _, -, hirs, -, -, -, -, -, -, found, hfound, -, -,
    rfl⟩ := h
  refine ⟨?_, ?_⟩
  · rw [linkedStorage, hirp, hregistry, Option.map_some, hirs]
  · cases hx : findWalletIdentity L wallet accts.irsState walletIdentity with
    | error e => simp [hx, Except.toOption] at hfound
    | ok o =>
        rw [hx] at hfound
        exact congrArg Except.ok hfound

/-- A verified wallet has its identity in the storage that the registry links to. -/
theorem verifyWalletAgainstIrp_country {accts : RegistryAccounts}
    (h : verifyWalletAgainstIrp L ts wallet accts walletIdentity remaining = .ok identity) :
    linkedStorage L ts = some accts.irsState ∧
      CountryIn L accts.irsState wallet identity.country := by
  obtain ⟨hlinked, hfound⟩ := verifyWalletAgainstIrp_found h
  exact ⟨hlinked, identity, findWalletIdentity_registered hfound, rfl⟩

/-! ## What an instruction reports -/

/-- The wallets whose countries an instruction reports; a settled subscription is for the
investor of its escrow. -/
def concerned (L : Ledger) : TokenInstruction → List Pubkey
  | .mint _ _ wallet .. | .burn _ _ wallet .. => [wallet]
  | .purchaseMint purchase .. => [purchase.buyer]
  | .settleSubscriptionMint _ settle .. =>
      (L.view SubscriptionEscrow settle.subscriptionEscrow).toList.map SubscriptionEscrow.investor
  | .transfer accts .. => [accts.fromWallet, accts.toWallet]
  | .forcedTransfer _ _ _ source destination .. => [source, destination]
  | .recovery _ _ _ lostWallet newWallet _ => [lostWallet, newWallet]
  | _ => []

/-- In the successful instruction the country is reported as that of the wallet: the calls of
the instruction, with the countries they are made with. -/
inductive Reports (L : Ledger) (signers : List Pubkey) (L' : Ledger) (ts : TokenState) :
    TokenInstruction → Pubkey → ℕ → Prop
  | mint {operator : OperatorAccounts} {accts : ReceiverAccounts} {wallet : Pubkey}
      {amount toBalanceAfter country : ℕ} :
      checkReceiver L ts accts wallet amount toBalanceAfter = .ok country →
      issueTokens L signers operator.tokenState ts accts amount toBalanceAfter country = .ok L' →
      Reports L signers L' ts (.mint operator accts wallet amount toBalanceAfter) wallet country
  | purchaseMint {purchase : PurchaseAccounts} {accts : ReceiverAccounts} {L₁ : Ledger}
      {amount toBalanceAfter country : ℕ} :
      checkReceiver L ts accts purchase.buyer amount toBalanceAfter = .ok country →
      issueTokens L₁ signers purchase.tokenState ts accts amount toBalanceAfter country = .ok L' →
      Reports L signers L' ts (.purchaseMint purchase accts amount toBalanceAfter) purchase.buyer
        country
  | settleSubscriptionMint {operator : OperatorAccounts} {settle : SettleAccounts}
      {accts : ReceiverAccounts} {escrow : SubscriptionEscrow} {L₁ : Ledger}
      {toBalanceAfter country : ℕ} :
      L.accounts settle.subscriptionEscrow = account escrow →
      checkReceiver L ts accts escrow.investor escrow.amount toBalanceAfter = .ok country →
      issueTokens L₁ signers operator.tokenState ts accts escrow.amount toBalanceAfter country =
        .ok L' →
      Reports L signers L' ts (.settleSubscriptionMint operator settle accts toBalanceAfter)
        escrow.investor country
  | burn {operator : OperatorAccounts} {accts : BurnAccounts} {wallet : Pubkey}
      {amount fromBalanceAfter : ℕ} {sender : WalletIdentity} {L₁ : Ledger} :
      requireWalletIdentity L accts.fromWalletIdentity wallet accts.irsState = .ok sender →
      invokeComplianceDestroyed L accts.complianceProgram accts.complianceState accts.remaining
        amount fromBalanceAfter sender.country = .ok L₁ →
      Reports L signers L' ts (.burn operator accts wallet amount fromBalanceAfter) wallet
        sender.country
  | forcedTransfer {operator : OperatorAccounts} {fromPartialFreeze : Pubkey}
      {accts : ControllerTransferAccounts} {source destination wallet : Pubkey}
      {amount fromBalance toBalance country : ℕ} {sender receiver : WalletIdentity}
      {L₁ : Ledger} :
      requireWalletIdentity L accts.fromWalletIdentity source accts.irsState = .ok sender →
      verifyWalletAgainstIrp L ts destination accts.toRegistryAccounts accts.toWalletIdentity
        accts.remaining = .ok receiver →
      evaluateCompliance L ts accts.complianceState accts.remaining source amount toBalance
        sender.country receiver.country = .ok () →
      approveAndTransfer L signers operator ts accts source destination amount fromBalance
        toBalance sender.country receiver.country TokenHook.transferApprovalKindForced = .ok L₁ →
      (wallet, country) ∈ [(source, sender.country), (destination, receiver.country)] →
      Reports L signers L' ts (.forcedTransfer operator fromPartialFreeze accts source destination
        amount fromBalance toBalance) wallet country
  | recovery {operator : OperatorAccounts} {irsProgram : Pubkey}
      {accts : ControllerTransferAccounts} {lostWallet newWallet wallet : Pubkey}
      {amount fromBalance toBalance country : ℕ} {lost receiver : WalletIdentity} :
      verifyWalletAgainstIrp L ts newWallet accts.toRegistryAccounts accts.toWalletIdentity
        accts.remaining = .ok receiver →
      requireWalletIdentity L accts.fromWalletIdentity lostWallet accts.irsState = .ok lost →
      approveAndTransfer L signers operator ts accts lostWallet newWallet amount fromBalance
        toBalance lost.country receiver.country TokenHook.transferApprovalKindRecovery = .ok L' →
      (wallet, country) ∈ [(lostWallet, lost.country), (newWallet, receiver.country)] →
      Reports L signers L' ts (.recovery operator irsProgram accts lostWallet newWallet amount)
        wallet country
  | transfer {accts : TransferEvaluation} {wallet : Pubkey}
      {amount fromBalance toBalance fromCountry toCountry country : ℕ} :
      Evaluated L ts accts amount toBalance fromCountry toCountry →
      TokenHook.approveTransfer L (withTokenState signers ts) (approvalAccounts accts)
        (approvalArgs accts amount fromBalance toBalance fromCountry toCountry) = .ok L' →
      (wallet, country) ∈ [(accts.fromWallet, fromCountry), (accts.toWallet, toCountry)] →
      Reports L signers L' ts (.transfer accts amount fromBalance toBalance) wallet country

/-- The token of an instruction. -/
def tokenStateOf : TokenInstruction → Option Pubkey
  | .mint operator .. | .settleSubscriptionMint operator .. | .burn operator ..
  | .forcedTransfer operator .. | .recovery operator .. => some operator.tokenState
  | .purchaseMint purchase .. => some purchase.tokenState
  | .transfer accts .. => some accts.tokenState
  | _ => none

theorem checkReceiver_country {accts : ReceiverAccounts} {amount toBalanceAfter : ℕ}
    (h : checkReceiver L ts accts wallet amount toBalanceAfter = .ok country) :
    RegistryCountry L ts wallet country := by
  simp only [checkReceiver, bind_eq_ok, Except.ok.injEq] at h
  obtain ⟨receiver, hreceiver, _, -, _, -, _, -, _, -, _, -, _, -, rfl⟩ := h
  exact ⟨accts.irsState, verifyWalletAgainstIrp_country hreceiver⟩

/-- Without a reporting instruction nobody is concerned. -/
theorem process_reports {i : TokenInstruction} {k : Pubkey} (h : i.process L signers = .ok L')
    (hk : tokenStateOf i = some k) (hts : L.accounts k = account ts) :
    ∀ wallet ∈ concerned L i, ∃ country, Reports L signers L' ts i wallet country := by
  cases i with
  | mint operator accts wallet amount toBalanceAfter =>
      obtain rfl := Option.some.inj hk
      simp only [TokenInstruction.process, Token.mint, bind_eq_ok, require_eq_ok,
        exists_const] at h
      obtain ⟨ts', hcheck, -, _, -, country, hreceiver, hissue⟩ := h
      obtain ⟨-, hts', -⟩ := OperatorAccounts.check_ok hcheck
      obtain rfl := account_inj.1 (hts'.symm.trans hts)
      intro w hw
      obtain rfl := List.mem_singleton.1 hw
      exact ⟨country, .mint hreceiver hissue⟩
  | purchaseMint purchase accts amount toBalanceAfter =>
      obtain rfl := Option.some.inj hk
      simp only [TokenInstruction.process, Token.purchaseMint, bind_eq_ok, require_eq_ok,
        exists_const] at h
      obtain ⟨_, -, ts', hload, _, -, -, -, _, -, terms, -, due, -, country, hreceiver, L₁, -,
        hissue⟩ := h
      obtain ⟨hts', -⟩ := loadTokenState_eq_ok.1 hload
      obtain rfl := account_inj.1 (hts'.symm.trans hts)
      intro w hw
      obtain rfl := List.mem_singleton.1 hw
      exact ⟨country, .purchaseMint hreceiver hissue⟩
  | settleSubscriptionMint operator settle accts toBalanceAfter =>
      obtain rfl := Option.some.inj hk
      simp only [TokenInstruction.process, Token.settleSubscriptionMint, bind_eq_ok,
        require_eq_ok, load_eq_ok, exists_const] at h
      obtain ⟨ts', hcheck, escrow, hescrow, _, -, -, -, -, -, -, _, -, country, hreceiver, L₁, -,
        hissue⟩ := h
      obtain ⟨-, hts', -⟩ := OperatorAccounts.check_ok hcheck
      obtain rfl := account_inj.1 (hts'.symm.trans hts)
      intro w hw
      rw [concerned, view_eq_some.2 hescrow] at hw
      obtain rfl := List.mem_singleton.1 hw
      exact ⟨country, .settleSubscriptionMint hescrow hreceiver hissue⟩
  | burn operator accts wallet amount fromBalanceAfter =>
      obtain rfl := Option.some.inj hk
      simp only [TokenInstruction.process, Token.burn, bind_eq_ok, require_eq_ok,
        exists_const] at h
      obtain ⟨ts', hcheck, -, sender, hsender, _, -, s, -, _, -, _, -, -, L₁, hbooked, -⟩ := h
      obtain ⟨-, hts', -⟩ := OperatorAccounts.check_ok hcheck
      obtain rfl := account_inj.1 (hts'.symm.trans hts)
      intro w hw
      obtain rfl := List.mem_singleton.1 hw
      exact ⟨sender.country, .burn hsender hbooked⟩
  | forcedTransfer operator fromPartialFreeze accts source destination amount fromBalance
      toBalance =>
      obtain rfl := Option.some.inj hk
      simp only [TokenInstruction.process, Token.forcedTransfer, bind_eq_ok, load_eq_ok,
        require_eq_ok, exists_const, Except.ok.injEq] at h
      obtain ⟨ts', hcheck, record, -, _, -, _, -, -, _, -, sender, hsender, receiver, hreceiver, _,
        -, s, -, d, -, -, -, _, -, _, -, _, hcomplies, L₁, happrove, -⟩ := h
      obtain ⟨-, hts', -⟩ := OperatorAccounts.check_ok hcheck
      obtain rfl := account_inj.1 (hts'.symm.trans hts)
      have hreports (w : Pubkey) (country : ℕ)
          (hw : (w, country) ∈ [(source, sender.country), (destination, receiver.country)]) :
          Reports L signers L' ts' (.forcedTransfer operator fromPartialFreeze accts source
            destination amount fromBalance toBalance) w country :=
        .forcedTransfer hsender hreceiver hcomplies happrove hw
      intro w hw
      rcases List.mem_pair.1 hw with rfl | rfl
      · exact ⟨_, hreports _ _ (List.mem_cons_self ..)⟩
      · exact ⟨_, hreports _ _ (List.mem_cons_of_mem _ (List.mem_singleton_self _))⟩
  | recovery operator irsProgram accts lostWallet newWallet amount =>
      obtain rfl := Option.some.inj hk
      simp only [TokenInstruction.process, Token.recovery, bind_eq_ok, require_eq_ok,
        exists_const] at h
      obtain ⟨ts', hcheck, _, -, _, -, -, -, _, -, receiver, hreceiver, lost, hlost, _, -, s, -, d,
        -, _, -, _, -, -, happrove⟩ := h
      obtain ⟨-, hts', -⟩ := OperatorAccounts.check_ok hcheck
      obtain rfl := account_inj.1 (hts'.symm.trans hts)
      have hreports (w : Pubkey) (country : ℕ)
          (hw : (w, country) ∈ [(lostWallet, lost.country), (newWallet, receiver.country)]) :
          Reports L signers L' ts' (.recovery operator irsProgram accts lostWallet newWallet
            amount) w country :=
        .recovery hreceiver hlost happrove hw
      intro w hw
      rcases List.mem_pair.1 hw with rfl | rfl
      · exact ⟨_, hreports _ _ (List.mem_cons_self ..)⟩
      · exact ⟨_, hreports _ _ (List.mem_cons_of_mem _ (List.mem_singleton_self _))⟩
  | transfer accts amount fromBalance toBalance =>
      obtain rfl := Option.some.inj hk
      obtain ⟨ts', s, d, fromCountry, toCountry, happroved, -⟩ := transfer_eq_ok.1 h
      obtain rfl := account_inj.1 (happroved.tokenStateAt.symm.trans hts)
      have hreports (w : Pubkey) (country : ℕ)
          (hw : (w, country) ∈ [(accts.fromWallet, fromCountry), (accts.toWallet, toCountry)]) :
          Reports L signers L' ts' (.transfer accts amount fromBalance toBalance) w country :=
        .transfer happroved.evaluated happroved.approves hw
      intro w hw
      rcases List.mem_pair.1 hw with rfl | rfl
      · exact ⟨_, hreports _ _ (List.mem_cons_self ..)⟩
      · exact ⟨_, hreports _ _ (List.mem_cons_of_mem _ (List.mem_singleton_self _))⟩
  | _ => cases hk

/-- What ties a burn to the registry of the token: the storage named is the one linked from it,
or the wallet has the same country in both.  The other instructions are tied anyway. -/
def StorageLinked (L : Ledger) (ts : TokenState) : TokenInstruction → Prop
  | .burn _ accts wallet .. => ∃ irs, linkedStorage L ts = some irs ∧
      (accts.irsState = irs ∨
        ∃ country, CountryIn L irs wallet country ∧ CountryIn L accts.irsState wallet country)
  | _ => True

theorem Reports.of_linked {i : TokenInstruction} (h : Reports L signers L' ts i wallet country)
    (hlinked : StorageLinked L ts i) : RegistryCountry L ts wallet country := by
  cases h with
  | mint hreceiver _ => exact checkReceiver_country hreceiver
  | purchaseMint hreceiver _ => exact checkReceiver_country hreceiver
  | settleSubscriptionMint _ hreceiver _ => exact checkReceiver_country hreceiver
  | @burn _ accts _ _ _ sender _ hsender _ =>
      have hcountry : CountryIn L accts.irsState wallet sender.country :=
        ⟨sender, requireWalletIdentity_registered hsender, rfl⟩
      obtain ⟨irs, hirs, hnamed⟩ := hlinked
      rcases hnamed with rfl | ⟨country, hregistered, hsame⟩
      · exact ⟨_, hirs, hcountry⟩
      · exact ⟨irs, hirs, hcountry.unique hsame ▸ hregistered⟩
  | @forcedTransfer _ _ accts _ _ _ _ _ _ _ sender _ _ hsender hreceiver _ _ hmem =>
      obtain ⟨hirs, hreceiverCountry⟩ := verifyWalletAgainstIrp_country hreceiver
      rcases List.mem_pair.1 hmem with hpair | hpair
      · cases hpair
        exact ⟨_, hirs, sender, requireWalletIdentity_registered hsender, rfl⟩
      · cases hpair
        exact ⟨_, hirs, hreceiverCountry⟩
  | @recovery _ _ accts _ _ _ _ _ _ _ lost _ hreceiver hlost _ hmem =>
      obtain ⟨hirs, hreceiverCountry⟩ := verifyWalletAgainstIrp_country hreceiver
      rcases List.mem_pair.1 hmem with hpair | hpair
      · cases hpair
        exact ⟨_, hirs, lost, requireWalletIdentity_registered hlost, rfl⟩
      · cases hpair
        exact ⟨_, hirs, hreceiverCountry⟩
  | transfer hevaluated _ hmem =>
      obtain ⟨sender, hsender, rfl⟩ := hevaluated.sender
      obtain ⟨receiver, hreceiver, rfl⟩ := hevaluated.receiver
      rcases List.mem_pair.1 hmem with hpair | hpair
      · cases hpair
        exact ⟨_, verifyWalletAgainstIrp_country hsender⟩
      · cases hpair
        exact ⟨_, verifyWalletAgainstIrp_country hreceiver⟩

/-- A successful instruction reports a country of every wallet concerned, and the countries it
reports are those of the registry exactly if a burn is tied to it. -/
theorem countries_reported_iff {i : TokenInstruction} {k : Pubkey}
    (h : i.process L signers = .ok L') (hk : tokenStateOf i = some k)
    (hts : L.accounts k = account ts) :
    (∀ wallet ∈ concerned L i, ∃ country, Reports L signers L' ts i wallet country) ∧
      ((∀ wallet country, Reports L signers L' ts i wallet country →
          RegistryCountry L ts wallet country) ↔ StorageLinked L ts i) := by
  have hreports := process_reports h hk hts
  refine ⟨hreports, ?_⟩
  constructor
  · intro hall
    cases i with
    | burn operator accts wallet amount fromBalanceAfter =>
        obtain ⟨country, hreport⟩ := hreports wallet (List.mem_singleton_self wallet)
        obtain ⟨irs, hirs, hcountry⟩ := hall wallet country hreport
        cases hreport with
        | @burn _ _ _ _ _ sender _ hsender _ =>
            refine ⟨irs, hirs, .inr ⟨sender.country, hcountry, sender, ?_, rfl⟩⟩
            exact requireWalletIdentity_registered hsender
    | _ => trivial
  · intro hlinked wallet country hreport
    exact hreport.of_linked hlinked

end Reports

/-! ## A burn under the storage of another issuer -/

def taxHolding : Holding := ⟨.address 10, .address 11, 10⟩

/-- A token with a holder of country 276. -/
def taxDeployment : Deployment where
  tokenMint := .address 0
  issuer := .address 1
  paused := false
  modules := []
  modulesPaused := false
  metas := TokenHook.baseMetas
  wallets := [(taxHolding.wallet, 276)]
  holdings := [taxHolding]

def otherStorage : Pubkey := Irs.irsAddress (.address 9)

/-- The holder is in the storage of the other issuer too, with country 840. -/
def taxLedger : Ledger :=
  taxDeployment.ledger
    [(walletIdentityAddress otherStorage taxHolding.wallet, account
      { taxDeployment.identityRecord (taxHolding.wallet, 840) with irs := otherStorage })]

def ordinaryBurn : TokenInstruction :=
  .burn taxDeployment.operator
    (taxDeployment.burnAccounts taxHolding taxDeployment.compliance []) taxHolding.wallet 3 7

/-- The burn that names the storage of the other issuer. -/
def foreignBurn : TokenInstruction :=
  .burn taxDeployment.operator
    { taxDeployment.burnAccounts taxHolding taxDeployment.compliance [] with
      irsState := otherStorage
      fromWalletIdentity := walletIdentityAddress otherStorage taxHolding.wallet }
    taxHolding.wallet 3 7

theorem taxLedger_burns :
    (∃ u, @TokenInstruction.process strictBorsh taxLedger [taxDeployment.issuer] ordinaryBurn =
      .ok u) ∧
    ∃ v, @TokenInstruction.process strictBorsh taxLedger [taxDeployment.issuer] foreignBurn =
      .ok v ∧ @Reports strictBorsh taxLedger [taxDeployment.issuer] v
        taxDeployment.tokenStateRecord foreignBurn taxHolding.wallet 840 := by
  refine ⟨⟨_, rfl⟩, _, rfl, ?_⟩
  exact @Reports.burn strictBorsh _ _ _ _ _ _ _ _ _
    { taxDeployment.identityRecord (taxHolding.wallet, 840) with irs := otherStorage } _ rfl rfl

theorem taxLedger_country :
    @CountryIn strictBorsh taxLedger taxDeployment.registry.irsState taxHolding.wallet 276 :=
  ⟨taxDeployment.identityRecord (taxHolding.wallet, 276),
    @Registered.mk strictBorsh _ _ _ _ rfl rfl rfl, rfl⟩

theorem taxLedger_linked :
    @linkedStorage strictBorsh taxLedger taxDeployment.tokenStateRecord =
      some taxDeployment.registry.irsState := rfl

/-- The post-hook of the burn is told country 840 of a holder that the registry of the token has
in country 276. -/
theorem foreign_country_reported : ¬ ∀ (L L' : Ledger) (signers : List Pubkey)
    (i : TokenInstruction) (k : Pubkey) (ts : TokenState),
    @TokenInstruction.process strictBorsh L signers i = .ok L' → tokenStateOf i = some k →
      L.accounts k = account ts → ∀ wallet country,
        @Reports strictBorsh L signers L' ts i wallet country →
          @RegistryCountry strictBorsh L ts wallet country := by
  intro hclaim
  obtain ⟨-, v, hburn, hreport⟩ := taxLedger_burns
  obtain ⟨irs, hirs, hcountry⟩ :=
    hclaim _ _ _ _ taxDeployment.tokenState _ hburn rfl rfl _ _ hreport
  obtain rfl := Option.some.inj (taxLedger_linked.symm.trans hirs)
  have hsame : (840 : ℕ) = 276 :=
    @CountryIn.unique strictBorsh _ _ _ _ _ hcountry taxLedger_country
  omega

theorem ordinary_burn_reports : ∃ u,
    @TokenInstruction.process strictBorsh taxLedger [taxDeployment.issuer] ordinaryBurn = .ok u ∧
      (∃ country, @Reports strictBorsh taxLedger [taxDeployment.issuer] u
        taxDeployment.tokenStateRecord ordinaryBurn taxHolding.wallet country) ∧
      ∀ wallet country, @Reports strictBorsh taxLedger [taxDeployment.issuer] u
        taxDeployment.tokenStateRecord ordinaryBurn wallet country →
          @RegistryCountry strictBorsh taxLedger taxDeployment.tokenStateRecord wallet country := by
  obtain ⟨⟨u, hu⟩, -⟩ := taxLedger_burns
  obtain ⟨hreports, hiff⟩ := @countries_reported_iff strictBorsh taxLedger u
    [taxDeployment.issuer] taxDeployment.tokenStateRecord ordinaryBurn taxDeployment.tokenState hu
    rfl rfl
  refine ⟨u, hu, hreports _ (List.mem_singleton_self _), hiff.2 ?_⟩
  exact ⟨_, taxLedger_linked, .inl rfl⟩

end Fracks.Token
