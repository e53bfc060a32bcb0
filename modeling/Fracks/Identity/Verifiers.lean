import Fracks.Platform
import Fracks.Deployment

/-!
# Two verifiers of one rule

The registry program reports whether a wallet is verified, and the token
controller runs the same rule before it moves tokens.  Both come down to the
same linkage, identity and claims; the registry program alone also asks that the
storage has the owner of the registry.
-/

namespace Fracks.Irp

open Checked AccountType Ledger Runs

section Rule

variable [Borsh] {L : Ledger} {wallet : Pubkey} {accts : IsVerified}

/-- The accounts of the registry program as the token controller takes them. -/
def IsVerified.registryAccounts (accts : IsVerified) : Token.RegistryAccounts where
  irpState := accts.registryState
  irsState := accts.irsState
  tirState := accts.tirState
  ctrState := accts.ctrState

/-- What both verifiers ask for. -/
structure Qualifies (L : Ledger) (registry : IdentityRegistryState) (accts : IsVerified)
    (wallet : Pubkey) (irs : IdentityRegistryStorageState) (tir : TrustedIssuersState)
    (ctr : ClaimTopicsState) (identity : WalletIdentity) : Prop where
  irsAt : Borsh.decodeView IdentityRegistryStorageState (L.accounts accts.irsState).data = some irs
  tirAt : Borsh.decodeView TrustedIssuersState (L.accounts accts.tirState).data = some tir
  ctrAt : Borsh.decodeView ClaimTopicsState (L.accounts accts.ctrState).data = some ctr
  irsKey : registry.irsAccount = accts.irsState
  tirKey : registry.tirAccount = accts.tirState
  ctrKey : registry.ctrAccount = accts.ctrState
  tirMint : tir.tokenMint = registry.tokenMint
  ctrMint : ctr.tokenMint = registry.tokenMint
  bound : accts.registryState ∈ irs.boundRegistries
  found : findWalletIdentity L wallet accts.irsState accts.walletIdentity = .ok (some identity)
  active : identity.isActive = true
  claims : ∀ topic ∈ ctr.topics,
    verifyClaimForTopic L identity.fid topic accts.tirState accts.remaining L.now = true

/-- The registry program reports the wallet verified. -/
def ReportsVerified (L : Ledger) (accts : IsVerified) (wallet : Pubkey) : Prop :=
  ∃ status, evaluateVerification L accts wallet = .ok status ∧ status.verified = true

/-- The token controller accepts the wallet on the same accounts. -/
def Accepts (L : Ledger) (tokenState : TokenState) (accts : IsVerified) (wallet : Pubkey) : Prop :=
  ∃ identity, Token.verifyWalletAgainstIrp L tokenState wallet accts.registryAccounts
    accts.walletIdentity accts.remaining = .ok identity

omit [Borsh] in
theorem checkTopics_verified {holderFid tirState : Pubkey} {remaining : List Pubkey}
    {topics : List ℕ} :
    (checkTopics L holderFid tirState remaining topics).verified = true ↔
      ∀ topic ∈ topics, verifyClaimForTopic L holderFid topic tirState remaining L.now = true := by
  induction topics with
  | nil => simp [checkTopics]
  | cons topic rest ih =>
      rw [checkTopics, List.forall_mem_cons]
      split
      case isTrue h => rw [ih, and_iff_right h]
      case isFalse h => simp [h]

omit [Borsh] in
theorem toOption_join_eq_some {x : Result (Option WalletIdentity)} {identity : WalletIdentity} :
    x.toOption.join = some identity ↔ x = .ok (some identity) := by
  cases x with
  | ok o => simp [Except.toOption]
  | error e => simp [Except.toOption]

/-- The token controller accepts exactly the wallets that qualify. -/
theorem accepts_iff {tokenState : TokenState} {registry : IdentityRegistryState}
    (hirp : L.accounts accts.registryState = account registry)
    (hregistry : tokenState.identityRegistry = accts.registryState)
    (hmint : tokenState.tokenMint = registry.tokenMint) :
    Accepts L tokenState accts wallet ↔
      ∃ irs tir ctr identity, Qualifies L registry accts wallet irs tir ctr identity := by
  simp only [Accepts, Token.verifyWalletAgainstIrp, Token.deserializeLocal, bind_eq_ok,
    require_eq_ok, okOr_eq_ok, toOption_join_eq_some, exists_const, Except.ok.injEq]
  simp only [IsVerified.registryAccounts, hirp, account_data, Borsh.decodeView_encode,
    Option.some.injEq]
  constructor
  · rintro ⟨_, -, _, rfl, irs, hirs, tir, htir, ctr, hctr, hirsKey, htirKey, hctrKey, -, htirMint,
      hctrMint, hbound, identity, hfound, hactive, hclaims, rfl⟩
    exact ⟨irs, tir, ctr, identity, hirs, htir, hctr, hirsKey, htirKey, hctrKey,
      htirMint.trans hmint, hctrMint.trans hmint, hbound, hfound, hactive, hclaims⟩
  · rintro ⟨irs, tir, ctr, identity, h⟩
    exact ⟨identity, hregistry, registry, rfl, irs, h.irsAt, tir, h.tirAt, ctr, h.ctrAt, h.irsKey,
      h.tirKey, h.ctrKey, hmint.symm, h.tirMint.trans hmint.symm, h.ctrMint.trans hmint.symm,
      h.bound, identity, h.found, h.active, h.claims, rfl⟩

/-- The registry program reports the wallets that qualify, when the storage also
has the owner of the registry. -/
theorem reportsVerified_iff {registry : IdentityRegistryState}
    (hirp : L.accounts accts.registryState = account registry)
    (hseeds : accts.registryState = irpAddress registry.tokenMint) :
    ReportsVerified L accts wallet ↔
      ∃ irs tir ctr identity, Qualifies L registry accts wallet irs tir ctr identity ∧
        irs.owner = registry.owner := by
  simp only [ReportsVerified, evaluateVerification, deserializeView, ensureBoundRegistry,
    bind_eq_ok, load_eq_ok, requireSeeds_eq_ok, require_eq_ok, okOr_eq_ok, exists_const]
  constructor
  · rintro ⟨status, ⟨r, hr, -, irs, hirs, tir, htir, ctr, hctr, hirsKey, htirKey, hctrKey, howner,
      htirMint, hctrMint, hbound, found, hfound, hresult⟩, hverified⟩
    rw [hirp, account_inj] at hr
    subst hr
    cases found with
    | none =>
        cases hresult
        cases hverified
    | some identity =>
        by_cases hactive : identity.isActive = false
        · simp only [hactive, if_true, Except.ok.injEq] at hresult
          subst hresult
          cases hverified
        · simp only [hactive, Bool.true_eq_false, if_false, Except.ok.injEq] at hresult
          subst hresult
          rw [checkTopics_verified] at hverified
          exact ⟨irs, tir, ctr, identity, ⟨hirs, htir, hctr, hirsKey.symm, htirKey.symm,
            hctrKey.symm, htirMint, hctrMint, hbound, hfound, Bool.eq_true_of_not_eq_false hactive,
            hverified⟩, howner⟩
  · rintro ⟨irs, tir, ctr, identity, h, howner⟩
    refine ⟨checkTopics L identity.fid accts.tirState accts.remaining ctr.topics,
      ⟨registry, hirp, hseeds, irs, h.irsAt, tir, h.tirAt, ctr, h.ctrAt, h.irsKey.symm,
        h.tirKey.symm, h.ctrKey.symm, howner, h.tirMint, h.ctrMint, h.bound, some identity, h.found,
        ?_⟩, checkTopics_verified.2 h.claims⟩
    simp [h.active]

end Rule

/-! ## Histories -/

/-- Every registry is at the address of its mint. -/
def Placed (L : Ledger) : Prop :=
  Everywhere (fun k registry ↦ k = irpAddress registry.tokenMint) (L.view IdentityRegistryState)

variable {L L' : Ledger} {signers : List Pubkey}

theorem updateRegistryOwner_placed {owner registryState : Pubkey}
    {f : IdentityRegistryState → Result IdentityRegistryState}
    (h : updateRegistryOwner L signers owner registryState f = .ok L')
    (hf : ∀ old new, f old = .ok new → new.tokenMint = old.tokenMint) (hL : Placed L) :
    Placed L' := by
  simp only [updateRegistryOwner, bind_eq_ok, requireSigner_eq_ok, requireSeeds_eq_ok,
    require_eq_ok, exists_const, modify_eq_ok] at h
  obtain ⟨-, old, new, hold, ⟨-, -, hnew⟩, rfl⟩ := h
  rw [Placed, view_put]
  refine Everywhere.update hL fun a ha ↦ ?_
  obtain rfl := Option.some.inj ha
  rw [hf old _ hnew]
  exact hL _ old (view_eq_some.2 hold)

theorem process_placed {i : Instruction} (h : process L signers i = .ok L') (hL : Placed L) :
    Placed L' := by
  cases i with
  | initializeRegistry owner registryState tokenMint irs tir ctr =>
      simp only [process, initializeRegistry, bind_eq_ok] at h
      obtain ⟨_, -, hinit⟩ := h
      obtain ⟨hseeds, -, hregistries⟩ := view_initRecord hinit
      rw [Placed, hregistries]
      refine Everywhere.update hL fun a ha ↦ ?_
      obtain rfl := Option.some.inj ha
      exact hseeds
  | addIdentityAgent owner registryState agent =>
      refine updateRegistryOwner_placed h (fun old new hnew ↦ ?_) hL
      simp only [bind_eq_ok, Except.ok.injEq] at hnew
      obtain ⟨_, -, _, -, rfl⟩ := hnew
      rfl
  | removeIdentityAgent owner registryState agent =>
      refine updateRegistryOwner_placed h (fun old new hnew ↦ ?_) hL
      simp only [bind_eq_ok, Except.ok.injEq] at hnew
      obtain ⟨_, -, rfl⟩ := hnew
      rfl
  | updateIrsReference owner registryState newIrs =>
      refine updateRegistryOwner_placed h (fun old new hnew ↦ ?_) hL
      cases hnew
      rfl
  | updateTirReference owner registryState newTir =>
      refine updateRegistryOwner_placed h (fun old new hnew ↦ ?_) hL
      cases hnew
      rfl
  | updateCtrReference owner registryState newCtr =>
      refine updateRegistryOwner_placed h (fun old new hnew ↦ ?_) hL
      cases hnew
      rfl
  | transferRegistryOwnership owner registryState newOwner =>
      refine updateRegistryOwner_placed h (fun old new hnew ↦ ?_) hL
      simp only [bind_eq_ok, Except.ok.injEq] at hnew
      obtain ⟨_, -, rfl⟩ := hnew
      rfl

theorem Placed.of_frame {S : List AccountKind} (hL : Placed L) (hframe : Frame S L L')
    (hS : kind IdentityRegistryState ∉ S) : Placed L' := by
  rw [Placed, hframe.table_eq hS]
  exact hL

theorem Placed.step [Borsh] {l : Platform.Label} (hL : Placed L) (h : Platform.Step L l L') :
    Placed L' := by
  cases h with
  | instruction signers i hexternal h =>
      cases i with
      | core i => exact hL.of_frame (frame_core h) (by decide)
      | fid i => exact hL.of_frame (Fid.frame h) (by decide)
      | irs i => exact hL.of_frame (Irs.frame h) (by decide)
      | irp i => exact process_placed h hL
  | environment h => exact hL.of_frame h (by decide)

/-- In every state that a history reaches, the two verifiers agree on the registry
of a token exactly when the storage has the owner of the registry or the wallet
does not qualify. -/
theorem verifiers_agree_iff [Borsh] {labels : List Platform.Label} {tokenState : TokenState}
    {registry : IdentityRegistryState} {accts : IsVerified} (wallet : Pubkey) (hstart : Placed L)
    (hrun : Run Platform.Step L labels L')
    (hirp : L'.accounts accts.registryState = account registry)
    (hregistry : tokenState.identityRegistry = accts.registryState)
    (hmint : tokenState.tokenMint = registry.tokenMint) :
    (ReportsVerified L' accts wallet ↔ Accepts L' tokenState accts wallet) ↔
      ∀ irs tir ctr identity, Qualifies L' registry accts wallet irs tir ctr identity →
        irs.owner = registry.owner := by
  have hplaced : Placed L' := hrun.invariant (fun _ _ _ hL hstep ↦ hL.step hstep) hstart
  have hseeds := hplaced _ registry (view_eq_some.2 hirp)
  rw [reportsVerified_iff hirp hseeds, accepts_iff hirp hregistry hmint]
  constructor
  · intro hagree irs tir ctr identity h
    obtain ⟨irs', _, _, _, h', howner⟩ := hagree.2 ⟨irs, tir, ctr, identity, h⟩
    have hsame := h.irsAt
    rw [h'.irsAt, Option.some.injEq] at hsame
    rw [← hsame, howner]
  · intro howner
    constructor
    · rintro ⟨irs, tir, ctr, identity, h, -⟩
      exact ⟨irs, tir, ctr, identity, h⟩
    · rintro ⟨irs, tir, ctr, identity, h⟩
      exact ⟨irs, tir, ctr, identity, h, howner irs tir ctr identity h⟩

/-! ## A registry that gets another owner -/

/-- A token whose issuer owns both the registry and the storage. -/
def issuedDeployment : Deployment where
  tokenMint := .address 0
  issuer := .address 1
  paused := false
  modules := []
  modulesPaused := false
  metas := TokenHook.baseMetas
  wallets := [(.address 10, 276)]
  holdings := []

def issuedLedger : Ledger := issuedDeployment.ledger []

def issuedAccounts : IsVerified where
  registryState := issuedDeployment.registry.irpState
  irsState := issuedDeployment.registry.irsState
  tirState := issuedDeployment.registry.tirState
  ctrState := issuedDeployment.registry.ctrState
  walletIdentity := issuedDeployment.walletIdentity (.address 10)
  remaining := []

/-- The registry alone is handed to another owner. -/
def handOver : Platform.Label :=
  .instruction [issuedDeployment.issuer] (.irp (.transferRegistryOwnership issuedDeployment.issuer
    issuedDeployment.registry.irpState (.address 9)))

theorem issuedLedger_placed : Placed issuedLedger := by
  intro k a ha
  rw [view_eq_some] at ha
  have hextra : ∀ r ∈ ([] : List (Pubkey × Account)), ∀ a : IdentityRegistryState,
      r.2 = account a → r.1 = irpAddress a.tokenMint := by simp
  refine issuedDeployment.ledger_forall (P := fun k acc ↦ ∀ a : IdentityRegistryState,
    acc = account a → k = irpAddress a.tokenMint) hextra (fun r hr a ha ↦ ?_)
    (fun k a ha ↦ absurd ha.symm (account_ne_vacant a)) k a ha
  have hkind := congrArg Account.kind ha
  rw [kind_account] at hkind
  simp only [Deployment.records, issuedDeployment, List.map_cons, List.map_nil, List.append_nil,
    List.mem_append, List.mem_cons, List.not_mem_nil, or_false] at hr
  rcases hr with (rfl | rfl | rfl | rfl | rfl | rfl | rfl | rfl | rfl) | rfl
  case inl.inr.inr.inr.inr.inr.inl =>
    obtain rfl := account_inj.1 ha
    rfl
  all_goals simp [kind] at hkind

theorem handOver_step : ∃ L, @Platform.Step strictBorsh issuedLedger handOver L ∧
    ∃ registry : IdentityRegistryState,
      L.accounts issuedAccounts.registryState = account registry ∧
      registry.tokenMint = issuedDeployment.tokenMint ∧ registry.owner = .address 9 ∧
      ∃ irs tir ctr identity,
        @Qualifies strictBorsh L registry issuedAccounts (.address 10) irs tir ctr identity ∧
          irs.owner = issuedDeployment.issuer := by
  let _ : Borsh := strictBorsh
  obtain ⟨L, registry, h, hirp, hmint, howner, irs, tir, ctr, identity, hqualifies, hirs⟩ :
      ∃ (L : Ledger) (registry : IdentityRegistryState),
      @Platform.process strictBorsh issuedLedger [issuedDeployment.issuer]
        (.irp (.transferRegistryOwnership issuedDeployment.issuer
          issuedDeployment.registry.irpState (.address 9))) = .ok L ∧
      L.accounts issuedAccounts.registryState = account registry ∧
      registry.tokenMint = issuedDeployment.tokenMint ∧ registry.owner = .address 9 ∧
      ∃ irs tir ctr identity,
        @Qualifies strictBorsh L registry issuedAccounts (.address 10) irs tir ctr identity ∧
          irs.owner = issuedDeployment.issuer :=
    ⟨_, _, rfl, rfl, rfl, rfl, _, _, _, _, ⟨rfl, rfl, rfl, rfl, rfl, rfl, rfl, rfl,
      .head _, rfl, rfl, by simp⟩, rfl⟩
  exact ⟨L, @Platform.Step.instruction strictBorsh _ _ _ _
    (List.forall_mem_singleton.2 (Pubkey.external_address 1)) h, registry, hirp, hmint, howner,
    irs, tir, ctr, identity, hqualifies, hirs⟩

/-- After the registry has been handed over, the token controller still accepts the
wallet, while the registry program refuses the reference to the storage. -/
theorem handed_over_verifiers_disagree : ¬ ∀ (L L' : Ledger) (labels : List Platform.Label)
    (tokenState : TokenState) (registry : IdentityRegistryState) (accts : IsVerified)
    (wallet : Pubkey), Placed L → Run (@Platform.Step strictBorsh) L labels L' →
      L'.accounts accts.registryState = account registry →
        tokenState.identityRegistry = accts.registryState →
          tokenState.tokenMint = registry.tokenMint →
            (@ReportsVerified strictBorsh L' accts wallet ↔
              @Accepts strictBorsh L' tokenState accts wallet) := by
  intro hall
  let _ : Borsh := strictBorsh
  obtain ⟨L, hstep, registry, hirp, hmint, howner, irs, tir, ctr, identity, hqualifies, hirs⟩ :=
    handOver_step
  have hagree := hall _ _ _ issuedDeployment.tokenStateRecord registry issuedAccounts
    (.address 10) issuedLedger_placed (.single hstep) hirp rfl hmint.symm
  have haccepts := (@accepts_iff strictBorsh L (.address 10) issuedAccounts
    issuedDeployment.tokenStateRecord registry hirp rfl hmint.symm).2
      ⟨irs, tir, ctr, identity, hqualifies⟩
  have hseeds : issuedAccounts.registryState = irpAddress registry.tokenMint := by
    rw [hmint]
    rfl
  obtain ⟨irs', _, _, _, hqualifies', howner'⟩ :=
    (@reportsVerified_iff strictBorsh L (.address 10) issuedAccounts registry hirp hseeds).1
      (hagree.2 haccepts)
  have hsame := hqualifies.irsAt
  rw [hqualifies'.irsAt, Option.some.injEq] at hsame
  rw [hsame, hirs, howner] at howner'
  exact absurd howner' (by decide)

theorem issued_verifiers_agree : ∃ registry : IdentityRegistryState,
    issuedLedger.accounts issuedAccounts.registryState = account registry ∧
      ((@ReportsVerified strictBorsh issuedLedger issuedAccounts (.address 10) ↔
        @Accepts strictBorsh issuedLedger issuedDeployment.tokenStateRecord issuedAccounts
          (.address 10)) ↔
        ∀ irs tir ctr identity, @Qualifies strictBorsh issuedLedger registry issuedAccounts
          (.address 10) irs tir ctr identity → irs.owner = registry.owner) :=
  ⟨_, rfl, @verifiers_agree_iff _ _ strictBorsh [] issuedDeployment.tokenStateRecord _
    issuedAccounts (.address 10) issuedLedger_placed (.nil _) rfl rfl rfl⟩

end Fracks.Irp
