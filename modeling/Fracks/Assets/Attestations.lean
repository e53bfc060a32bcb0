import Fracks.Assets.Reachability

/-!
# Attestations

Who can attest on an asset is decided by the FID of the signer and by a registry
of issuers that the caller brings.  Neither the registry nor, outside
`attest_custody`, the FID is compared with the asset, so the parties of the asset
are pinned exactly in the ledgers where no other registry or FID will do.
-/

namespace Fracks.Assets

open Checked AccountType Ledger Runs

variable {L L' : Ledger} {signers : List Pubkey} {k wallet : Pubkey}

/-! ## Trust -/

/-- The registry at `tir` trusts the FID for the topic. -/
structure TrustsFid (L : Ledger) (tir fid : Pubkey) (topic : ℕ) : Prop where
  registry : ∃ state : TrustedIssuersState, L.accounts tir = account state
  entry : ∃ (x : Pubkey) (e : IssuerEntry), L.accounts x = account e ∧ e.tir = tir ∧
    e.issuerFid = fid ∧ e.isActive = true ∧ topic ∈ e.allowedTopics

/-- The account is a FID of the wallet. -/
def OwnsFid (L : Ledger) (wallet fidAccount : Pubkey) : Prop :=
  ∃ fid : FidAccount, L.accounts fidAccount = account fid ∧ fid.owner = wallet

/-- The wallet has a FID that the registry trusts for the topic. -/
def TrustedWallet (L : Ledger) (tir wallet : Pubkey) (topic : ℕ) : Prop :=
  ∃ fid, OwnsFid L wallet fid ∧ TrustsFid L tir fid topic

/-! ## The instructions of a role -/

/-- An instruction under the FID of its signer, without its accounts. -/
inductive RoleCall
  | attestCustody (documentHash attestationHash : ℕ) (validitySeconds : ℤ)
  | attestReserve (reserveRatioBps attestationHash : ℕ) (validitySeconds : ℤ)
  | attestValuation (nav methodologyHash navValidityDays : ℕ)
  | acceptCustodyMandate
  | signRedemptionEvent (redemptionHash : ℕ)
  | attestMilestone (milestoneId certHash completionBps updatedNav : ℕ)

namespace RoleCall

def instruction (accts : RoleAccounts) : RoleCall → Instruction
  | attestCustody documentHash attestationHash validitySeconds =>
      .attestCustody accts documentHash attestationHash validitySeconds
  | attestReserve reserveRatioBps attestationHash validitySeconds =>
      .attestReserve accts reserveRatioBps attestationHash validitySeconds
  | attestValuation nav methodologyHash navValidityDays =>
      .attestValuation accts nav methodologyHash navValidityDays
  | acceptCustodyMandate => .acceptCustodyMandate accts
  | signRedemptionEvent redemptionHash => .signRedemptionEvent accts redemptionHash
  | attestMilestone milestoneId certHash completionBps updatedNav =>
      .attestMilestone accts milestoneId certHash completionBps updatedNav

def topic : RoleCall → ℕ
  | attestCustody .. | attestReserve .. | acceptCustodyMandate | signRedemptionEvent _ =>
      topicCustodianAuthority
  | attestValuation .. => topicValuationAuthority
  | attestMilestone .. => topicConstructionAuthority

/-- The arguments pass their checks at time `now`. -/
def Valid (now : ℤ) : RoleCall → Prop
  | attestCustody _ _ validitySeconds =>
      0 < validitySeconds ∧ ∃ expiry, checkedAddI64 now validitySeconds = some expiry
  | attestReserve reserveRatioBps _ validitySeconds =>
      reserveRatioBps ≤ 10000 ∧ 0 < validitySeconds ∧
        ∃ expiry, checkedAddI64 now validitySeconds = some expiry
  | attestValuation nav _ navValidityDays => 0 < nav ∧ 0 < navValidityDays
  | acceptCustodyMandate | signRedemptionEvent _ => True
  | attestMilestone milestoneId _ completionBps updatedNav =>
      0 < milestoneId ∧ completionBps ≤ 10000 ∧ 0 < updatedNav

/-- The instruction of the custodian of the asset. -/
def Custodial : RoleCall → Prop
  | attestValuation .. | attestMilestone .. => False
  | _ => True

/-- The instruction compares the FID of its signer with the asset's custodian. -/
def ComparesFid : RoleCall → Prop
  | attestCustody .. => True
  | _ => False

/-- The FID that the entry of the registry is about. -/
def expectedFid (r : AssetRegistry) (fidAccount : Pubkey) : RoleCall → Pubkey
  | attestValuation .. | attestMilestone .. => fidAccount
  | _ => r.custodianFid

theorem succeeds_iff {c : RoleCall} {program : ProgramName} {accts : RoleAccounts} :
    (∃ L', process program L signers (c.instruction accts) = .ok L') ↔
      ∃ r fid entry, RoleContext program L signers accts r fid entry ∧ c.Valid L.now ∧
        entry.issuerFid = c.expectedFid r accts.fidAccount ∧ entry.isActive = true ∧
        c.topic ∈ entry.allowedTopics ∧ (c.ComparesFid → accts.fidAccount = r.custodianFid) := by
  cases c
  all_goals
    simp only [instruction, process, Assets.attestCustody, Assets.attestReserve,
      Assets.attestValuation, Assets.acceptCustodyMandate, Assets.signRedemptionEvent,
      Assets.attestMilestone, withRole_eq_ok, bind_eq_ok, require_eq_ok, exists_const,
      validateRoleTopic_eq_ok, validatePositiveValidity_eq_ok, okOr_eq_ok, Except.ok.injEq, Valid,
      expectedFid, topic, ComparesFid]
    constructor
    · rintro ⟨L', r, fid, entry, r', hcontext, hf, rfl⟩
      exact ⟨r, fid, entry, hcontext, by grind⟩
    · rintro ⟨r, fid, entry, hcontext, hf⟩
      have htir := hcontext.entryTir
      have howner := hcontext.fidOwner
      grind

/-- Who can make the call on an asset: a wallet with a FID, by some registry. -/
theorem possible_iff {c : RoleCall} {r : AssetRegistry} (hr : L.accounts k = account r)
    (hk : k = assetRegistryAddress r.assetId) :
    (∃ signers accts L', accts.assetRegistry = k ∧ accts.signer = wallet ∧
        process .fracksFid L signers (c.instruction accts) = .ok L') ↔
      c.Valid L.now ∧ OwnsFid L wallet (Fid.fidAddress wallet) ∧
        (c.ComparesFid → Fid.fidAddress wallet = r.custodianFid) ∧
        ∃ tir, TrustsFid L tir (c.expectedFid r (Fid.fidAddress wallet)) c.topic := by
  constructor
  · rintro ⟨signers, accts, L', rfl, rfl, h⟩
    obtain ⟨s, fid, entry, hcontext, hvalid, hfid, hactive, htopic, hcompared⟩ :=
      succeeds_iff.1 ⟨L', h⟩
    obtain rfl := account_inj.1 (hr.symm.trans hcontext.assetAt)
    have hkey : accts.fidAccount = Fid.fidAddress accts.signer := hcontext.fidKey
    rw [hkey] at hfid hcompared
    refine ⟨hvalid, ⟨fid, hkey ▸ hcontext.fidAt, hcontext.fidOwner⟩, hcompared, accts.tirState,
      hcontext.registryAt, ?_⟩
    exact ⟨accts.issuerEntry, entry, hcontext.entryAt, hcontext.entryTir, hfid, hactive, htopic⟩
  · rintro ⟨hvalid, ⟨fid, hfid, howner⟩, hcompared, tir, hregistry, x, entry, hentry, htir,
      hissuer, hactive, htopic⟩
    let accts : RoleAccounts := ⟨wallet, k, Fid.fidAddress wallet, tir, x⟩
    have hcontext : RoleContext .fracksFid L [wallet] accts r fid entry :=
      ⟨List.mem_singleton_self _, hr, hk, hfid, rfl, howner, hregistry, hentry, htir⟩
    obtain ⟨L', h⟩ := succeeds_iff.2
      ⟨r, fid, entry, hcontext, hvalid, hissuer, hactive, htopic, hcompared⟩
    exact ⟨[wallet], accts, L', rfl, rfl, h⟩

/-- The attestations that the registry of the asset's mint is to vouch for. -/
def Attesting : RoleCall → Prop
  | attestCustody .. | attestValuation .. | attestMilestone .. => True
  | _ => False

theorem Attesting.expectedFid_eq {c : RoleCall} {r : AssetRegistry} {fidAccount : Pubkey}
    (hc : c.Attesting) (hcompared : c.ComparesFid → fidAccount = r.custodianFid) :
    c.expectedFid r fidAccount = fidAccount := by
  cases c with
  | attestCustody => exact (hcompared trivial).symm
  | attestValuation | attestMilestone => rfl
  | _ => exact hc.elim

theorem Custodial.expectedFid_eq {c : RoleCall} {r : AssetRegistry} {fidAccount : Pubkey}
    (hc : c.Custodial) : c.expectedFid r fidAccount = r.custodianFid := by
  cases c with
  | attestValuation | attestMilestone => exact hc.elim
  | _ => rfl

theorem Custodial.topic_eq {c : RoleCall} (hc : c.Custodial) :
    c.topic = topicCustodianAuthority := by
  cases c with
  | attestValuation | attestMilestone => exact hc.elim
  | _ => rfl

end RoleCall

/-! ## The registry of the asset's mint -/

/-- An attestation takes a FID that the registry of the asset's mint trusts exactly
if every wallet with a FID that another registry trusts is trusted by that one too. -/
theorem attestations_bound_iff {r : AssetRegistry} (hr : L.accounts k = account r)
    (hk : k = assetRegistryAddress r.assetId) {c : RoleCall} (hc : c.Attesting) :
    (∀ signers accts L', accts.assetRegistry = k →
        process .fracksFid L signers (c.instruction accts) = .ok L' →
          TrustedWallet L (Tir.tirAddress r.tokenMint) accts.signer c.topic) ↔
      (c.Valid L.now → ∀ tir wallet, tir ≠ Tir.tirAddress r.tokenMint →
        OwnsFid L wallet (Fid.fidAddress wallet) →
          (c.ComparesFid → Fid.fidAddress wallet = r.custodianFid) →
            TrustsFid L tir (Fid.fidAddress wallet) c.topic →
              TrustedWallet L (Tir.tirAddress r.tokenMint) wallet c.topic) := by
  constructor
  · intro hbound hvalid tir wallet _ howns hcompared htrusts
    rw [← hc.expectedFid_eq hcompared] at htrusts
    obtain ⟨signers, accts, L', hasset, rfl, h⟩ :=
      (RoleCall.possible_iff hr hk).2 ⟨hvalid, howns, hcompared, tir, htrusts⟩
    exact hbound signers accts L' hasset h
  · intro hothers signers accts L' hasset h
    obtain ⟨hvalid, howns, hcompared, tir, htrusts⟩ :=
      (RoleCall.possible_iff hr hk).1 ⟨signers, accts, L', hasset, rfl, h⟩
    rw [hc.expectedFid_eq hcompared] at htrusts
    by_cases hown : tir = Tir.tirAddress r.tokenMint
    · exact ⟨_, howns, hown ▸ htrusts⟩
    · exact hothers hvalid tir accts.signer hown howns hcompared htrusts

/-! ## A registry of the outsider -/

theorem registered : ∃ (L₀ : Ledger) (r : AssetRegistry),
    process .fracksFid assetLedger [assetIssuer] assetRegistration =
    .ok L₀ ∧ L₀.accounts assetKey = account r ∧ assetKey = assetRegistryAddress r.assetId ∧
      r.tokenMint = assetMint ∧ r.custodianFid = Fid.fidAddress assetCustodian :=
  ⟨_, _, rfl, rfl, rfl, rfl, rfl⟩

theorem outsider_valuation : ∃ L₀ L₁,
    process .fracksFid assetLedger [assetIssuer] assetRegistration = .ok L₀ ∧
      process .fracksFid L₀ [outsider] ((RoleCall.attestValuation 1000 5 30).instruction
        (roleAccounts outsider otherMint outsider)) = .ok L₁ :=
  ⟨_, _, rfl, rfl⟩

theorem assetLedger_fidsDerived : FidsDerived assetLedger := by
  have hfids : ∀ k, ((decode (assetLedger.accounts k).data : Option FidAccount).all
      fun fid ↦ k = Fid.fidAddress fid.owner) = true :=
    ofRecords_forall (P := fun k acc ↦ ((decode acc.data : Option FidAccount).all
      fun fid ↦ k = Fid.fidAddress fid.owner) = true) (by decide) fun _ ↦ rfl
  intro k fid hfid
  have hk := hfids k
  rw [view_eq_some.1 hfid, account_data, decode_encode] at hk
  simpa using hk

theorem assetLedger_entries {x : Pubkey} {e : IssuerEntry}
    (he : assetLedger.accounts x = account e) (htir : e.tir = Tir.tirAddress assetMint) :
    e.issuerFid ≠ Fid.fidAddress outsider := by
  have hentries : ∀ k, ((decode (assetLedger.accounts k).data : Option IssuerEntry).all
      fun e ↦ e.tir = Tir.tirAddress assetMint → e.issuerFid ≠ Fid.fidAddress outsider) = true :=
    ofRecords_forall (P := fun _ acc ↦ ((decode acc.data : Option IssuerEntry).all
      fun e ↦ e.tir = Tir.tirAddress assetMint → e.issuerFid ≠ Fid.fidAddress outsider) = true)
      (by decide) fun _ ↦ rfl
  have hx := hentries x
  rw [he, account_data, decode_encode] at hx
  have hnot : ¬ e.tir = Tir.tirAddress assetMint ∨ ¬ e.issuerFid = Fid.fidAddress outsider := by
    simpa using hx
  exact hnot.resolve_left fun hne ↦ hne htir

/-- The registry of the asset's mint never heard of the outsider. -/
theorem outsider_untrusted {L₀ : Ledger} {topic : ℕ}
    (h : process .fracksFid assetLedger [assetIssuer] assetRegistration = .ok L₀) :
    ¬ TrustedWallet L₀ (Tir.tirAddress assetMint) outsider topic := by
  have hframe := process_frame h
  have hderived : FidsDerived L₀ := assetLedger_fidsDerived.of_frame hframe (by decide)
  rintro ⟨f, ⟨fid, hfid, howner⟩, -, x, e, he, htir, hissuer, -⟩
  have hf : f = Fid.fidAddress outsider := howner ▸ hderived f fid (view_eq_some.2 hfid)
  rw [← view_eq_some, hframe.view_eq (by decide), view_eq_some] at he
  exact assetLedger_entries he htir (hissuer.trans hf)

/-- A registry that the outsider opened for another mint vouches for a valuation. -/
theorem foreign_registry_attests : ¬ ∀ (L : Ledger) (k : Pubkey) (r : AssetRegistry)
    (c : RoleCall), L.accounts k = account r → k = assetRegistryAddress r.assetId →
      c.Attesting → ∀ signers accts L', accts.assetRegistry = k →
        process .fracksFid L signers (c.instruction accts) = .ok L' →
          TrustedWallet L (Tir.tirAddress r.tokenMint) accts.signer c.topic := by
  intro hclaim
  obtain ⟨L₀, L₁, hregistered, hattested⟩ := outsider_valuation
  obtain ⟨_, r, hr₀, hr, hk, hmint, -⟩ := registered
  obtain rfl := Except.ok.inj (hregistered.symm.trans hr₀)
  have htrusted := hclaim L₀ assetKey r (.attestValuation 1000 5 30) hr hk trivial
    _ _ _ rfl hattested
  rw [hmint] at htrusted
  exact outsider_untrusted hregistered htrusted

theorem registered_trusts {L₀ : Ledger}
    (h : process .fracksFid assetLedger [assetIssuer] assetRegistration = .ok L₀) :
    TrustsFid L₀ (Tir.tirAddress assetMint) (Fid.fidAddress assetCustodian)
      topicCustodianAuthority := by
  have hframe := process_frame h
  have htir : ∃ state, assetLedger.view TrustedIssuersState (Tir.tirAddress assetMint) =
      some state := ⟨_, rfl⟩
  have hentry : ∃ e, assetLedger.view IssuerEntry (Tir.issuerEntryAddress
      (Tir.tirAddress assetMint) (Fid.fidAddress assetCustodian)) = some e ∧
        e.tir = Tir.tirAddress assetMint ∧ e.issuerFid = Fid.fidAddress assetCustodian ∧
          e.isActive = true ∧ topicCustodianAuthority ∈ e.allowedTopics :=
    ⟨_, rfl, rfl, rfl, rfl, by decide⟩
  obtain ⟨state, hstate⟩ := htir
  obtain ⟨e, he, hentry⟩ := hentry
  rw [← hframe.view_eq (by decide), view_eq_some] at hstate he
  exact ⟨⟨state, hstate⟩, _, e, he, hentry⟩

/-- The custodian is the only one who attests custody, and its registry knows it. -/
theorem custody_attestation_bound : ∃ (L₀ : Ledger) (r : AssetRegistry),
    L₀.accounts assetKey = account r ∧ ∀ signers accts L', accts.assetRegistry = assetKey →
      process .fracksFid L₀ signers (.attestCustody accts 1 2 100) = .ok L' →
        TrustedWallet L₀ (Tir.tirAddress r.tokenMint) accts.signer topicCustodianAuthority := by
  obtain ⟨L₀, r, hregistered, hr, hk, hmint, hcustodian⟩ := registered
  refine ⟨L₀, r, hr, ?_⟩
  refine (attestations_bound_iff hr hk (c := .attestCustody 1 2 100) trivial).2 ?_
  intro _ tir wallet _ howns hcompared _
  refine ⟨_, howns, ?_⟩
  rw [hcompared trivial, hcustodian, hmint]
  exact registered_trusts hregistered

/-! ## The FID of the custodian -/

/-- The custodian's instructions take only the owner of the asset's custodian FID
exactly if they compare it, or fail, or if there is nobody else. -/
theorem custodian_only_iff {r : AssetRegistry} (hr : L.accounts k = account r)
    (hk : k = assetRegistryAddress r.assetId) {c : RoleCall} (hc : c.Custodial) :
    (∀ signers accts L', accts.assetRegistry = k →
        process .fracksFid L signers (c.instruction accts) = .ok L' →
          OwnsFid L accts.signer r.custodianFid) ↔
      c.ComparesFid ∨ ¬ c.Valid L.now ∨
        (¬ ∃ tir, TrustsFid L tir r.custodianFid topicCustodianAuthority) ∨
          ∀ wallet, OwnsFid L wallet (Fid.fidAddress wallet) → OwnsFid L wallet r.custodianFid := by
  constructor
  · intro honly
    by_cases hcompares : c.ComparesFid
    · exact .inl hcompares
    by_cases hvalid : c.Valid L.now
    · refine .inr (.inr (or_iff_not_imp_left.2 fun htrusted wallet howns ↦ ?_))
      obtain ⟨tir, htrusts⟩ := not_not.1 htrusted
      have hexpected : c.expectedFid r (Fid.fidAddress wallet) = r.custodianFid := hc.expectedFid_eq
      rw [← hc.topic_eq, ← hexpected] at htrusts
      obtain ⟨signers, accts, L', hasset, rfl, h⟩ :=
        (RoleCall.possible_iff hr hk).2 ⟨hvalid, howns, fun h ↦ absurd h hcompares, tir, htrusts⟩
      exact honly signers accts L' hasset h
    · exact .inr (.inl hvalid)
  · intro hcondition signers accts L' hasset h
    obtain ⟨hvalid, howns, hcompared, tir, htrusts⟩ :=
      (RoleCall.possible_iff hr hk).1 ⟨signers, accts, L', hasset, rfl, h⟩
    rw [hc.topic_eq, hc.expectedFid_eq] at htrusts
    rcases hcondition with hcompares | hinvalid | huntrusted | hnobody
    · exact hcompared hcompares ▸ howns
    · exact absurd hvalid hinvalid
    · exact absurd ⟨tir, htrusts⟩ huntrusted
    · exact hnobody accts.signer howns

/-- The outsider under its own FID, with the entry of the asset's custodian. -/
theorem outsider_accepts : ∃ L₀ L₁,
    process .fracksFid assetLedger [assetIssuer] assetRegistration = .ok L₀ ∧
      process .fracksFid L₀ [outsider] (RoleCall.acceptCustodyMandate.instruction
        (roleAccounts outsider assetMint assetCustodian)) = .ok L₁ :=
  ⟨_, _, rfl, rfl⟩

theorem outsider_accepts_mandate : ¬ ∀ (L : Ledger) (k : Pubkey) (r : AssetRegistry)
    (c : RoleCall), L.accounts k = account r → k = assetRegistryAddress r.assetId →
      c.Custodial → ∀ signers accts L', accts.assetRegistry = k →
        process .fracksFid L signers (c.instruction accts) = .ok L' →
          OwnsFid L accts.signer r.custodianFid := by
  intro hclaim
  obtain ⟨L₀, L₁, hregistered, haccepted⟩ := outsider_accepts
  obtain ⟨_, r, hr₀, hr, hk, -, hcustodian⟩ := registered
  obtain rfl := Except.ok.inj (hregistered.symm.trans hr₀)
  obtain ⟨fid, hfid, howner⟩ := hclaim L₀ assetKey r .acceptCustodyMandate hr hk trivial
    _ _ _ rfl haccepted
  have hderived : FidsDerived L₀ :=
    assetLedger_fidsDerived.of_frame (process_frame hregistered) (by decide)
  have hkey : r.custodianFid = Fid.fidAddress fid.owner := hderived _ fid (view_eq_some.2 hfid)
  rw [hcustodian, howner] at hkey
  exact absurd hkey (by decide)

theorem compared_attestation_pinned : ∃ (L₀ : Ledger) (r : AssetRegistry),
    L₀.accounts assetKey = account r ∧ ∀ signers accts L', accts.assetRegistry = assetKey →
      process .fracksFid L₀ signers (.attestCustody accts 1 2 100) = .ok L' →
        OwnsFid L₀ accts.signer r.custodianFid := by
  obtain ⟨L₀, r, -, hr, hk, -, -⟩ := registered
  refine ⟨L₀, r, hr, ?_⟩
  exact (custodian_only_iff hr hk (c := .attestCustody 1 2 100) trivial).2 (.inl trivial)

end Fracks.Assets
