import Fracks.Identity.ClaimSearch
import Fracks.Identity.Seals
import Fracks.Identity.Verifiers
import Fracks.MintClaims
import Mathlib.Data.Fintype.Basic

/-!
# Verification and strangers

Whether a wallet is verified is the business of the keepers of the registries of its token, of
the issuers they trust, of those who made its claims and of its holder.  In a history in which
none of these keys signs, a wallet that is verified stays so until a claim expires, and one that
is not does not become so.
-/

namespace Fracks

open Checked AccountType Ledger Runs

/-! ## Steps of the suite -/

namespace Suite

def Label.signers : Label → List Pubkey
  | .instruction signers _ => signers
  | .environment => []

variable [Borsh] {L L' : Ledger} {l : Label}

/-- A step leaves the accounts of some kinds alone. -/
def Spares (kinds : List AccountKind) (L L' : Ledger) : Prop :=
  ∃ S, Frame S L L' ∧ ∀ kind ∈ kinds, kind ∉ S

/-- The programs of the suite.  Those of the core write accounts of one another and count as one. -/
inductive Program
  | core
  | fid
  | irs
  | irp
  | tir
  | ctr
  | factory
  deriving DecidableEq

namespace Program

instance : Fintype Program where
  elems := {core, fid, irs, irp, tir, ctr, factory}
  complete p := by cases p <;> decide

def Instruction : Program → Type
  | core => Fracks.Instruction
  | fid => Fid.Instruction
  | irs => Irs.Instruction
  | irp => Irp.Instruction
  | tir => Tir.Instruction
  | ctr => Ctr.Instruction
  | factory => Factory.Instruction

def process (L : Ledger) (signers : List Pubkey) : (p : Program) → p.Instruction → Result Ledger
  | core, i => Fracks.process L signers i
  | fid, i => Fid.process L signers i
  | irs, i => Irs.process L signers i
  | irp, i => Irp.process L signers i
  | tir, i => Tir.process L signers i
  | ctr, i => Ctr.process L signers i
  | factory, i => Factory.process L signers i

/-- The kinds of accounts a program writes. -/
def kinds : Program → List AccountKind
  | core => coreKinds ++ Irs.identityKinds
  | fid => Fid.fidKinds
  | irs => Irs.kinds
  | irp => [.identityRegistryState]
  | tir => Tir.tirKinds
  | ctr => [.claimTopicsState]
  | factory => Factory.factoryKinds

theorem frame {signers : List Pubkey} {p : Program} {i : p.Instruction}
    (h : process L signers p i = .ok L') : Frame p.kinds L L' := by
  cases p with
  | core => exact frame_core h
  | fid => exact Fid.frame h
  | irs => exact Irs.frame h
  | irp => exact Irp.frame h
  | tir => exact Tir.frame h
  | ctr => exact Ctr.frame h
  | factory => exact Factory.frame h

/-- No other program writes the kinds of this one. -/
def Alone (p : Program) : Prop :=
  ∀ kind ∈ p.kinds, kind ∉ outsideKinds ∧ ∀ q, q ≠ p → kind ∉ q.kinds

instance (p : Program) : Decidable p.Alone := by
  unfold Alone
  infer_instance

end Program

/-- A step is an instruction of one of the programs or a change outside the suite. -/
theorem Step.by_program (h : Step L l L') :
    (∃ p i, Program.process L l.signers p i = .ok L') ∨ Frame outsideKinds L L' := by
  cases h with
  | instruction signers i hexternal h =>
      left
      cases i with
      | platform i =>
          cases i with
          | core i => exact ⟨.core, i, h⟩
          | fid i => exact ⟨.fid, i, h⟩
          | irs i => exact ⟨.irs, i, h⟩
          | irp i => exact ⟨.irp, i, h⟩
      | tir i => exact ⟨.tir, i, h⟩
      | ctr i => exact ⟨.ctr, i, h⟩
      | factory i => exact ⟨.factory, i, h⟩
  | environment hframe => exact .inr hframe

/-- A program that writes its kinds alone makes the step, or they are spared. -/
theorem Step.process_or_spares (h : Step L l L') (p : Program) (hp : p.Alone) :
    (∃ i, Program.process L l.signers p i = .ok L') ∨ Spares p.kinds L L' := by
  cases h.by_program with
  | inl hprocess =>
      obtain ⟨q, i, hprocess⟩ := hprocess
      by_cases hq : q = p
      · subst hq
        exact .inl ⟨i, hprocess⟩
      · exact .inr ⟨_, Program.frame hprocess, fun kind hkind ↦ (hp kind hkind).2 q hq⟩
  | inr hframe => exact .inr ⟨_, hframe, fun kind hkind ↦ (hp kind hkind).1⟩

/-- The identities are written by the storage, by a recovery that is finalized, or not at all. -/
theorem Step.undisturbed {office : Irs.Office} (h : Step L l L') (hL : Irs.Enrolled L)
    (hoffice : office.In L) (hsilent : ∀ a ∈ l.signers, ¬ office.Acts a) :
    office.Undisturbed l.signers L L' := by
  have hframe : ∀ S, Frame S L L' → AccountKind.identityRegistryStorageState ∉ S →
      AccountKind.identityRegistryState ∉ S → AccountKind.walletIdentity ∉ S →
        office.Undisturbed l.signers L L' := by
    intro S hS hstorage hregistry hidentity
    exact (hoffice.of_frame hS hstorage hregistry).undisturbed (hS.table_eq hidentity)
  cases h with
  | instruction signers i hexternal h =>
      cases i with
      | platform i =>
          cases i with
          | core i =>
              by_cases hi : i.Finalizes
              · obtain ⟨operator, accts, lostWallet, newWallet, amount, hcore⟩ := hi
                have hrun := process_core h
                rw [hcore] at hrun
                obtain ⟨_, lost, L₁, L₂, -, -, -, -, -, -, -, hcalls⟩ :=
                  Token.finalizeRecovery_ok hrun
                exact Irs.finalizeCalls_undisturbed hcalls hL hoffice hsilent
              · exact hframe _ (frame_core_of_not_finalizes hi h) (by decide) (by decide)
                  (by decide)
          | fid i => exact hframe _ (Fid.frame h) (by decide) (by decide) (by decide)
          | irs i => exact Irs.process_undisturbed h hL hoffice hsilent
          | irp i =>
              have hregistries : ∀ irp ∈ office.storage.boundRegistries,
                  L'.view IdentityRegistryState irp = some (office.registries irp) := by
                intro irp hirp
                apply Irp.process_kept h (hoffice.registries irp hirp)
                intro howner
                exact hsilent _ howner (.registryOwner hirp)
              obtain ⟨n, hn⟩ := hoffice.storage
              have hkept : office.In L' := by
                refine ⟨⟨n, ?_⟩, hregistries⟩
                rw [(Irp.frame h).view_eq (by decide), hn]
              exact hkept.undisturbed ((Irp.frame h).table_eq (by decide))
      | tir i => exact hframe _ (Tir.frame h) (by decide) (by decide) (by decide)
      | ctr i => exact hframe _ (Ctr.frame h) (by decide) (by decide) (by decide)
      | factory i => exact hframe _ (Factory.frame h) (by decide) (by decide) (by decide)
  | environment hS => exact hframe _ hS (by decide) (by decide) (by decide)

end Suite

/-! ## The registries of a token -/

namespace Irp

/-- What the verification of a wallet reads of the registries of a token. -/
structure Dossier where
  accts : IsVerified
  registry : IdentityRegistryState
  office : Irs.Office
  issuers : TrustedIssuersState
  topics : ClaimTopicsState

/-- The keys that write these registries. -/
inductive Dossier.Keeper (d : Dossier) : Pubkey → Prop
  | registry : Keeper d d.registry.owner
  | issuers : Keeper d d.issuers.owner
  | topics : Keeper d d.topics.owner
  | actor {a : Pubkey} : d.office.Acts a → Keeper d a

/-- The accounts hold the registries. -/
structure Dossier.In (d : Dossier) (L : Ledger) : Prop where
  registryAt : L.view IdentityRegistryState d.accts.registryState = some d.registry
  office : d.office.In L
  irs : d.accts.irsState = d.office.irs
  issuersAt : L.view TrustedIssuersState d.accts.tirState = some d.issuers
  topicsAt : L.view ClaimTopicsState d.accts.ctrState = some d.topics

/-- The registries are as in an earlier state, and the identities of the storage are among
those of that state. -/
structure Dossier.Since (d : Dossier) (L₀ L : Ledger) : Prop where
  stands : d.In L
  entries : ∀ k (entry : IssuerEntry), entry.tir = d.accts.tirState →
    (L.view IssuerEntry k = some entry ↔ L₀.view IssuerEntry k = some entry)
  identities : ∀ k (identity : WalletIdentity), identity.irs = d.accts.irsState →
    L.view WalletIdentity k = some identity → L₀.view WalletIdentity k = some identity

section Strangers

variable [Borsh] {L₀ L L' : Ledger} {l : Suite.Label} {d : Dossier}

omit [Borsh] in
theorem Dossier.In.since (h : d.In L) : d.Since L L :=
  ⟨h, fun _ _ _ ↦ Iff.rfl, fun _ _ _ hview ↦ hview⟩

theorem Dossier.Since.step (h : d.Since L₀ L) (hstep : Suite.Step L l L') (hL : Irs.Enrolled L)
    (hsilent : ∀ a ∈ l.signers, ¬ d.Keeper a) : d.Since L₀ L' := by
  have hundisturbed : d.office.Undisturbed l.signers L L' := by
    apply hstep.undisturbed hL h.stands.office
    intro a ha hacts
    exact hsilent a ha (.actor hacts)
  have hissuers : Tir.Kept L L' d.accts.tirState := by
    cases hstep.process_or_spares .tir (by decide) with
    | inl hprocess =>
        obtain ⟨i, hprocess⟩ := hprocess
        apply Tir.process_kept h.stands.issuersAt _ hprocess
        intro howner
        exact hsilent _ howner .issuers
    | inr hspares =>
        obtain ⟨S, hframe, hS⟩ := hspares
        constructor
        · rw [hframe.view_eq (hS _ (by decide))]
        · intro k entry _
          rw [hframe.view_eq (hS _ (by decide))]
  constructor
  · constructor
    · cases hstep.process_or_spares .irp (by decide) with
      | inl hprocess =>
          obtain ⟨i, hprocess⟩ := hprocess
          apply process_kept hprocess h.stands.registryAt
          intro howner
          exact hsilent _ howner .registry
      | inr hspares =>
          obtain ⟨S, hframe, hS⟩ := hspares
          rw [hframe.view_eq (hS _ (by decide)), h.stands.registryAt]
    · exact hundisturbed.stands
    · exact h.stands.irs
    · rw [hissuers.state, h.stands.issuersAt]
    · cases hstep.process_or_spares .ctr (by decide) with
      | inl hprocess =>
          obtain ⟨i, hprocess⟩ := hprocess
          apply Ctr.process_kept hprocess h.stands.topicsAt
          intro howner
          exact hsilent _ howner .topics
      | inr hspares =>
          obtain ⟨S, hframe, hS⟩ := hspares
          rw [hframe.view_eq (hS _ (by decide)), h.stands.topicsAt]
  · intro k entry htir
    rw [hissuers.entries k entry htir, h.entries k entry htir]
  · intro k identity hirs hview
    apply h.identities k identity hirs
    apply hundisturbed.written k identity _ hview
    rw [hirs, h.stands.irs]

/-! ## No verification without a keeper or an issuer -/

/-- The key can sign claims that the registry of issuers accepts. -/
def Dossier.Trusts (d : Dossier) (L : Ledger) (a : Pubkey) : Prop :=
  ∃ k entry, L.view IssuerEntry k = some entry ∧ entry.tir = d.accts.tirState ∧
    entry.issuerFid = Fid.fidAddress a

/-- The claims of trusted signers are among those of the earlier state. -/
def Dossier.NoNewClaims (d : Dossier) (L₀ L : Ledger) : Prop :=
  ∀ k (claim : ClaimAccount), L.view ClaimAccount k = some claim → d.Trusts L₀ claim.signerKey →
    L₀.view ClaimAccount k = some claim

theorem Dossier.NoNewClaims.step (h : d.NoNewClaims L₀ L) (hstep : Suite.Step L l L')
    (hL : Fid.Filed L) (hsilent : ∀ a ∈ l.signers, ¬ d.Trusts L₀ a) : d.NoNewClaims L₀ L' := by
  intro k claim hclaim htrusted
  cases hstep.process_or_spares .fid (by decide) with
  | inl hprocess =>
      obtain ⟨i, hprocess⟩ := hprocess
      cases Fid.process_claims_signed hprocess hL hclaim with
      | inl hold => exact h k claim hold htrusted
      | inr hsigned => exact absurd htrusted (hsilent _ hsigned)
  | inr hspares =>
      obtain ⟨S, hframe, hS⟩ := hspares
      rw [hframe.view_eq (hS _ (by decide))] at hclaim
      exact h k claim hclaim htrusted

/-- At the addresses of identities there is nothing else. -/
def OnlyIdentities (L : Ledger) : Prop :=
  ∀ irs wallet, L.accounts (walletIdentityAddress irs wallet) = .vacant ∨
    ∃ identity : WalletIdentity,
      L.accounts (walletIdentityAddress irs wallet) = account identity

theorem findWalletIdentity_ok {wallet irs walletIdentity : Pubkey} {identity : WalletIdentity}
    (h : findWalletIdentity L wallet irs walletIdentity = .ok (some identity)) :
    (L.accounts walletIdentity).owner ≠ .default ∧
      walletIdentity = walletIdentityAddress irs wallet ∧
      Borsh.decodeView WalletIdentity (L.accounts walletIdentity).data = some identity ∧
        identity.wallet = wallet ∧ identity.irs = irs := by
  unfold findWalletIdentity at h
  split at h
  case isTrue => cases h
  case isFalse howner =>
    split at h
    case isTrue => cases h
    case isFalse hkey =>
      simp only [deserializeView, bind_eq_ok, okOr_eq_ok] at h
      obtain ⟨found, hfound, h⟩ := h
      split at h
      case isTrue => cases h
      case isFalse hmatch =>
        obtain rfl := Option.some.inj (Except.ok.inj h)
        push Not at hmatch
        exact ⟨howner, not_not.1 hkey, hfound, hmatch⟩

theorem findWalletIdentity_view {wallet irs walletIdentity : Pubkey} {identity : WalletIdentity}
    (hown : OnlyIdentities L)
    (h : findWalletIdentity L wallet irs walletIdentity = .ok (some identity)) :
    walletIdentity = walletIdentityAddress irs wallet ∧
      L.view WalletIdentity walletIdentity = some identity ∧ identity.wallet = wallet ∧
        identity.irs = irs := by
  obtain ⟨howner, hkey, hfound, hmatch⟩ := findWalletIdentity_ok h
  refine ⟨hkey, ?_, hmatch⟩
  rcases hown irs wallet with hvacant | ⟨stored, hstored⟩
  · rw [hkey, hvacant] at howner
    exact absurd rfl howner
  · rw [hkey, hstored, account_data, Borsh.decodeView_encode] at hfound
    rw [hkey, view_eq_some, hstored, Option.some.inj hfound]

theorem findWalletIdentity_of_view {wallet irs walletIdentity : Pubkey}
    {identity : WalletIdentity} (hkey : walletIdentity = walletIdentityAddress irs wallet)
    (hview : L.view WalletIdentity walletIdentity = some identity)
    (hwallet : identity.wallet = wallet) (hirs : identity.irs = irs) :
    findWalletIdentity L wallet irs walletIdentity = .ok (some identity) := by
  have haccount := view_eq_some.1 hview
  have howner : ¬ (L.accounts walletIdentity).owner = .default := by
    rw [haccount, account_owner]
    exact nofun
  unfold findWalletIdentity
  rw [if_neg howner, if_neg (not_not.2 hkey)]
  simp only [deserializeView, haccount, account_data, Borsh.decodeView_encode, bind_eq_ok,
    okOr_eq_ok, Option.some.injEq]
  refine ⟨identity, rfl, ?_⟩
  rw [if_neg]
  simp [hwallet, hirs]

/-- What the controller asks for, where the accounts hold the registries. -/
theorem Dossier.In.accepts_iff {tokenState : TokenState} {wallet : Pubkey} (h : d.In L) :
    Accepts L tokenState d.accts wallet ↔
      (tokenState.identityRegistry = d.accts.registryState ∧
        d.registry.tokenMint = tokenState.tokenMint ∧ d.registry.irsAccount = d.accts.irsState ∧
        d.registry.tirAccount = d.accts.tirState ∧ d.registry.ctrAccount = d.accts.ctrState ∧
        d.issuers.tokenMint = tokenState.tokenMint ∧ d.topics.tokenMint = tokenState.tokenMint ∧
        d.accts.registryState ∈ d.office.storage.boundRegistries) ∧
      ∃ identity, findWalletIdentity L wallet d.accts.irsState d.accts.walletIdentity =
          .ok (some identity) ∧ identity.isActive = true ∧
        ∀ topic ∈ d.topics.topics, verifyClaimForTopic L identity.fid topic d.accts.tirState
          d.accts.remaining L.now = true := by
  obtain ⟨n, hn⟩ := h.office.storage
  rw [← h.irs] at hn
  simp only [Accepts, Token.verifyWalletAgainstIrp, Token.deserializeLocal, bind_eq_ok,
    require_eq_ok, okOr_eq_ok, toOption_join_eq_some, exists_const, Except.ok.injEq]
  simp only [IsVerified.registryAccounts, view_eq_some.1 h.registryAt, view_eq_some.1 hn,
    view_eq_some.1 h.issuersAt, view_eq_some.1 h.topicsAt, account_data, Borsh.decodeView_encode,
    Option.some.injEq]
  constructor
  · rintro ⟨_, hregistry, _, rfl, _, rfl, _, rfl, _, rfl, hirs, htir, hctr, hmint, htirMint,
      hctrMint, hbound, identity, hfound, hactive, hclaims, rfl⟩
    exact ⟨⟨hregistry, hmint, hirs, htir, hctr, htirMint, hctrMint, hbound⟩, identity, hfound,
      hactive, hclaims⟩
  · rintro ⟨⟨hregistry, hmint, hirs, htir, hctr, htirMint, hctrMint, hbound⟩, identity, hfound,
      hactive, hclaims⟩
    exact ⟨identity, hregistry, _, rfl, _, rfl, _, rfl, _, rfl, hirs, htir, hctr, hmint, htirMint,
      hctrMint, hbound, identity, hfound, hactive, hclaims, rfl⟩

variable {past labels : List Suite.Label} {tokenState : TokenState} {wallet : Pubkey}

/-- Nothing has been opened by the identity programs. -/
structure Blank (L : Ledger) : Prop extends NothingFiled L where
  storages : ∀ k, L.view IdentityRegistryStorageState k = none
  identities : ∀ k, L.view WalletIdentity k = none

theorem Blank.kept (hstart : Blank L₀) (hrun : Run Suite.Step L₀ labels L) :
    IdentityFiled L ∧ Irs.Enrolled L := by
  have hunenrolled : Irs.Unenrolled L₀ :=
    ⟨hstart.toUnopened, hstart.storages, hstart.identities⟩
  apply hrun.invariant (P := fun L ↦ IdentityFiled L ∧ Irs.Enrolled L)
  · intro L l L' hL hstep
    exact ⟨hL.1.step hstep, (hL.2.step hstep.seen).1⟩
  · exact ⟨hstart.toNothingFiled.identityFiled, hunenrolled.enrolled⟩

omit [Borsh] in
/-- A topic that is proved with the claims and entries of an earlier state was proved then. -/
theorem Dossier.Since.proved_before {fid : Pubkey} {topic : ℕ} {remaining : List Pubkey}
    {now now' : ℤ} (h : d.Since L L') (hclaims : d.NoNewClaims L L') (hnow : now ≤ now')
    (hproved : verifyClaimForTopic L' fid topic d.accts.tirState remaining now' = true) :
    verifyClaimForTopic L fid topic d.accts.tirState remaining now = true := by
  obtain ⟨k, hk, claim, hlive, x, hx, entry, htrusted⟩ := verifyClaimForTopic_iff.1 hproved
  have hentry : L.view IssuerEntry x = some entry :=
    (h.entries x entry htrusted.registry).1 htrusted.entryAt
  have hsigner : d.Trusts L claim.signerKey := by
    refine ⟨x, entry, hentry, htrusted.registry, ?_⟩
    rw [htrusted.issuer, hlive.signed]
  have hclaim : L.view ClaimAccount k = some claim := hclaims k claim hlive.claimAt hsigner
  have hunexpired : claim.expiresAt = 0 ∨ now ≤ claim.expiresAt := by
    cases hlive.unexpired with
    | inl hnever => exact .inl hnever
    | inr hlater => exact .inr (hnow.trans hlater)
  apply verifyClaimForTopic_iff.2
  exact ⟨k, hk, claim,
    ⟨hclaim, hlive.canonical, hlive.holder, hlive.onTopic, hlive.standing, hunexpired,
      hlive.signed⟩,
    x, hx, entry,
    ⟨hentry, htrusted.canonical, htrusted.registry, htrusted.issuer, htrusted.active,
      htrusted.allowed⟩⟩

/-- A wallet that the controller accepts after a run without a signature of a keeper or of a
trusted issuer was accepted on the same accounts before. -/
theorem no_forged_verification (hstart : Blank L₀) (hpast : Run Suite.Step L₀ past L)
    (hstands : d.In L) (hrun : Run Suite.Step L labels L')
    (hsilent : ∀ l ∈ labels, ∀ a ∈ l.signers, ¬ d.Keeper a ∧ ¬ d.Trusts L a)
    (hnow : L.now ≤ L'.now) (hown : OnlyIdentities L')
    (haccepts : Accepts L' tokenState d.accts wallet) : Accepts L tokenState d.accts wallet := by
  have hkept : (d.Since L L' ∧ d.NoNewClaims L L') ∧ IdentityFiled L' ∧ Irs.Enrolled L' := by
    apply hrun.invariant_of_labels (P := fun L' ↦ (d.Since L L' ∧ d.NoNewClaims L L') ∧
      IdentityFiled L' ∧ Irs.Enrolled L') _ hsilent
    · exact ⟨⟨hstands.since, fun _ _ hview _ ↦ hview⟩, hstart.kept hpast⟩
    · rintro L₁ l L₂ ⟨⟨hsince, hclaims⟩, hfiled, henrolled⟩ hlabel hstep
      refine ⟨⟨?_, ?_⟩, hfiled.step hstep, (henrolled.step hstep.seen).1⟩
      · apply hsince.step hstep henrolled
        intro a ha
        exact (hlabel a ha).1
      · apply hclaims.step hstep hfiled.filed
        intro a ha
        exact (hlabel a ha).2
  obtain ⟨⟨hsince, hclaims⟩, -⟩ := hkept
  obtain ⟨hlinks, identity, hfound, hactive, hproved⟩ := hsince.stands.accepts_iff.1 haccepts
  obtain ⟨hkey, hview, hwallet, hirs⟩ := findWalletIdentity_view hown hfound
  have hbefore : L.view WalletIdentity d.accts.walletIdentity = some identity :=
    hsince.identities _ identity hirs hview
  apply hstands.accepts_iff.2
  refine ⟨hlinks, identity, findWalletIdentity_of_view hkey hbefore hwallet hirs, hactive, ?_⟩
  intro topic htopic
  exact hsince.proved_before hclaims hnow (hproved topic htopic)

/-! ## A verified wallet stays verified -/

/-- The keys with a say in a verified wallet: the keepers, the wallet, the holder of its FID, and
those who made its claims. -/
inductive Dossier.Guardian (d : Dossier) (L : Ledger) (identity : WalletIdentity) : Pubkey → Prop
  | keeper {a : Pubkey} : d.Keeper a → Guardian d L identity a
  | wallet : Guardian d L identity identity.wallet
  | holder {record : FidAccount} : L.view FidAccount identity.fid = some record →
      Guardian d L identity record.owner
  | manager {record : FidAccount} : L.view FidAccount identity.fid = some record →
      Guardian d L identity record.managementKey
  | claimSigner {k : Pubkey} {claim : ClaimAccount} : k ∈ d.accts.remaining →
      L.view ClaimAccount k = some claim → claim.fid = identity.fid →
      Guardian d L identity claim.signerKey

/-- The identity of an earlier state, its FID and the claims about it are still there. -/
structure Dossier.Lasts (d : Dossier) (L₀ : Ledger) (identity : WalletIdentity) (L : Ledger) :
    Prop where
  identityAt : L.view WalletIdentity d.accts.walletIdentity = some identity
  fid : ∀ record : FidAccount, L₀.view FidAccount identity.fid = some record →
    Fid.ProfileKept identity.fid record L
  claims : ∀ k ∈ d.accts.remaining, ∀ claim : ClaimAccount, L₀.view ClaimAccount k = some claim →
    claim.fid = identity.fid → L.view ClaimAccount k = some claim

variable {identity : WalletIdentity}

theorem Dossier.Lasts.step (h : d.Lasts L₀ identity L) (hsince : d.Since L₀ L)
    (hirs : identity.irs = d.accts.irsState) (hstep : Suite.Step L l L')
    (hL₀ : IdentityFiled L₀) (hfiled : Fid.Filed L) (hL : Irs.Enrolled L)
    (hsilent : ∀ a ∈ l.signers, ¬ d.Guardian L₀ identity a) : d.Lasts L₀ identity L' := by
  have hquiet : ∀ record : FidAccount, L₀.view FidAccount identity.fid = some record →
      ∀ n, ¬ Fid.Speaks l.signers { record with claimCount := n } := by
    intro record hrecord n hspeaks
    have howner : record.owner ∉ l.signers := fun ha ↦ hsilent _ ha (.holder hrecord)
    have hmanager : record.managementKey ∉ l.signers := fun ha ↦ hsilent _ ha (.manager hrecord)
    exact hspeaks.elim howner hmanager
  constructor
  · have hundisturbed : d.office.Undisturbed l.signers L L' := by
      apply hstep.undisturbed hL hsince.stands.office
      intro a ha hacts
      exact hsilent a ha (.keeper (.actor hacts))
    apply hundisturbed.kept _ identity _ _ h.identityAt
    · rw [hirs, hsince.stands.irs]
    · intro hwallet
      exact hsilent _ hwallet .wallet
  · intro record hrecord
    obtain ⟨n, hn, hview⟩ := h.fid record hrecord
    cases hstep.process_or_spares .fid (by decide) with
    | inl hprocess =>
        obtain ⟨i, hprocess⟩ := hprocess
        have hkept := Fid.process_profileKept hprocess hfiled hview (hquiet record hrecord n)
        exact hkept.trans hn rfl
    | inr hspares =>
        obtain ⟨S, hframe, hS⟩ := hspares
        refine ⟨n, hn, ?_⟩
        rw [hframe.view_eq (hS _ (by decide)), hview]
  · intro k hk claim hclaim hfid
    have hnow := h.claims k hk claim hclaim hfid
    cases hstep.process_or_spares .fid (by decide) with
    | inl hprocess =>
        obtain ⟨i, hprocess⟩ := hprocess
        apply Fid.process_claimKept hprocess hfiled hnow
        · intro hsigner
          exact hsilent _ hsigner (.claimSigner hk hclaim hfid)
        · intro holder hholder
          obtain ⟨record, hrecord⟩ := hL₀.filed.holder hL₀.sound hclaim
          rw [hfid] at hrecord hholder
          obtain ⟨n, -, hview⟩ := h.fid record hrecord
          rw [hview] at hholder
          rw [← Option.some.inj hholder]
          exact hquiet record hrecord n
    | inr hspares =>
        obtain ⟨S, hframe, hS⟩ := hspares
        rw [hframe.view_eq (hS _ (by decide)), hnow]

/-- A wallet that the controller accepts is accepted on the same accounts after a run without a
signature of a guardian, as long as no claim about it in these accounts has expired. -/
theorem verified_stays (hstart : Blank L₀) (hpast : Run Suite.Step L₀ past L)
    (hstands : d.In L) (hidentity : L.view WalletIdentity d.accts.walletIdentity = some identity)
    (haccepts : Accepts L tokenState d.accts wallet) (hrun : Run Suite.Step L labels L')
    (hsilent : ∀ l ∈ labels, ∀ a ∈ l.signers, ¬ d.Guardian L identity a)
    (hunexpired : ∀ k ∈ d.accts.remaining, ∀ claim, L.view ClaimAccount k = some claim →
      claim.fid = identity.fid → claim.expiresAt = 0 ∨ L'.now ≤ claim.expiresAt) :
    Accepts L' tokenState d.accts wallet := by
  obtain ⟨hL, hLenrolled⟩ := hstart.kept hpast
  obtain ⟨hlinks, found, hfound, hactive, hproved⟩ := hstands.accepts_iff.1 haccepts
  obtain ⟨hkey, hwallet, hirs, rfl⟩ : d.accts.walletIdentity =
      walletIdentityAddress d.accts.irsState wallet ∧ found.wallet = wallet ∧
        found.irs = d.accts.irsState ∧ found = identity := by
    obtain ⟨-, hkey, hdecoded, hwallet, hirs⟩ := findWalletIdentity_ok hfound
    rw [view_eq_some.1 hidentity, account_data, Borsh.decodeView_encode] at hdecoded
    exact ⟨hkey, hwallet, hirs, (Option.some.inj hdecoded).symm⟩
  have hkept : (d.Since L L' ∧ d.Lasts L found L') ∧ IdentityFiled L' ∧ Irs.Enrolled L' := by
    apply hrun.invariant_of_labels (P := fun L' ↦ (d.Since L L' ∧ d.Lasts L found L') ∧
      IdentityFiled L' ∧ Irs.Enrolled L') _ hsilent
    · refine ⟨⟨hstands.since, hidentity, ?_, ?_⟩, hL, hLenrolled⟩
      · intro record hrecord
        exact Fid.profileKept_of_view hrecord
      · intro k _ claim hclaim _
        exact hclaim
    · rintro L₁ l L₂ ⟨⟨hsince, hlasts⟩, hfiled, henrolled⟩ hlabel hstep
      refine ⟨⟨?_, ?_⟩, hfiled.step hstep, (henrolled.step hstep.seen).1⟩
      · apply hsince.step hstep henrolled
        intro a ha hkeeper
        exact hlabel a ha (.keeper hkeeper)
      · exact hlasts.step hsince hirs hstep hL hfiled.filed henrolled hlabel
  obtain ⟨⟨hsince, hlasts⟩, -⟩ := hkept
  apply hsince.stands.accepts_iff.2
  refine ⟨hlinks, found, findWalletIdentity_of_view hkey hlasts.identityAt hwallet hirs, hactive,
    ?_⟩
  intro topic htopic
  obtain ⟨k, hk, claim, hlive, x, hx, entry, htrusted⟩ :=
    verifyClaimForTopic_iff.1 (hproved topic htopic)
  apply verifyClaimForTopic_iff.2
  exact ⟨k, hk, claim,
    ⟨hlasts.claims k hk claim hlive.claimAt hlive.holder, hlive.canonical, hlive.holder,
      hlive.onTopic, hlive.standing, hunexpired k hk claim hlive.claimAt hlive.holder,
      hlive.signed⟩,
    x, hx, entry,
    ⟨(hsince.entries x entry htrusted.registry).2 htrusted.entryAt, htrusted.canonical,
      htrusted.registry, htrusted.issuer, htrusted.active, htrusted.allowed⟩⟩

end Strangers

/-! ## A stranger's FID -/

open TokenService

def enrolledIrp : Pubkey := irpAddress mintedToken

def stranger : Pubkey := .address 9

/-- The issuer makes its claim, and the registry of the token is set up. -/
def enrolment : List (Pubkey × Suite.Instruction) :=
  [(Fid.claimIssuer, .platform (.fid (.addClaim ⟨Fid.claimIssuer, rotationHolderFid, rotationClaim,
      rotationIndex⟩ 7 rotationIssuerFid 0))),
    (registryOwner, .platform (.irp (.initializeRegistry registryOwner enrolledIrp mintedToken
      rotationIrs rotationTir rotationCtr))),
    (registryOwner, .platform (.irs (.bindRegistry registryOwner rotationIrs enrolledIrp)))]

def enrolmentSteps : List (Pubkey × Suite.Instruction) :=
  registration ++ (registryOwner, .tir (.addTrustedIssuer registryOwner rotationTir rotationEntry
    rotationIssuerFid [7] "")) :: enrolment

def strangerSteps : List (Pubkey × Suite.Instruction) :=
  [(stranger, .platform (.fid (.createFid stranger (Fid.fidAddress stranger) false 276)))]

def enrolledRegistry : IdentityRegistryState :=
  ⟨mintedToken, registryOwner, rotationIrs, rotationTir, rotationCtr, [], 0⟩

def enrolledStorage : IdentityRegistryStorageState :=
  ⟨registryOwner, registryOwner, [enrolledIrp], 1⟩

def enrolledIssuers : TrustedIssuersState := ⟨registryOwner, mintedToken, 1⟩

def enrolledHolder : FidAccount :=
  ⟨Fid.claimHolder, Fid.claimHolder, Fid.claimHolder, 1, false, 276⟩

/-- The accounts after the enrolment. -/
def enrolledRecords : List (Pubkey × Account) :=
  [(rotationHolderFid, account enrolledHolder),
    (rotationIssuerFid, account (⟨Fid.claimIssuer, Fid.claimIssuer, Fid.claimIssuer, 0, true, 0⟩ :
      FidAccount)),
    (rotationIrs, account enrolledStorage),
    (rotationIdentity, account rotationHolder),
    (rotationCtr, account rotationTopics),
    (rotationTir, account enrolledIssuers),
    (rotationEntry, account (⟨rotationIssuerFid, rotationTir, [7], true, ""⟩ : IssuerEntry)),
    (rotationClaim, account rotationClaimRecord),
    (rotationIndex, account (⟨rotationHolderFid, rotationIssuerFid, 7, rotationClaim, 0, true⟩ :
      ClaimTopicIndex)),
    (enrolledIrp, account enrolledRegistry)]

def enrolledDossier : Dossier where
  accts := ⟨enrolledIrp, rotationIrs, rotationTir, rotationCtr, rotationIdentity,
    [rotationClaim, rotationEntry]⟩
  registry := enrolledRegistry
  office := ⟨rotationIrs, enrolledStorage, fun _ ↦ enrolledRegistry⟩
  issuers := enrolledIssuers
  topics := rotationTopics

def enrolledToken : TokenState where
  tokenMint := mintedToken
  identityRegistry := enrolledIrp
  compliance := .default
  paused := false
  decimals := 0
  name := ""
  symbol := ""
  isin := ""

def enrolmentHistory : List Suite.Label :=
  enrolmentSteps.map fun step ↦ .instruction [step.1] step.2

def strangerHistory : List Suite.Label :=
  strangerSteps.map fun step ↦ .instruction [step.1] step.2

theorem enrolment_run : ∃ L L', Run (@Suite.Step strictBorsh) Fid.emptyLedger enrolmentHistory L ∧
    Run (@Suite.Step strictBorsh) L strangerHistory L' ∧ L'.now = L.now ∧
    (∀ r ∈ enrolledRecords, L.accounts r.1 = r.2) ∧
    (∀ k ∉ enrolledRecords.map Prod.fst, L.accounts k = .vacant) ∧
    ∀ k, k ≠ Fid.fidAddress stranger → L'.accounts k = L.accounts k := by
  have hlisted : Capacity.Listed Tir.maxTopicsPerIssuer [7] := ⟨by decide, by decide⟩
  have hsigners : ∀ step ∈ enrolment, ∃ n, step.1 = .address n := by
    simp [enrolment, Fid.claimIssuer, registryOwner]
  refine ⟨_, _, registered_run hsigners rfl
    (Tir.addTrustedIssuer_eq rfl hlisted (by decide) rfl (by decide)) rfl,
    @Suite.run_of_steps strictBorsh _ _ strangerSteps
      (List.forall_mem_singleton.2 (Pubkey.external_address 9)) rfl, rfl, ?_, ?_, ?_⟩
  · simp only [enrolledRecords, List.forall_mem_cons, List.not_mem_nil, false_implies,
      implies_true, and_true]
    exact ⟨rfl, rfl, rfl, rfl, rfl, rfl, rfl, rfl, rfl, rfl⟩
  · intro k hk
    simp only [enrolledRecords, List.map_cons, List.map_nil, List.mem_cons, List.not_mem_nil,
      or_false, not_or] at hk
    obtain ⟨h₁, h₂, h₃, h₄, h₅, h₆, h₇, h₈, h₉, h₁₀⟩ := hk
    repeat refine update_vacant (by assumption) ?_
    rfl
  · intro k hk
    iterate 2 refine (Function.update_of_ne hk _ _).trans ?_
    rfl

section Enrolled

variable {L L' : Ledger} (hrecords : ∀ r ∈ enrolledRecords, L.accounts r.1 = r.2)

include hrecords

theorem enrolled_view {α : Type} [AccountType α] {k : Pubkey} {a : α}
    (h : (k, account a) ∈ enrolledRecords) : L.view α k = some a :=
  view_eq_some.2 (hrecords (k, account a) h)

theorem enrolled_in : enrolledDossier.In L := by
  have hregistry : L.view IdentityRegistryState enrolledIrp = some enrolledRegistry :=
    enrolled_view hrecords (by simp [enrolledRecords])
  have hstorage : L.view IdentityRegistryStorageState rotationIrs = some enrolledStorage :=
    enrolled_view hrecords (by simp [enrolledRecords])
  have hissuers : L.view TrustedIssuersState rotationTir = some enrolledIssuers :=
    enrolled_view hrecords (by simp [enrolledRecords])
  have htopics : L.view ClaimTopicsState rotationCtr = some rotationTopics :=
    enrolled_view hrecords (by simp [enrolledRecords])
  have hoffice : enrolledDossier.office.In L := by
    refine ⟨⟨1, hstorage⟩, ?_⟩
    intro irp hirp
    rw [List.mem_singleton.1 hirp]
    exact hregistry
  exact ⟨hregistry, hoffice, rfl, hissuers, htopics⟩

theorem enrolled_accepts : @Accepts strictBorsh L enrolledToken enrolledDossier.accts
    Fid.claimHolder := by
  have hidentity : L.view WalletIdentity rotationIdentity = some rotationHolder :=
    enrolled_view hrecords (by simp [enrolledRecords])
  have hclaim : L.view ClaimAccount rotationClaim = some rotationClaimRecord :=
    enrolled_view hrecords (by simp [enrolledRecords])
  have hentry : L.view IssuerEntry rotationEntry =
      some ⟨rotationIssuerFid, rotationTir, [7], true, ""⟩ :=
    enrolled_view hrecords (by simp [enrolledRecords])
  apply (@Dossier.In.accepts_iff strictBorsh _ _ _ _ (enrolled_in hrecords)).2
  refine ⟨⟨rfl, rfl, rfl, rfl, rfl, rfl, rfl, List.mem_cons_self⟩, rotationHolder,
    @findWalletIdentity_of_view strictBorsh _ _ _ _ _ rfl hidentity rfl rfl, rfl, ?_⟩
  intro topic htopic
  obtain rfl : topic = 7 := List.mem_singleton.1 htopic
  apply verifyClaimForTopic_iff.2
  exact ⟨rotationClaim, List.mem_cons_self, rotationClaimRecord,
    ⟨hclaim, rfl, rfl, rfl, rfl, .inl rfl, rfl⟩, rotationEntry,
    List.mem_cons_of_mem _ List.mem_cons_self, ⟨rotationIssuerFid, rotationTir, [7], true, ""⟩,
    hentry, rfl, rfl, rfl, rfl, List.mem_cons_self⟩

end Enrolled

theorem enrolled_keeper {a : Pubkey} (h : enrolledDossier.Keeper a) : a = registryOwner := by
  cases h with
  | registry => rfl
  | issuers => rfl
  | topics => rfl
  | actor h =>
      cases h with
      | owner => rfl
      | registryOwner => rfl
      | agent _ hagent => cases hagent

theorem stranger_signs : ∀ l ∈ strangerHistory, ∀ a ∈ l.signers, a = stranger := by
  simp [strangerHistory, strangerSteps, Suite.Label.signers]

theorem emptyLedger_blank : Blank Fid.emptyLedger :=
  ⟨⟨Fid.emptyLedger_unopened, fun _ ↦ rfl, fun _ ↦ rfl⟩, fun _ ↦ rfl, fun _ ↦ rfl⟩

/-- The holder is still verified after a stranger has opened a FID. -/
theorem stranger_leaves_verified : ∃ L L',
    Run (@Suite.Step strictBorsh) L strangerHistory L' ∧
      @Accepts strictBorsh L enrolledToken enrolledDossier.accts Fid.claimHolder ∧
      @Accepts strictBorsh L' enrolledToken enrolledDossier.accts Fid.claimHolder := by
  obtain ⟨L, L', hpast, hrun, -, hrecords, -, -⟩ := enrolment_run
  have hidentity : L.view WalletIdentity rotationIdentity = some rotationHolder :=
    enrolled_view hrecords (by simp [enrolledRecords])
  have hholder : L.view FidAccount rotationHolderFid = some enrolledHolder :=
    enrolled_view hrecords (by simp [enrolledRecords])
  have hclaims : ∀ k ∈ enrolledDossier.accts.remaining, ∀ claim : ClaimAccount,
      L.view ClaimAccount k = some claim → claim = rotationClaimRecord := by
    have hclaim : L.view ClaimAccount rotationClaim = some rotationClaimRecord :=
      enrolled_view hrecords (by simp [enrolledRecords])
    have hentry : L.view IssuerEntry rotationEntry =
        some ⟨rotationIssuerFid, rotationTir, [7], true, ""⟩ :=
      enrolled_view hrecords (by simp [enrolledRecords])
    intro k hk claim hview
    rcases List.mem_cons.1 hk with rfl | hk
    · exact Option.some.inj (hview.symm.trans hclaim)
    · rw [List.mem_singleton.1 hk, view_none_of_kind hentry (by decide)] at hview
      cases hview
  have hguardians : ∀ a, enrolledDossier.Guardian L rotationHolder a →
      a = registryOwner ∨ a = Fid.claimHolder ∨ a = Fid.claimIssuer := by
    intro a hguardian
    cases hguardian with
    | keeper h => exact .inl (enrolled_keeper h)
    | wallet => exact .inr (.inl rfl)
    | holder h =>
        rw [← Option.some.inj (hholder.symm.trans h)]
        exact .inr (.inl rfl)
    | manager h =>
        rw [← Option.some.inj (hholder.symm.trans h)]
        exact .inr (.inl rfl)
    | claimSigner hk hclaim _ =>
        rw [hclaims _ hk _ hclaim]
        exact .inr (.inr rfl)
  have haccepts := enrolled_accepts hrecords
  refine ⟨L, L', hrun, haccepts, ?_⟩
  apply @verified_stays strictBorsh _ _ _ enrolledDossier _ _ _ _ _ emptyLedger_blank hpast
    (enrolled_in hrecords) hidentity haccepts hrun
  · intro l hl a ha hguardian
    rw [stranger_signs l hl a ha] at hguardian
    have hstranger := hguardians stranger hguardian
    exact absurd hstranger (by decide)
  · intro k hk claim hview _
    rw [hclaims k hk claim hview]
    exact .inl rfl

/-- The holder that is verified after a stranger has opened a FID was verified before. -/
theorem stranger_forges_nothing : ∃ L L',
    Run (@Suite.Step strictBorsh) L strangerHistory L' ∧
      @Accepts strictBorsh L enrolledToken enrolledDossier.accts Fid.claimHolder := by
  obtain ⟨L, L', hpast, hrun, hnow, hrecords, hvacant, hother⟩ := enrolment_run
  have hentries : ∀ {k : Pubkey} {entry : IssuerEntry}, L.view IssuerEntry k = some entry →
      entry.issuerFid = rotationIssuerFid := by
    intro k entry h
    have hentry : k = rotationEntry ∧ entry = ⟨rotationIssuerFid, rotationTir, [7], true, ""⟩ :=
      view_unique hrecords hvacant rfl h
    rw [hentry.2]
  have hbefore : OnlyIdentities L := by
    intro irs wallet
    refine accounts_forall (P := fun k a ↦ k = walletIdentityAddress irs wallet →
      a = .vacant ∨ ∃ identity : WalletIdentity, a = account identity) hrecords hvacant ?_
      (fun _ _ ↦ .inl rfl) _ rfl
    simp only [enrolledRecords, List.forall_mem_cons, List.not_mem_nil, false_implies,
      implies_true, and_true]
    refine ⟨?_, ?_, ?_, fun _ ↦ .inr ⟨_, rfl⟩, ?_, ?_, ?_, ?_, ?_, ?_⟩
    all_goals
      intro hkey
      cases hkey
  have hidentities : OnlyIdentities L' := by
    intro irs wallet
    rw [hother (walletIdentityAddress irs wallet) nofun]
    exact hbefore irs wallet
  have haccepts : @Accepts strictBorsh L' enrolledToken enrolledDossier.accts Fid.claimHolder := by
    apply enrolled_accepts
    have hkeys : ∀ r ∈ enrolledRecords, r.1 ≠ Fid.fidAddress stranger := by
      decide
    intro r hr
    rw [hother _ (hkeys r hr), hrecords r hr]
  refine ⟨L, L', hrun, ?_⟩
  apply @no_forged_verification strictBorsh _ _ _ enrolledDossier _ _ _ _ emptyLedger_blank hpast
    (enrolled_in hrecords) hrun _ hnow.ge hidentities haccepts
  intro l hl a ha
  rw [stranger_signs l hl a ha]
  constructor
  · intro hkeeper
    exact absurd (enrolled_keeper hkeeper) (by decide)
  · rintro ⟨k, entry, hentry, -, hissuer⟩
    rw [hentries hentry] at hissuer
    exact absurd hissuer (by decide)

end Irp

end Fracks
