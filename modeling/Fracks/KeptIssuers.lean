import Fracks.MintClaims

/-!
# Issuers that keep their keys

The frontend asks the profile of an issuer whether its key still signs for it; the chain never
reads this profile.  In a history in which every trusted issuer keeps the key of its claims the
two agree.
-/

namespace Fracks

open Checked AccountType Ledger Runs TokenService

/-! ## The claims of trusted issuers -/

/-- Some registry trusts the issuer with the topic. -/
def Trusted (L : Ledger) (issuerFid : Pubkey) (topic : ℕ) : Prop :=
  ∃ k entry, L.view IssuerEntry k = some entry ∧ entry.issuerFid = issuerFid ∧
    entry.isActive = true ∧ topic ∈ entry.allowedTopics

/-- The FID is that of an issuer, and the key signs for it. -/
def SignsFor (L : Ledger) (issuerFid key : Pubkey) : Prop :=
  ∃ issuer : FidAccount, L.view FidAccount issuerFid = some issuer ∧ issuer.isIssuer = true ∧
    issuer.signerKey = key

/-- The claim of the issuer is there and has not been revoked. -/
structure Stands (L : Ledger) (issuerFid : Pubkey) (k : Pubkey) (claim : ClaimAccount) : Prop where
  claimAt : L.view ClaimAccount k = some claim
  standing : claim.revoked = false
  issuer : claim.issuerFid = issuerFid

/-- The claims of trusted issuers are backed by their profiles. -/
def TrustBacked (L : Ledger) : Prop :=
  ∀ issuerFid k claim, Stands L issuerFid k claim → Trusted L issuerFid claim.topic →
    SignsFor L issuerFid claim.signerKey

/-- The claims of the issuer on these topics are backed by its profile. -/
def ProfileBacks (L : Ledger) (issuerFid : Pubkey) (topics : List ℕ) : Prop :=
  ∀ k claim, Stands L issuerFid k claim → claim.topic ∈ topics →
    SignsFor L issuerFid claim.signerKey

/-- A trusted issuer makes its claims with the key of its profile and keeps this key while its
claims stand, and trust goes to issuers whose claims are backed. -/
def KeepsIssuers (L : Ledger) : Suite.Label → Prop
  | .instruction _ (.platform (.fid (.addClaim accts topic issuerFid _))) =>
      Trusted L issuerFid topic → SignsFor L issuerFid accts.issuerOwner
  | .instruction _ (.platform (.fid (.setSignerKey _ fid newKey))) =>
      ∀ k claim, Stands L fid k claim → Trusted L fid claim.topic → claim.signerKey = newKey
  | .instruction _ (.platform (.fid (.updateFidProfile _ fid isIssuer _))) =>
      ∀ k claim, Stands L fid k claim → Trusted L fid claim.topic → isIssuer = true
  | .instruction _ (.tir (.addTrustedIssuer _ _ _ issuerFid topics _)) =>
      ProfileBacks L issuerFid topics
  | .instruction _ (.tir (.updateIssuerTopics _ _ issuerEntry newTopics)) =>
      ∀ entry : IssuerEntry, L.view IssuerEntry issuerEntry = some entry →
        entry.isActive = true → ProfileBacks L entry.issuerFid newTopics
  | .instruction _ (.tir (.reactivateIssuer _ _ issuerEntry)) =>
      ∀ entry : IssuerEntry, L.view IssuerEntry issuerEntry = some entry →
        ProfileBacks L entry.issuerFid entry.allowedTopics
  | _ => True

variable {L L₀ L' : Ledger} {signers : List Pubkey} {issuerFid key k : Pubkey}
  {claim : ClaimAccount}

theorem Trusted.congr (h : L'.view IssuerEntry = L.view IssuerEntry) {topic : ℕ} :
    Trusted L' issuerFid topic ↔ Trusted L issuerFid topic := by
  rw [Trusted, h, Trusted]

/-- Only the records of FIDs differ, or those of trusted issuers. -/
theorem TrustBacked.congr (h : TrustBacked L)
    (hclaims : ∀ k claim, L'.view ClaimAccount k = some claim → claim.revoked = false →
      L.view ClaimAccount k = some claim)
    (htrust : ∀ issuerFid topic, Trusted L' issuerFid topic → Trusted L issuerFid topic)
    (hsigns : ∀ issuerFid k claim, Stands L issuerFid k claim → Trusted L issuerFid claim.topic →
      SignsFor L issuerFid claim.signerKey → SignsFor L' issuerFid claim.signerKey) :
    TrustBacked L' := by
  intro issuerFid k claim hstands htrusted
  have hstood : Stands L issuerFid k claim :=
    ⟨hclaims k claim hstands.claimAt hstands.standing, hstands.standing, hstands.issuer⟩
  have hbefore := htrust issuerFid claim.topic htrusted
  exact hsigns issuerFid k claim hstood hbefore (h issuerFid k claim hstood hbefore)

/-- The profile that is written is again that of an issuer with the key. -/
theorem SignsFor.written {fid : Pubkey} {new : FidAccount} (h : SignsFor L issuerFid key)
    (hwritten : L'.view FidAccount = Function.update (L.view FidAccount) fid (some new))
    (hnew : ∀ old : FidAccount, issuerFid = fid → L.view FidAccount fid = some old →
      old.isIssuer = true → old.signerKey = key → new.isIssuer = true ∧ new.signerKey = key) :
    SignsFor L' issuerFid key := by
  obtain ⟨issuer, hissuer, hflag, hkey⟩ := h
  by_cases hfid : issuerFid = fid
  · have hkept := hnew issuer hfid (hfid ▸ hissuer) hflag hkey
    refine ⟨new, ?_, hkept⟩
    rw [hwritten, hfid, Function.update_self]
  · refine ⟨issuer, ?_, hflag, hkey⟩
    rw [hwritten, Function.update_of_ne hfid, hissuer]

/-! ## One step -/

section Steps

theorem Fid.fidAddress_inj {owner owner' : Pubkey} :
    fidAddress owner = fidAddress owner' ↔ owner = owner' := by
  simp [fidAddress, Pubkey.findProgramAddress, Pubkey.addSeed]

theorem Fid.addClaim_issuer {accts : AddClaimAccounts} {topic : ℕ} {issuer : Pubkey} {expiresAt : ℤ}
    (h : addClaim L signers accts topic issuer expiresAt = .ok L') :
    issuer = fidAddress accts.issuerOwner := by
  simp only [addClaim, bind_eq_ok, require_eq_ok, exists_const] at h
  obtain ⟨_, -, _, -, _, -, _, -, _, -, hissuer, -⟩ := h
  exact hissuer

theorem Fid.process_trustBacked {i : Fid.Instruction} (h : Fid.process L signers i = .ok L')
    (hL : TrustBacked L) (hfiled : Fid.Filed L) (hsigned : Everywhere Signed (L'.view ClaimAccount))
    (hentries : L'.view IssuerEntry = L.view IssuerEntry)
    (hkeeps : KeepsIssuers L (.instruction signers (.platform (.fid i)))) : TrustBacked L' := by
  have htrust : ∀ issuerFid topic, Trusted L' issuerFid topic → Trusted L issuerFid topic :=
    fun _ _ ↦ (Trusted.congr hentries).1
  cases i with
  | createFid owner fid isIssuer country =>
      obtain ⟨-, -, hnone, -, hwritten⟩ := createFid_ok hfiled.owned h
      refine hL.congr (fun k claim hclaim _ ↦ hwritten.claims ▸ hclaim) htrust ?_
      intro issuerFid k claim _ _ hsigns
      refine hsigns.written hwritten.fids fun old _ hold ↦ ?_
      rw [hnone] at hold
      cases hold
  | setManagementKey owner fid newKey =>
      obtain ⟨old, hold, hwritten⟩ := setManagementKey_ok h
      refine hL.congr (fun k claim hclaim _ ↦ hwritten.claims ▸ hclaim) htrust ?_
      intro issuerFid k claim _ _ hsigns
      refine hsigns.written hwritten.fids fun record _ hrecord hflag hkey ↦ ?_
      obtain rfl := account_inj.1 ((view_eq_some.1 hrecord).symm.trans hold)
      exact ⟨hflag, hkey⟩
  | setSignerKey authority fid newKey =>
      obtain ⟨old, hold, hwritten⟩ := setSignerKey_ok h
      refine hL.congr (fun k claim hclaim _ ↦ hwritten.claims ▸ hclaim) htrust ?_
      intro issuerFid k claim hstands htrusted hsigns
      refine hsigns.written hwritten.fids fun record hfid hrecord hflag _ ↦ ?_
      obtain rfl := account_inj.1 ((view_eq_some.1 hrecord).symm.trans hold)
      subst hfid
      exact ⟨hflag, (hkeeps k claim hstands htrusted).symm⟩
  | updateFidProfile authority fid isIssuer country =>
      obtain ⟨old, hold, -, hwritten⟩ := updateFidProfile_ok h
      refine hL.congr (fun k claim hclaim _ ↦ hwritten.claims ▸ hclaim) htrust ?_
      intro issuerFid k claim hstands htrusted hsigns
      refine hsigns.written hwritten.fids fun record hfid hrecord _ hkey ↦ ?_
      obtain rfl := account_inj.1 ((view_eq_some.1 hrecord).symm.trans hold)
      subst hfid
      exact ⟨hkeeps k claim hstands htrusted, hkey⟩
  | addClaim accts topic issuer expiresAt =>
      obtain ⟨target, new, _, htarget, -, -, -, hnew, -, hfids, hclaims, -⟩ := addClaim_ok h
      have hsigns : ∀ {issuerFid key}, SignsFor L issuerFid key → SignsFor L' issuerFid key := by
        intro issuerFid key hsigns
        refine hsigns.written hfids fun record _ hrecord hflag hkey ↦ ?_
        obtain rfl := account_inj.1 ((view_eq_some.1 hrecord).symm.trans htarget)
        exact ⟨hflag, hkey⟩
      intro issuerFid k claim hstands htrusted
      obtain ⟨hclaim, hstanding, hissuer⟩ := hstands
      by_cases hk : k = accts.claim
      · -- the new claim, signed by the owner of its issuer
        rw [hk, hclaims, Function.update_self] at hclaim
        obtain rfl := Option.some.inj hclaim
        obtain ⟨-, -, hmade, htopic, -⟩ := hnew
        obtain rfl : issuer = issuerFid := hmade.symm.trans hissuer
        have hkey : new.issuerFid = fidAddress new.signerKey := by
          apply hsigned accts.claim
          rw [hclaims, Function.update_self]
        have howner : new.signerKey = accts.issuerOwner := by
          rw [← fidAddress_inj, ← hkey, hissuer, addClaim_issuer h]
        rw [howner]
        rw [htopic] at htrusted
        exact hsigns (hkeeps (htrust _ _ htrusted))
      · rw [hclaims, Function.update_of_ne hk] at hclaim
        exact hsigns (hL issuerFid k claim ⟨hclaim, hstanding, hissuer⟩ (htrust _ _ htrusted))
  | revokeClaim issuerOwner key claimTopicIndex =>
      obtain ⟨record, _, -, hfids, hclaims, -⟩ := revokeClaim_ok h
      refine hL.congr (fun k claim hclaim hstanding ↦ ?_) htrust ?_
      · rw [hclaims] at hclaim
        by_cases hk : k = key
        · rw [hk, Function.update_self] at hclaim
          rw [← Option.some.inj hclaim] at hstanding
          cases hstanding
        · rwa [Function.update_of_ne hk] at hclaim
      · intro issuerFid k claim _ _ hsigns
        rwa [SignsFor, hfids]
  | removeClaim authority fid key claimTopicIndex =>
      obtain ⟨record, _, -, hfids, hclaims, -⟩ := removeClaim_ok h
      refine hL.congr (fun k claim hclaim _ ↦ ?_) htrust ?_
      · rw [hclaims] at hclaim
        by_cases hk : k = key
        · rw [hk, Function.update_self] at hclaim
          cases hclaim
        · rwa [Function.update_of_ne hk] at hclaim
      · intro issuerFid k claim _ _ hsigns
        rwa [SignsFor, hfids]

/-- A registry that comes to trust an issuer with a topic vouches for its claims. -/
theorem TrustBacked.entries (hL : TrustBacked L) (hframe : Frame Tir.tirKinds L L')
    (hnew : ∀ k (entry : IssuerEntry), L'.view IssuerEntry k = some entry →
      entry.isActive = true → (∃ old : IssuerEntry, L.view IssuerEntry k = some old ∧
          old.issuerFid = entry.issuerFid ∧ old.isActive = true ∧
            old.allowedTopics = entry.allowedTopics) ∨
        ProfileBacks L entry.issuerFid entry.allowedTopics) : TrustBacked L' := by
  have hclaims : L'.view ClaimAccount = L.view ClaimAccount := hframe.table_eq (by decide)
  have hfids : L'.view FidAccount = L.view FidAccount := hframe.table_eq (by decide)
  rintro issuerFid k claim ⟨hclaim, hstanding, hissuer⟩ ⟨key, entry, hentry, rfl, hactive, htopic⟩
  rw [hclaims] at hclaim
  have hstands : Stands L entry.issuerFid k claim := ⟨hclaim, hstanding, hissuer⟩
  rw [SignsFor, hfids]
  cases hnew key entry hentry hactive with
  | inl hold =>
      obtain ⟨old, hold, hsame, hactive, htopics⟩ := hold
      refine hL _ k claim hstands ⟨key, old, hold, hsame, hactive, ?_⟩
      rw [htopics]
      exact htopic
  | inr hbacks => exact hbacks k claim hstands htopic

theorem Tir.process_trustBacked {i : Tir.Instruction} (h : Tir.process L signers i = .ok L')
    (hL : TrustBacked L) (hkeeps : KeepsIssuers L (.instruction signers (.tir i))) :
    TrustBacked L' := by
  refine hL.entries (frame h) fun k entry hentry hactive ↦ ?_
  have hkept : ∀ {entry : IssuerEntry}, L.view IssuerEntry k = some entry →
      entry.isActive = true → ∃ old : IssuerEntry, L.view IssuerEntry k = some old ∧
        old.issuerFid = entry.issuerFid ∧ old.isActive = true ∧
          old.allowedTopics = entry.allowedTopics :=
    fun hview hactive ↦ ⟨_, hview, rfl, hactive, rfl⟩
  cases i with
  | initializeTir owner tirState tokenMint =>
      obtain ⟨_, -, hinit⟩ := bind_eq_ok.1 h
      have hframe : Frame [.trustedIssuersState] L L' := .initRecord hinit (by decide)
      rw [hframe.table_eq (by decide)] at hentry
      exact .inl (hkept hentry hactive)
  | addTrustedIssuer owner tirState issuerEntry issuerFid topics label =>
      obtain ⟨_, -, -, -, -, -, hentries, -⟩ := addTrustedIssuer_ok h
      rw [hentries] at hentry
      by_cases hk : k = issuerEntry
      · rw [hk, Function.update_self] at hentry
        obtain rfl := Option.some.inj hentry
        exact .inr hkeeps
      · rw [Function.update_of_ne hk] at hentry
        exact .inl (hkept hentry hactive)
  | updateIssuerTopics owner tirState issuerEntry newTopics =>
      obtain ⟨old, new, hold, hf, rfl⟩ := mutateIssuerEntry_ok h
      obtain ⟨_, -, hf⟩ := bind_eq_ok.1 hf
      obtain rfl := Except.ok.inj hf
      rw [view_put] at hentry
      by_cases hk : k = issuerEntry
      · rw [hk, Function.update_self] at hentry
        obtain rfl := Option.some.inj hentry
        exact .inr (hkeeps old (view_eq_some.2 hold) hactive)
      · rw [Function.update_of_ne hk] at hentry
        exact .inl (hkept hentry hactive)
  | deactivateIssuer owner tirState issuerEntry =>
      obtain ⟨old, new, hold, hf, rfl⟩ := mutateIssuerEntry_ok h
      obtain rfl := Except.ok.inj hf
      rw [view_put] at hentry
      by_cases hk : k = issuerEntry
      · rw [hk, Function.update_self] at hentry
        obtain rfl := Option.some.inj hentry
        cases hactive
      · rw [Function.update_of_ne hk] at hentry
        exact .inl (hkept hentry hactive)
  | reactivateIssuer owner tirState issuerEntry =>
      obtain ⟨old, new, hold, hf, rfl⟩ := mutateIssuerEntry_ok h
      obtain rfl := Except.ok.inj hf
      rw [view_put] at hentry
      by_cases hk : k = issuerEntry
      · rw [hk, Function.update_self] at hentry
        obtain rfl := Option.some.inj hentry
        exact .inr (hkeeps old (view_eq_some.2 hold))
      · rw [Function.update_of_ne hk] at hentry
        exact .inl (hkept hentry hactive)
  | removeTrustedIssuer owner tirState issuerEntry =>
      obtain ⟨_, _, -, -, -, -, hentries, -⟩ := removeTrustedIssuer_ok h
      rw [hentries] at hentry
      by_cases hk : k = issuerEntry
      · rw [hk, Function.update_self] at hentry
        cases hentry
      · rw [Function.update_of_ne hk] at hentry
        exact .inl (hkept hentry hactive)
  | transferOwnership owner tirState newOwner =>
      obtain ⟨state, hstate, rfl⟩ := transferOwnership_ok h
      rw [view_overwrite hstate (by decide)] at hentry
      exact .inl (hkept hentry hactive)

theorem TrustBacked.of_frame {S : List AccountKind} (h : TrustBacked L) (hframe : Frame S L L')
    (hS : ∀ kind ∈ [AccountKind.fidAccount, .claimAccount, .issuerEntry], kind ∉ S) :
    TrustBacked L' := by
  have hfids : L'.view FidAccount = L.view FidAccount := hframe.table_eq (hS _ (by decide))
  have hclaims : L'.view ClaimAccount = L.view ClaimAccount := hframe.table_eq (hS _ (by decide))
  have hentries : L'.view IssuerEntry = L.view IssuerEntry := hframe.table_eq (hS _ (by decide))
  refine h.congr (fun k claim hclaim _ ↦ hclaims ▸ hclaim)
    (fun _ _ ↦ (Trusted.congr hentries).1) fun issuerFid k claim _ _ hsigns ↦ ?_
  rwa [SignsFor, hfids]

variable [Borsh] {l : Suite.Label} {labels : List Suite.Label}

theorem TrustBacked.step (h : TrustBacked L) (hfiled : IdentityFiled L) (hstep : Suite.Step L l L')
    (hkeeps : KeepsIssuers L l) : TrustBacked L' := by
  have hsigned : Everywhere Fid.Signed (L'.view ClaimAccount) := (hfiled.step hstep).signed
  cases hstep with
  | instruction signers i hexternal hprocess =>
      cases i with
      | platform i =>
          cases i with
          | core i => exact h.of_frame (frame_core hprocess) (by decide)
          | fid i =>
              have hentries : L'.view IssuerEntry = L.view IssuerEntry :=
                (Fid.frame hprocess).table_eq (by decide)
              exact Fid.process_trustBacked hprocess h hfiled.filed hsigned hentries hkeeps
          | irs i => exact h.of_frame (Irs.frame hprocess) (by decide)
          | irp i => exact h.of_frame (Irp.frame hprocess) (by decide)
      | tir i => exact Tir.process_trustBacked hprocess h hkeeps
      | ctr i => exact h.of_frame (Ctr.frame hprocess) (by decide)
      | factory i => exact h.of_frame (Factory.frame hprocess) (by decide)
  | environment hframe => exact h.of_frame hframe (by decide)

end Steps

/-! ## The whole history -/

section Histories

variable [Borsh] {labels : List Suite.Label} {tirState fid : Pubkey} {topic : ℕ} {now : ℤ}

omit [Borsh] in
theorem NothingFiled.trustBacked (h : NothingFiled L) : TrustBacked L := by
  rintro issuerFid k claim - ⟨key, entry, hentry, -⟩
  rw [h.entries] at hentry
  cases hentry

theorem trustBacked_of_run (hstart : NothingFiled L₀)
    (hrun : Run (restrict Suite.Step fun L l _ ↦ KeepsIssuers L l) L₀ labels L) :
    IdentityFiled L ∧ TrustBacked L := by
  refine hrun.invariant (P := fun L ↦ IdentityFiled L ∧ TrustBacked L) ?_
    ⟨hstart.identityFiled, hstart.trustBacked⟩
  rintro L l L' ⟨hfiled, htrust⟩ ⟨hstep, hkeeps⟩
  exact ⟨hfiled.step hstep, htrust.step hfiled hstep hkeeps⟩

omit [Borsh] in
/-- A claim that the chain takes has an issuer that is intact. -/
theorem TrustBacked.intact (h : TrustBacked L) (hbacked : Backed L fid tirState topic now k claim) :
    IssuerIntact L claim := by
  obtain ⟨hlive, entry, htrusted⟩ := hbacked
  have hstands : Stands L claim.issuerFid k claim := ⟨hlive.claimAt, hlive.standing, rfl⟩
  refine h claim.issuerFid k claim hstands ⟨_, entry, htrusted.entryAt, htrusted.issuer,
    htrusted.active, ?_⟩
  rw [hlive.onTopic]
  exact htrusted.allowed

end Histories

namespace TokenService

section Agreement

variable [Borsh] {labels : List Suite.Label} {toBase58 : Pubkey → String}
  {getProgramAccounts : Pubkey → List Pubkey} {registry : MintRegistryContext}
  {irs wallet ctrState : Pubkey} {identity : WalletIdentity} {ctr : ClaimTopicsState}
  {accounts : List Pubkey} {now : ℤ}

/-- In every state that a history reaches in which trusted issuers keep their keys, the check before
a mint accepts exactly when the chain does. -/
theorem kept_issuers_agree (hstart : NothingFiled L₀)
    (hrun : Run (restrict Suite.Step fun L l _ ↦ KeepsIssuers L l) L₀ labels L)
    (hown : OnlyOwnRecords L) (hread : ReadsRegistry L registry irs wallet identity ctrState ctr)
    (hfinds : FindsClaims L identity.fid (getProgramAccounts identity.fid))
    (hall : HoldsAll L accounts) :
    (validateRecipientClaimsForMint L toBase58 getProgramAccounts now registry).ok = true ↔
      ∀ topic ∈ ctr.topics,
        Irp.verifyClaimForTopic L identity.fid topic registry.tirState accounts now = true := by
  obtain ⟨hfiled, htrust⟩ := trustBacked_of_run hstart hrun
  rw [validate_ok_iff hown hfiled hread hfinds]
  simp only [verifyClaimForTopic_all hall]
  refine forall₂_congr fun topic _ ↦ ?_
  constructor
  · rintro ⟨k, claim, hbacked, -⟩
    exact ⟨k, claim, hbacked⟩
  · rintro ⟨k, claim, hbacked⟩
    exact ⟨k, claim, hbacked, htrust.intact hbacked⟩

end Agreement

/-! ## A kept issuer and a rotated one -/

/-- The rotation without its last step: the issuer keeps its signer. -/
def keptHistory : List Suite.Label := rotationHistory.dropLast

/-- The accounts after the registration. -/
def registrationRecords : List (Pubkey × Account) :=
  [(rotationHolderFid, account (⟨Fid.claimHolder, Fid.claimHolder, Fid.claimHolder, 0, false, 276⟩ :
      FidAccount)),
    (rotationIssuerFid, account (⟨Fid.claimIssuer, Fid.claimIssuer, Fid.claimIssuer, 0, true, 0⟩ :
      FidAccount)),
    (rotationIrs, account (⟨registryOwner, registryOwner, [], 1⟩ : IdentityRegistryStorageState)),
    (rotationIdentity, account rotationHolder),
    (rotationCtr, account rotationTopics),
    (rotationTir, account (⟨registryOwner, mintedToken, 0⟩ : TrustedIssuersState))]

section Histories

variable {L L₁ L₂ L' : Ledger} {n : ℕ}

/-- A step that meets the condition. -/
theorem kept_step {i : Suite.Instruction}
    (h : @Suite.process strictBorsh L [.address n] i = .ok L')
    (hkeeps : KeepsIssuers L (.instruction [.address n] i)) :
    Run (restrict (@Suite.Step strictBorsh) fun L l _ ↦ KeepsIssuers L l) L
      [.instruction [.address n] i] L' := by
  have hsigner : ∀ k ∈ [Pubkey.address n], k.External :=
    List.forall_mem_singleton.2 (Pubkey.external_address n)
  exact .single ⟨@Suite.Step.instruction strictBorsh _ _ _ _ hsigner h, hkeeps⟩

/-- Steps of which the condition asks nothing. -/
theorem kept_steps {steps : List (Pubkey × Suite.Instruction)}
    (hsigners : ∀ step ∈ steps, ∃ n, step.1 = .address n)
    (hfree : ∀ step ∈ steps, ∀ L, KeepsIssuers L (.instruction [step.1] step.2))
    (h : steps.foldlM (fun L step ↦ @Suite.process strictBorsh L [step.1] step.2) L = .ok L') :
    Run (restrict (@Suite.Step strictBorsh) fun L l _ ↦ KeepsIssuers L l) L
      (steps.map fun step ↦ .instruction [step.1] step.2) L' := by
  refine (@Suite.run_of_steps strictBorsh _ _ steps (fun step hstep ↦ ?_) h).restrict_of_labels ?_
  · obtain ⟨n, hn⟩ := hsigners step hstep
    rw [hn]
    exact Pubkey.external_address n
  · intro l hl L L'
    obtain ⟨step, hstep, rfl⟩ := List.mem_map.1 hl
    exact hfree step hstep L

theorem registration_records (h : registration.foldlM
      (fun L step ↦ @Suite.process strictBorsh L [step.1] step.2) Fid.emptyLedger = .ok L) :
    (∀ r ∈ registrationRecords, L.accounts r.1 = r.2) ∧
      ∀ k ∉ registrationRecords.map Prod.fst, L.accounts k = .vacant := by
  have hregistered : registration.foldlM
      (fun L step ↦ @Suite.process strictBorsh L [step.1] step.2) Fid.emptyLedger = .ok _ := rfl
  obtain rfl := Except.ok.inj (hregistered.symm.trans h)
  constructor
  · simp only [registrationRecords, List.forall_mem_cons, List.not_mem_nil, false_implies,
      implies_true, and_true]
    exact ⟨rfl, rfl, rfl, rfl, rfl, rfl⟩
  · intro k hk
    simp only [registrationRecords, List.map_cons, List.map_nil, List.mem_cons,
      List.not_mem_nil, or_false, not_or] at hk
    obtain ⟨h₁, h₂, h₃, h₄, h₅, h₆⟩ := hk
    repeat refine update_vacant (by assumption) ?_
    rfl

/-- No claim has been made by the end of the registration. -/
theorem registration_backs {issuerFid : Pubkey} {topics : List ℕ}
    (h : registration.foldlM
      (fun L step ↦ @Suite.process strictBorsh L [step.1] step.2) Fid.emptyLedger = .ok L) :
    ProfileBacks L issuerFid topics := by
  obtain ⟨hrecords, hvacant⟩ := registration_records h
  intro k claim hstands
  have hnone : (k, claim) ∈ ([] : List (Pubkey × ClaimAccount)) :=
    view_listed hrecords hvacant rfl hstands.claimAt
  cases hnone

/-- The registration and the entry of the issuer meet the condition. -/
theorem kept_registration {labels : List Suite.Label}
    (hregistered : registration.foldlM
      (fun L step ↦ @Suite.process strictBorsh L [step.1] step.2) Fid.emptyLedger = .ok L₁)
    (htrusted : Tir.addTrustedIssuer L₁ [registryOwner] registryOwner rotationTir rotationEntry
      rotationIssuerFid [7] "" = .ok L₂)
    (hrest : Run (restrict (@Suite.Step strictBorsh) fun L l _ ↦ KeepsIssuers L l) L₂ labels L) :
    Run (restrict (@Suite.Step strictBorsh) fun L l _ ↦ KeepsIssuers L l) Fid.emptyLedger
      (registration.map (fun step ↦ Suite.Label.instruction [step.1] step.2) ++
        .instruction [registryOwner] (.tir (.addTrustedIssuer registryOwner rotationTir
          rotationEntry rotationIssuerFid [7] "")) :: labels) L := by
  have hsigners : ∀ step ∈ registration, ∃ n, step.1 = .address n := by
    simp [registration, Fid.claimHolder, Fid.claimIssuer, registryOwner]
  have hfree : ∀ step ∈ registration, ∀ L, KeepsIssuers L (.instruction [step.1] step.2) := by
    simp [registration, KeepsIssuers]
  have hentry : Run (restrict (@Suite.Step strictBorsh) fun L l _ ↦ KeepsIssuers L l) L₁
      [.instruction [registryOwner] (.tir (.addTrustedIssuer registryOwner rotationTir
        rotationEntry rotationIssuerFid [7] ""))] L₂ :=
    kept_step htrusted (registration_backs hregistered)
  exact (kept_steps hsigners hfree hregistered).append (hentry.append hrest)

/-- The issuer makes a claim with the key of its profile. -/
theorem kept_claim {holderFid claim index : Pubkey}
    (h : @Suite.process strictBorsh L [Fid.claimIssuer] (.platform (.fid (.addClaim
      ⟨Fid.claimIssuer, holderFid, claim, index⟩ 7 rotationIssuerFid 0))) = .ok L')
    (hsigns : SignsFor L rotationIssuerFid Fid.claimIssuer) :
    Run (restrict (@Suite.Step strictBorsh) fun L l _ ↦ KeepsIssuers L l) L
      [.instruction [Fid.claimIssuer] (.platform (.fid (.addClaim
        ⟨Fid.claimIssuer, holderFid, claim, index⟩ 7 rotationIssuerFid 0)))] L' :=
  kept_step h fun _ ↦ hsigns

theorem kept_run : ∃ L, Run (restrict (@Suite.Step strictBorsh) fun L l _ ↦ KeepsIssuers L l)
      Fid.emptyLedger keptHistory L ∧
    (∀ r ∈ claimedRecords Fid.claimIssuer, L.accounts r.1 = r.2) ∧
      ∀ k ∉ (claimedRecords Fid.claimIssuer).map Prod.fst, L.accounts k = .vacant := by
  have hlisted : Capacity.Listed Tir.maxTopicsPerIssuer [7] := ⟨by decide, by decide⟩
  refine ⟨_, kept_registration rfl
    (Tir.addTrustedIssuer_eq rfl hlisted (by decide) rfl (by decide))
    (kept_claim rfl ⟨_, rfl, rfl, rfl⟩), ?_, ?_⟩
  · simp only [claimedRecords, List.forall_mem_cons, List.not_mem_nil, false_implies,
      implies_true, and_true]
    exact ⟨rfl, rfl, rfl, rfl, rfl, rfl, rfl, rfl, rfl⟩
  · intro k hk
    simp only [claimedRecords, List.map_cons, List.map_nil, List.mem_cons, List.not_mem_nil,
      or_false, not_or] at hk
    obtain ⟨h₁, h₂, h₃, h₄, h₅, h₆, h₇, h₈, h₉⟩ := hk
    repeat refine update_vacant (by assumption) ?_
    rfl

end Histories

theorem kept_onlyOwnRecords {L : Ledger}
    (hrecords : ∀ r ∈ claimedRecords Fid.claimIssuer, L.accounts r.1 = r.2)
    (hvacant : ∀ k ∉ (claimedRecords Fid.claimIssuer).map Prod.fst, L.accounts k = .vacant) :
    OnlyOwnRecords L :=
  onlyOwnRecords_of_records hrecords hvacant (by decide) (by decide)

/-- While the issuer keeps its signer, both take its claim. -/
theorem kept_issuer_agrees : ∃ L,
    Run (restrict (@Suite.Step strictBorsh) fun L l _ ↦ KeepsIssuers L l) Fid.emptyLedger
      keptHistory L ∧
    ((@validateRecipientClaimsForMint strictBorsh L (fun _ ↦ "") (fun _ ↦ [rotationClaim]) L.now
      rotationContext).ok = true ↔
        ∀ topic ∈ rotationTopics.topics, Irp.verifyClaimForTopic L rotationHolder.fid topic
          rotationTir [rotationClaim, rotationEntry] L.now = true) ∧
    ∀ topic ∈ rotationTopics.topics, Irp.verifyClaimForTopic L rotationHolder.fid topic
      rotationTir [rotationClaim, rotationEntry] L.now = true := by
  obtain ⟨L, hrun, hrecords, hvacant⟩ := kept_run
  have hagree := @kept_issuers_agree L Fid.emptyLedger strictBorsh keptHistory (fun _ ↦ "")
    (fun _ ↦ [rotationClaim]) rotationContext rotationIrs Fid.claimHolder rotationCtr rotationHolder
    rotationTopics [rotationClaim, rotationEntry] L.now emptyLedger_nothingFiled hrun
    (kept_onlyOwnRecords hrecords hvacant) (claimed_reads hrecords)
    (claimed_finds hrecords hvacant) (claimed_all hrecords hvacant)
  exact ⟨L, hrun, hagree, claimed_verified hrecords hvacant⟩

/-- When the issuer has changed its signer the two do not agree. -/
theorem rotated_issuer_refused : ¬ ∀ (L₀ L : Ledger) (labels : List Suite.Label)
    (toBase58 : Pubkey → String) (getProgramAccounts : Pubkey → List Pubkey)
    (registry : MintRegistryContext) (irs wallet ctrState : Pubkey) (identity : WalletIdentity)
    (ctr : ClaimTopicsState) (accounts : List Pubkey) (now : ℤ),
    NothingFiled L₀ → Run (@Suite.Step strictBorsh) L₀ labels L → OnlyOwnRecords L →
    @ReadsRegistry strictBorsh L registry irs wallet identity ctrState ctr →
    FindsClaims L identity.fid (getProgramAccounts identity.fid) → HoldsAll L accounts →
    ((@validateRecipientClaimsForMint strictBorsh L toBase58 getProgramAccounts now registry).ok =
        true ↔
      ∀ topic ∈ ctr.topics,
        Irp.verifyClaimForTopic L identity.fid topic registry.tirState accounts now = true) := by
  intro hagree
  obtain ⟨L, hrun, hrecords, hvacant⟩ := rotation_run
  have hown := rotation_onlyOwnRecords hrecords hvacant
  have hread := claimed_reads hrecords
  have hfinds := claimed_finds hrecords hvacant
  have hfiled : IdentityFiled L :=
    @IdentityFiled.of_run _ _ _ strictBorsh hrun emptyLedger_nothingFiled.identityFiled
  have hok := (hagree Fid.emptyLedger L rotationHistory (fun _ ↦ "") (fun _ ↦ [rotationClaim])
    rotationContext rotationIrs Fid.claimHolder rotationCtr rotationHolder rotationTopics
    [rotationClaim, rotationEntry] L.now emptyLedger_nothingFiled hrun hown hread hfinds
    (claimed_all hrecords hvacant)).2 (claimed_verified hrecords hvacant)
  obtain ⟨k, claim, hbacked, hintact⟩ :=
    (@validate_ok_iff _ _ strictBorsh _ _ _ _ _ _ _ _ hown hfiled hread hfinds).1 hok 7
      List.mem_cons_self
  obtain ⟨-, rfl⟩ := claimed_claim hrecords hvacant hbacked.live.claimAt
  exact claimed_not_intact hrecords (by decide) hintact

end TokenService

end Fracks
