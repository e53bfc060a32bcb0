import Fracks.Token.SupportAccounts
import Fracks.VerifiedWallets

/-!
# The accounts of an approval

For the approval of a transfer the frontend looks for the claims of both wallets and for the
modules of the token, and hands the controller what it finds.  It leaves out a claim whose issuer
has changed its FID, although the chain takes it, and it gives the records of the limits, which
the chain does without.
-/

namespace Fracks.TransferService

open Checked AccountType Ledger Runs FirstSeen Token TokenService

/-- The configured programs that the approval needs. -/
structure ApprovalProgramIds extends TransferProgramIds where
  fid : Pubkey
  irs : Pubkey
  tir : Pubkey
  ctr : Pubkey

def ApprovalProgramIds.suite (ids : ApprovalProgramIds) : SuiteProgramIds := ⟨ids.fid, ids.tir⟩

section Builder

variable (L : Ledger) (ids : ApprovalProgramIds)

/-! ## Claims -/

/-- The topics that the token asks for, each once; none when they cannot be read. -/
def requiredTopics (mint : Pubkey) : List ℕ :=
  match decode (α := ClaimTopicsState)
      (L.accounts (.findProgramAddress .ctrState [.key mint] ids.ctr)).data with
  | some ctr => ctr.topics.dedup
  | none => []

def targetFid (wallet : Pubkey) : Pubkey := .findProgramAddress .fid [.key wallet] ids.fid

section Claims

variable [Borsh] (tirState : Pubkey) (now : ℤ) (required : List ℕ)

def isTrustedIssuerForTopic (claim : FoundClaim) : Bool :=
  (getAccountInfo L (issuerEntry ids.suite tirState claim)).any fun info ↦
    parseIssuerEntryForTopic info.data claim.topic

def issuerSignerMatchesClaim (claim : FoundClaim) : Bool :=
  (getAccountInfo L claim.issuerFid).any fun info ↦
    parseFidIsIssuerAndSigner info.data claim.signerKey

/-- The accounts for the first claim on each topic that stands all tests. -/
def appendClaims : List FoundClaim → List ℕ → List Pubkey
  | [], _ => []
  | claim :: claims, selectedTopics =>
      if required ≠ [] ∧ claim.topic ∉ required then appendClaims claims selectedTopics
      else if claim.topic ∈ selectedTopics then appendClaims claims selectedTopics
      else if claim.revoked = true then appendClaims claims selectedTopics
      else if claim.expiresAt ≠ 0 ∧ claim.expiresAt < now then appendClaims claims selectedTopics
      else if isTrustedIssuerForTopic L ids tirState claim = false then
        appendClaims claims selectedTopics
      else if issuerSignerMatchesClaim L claim = false then appendClaims claims selectedTopics
      else
        let selectedTopics := claim.topic :: selectedTopics
        [claim.pubkey, issuerEntry ids.suite tirState claim, claim.issuerFid] ++
          if required ≠ [] ∧ required.length ≤ selectedTopics.length then []
          else appendClaims claims selectedTopics

def appendClaimsForWallet (getProgramAccounts : Pubkey → List Pubkey) (wallet : Pubkey) :
    List Pubkey :=
  appendClaims L ids tirState now required
    (foundClaims L (getProgramAccounts (targetFid ids wallet))) []

end Claims

/-! ## Modules -/

/-- The accounts for one module: the program is the owner, whatever it is. -/
def approvalModule (sender : Pubkey) (senderCountry recipientCountry : Option ℕ)
    (moduleAccount : Pubkey) : List AccountMeta :=
  ⟨moduleAccount, false, true⟩ ::
    match getAccountInfo L moduleAccount with
    | none => []
    | some moduleInfo =>
        ⟨moduleInfo.owner, false, false⟩ ::
          (if moduleInfo.owner = .program .modDailyLimit then
            [⟨ModDailyLimit.usageAddress moduleAccount sender (.program .modDailyLimit), false,
              true⟩]
          else []) ++
          if moduleInfo.owner = .program .modCountryCap then
            [senderCountry, recipientCountry].filterMap fun country ↦ country.map fun country ↦
              ⟨ModCountryCap.countAddress moduleAccount country (.program .modCountryCap), false,
                true⟩
          else []

/-- Every bound module has an account. -/
def assertComplianceModuleAccountsExist (toBase58 : Pubkey → String) (moduleAccounts : List Pubkey)
    (mint : Pubkey) : Except String Unit :=
  let missingModules := moduleAccounts.filter fun k ↦ (getAccountInfo L k).isNone
  if missingModules = [] then .ok ()
  else
    let listedModules := ", ".intercalate ((missingModules.take 3).map toBase58)
    let count := missingModules.length
    let suffix := if 3 < count then ", ..." else ""
    let token := toBase58 mint
    .error (s!"This token's compliance configuration is broken on-chain for mint {token}. " ++
      s!"{count} bound module account(s) are missing: {listedModules}{suffix}. " ++
      "The token issuer must repair or rebind those compliance modules before transfers can " ++
      "succeed.")

/-- The accounts that the frontend adds to an approval; `getProgramAccounts` gives the accounts of
the FID program that have the size of a claim and the FID at the place of its holder. -/
def getTransferApprovalRemainingAccounts [Borsh] (toBase58 : Pubkey → String)
    (getProgramAccounts : Pubkey → List Pubkey) (now : ℤ)
    (sender recipient mint tirState complianceState : Pubkey)
    (senderCountry recipientCountry : Option ℕ) : Except String (List AccountMeta) := do
  let required := requiredTopics L ids mint
  let claims := (appendClaimsForWallet L ids tirState now required getProgramAccounts sender ++
    appendClaimsForWallet L ids tirState now required getProgramAccounts recipient).map
      fun k ↦ (⟨k, false, false⟩ : AccountMeta)
  match decode (α := ComplianceState) (L.accounts complianceState).data with
  | none => .ok (keepFirst AccountMeta.pubkey [] claims)
  | some compliance =>
      assertComplianceModuleAccountsExist L toBase58 compliance.modules mint
      .ok (keepFirst AccountMeta.pubkey [] (claims ++
        compliance.modules.flatMap (approvalModule L sender senderCountry recipientCountry)))

end Builder

/-- The country that the frontend reads of an identity. -/
def parseCountry [Borsh] (L : Ledger) (walletIdentity : Pubkey) : Option ℕ := do
  let info ← getAccountInfo L walletIdentity
  let identity ← Borsh.decodeView WalletIdentity info.data
  some identity.country

/-- The accounts of the approval that the frontend sends. -/
def approveAccounts (ids : ApprovalProgramIds)
    (getTokenAccountAddress : Pubkey → Pubkey → Pubkey)
    (mint fromWallet toWallet irpState irsState complianceState : Pubkey)
    (remaining : List Pubkey) : TransferEvaluation where
  irpState := irpState
  irsState := irsState
  tirState := .findProgramAddress .tirState [.key mint] ids.tir
  ctrState := .findProgramAddress .ctrState [.key mint] ids.ctr
  tokenState := .findProgramAddress .tokenState [.key mint] ids.token
  sourceTokenAccount := getTokenAccountAddress mint fromWallet
  tokenMintAccount := mint
  destinationTokenAccount := getTokenAccountAddress mint toWallet
  fromWallet := fromWallet
  toWallet := toWallet
  controllerProgram := ids.token
  hookProgram := TokenHook.hookProgram
  transferApproval := TokenHook.approvalAddress (getTokenAccountAddress mint fromWallet)
    (getTokenAccountAddress mint toWallet) fromWallet
  systemProgram := .program .system
  complianceState := complianceState
  fromWalletIdentity := .findProgramAddress .walletIdentity [.key irsState, .key fromWallet] ids.irs
  toWalletIdentity := .findProgramAddress .walletIdentity [.key irsState, .key toWallet] ids.irs
  fromFrozen := .findProgramAddress .frozen [.key mint, .key fromWallet] ids.token
  toFrozen := .findProgramAddress .frozen [.key mint, .key toWallet] ids.token
  fromPartialFreeze := .findProgramAddress .partialFreeze [.key mint, .key fromWallet] ids.token
  remaining := remaining

/-! ## The claims that are found -/

section Found

variable [Borsh] {L : Ledger} {ids : ApprovalProgramIds} {tirState k : Pubkey} {now : ℤ}
  {required selectedTopics : List ℕ} {claim : FoundClaim} {claims : List FoundClaim}

/-- The claim stands all tests that do not depend on the claims before it. -/
structure Admitted (L : Ledger) (ids : ApprovalProgramIds) (tirState : Pubkey) (now : ℤ)
    (required : List ℕ) (claim : FoundClaim) : Prop where
  asked : required = [] ∨ claim.topic ∈ required
  standing : claim.revoked = false
  unexpired : claim.expiresAt = 0 ∨ now ≤ claim.expiresAt
  trusted : isTrustedIssuerForTopic L ids tirState claim = true
  signed : issuerSignerMatchesClaim L claim = true

/-- The accounts for one claim. -/
def claimAccounts (ids : ApprovalProgramIds) (tirState : Pubkey) (claim : FoundClaim) :
    List Pubkey :=
  [claim.pubkey, issuerEntry ids.suite tirState claim, claim.issuerFid]

theorem appendClaims_skip
    (h : ¬ (Admitted L ids tirState now required claim ∧ claim.topic ∉ selectedTopics)) :
    appendClaims L ids tirState now required (claim :: claims) selectedTopics =
      appendClaims L ids tirState now required claims selectedTopics := by
  rw [appendClaims]
  split_ifs with hasked hselected hrevoked hexpired htrusted hsigned
  case neg =>
    have hadmitted : Admitted L ids tirState now required claim :=
      { asked := by tauto
        standing := Bool.eq_false_iff.2 hrevoked
        unexpired := by omega
        trusted := Bool.not_eq_false _ ▸ htrusted
        signed := Bool.not_eq_false _ ▸ hsigned }
    exact absurd ⟨hadmitted, hselected⟩ h
  all_goals rfl

theorem appendClaims_take (h : Admitted L ids tirState now required claim)
    (hnew : claim.topic ∉ selectedTopics) :
    appendClaims L ids tirState now required (claim :: claims) selectedTopics =
      claimAccounts ids tirState claim ++
        if required ≠ [] ∧ required.length ≤ (claim.topic :: selectedTopics).length then []
        else appendClaims L ids tirState now required claims (claim.topic :: selectedTopics) := by
  have hasked : ¬ (required ≠ [] ∧ claim.topic ∉ required) := by
    have hcases := h.asked
    tauto
  have hunexpired : ¬ (claim.expiresAt ≠ 0 ∧ claim.expiresAt < now) := by
    have hcases := h.unexpired
    omega
  rw [appendClaims, if_neg hasked, if_neg hnew, if_neg (Bool.eq_false_iff.1 h.standing),
    if_neg hunexpired, h.trusted, h.signed]
  rfl

/-- Only accounts for claims that stand the tests are found. -/
theorem mem_appendClaims
    (hk : k ∈ appendClaims L ids tirState now required claims selectedTopics) :
    ∃ claim ∈ claims, Admitted L ids tirState now required claim ∧
      k ∈ claimAccounts ids tirState claim := by
  induction claims generalizing selectedTopics with
  | nil => cases hk
  | cons claim claims ih =>
      by_cases htaken : Admitted L ids tirState now required claim ∧ claim.topic ∉ selectedTopics
      · obtain ⟨hadmitted, hnew⟩ := htaken
        rw [appendClaims_take hadmitted hnew] at hk
        cases List.mem_append.1 hk with
        | inl hk => exact ⟨claim, List.mem_cons_self, hadmitted, hk⟩
        | inr hk =>
            split at hk
            · cases hk
            · obtain ⟨found, hfound, hadmits⟩ := ih hk
              exact ⟨found, List.mem_cons_of_mem _ hfound, hadmits⟩
      · rw [appendClaims_skip htaken] at hk
        obtain ⟨found, hfound, hadmits⟩ := ih hk
        exact ⟨found, List.mem_cons_of_mem _ hfound, hadmits⟩

omit [Borsh] in
/-- As many different topics as are asked for are all of them. -/
theorem topics_complete {topic : ℕ} (hdistinct : selectedTopics.Nodup)
    (hasked : selectedTopics ⊆ required) (hall : required.length ≤ selectedTopics.length)
    (htopic : topic ∈ required) : topic ∈ selectedTopics := by
  have hperm : selectedTopics.Subperm required := List.subperm_of_subset hdistinct hasked
  exact (hperm.perm_of_length_le hall).mem_iff.2 htopic

/-- For each topic that is asked for and not settled yet, a claim that stands the tests is found
when there is any: the search only ends early when all topics are settled. -/
theorem appendClaims_finds {topic : ℕ} (hdistinct : selectedTopics.Nodup)
    (hasked : selectedTopics ⊆ required) (htopic : topic ∈ required) (hnew : topic ∉ selectedTopics)
    (hclaim : claim ∈ claims) (hon : claim.topic = topic)
    (hadmitted : Admitted L ids tirState now required claim) :
    ∃ found ∈ claims, found.topic = topic ∧ Admitted L ids tirState now required found ∧
      claimAccounts ids tirState found ⊆
        appendClaims L ids tirState now required claims selectedTopics := by
  induction claims generalizing selectedTopics with
  | nil => cases hclaim
  | cons first claims ih =>
      by_cases htaken : Admitted L ids tirState now required first ∧ first.topic ∉ selectedTopics
      · obtain ⟨hfirst, hunsettled⟩ := htaken
        rw [appendClaims_take hfirst hunsettled]
        by_cases hsame : first.topic = topic
        · exact ⟨first, List.mem_cons_self, hsame, hfirst, List.subset_append_left _ _⟩
        · have hlater : claim ∈ claims := by
            cases hclaim with
            | head => exact absurd hon hsame
            | tail _ hlater => exact hlater
          have hdistinct' : (first.topic :: selectedTopics).Nodup :=
            List.nodup_cons.2 ⟨hunsettled, hdistinct⟩
          have hasks : first.topic ∈ required :=
            hfirst.asked.resolve_left (List.ne_nil_of_mem htopic)
          have hasked' : first.topic :: selectedTopics ⊆ required :=
            List.cons_subset.2 ⟨hasks, hasked⟩
          have hnew' : topic ∉ first.topic :: selectedTopics := by
            simp [Ne.symm hsame, hnew]
          have hmore : ¬ (required ≠ [] ∧
              required.length ≤ (first.topic :: selectedTopics).length) := by
            rintro ⟨-, hall⟩
            exact hnew' (topics_complete hdistinct' hasked' hall htopic)
          obtain ⟨found, hfound, htopicOf, hadmits, hsub⟩ := ih hdistinct' hasked' hnew' hlater
          rw [if_neg hmore]
          exact ⟨found, List.mem_cons_of_mem _ hfound, htopicOf, hadmits,
            fun _ hk ↦ List.mem_append_right _ (hsub hk)⟩
      · have hlater : claim ∈ claims := by
          cases hclaim with
          | head => exact absurd ⟨hadmitted, hon ▸ hnew⟩ htaken
          | tail _ hlater => exact hlater
        obtain ⟨found, hfound, htopicOf, hadmits, hsub⟩ := ih hdistinct hasked hnew hlater
        rw [appendClaims_skip htaken]
        exact ⟨found, List.mem_cons_of_mem _ hfound, htopicOf, hadmits, hsub⟩

end Found

/-! ## What the chain makes of them -/

/-- The programs of the suite. -/
def approvalIds : ApprovalProgramIds where
  toTransferProgramIds := suiteIds
  fid := .program .fracksFid
  irs := .program .fracksIrs
  tir := .program .fracksTir
  ctr := .program .fracksCtr

section Search

variable [Borsh] {L : Ledger} {tirState fid k : Pubkey} {now : ℤ} {topic : ℕ} {required : List ℕ}
  {claim : ClaimAccount} {getProgramAccounts : Pubkey → List Pubkey}
  {accounts wallets : List Pubkey}

/-- A claim stands the tests exactly when it is asked for, the chain takes it, and its issuer is
intact. -/
theorem admitted_iff (hown : OnlyOwnRecords L) (hfiled : IdentityFiled L)
    (hclaim : L.view ClaimAccount k = some claim) (hfid : claim.fid = fid) :
    Admitted L approvalIds tirState now required (found k claim) ↔
      (required = [] ∨ claim.topic ∈ required) ∧
        Backed L fid tirState claim.topic now k claim ∧ IssuerIntact L claim := by
  rw [← passes_iff hown hfiled hclaim hfid]
  have hcanonical : k = Fid.claimAddress claim.fid claim.claimId :=
    hfiled.filed.claims k claim hclaim
  rw [hfid] at hcanonical
  constructor
  · intro h
    exact ⟨h.asked, hcanonical, h.standing, h.unexpired, (Option.any_eq_true _ _).1 h.trusted,
      (Option.any_eq_true _ _).1 h.signed⟩
  · rintro ⟨hasked, h⟩
    exact ⟨hasked, h.standing, h.unexpired, (Option.any_eq_true _ _).2 h.trusted,
      (Option.any_eq_true _ _).2 h.signerValid⟩

/-- What is found for some wallets. -/
def searched (L : Ledger) (tirState : Pubkey) (now : ℤ) (required : List ℕ)
    (getProgramAccounts : Pubkey → List Pubkey) (wallets : List Pubkey) : List Pubkey :=
  wallets.flatMap (appendClaimsForWallet L approvalIds tirState now required getProgramAccounts)

/-- A claim among what is found is backed, and its issuer is intact. -/
theorem backed_of_searched (hown : OnlyOwnRecords L) (hfiled : IdentityFiled L)
    (hfinds : ∀ fid, FindsClaims L fid (getProgramAccounts fid))
    (hk : k ∈ searched L tirState now required getProgramAccounts wallets)
    (hclaim : L.view ClaimAccount k = some claim) :
    (∃ wallet ∈ wallets, claim.fid = Fid.fidAddress wallet) ∧
      Backed L claim.fid tirState claim.topic now k claim ∧ IssuerIntact L claim := by
  obtain ⟨wallet, hwallet, hk⟩ := List.mem_flatMap.1 hk
  obtain ⟨c, hc, hadmitted, hk⟩ := mem_appendClaims hk
  obtain ⟨k', claim', hclaim', hfid, rfl⟩ := (mem_foundClaims (hfinds _)).1 hc
  have hcanonical : k = Fid.claimAddress claim.fid claim.claimId :=
    hfiled.filed.claims k claim hclaim
  simp only [claimAccounts, List.mem_cons, List.not_mem_nil, or_false] at hk
  rcases hk with hsame | hentry | hissuer
  · obtain rfl : k = k' := hsame
    obtain rfl := Option.some.inj (hclaim.symm.trans hclaim')
    obtain ⟨-, hbacked, hintact⟩ := (admitted_iff hown hfiled hclaim rfl).1 hadmitted
    exact ⟨⟨wallet, hwallet, hfid⟩, hbacked, hintact⟩
  -- the other two accounts of a claim are not claims
  · rw [hentry] at hcanonical
    cases hcanonical
  · have hsigned : claim'.issuerFid = Fid.fidAddress claim'.signerKey :=
      hfiled.signed k' claim' hclaim'
    have hfound : (found k' claim').issuerFid = claim'.issuerFid := rfl
    rw [hissuer, hfound, hsigned] at hcanonical
    simp [Fid.fidAddress, Fid.claimAddress, Pubkey.findProgramAddress, Pubkey.addSeed] at hcanonical

/-- A topic is proved by what is found exactly when a claim on it is backed, its issuer is intact,
and it is about the FID of one of the wallets. -/
theorem verifyClaimForTopic_searched (hown : OnlyOwnRecords L) (hfiled : IdentityFiled L)
    (hfinds : ∀ fid, FindsClaims L fid (getProgramAccounts fid))
    (htopic : topic ∈ required)
    (hsub : searched L tirState now required getProgramAccounts wallets ⊆ accounts)
    (honly : ∀ k ∈ accounts, k ∈ searched L tirState now required getProgramAccounts wallets ∨
      L.view ClaimAccount k = none) :
    Irp.verifyClaimForTopic L fid topic tirState accounts now = true ↔
      (∃ k claim, Backed L fid tirState topic now k claim ∧ IssuerIntact L claim) ∧
        ∃ wallet ∈ wallets, fid = Fid.fidAddress wallet := by
  rw [Irp.verifyClaimForTopic_iff]
  constructor
  · rintro ⟨k, hk, claim, hlive, -⟩
    have hsearched := (honly k hk).resolve_right (by simp [hlive.claimAt])
    obtain ⟨hwallet, hbacked, hintact⟩ :=
      backed_of_searched hown hfiled hfinds hsearched hlive.claimAt
    rw [hlive.holder] at hwallet hbacked
    rw [hlive.onTopic] at hbacked
    exact ⟨⟨k, claim, hbacked, hintact⟩, hwallet⟩
  · rintro ⟨⟨k, claim, hbacked, hintact⟩, wallet, hwallet, hfid⟩
    have hclaim := hbacked.live.claimAt
    have hholder := hbacked.live.holder
    have honTopic := hbacked.live.onTopic
    have hbacked' : Backed L claim.fid tirState claim.topic now k claim := by
      rw [hholder, honTopic]
      exact hbacked
    have hadmitted : Admitted L approvalIds tirState now required (found k claim) :=
      (admitted_iff hown hfiled hclaim rfl).2
        ⟨.inr (honTopic ▸ htopic), hbacked', hintact⟩
    have hlisted : found k claim ∈
        foundClaims L (getProgramAccounts (targetFid approvalIds wallet)) :=
      (mem_foundClaims (hfinds _)).2 ⟨k, claim, hclaim, hholder.trans hfid, rfl⟩
    obtain ⟨c, hc, hon, hadmits, haccounts⟩ := appendClaims_finds List.nodup_nil
      (List.nil_subset _) htopic List.not_mem_nil hlisted honTopic hadmitted
    obtain ⟨k₁, claim₁, hclaim₁, hfid₁, rfl⟩ := (mem_foundClaims (hfinds _)).1 hc
    have hholder₁ : claim₁.fid = fid := hfid₁.trans hfid.symm
    obtain ⟨-, hbacked₁, -⟩ := (admitted_iff hown hfiled hclaim₁ hholder₁).1 hadmits
    obtain rfl : claim₁.topic = topic := hon
    obtain ⟨entry, htrusted⟩ := hbacked₁.trusted
    have hkept : ∀ x ∈ claimAccounts approvalIds tirState (found k₁ claim₁), x ∈ accounts :=
      fun x hx ↦ hsub (List.mem_flatMap.2 ⟨wallet, hwallet, haccounts hx⟩)
    have hclaimKey : k₁ ∈ claimAccounts approvalIds tirState (found k₁ claim₁) :=
      List.mem_cons_self
    have hentryKey : Tir.issuerEntryAddress tirState claim₁.issuerFid ∈
        claimAccounts approvalIds tirState (found k₁ claim₁) :=
      List.mem_cons_of_mem _ List.mem_cons_self
    exact ⟨k₁, hkept _ hclaimKey, claim₁, hbacked₁.live, _, hkept _ hentryKey, entry, htrusted⟩

end Search

/-! ## The modules -/

section Modules

variable {L : Ledger} {M k sender source : Pubkey} {senderCountry recipientCountry : Option ℕ}
  {accounts remaining modules : List Pubkey} {amount toBalance fromCountry toCountry : ℕ}

/-- For a module the approval gets the accounts that the transfer gets. -/
theorem approvalModule_of_isModule (h : IsModule L M) :
    approvalModule L sender senderCountry recipientCountry M =
      appendModule L sender senderCountry recipientCountry [] M := by
  obtain ⟨hkind, howner, -⟩ := isModule_owner_kind h
  have hlisted : (L.accounts M).owner ∈ moduleProgramIds := by
    rw [howner]
    exact List.mem_map_of_mem (program_mem_modulePrograms hkind)
  have hthere : ¬ (L.accounts M = .vacant ∧ L.lamports M = 0) := by
    rintro ⟨hvacant, -⟩
    rw [hvacant] at hkind
    exact absurd hkind (by decide)
  simp only [approvalModule, appendModule, getAccountInfo, if_neg hthere,
    appendModuleProgramAccount, if_pos hlisted, List.nil_append]
  split_ifs <;> rfl

/-- The support accounts that the check of a module reads are given for it. -/
def SupportGiven (L : Ledger) (accounts : List Pubkey) (source : Pubkey) (toCountry : ℕ)
    (M : Pubkey) : Prop :=
  match (L.accounts M).data with
  | .dailyTransferLimitModule _ =>
      ModDailyLimit.usageAddress M source (L.accounts M).owner ∈ accounts
  | .investorCountryCapModule _ =>
      ModCountryCap.countAddress M toCountry (L.accounts M).owner ∈ accounts
  | _ => True

theorem approvalModule_supports (h : IsModule L M)
    (hgiven : ∀ m ∈ approvalModule L source senderCountry (some toCountry) M, m.pubkey ∈ accounts) :
    M ∈ accounts ∧ SupportGiven L accounts source toCountry M := by
  obtain ⟨hkind, howner, -⟩ := isModule_owner_kind h
  have hdata := TokenHook.kind_of_isModule h
  rw [approvalModule_of_isModule h, appendModule_of_isModule h] at hgiven
  refine ⟨hgiven ⟨M, false, true⟩ (by simp), ?_⟩
  unfold SupportGiven
  rw [howner]
  cases hmodule : (L.accounts M).data with
  | dailyTransferLimitModule module =>
      rw [hmodule] at hdata
      dsimp only
      rw [hdata]
      exact hgiven ⟨ModDailyLimit.usageAddress M source (.program .modDailyLimit), false, true⟩
        (by simp [hdata, AccountData.kind])
  | investorCountryCapModule module =>
      rw [hmodule] at hdata
      dsimp only
      rw [hdata]
      exact hgiven ⟨ModCountryCap.countAddress M toCountry (.program .modCountryCap), false, true⟩
        (by simp [hdata, AccountData.kind])
  | _ => trivial

/-- None of the accounts for a module is a claim. -/
theorem approvalModule_no_claim (hfiled : IdentityFiled L) (h : IsModule L M)
    (hk : k ∈ (approvalModule L source senderCountry recipientCountry M).map AccountMeta.pubkey) :
    L.view ClaimAccount k = none := by
  rw [Option.eq_none_iff_forall_ne_some]
  intro claim hclaim
  have hcanonical : k = Fid.claimAddress claim.fid claim.claimId :=
    hfiled.filed.claims k claim hclaim
  obtain ⟨m, hm, rfl⟩ := List.mem_map.1 hk
  rw [approvalModule_of_isModule h, appendModule_of_isModule h] at hm
  simp only [List.mem_append, List.mem_cons, List.not_mem_nil, or_false] at hm
  rcases hm with ((rfl | rfl) | husage) | hcount
  · have hkind : (L.accounts M).kind ∈ moduleKinds := h
    rw [view_eq_some.1 hclaim, kind_account] at hkind
    exact absurd hkind (by decide)
  · cases hcanonical
  · split at husage
    · obtain rfl := List.mem_singleton.1 husage
      cases hcanonical
    · cases husage
  · split at hcount
    · obtain ⟨country, -, hcountry⟩ := List.mem_filterMap.1 hcount
      obtain ⟨c, -, rfl⟩ := Option.map_eq_some_iff.1 hcountry
      cases hcanonical
    · cases hcount

/-- What is stored for the limit of a module leaves room. -/
def LimitKept (L : Ledger) (source : Pubkey) (amount toBalance toCountry : ℕ) (M : Pubkey) : Prop :=
  match (L.accounts M).data with
  | .dailyTransferLimitModule module =>
      source = .default ∨ saturatingAdd (storedVolume L M source) amount ≤ module.dailyLimit
  | .investorCountryCapModule module =>
      toBalance = 0 → 0 < amount → ∀ cap, module.capOf toCountry = some cap →
        storedCount L M toCountry < cap
  | _ => True

/-- With the support accounts a limit is shown as it is stored. -/
theorem limitKept_iff (h : SupportGiven L accounts source toCountry M) :
    LimitKept L source amount toBalance toCountry M ↔
      ¬ LimitShown L accounts source amount toBalance toCountry M := by
  unfold SupportGiven at h
  unfold LimitKept LimitShown
  cases hmodule : (L.accounts M).data with
  | dailyTransferLimitModule module =>
      rw [hmodule] at h
      dsimp only at h ⊢
      rw [shownVolume, if_pos h]
      push Not
      exact or_iff_not_imp_left
  | investorCountryCapModule module =>
      rw [hmodule] at h
      dsimp only at h ⊢
      rw [shownCount, if_pos h]
      push Not
      rfl
  | _ => simp

end Modules

/-! ## The identity and the compliance of a transfer -/

section Approval

variable [Borsh] {L : Ledger} {ts : TokenState} {accts : RegistryAccounts}
  {wallet walletIdentity source complianceState : Pubkey} {remaining given modules : List Pubkey}
  {amount toBalance fromCountry toCountry : ℕ} {identity : WalletIdentity} {ctr : ClaimTopicsState}
  {state : ComplianceState}

/-- What the verification of a wallet asks of the given accounts are the topics. -/
theorem verifyWalletAgainstIrp_topics (hctr : L.view ClaimTopicsState accts.ctrState = some ctr)
    (h : verifyWalletAgainstIrp L ts wallet accts walletIdentity remaining = .ok identity) :
    Irp.findWalletIdentity L wallet accts.irsState walletIdentity = .ok (some identity) ∧
      (∀ topic ∈ ctr.topics,
        Irp.verifyClaimForTopic L identity.fid topic accts.tirState remaining L.now = true) ∧
      ∀ given, (∀ topic ∈ ctr.topics,
          Irp.verifyClaimForTopic L identity.fid topic accts.tirState given L.now = true) →
        verifyWalletAgainstIrp L ts wallet accts walletIdentity given = .ok identity := by
  have hread : Borsh.decodeView ClaimTopicsState (L.accounts accts.ctrState).data = some ctr := by
    rw [view_eq_some.1 hctr, account_data, Borsh.decodeView_encode]
  simp only [verifyWalletAgainstIrp, deserializeLocal, bind_eq_ok, require_eq_ok, okOr_eq_ok,
    Irp.toOption_join_eq_some, exists_const, Except.ok.injEq, hread, Option.some.injEq] at h ⊢
  obtain ⟨hregistry, irp, hirp, irs, hirs, tir, htir, _, rfl, hirsKey, htirKey, hctrKey, hmint,
    htirMint, hctrMint, hbound, _, hfound, hactive, htopics, rfl⟩ := h
  refine ⟨hfound, htopics, fun given hgiven ↦ ?_⟩
  exact ⟨hregistry, irp, hirp, irs, hirs, tir, htir, ctr, rfl, hirsKey, htirKey, hctrKey, hmint,
    htirMint, hctrMint, hbound, _, hfound, hactive, hgiven, rfl⟩

/-- What the compliance check asks of the given accounts are the modules and their limits. -/
theorem evaluateCompliance_limits (hstate : L.view ComplianceState complianceState = some state)
    (h : evaluateCompliance L ts complianceState remaining source amount toBalance fromCountry
      toCountry = .ok ()) :
    (state.modulesPaused = false → ∀ M ∈ state.modules,
        ¬ LimitShown L remaining source amount toBalance toCountry M) ∧
      ∀ given, (state.modulesPaused = false → ∀ M ∈ state.modules, M ∈ given ∧
          ¬ LimitShown L given source amount toBalance toCountry M) →
        evaluateCompliance L ts complianceState given source amount toBalance fromCountry
          toCountry = .ok () := by
  have hread : deserializeLocal ComplianceState L complianceState = .ok state := by
    rw [deserializeLocal, view_eq_some.1 hstate, account_data, Borsh.decodeView_encode]
    rfl
  cases hpaused : state.modulesPaused with
  | true =>
      refine ⟨fun hrunning ↦ Bool.noConfusion hrunning, fun given _ ↦ ?_⟩
      simp only [evaluateCompliance, bind_eq_ok, require_eq_ok, exists_const, hread,
        Except.ok.injEq, exists_eq_left', hpaused, if_true, and_true] at h ⊢
      exact h
  | false =>
      obtain ⟨hreferences, hmodules, hlimits⟩ := (evaluateCompliance_eq_ok hread hpaused).1 h
      refine ⟨fun _ ↦ hlimits, fun given hgiven ↦ ?_⟩
      refine (evaluateCompliance_eq_ok hread hpaused).2 ⟨hreferences, fun M hM hrefuses ↦ ?_,
        fun M hM ↦ (hgiven rfl M hM).2⟩
      have hallowed := hmodules M hM
      unfold ModuleRefuses at hallowed hrefuses
      exact hrefuses.elim (fun hmissing ↦ hmissing (hgiven rfl M hM).1)
        fun hother ↦ hallowed (.inr hother)

end Approval

/-! ## The list of the frontend -/

section Client

variable [Borsh] {L L₀ : Ledger} {labels : List Suite.Label} {ts : TokenState}
  {toBase58 : Pubkey → String} {getProgramAccounts : Pubkey → List Pubkey}
  {getTokenAccountAddress : Pubkey → Pubkey → Pubkey}
  {mint fromWallet toWallet irsState k : Pubkey} {amount fromBalance toBalance : ℕ}
  {ctr : ClaimTopicsState} {state : ComplianceState} {given : List Pubkey}

/-- What the frontend adds to the approval of a transfer. -/
def clientAccounts (L : Ledger) (ts : TokenState) (toBase58 : Pubkey → String)
    (getProgramAccounts : Pubkey → List Pubkey) (mint fromWallet toWallet irsState : Pubkey) :
    Except String (List AccountMeta) :=
  getTransferApprovalRemainingAccounts L approvalIds toBase58 getProgramAccounts L.now fromWallet
    toWallet mint (Tir.tirAddress mint) ts.compliance
    (parseCountry L (Irp.walletIdentityAddress irsState fromWallet))
    (parseCountry L (Irp.walletIdentityAddress irsState toWallet))

/-- The controller accepts the two wallets and the transfer with these remaining accounts. -/
def Approves (L : Ledger) (ts : TokenState) (getTokenAccountAddress : Pubkey → Pubkey → Pubkey)
    (mint fromWallet toWallet irsState : Pubkey) (amount fromBalance toBalance : ℕ)
    (remaining : List Pubkey) : Prop :=
  ∃ countries, evaluateTransferComponents L ts (approveAccounts approvalIds getTokenAccountAddress
    mint fromWallet toWallet ts.identityRegistry irsState ts.compliance remaining) amount
      fromBalance toBalance = .ok countries

/-- On every topic a claim about the FID is backed by an issuer that is intact, and the FID is that
of one of the wallets. -/
def TopicsCovered (L : Ledger) (topics : List ℕ) (mint : Pubkey) (wallets : List Pubkey)
    (fid : Pubkey) : Prop :=
  ∀ topic ∈ topics, (∃ k claim, Backed L fid (Tir.tirAddress mint) topic L.now k claim ∧
    IssuerIntact L claim) ∧ ∃ wallet ∈ wallets, fid = Fid.fidAddress wallet

/-- The identities and the limits are such that the frontend finds what is needed. -/
structure Covered (L : Ledger) (ctr : ClaimTopicsState) (state : ComplianceState)
    (mint fromWallet toWallet irsState : Pubkey) (amount toBalance : ℕ) : Prop where
  sender : ∀ identity, Irp.findWalletIdentity L fromWallet irsState
      (Irp.walletIdentityAddress irsState fromWallet) = .ok (some identity) →
    TopicsCovered L ctr.topics mint [fromWallet, toWallet] identity.fid
  receiver : ∀ identity, Irp.findWalletIdentity L toWallet irsState
      (Irp.walletIdentityAddress irsState toWallet) = .ok (some identity) →
    TopicsCovered L ctr.topics mint [fromWallet, toWallet] identity.fid
  limits : ∀ identity, Irp.findWalletIdentity L toWallet irsState
      (Irp.walletIdentityAddress irsState toWallet) = .ok (some identity) →
    state.modulesPaused = false → ∀ M ∈ state.modules,
      LimitKept L fromWallet amount toBalance identity.country M

/-- The keys of the list: the claims that are found, and the accounts for the modules. -/
theorem clientAccounts_eq (toBase58 : Pubkey → String) (getProgramAccounts : Pubkey → List Pubkey)
    (fromWallet toWallet irsState : Pubkey)
    (hctr : L.view ClaimTopicsState (Ctr.ctrAddress mint) = some ctr)
    (hstate : L.view ComplianceState ts.compliance = some state)
    (hmodules : ∀ M ∈ state.modules, IsModule L M) :
    ∃ built, clientAccounts L ts toBase58 getProgramAccounts mint fromWallet toWallet irsState =
        .ok built ∧
      ∀ k, k ∈ built.map AccountMeta.pubkey ↔
        k ∈ searched L (Tir.tirAddress mint) L.now ctr.topics.dedup getProgramAccounts
          [fromWallet, toWallet] ∨
        ∃ M ∈ state.modules, k ∈ (approvalModule L fromWallet
          (parseCountry L (Irp.walletIdentityAddress irsState fromWallet))
          (parseCountry L (Irp.walletIdentityAddress irsState toWallet)) M).map
            AccountMeta.pubkey := by
  have hrequired : requiredTopics L approvalIds mint = ctr.topics.dedup := by
    have hread : decode (α := ClaimTopicsState) (L.accounts (.findProgramAddress .ctrState
        [.key mint] approvalIds.ctr)).data = some ctr :=
      decode_eq_some.2 (by rw [← account_data, ← view_eq_some.1 hctr]; rfl)
    rw [requiredTopics, hread]
  have hcompliance : decode (α := ComplianceState) (L.accounts ts.compliance).data =
      some state := by
    rw [decode_eq_some, view_eq_some.1 hstate, account_data]
  have hthere : assertComplianceModuleAccountsExist L toBase58 state.modules mint = .ok () := by
    have hnone : state.modules.filter (fun k ↦ (getAccountInfo L k).isNone) = [] := by
      rw [List.filter_eq_nil_iff]
      intro M hM hmissing
      have hkind : (L.accounts M).kind ∈ moduleKinds := hmodules M hM
      rw [getAccountInfo] at hmissing
      split at hmissing
      case isTrue hvacant =>
        rw [hvacant.1] at hkind
        exact absurd hkind (by decide)
      case isFalse => cases hmissing
    rw [assertComplianceModuleAccountsExist, if_pos hnone]
  have hclaims : appendClaimsForWallet L approvalIds (Tir.tirAddress mint) L.now ctr.topics.dedup
      getProgramAccounts fromWallet ++ appendClaimsForWallet L approvalIds (Tir.tirAddress mint)
        L.now ctr.topics.dedup getProgramAccounts toWallet =
      searched L (Tir.tirAddress mint) L.now ctr.topics.dedup getProgramAccounts
        [fromWallet, toWallet] := by
    simp [searched]
  refine ⟨keepFirst AccountMeta.pubkey [] ((searched L (Tir.tirAddress mint) L.now ctr.topics.dedup
    getProgramAccounts [fromWallet, toWallet]).map (fun k ↦ ⟨k, false, false⟩) ++
      state.modules.flatMap (approvalModule L fromWallet
        (parseCountry L (Irp.walletIdentityAddress irsState fromWallet))
        (parseCountry L (Irp.walletIdentityAddress irsState toWallet)))), ?_, ?_⟩
  · rw [clientAccounts, getTransferApprovalRemainingAccounts, hcompliance, hrequired]
    dsimp only
    rw [hthere, hclaims]
    rfl
  · intro k
    have hkept : ∀ raw : List AccountMeta,
        k ∈ (keepFirst AccountMeta.pubkey [] raw).map AccountMeta.pubkey ↔
          k ∈ raw.map AccountMeta.pubkey := by
      intro raw
      constructor
      · intro hk
        obtain ⟨m, hm, rfl⟩ := List.mem_map.1 hk
        exact List.mem_map_of_mem (of_mem_keepFirst hm).1
      · intro hk
        obtain ⟨m, hm, rfl⟩ := List.mem_map.1 hk
        have hfirst : ∃ m' ∈ keepFirst AccountMeta.pubkey [] raw, m'.pubkey = m.pubkey :=
          exists_mem_keepFirst hm List.not_mem_nil
        obtain ⟨m', hm', hkey⟩ := hfirst
        exact List.mem_map.2 ⟨m', hm', hkey⟩
    rw [hkept, List.map_append, List.mem_append, List.map_map, List.map_flatMap, List.mem_flatMap]
    have hsame : (AccountMeta.pubkey ∘ fun k ↦ (⟨k, false, false⟩ : AccountMeta)) = id := rfl
    rw [hsame, List.map_id]

/-- The parts of the check that the remaining accounts take part in. -/
theorem Approves.parts {remaining : List Pubkey}
    (h : Approves L ts getTokenAccountAddress mint fromWallet toWallet irsState amount fromBalance
      toBalance remaining) :
    ∃ registry : RegistryAccounts, registry.irsState = irsState ∧
      registry.tirState = Tir.tirAddress mint ∧ registry.ctrState = Ctr.ctrAddress mint ∧
      ∃ sender receiver,
        verifyWalletAgainstIrp L ts fromWallet registry
          (Irp.walletIdentityAddress irsState fromWallet) remaining = .ok sender ∧
        verifyWalletAgainstIrp L ts toWallet registry
          (Irp.walletIdentityAddress irsState toWallet) remaining = .ok receiver ∧
        evaluateCompliance L ts ts.compliance remaining fromWallet amount toBalance sender.country
          receiver.country = .ok () ∧
        ∀ given,
          verifyWalletAgainstIrp L ts fromWallet registry
            (Irp.walletIdentityAddress irsState fromWallet) given = .ok sender →
          verifyWalletAgainstIrp L ts toWallet registry
            (Irp.walletIdentityAddress irsState toWallet) given = .ok receiver →
          evaluateCompliance L ts ts.compliance given fromWallet amount toBalance sender.country
            receiver.country = .ok () →
          Approves L ts getTokenAccountAddress mint fromWallet toWallet irsState amount fromBalance
            toBalance given := by
  obtain ⟨countries, h⟩ := h
  simp only [evaluateTransferComponents, bind_eq_ok, require_eq_ok, exists_const,
    Except.ok.injEq] at h
  obtain ⟨hrunning, _, hfrom, _, hto, frozen, hfrozen, hfree, sender, hsender, receiver, hreceiver,
    _, hcomplies, -⟩ := h
  refine ⟨_, rfl, rfl, rfl, sender, receiver, hsender, hreceiver, hcomplies,
    fun given hsender' hreceiver' hcomplies' ↦ ⟨(sender.country, receiver.country), ?_⟩⟩
  simp only [evaluateTransferComponents, bind_eq_ok, require_eq_ok, exists_const,
    Except.ok.injEq]
  exact ⟨hrunning, _, hfrom, _, hto, frozen, hfrozen, hfree, sender, hsender', receiver, hreceiver',
    _, hcomplies', rfl⟩

/-- The frontend reads the country of an identity that the chain finds. -/
theorem parseCountry_of_found {wallet irs : Pubkey} {identity : WalletIdentity}
    (h : Irp.findWalletIdentity L wallet irs k = .ok (some identity)) :
    parseCountry L k = some identity.country := by
  unfold Irp.findWalletIdentity at h
  split at h
  case isTrue => cases h
  case isFalse howner =>
    split at h
    case isTrue => cases h
    case isFalse =>
      simp only [Irp.deserializeView, bind_eq_ok, okOr_eq_ok] at h
      obtain ⟨stored, hstored, h⟩ := h
      split at h
      case isTrue => cases h
      case isFalse =>
        obtain rfl := Option.some.inj (Except.ok.inj h)
        have hthere : ¬ (L.accounts k = .vacant ∧ L.lamports k = 0) := by
          rintro ⟨hvacant, -⟩
          rw [hvacant] at howner
          exact howner rfl
        exact Option.bind_eq_some_iff.2 ⟨L.accounts k, if_neg hthere,
          Option.bind_eq_some_iff.2 ⟨stored, hstored, rfl⟩⟩

omit [Borsh] in
/-- The limits of the bound modules are shown by the list as they are stored. -/
theorem built_shows (senderCountry : Option ℕ) {toCountry : ℕ}
    (hmodules : ∀ M ∈ state.modules, IsModule L M)
    (hgiven : ∀ M ∈ state.modules, ∀ k ∈ (approvalModule L fromWallet senderCountry
      (some toCountry) M).map AccountMeta.pubkey, k ∈ given) :
    ∀ M ∈ state.modules, M ∈ given ∧ (LimitKept L fromWallet amount toBalance toCountry M ↔
      ¬ LimitShown L given fromWallet amount toBalance toCountry M) := by
  intro M hM
  have hkeys : ∀ m ∈ approvalModule L fromWallet senderCountry (some toCountry) M,
      m.pubkey ∈ given := fun m hm ↦ hgiven M hM _ (List.mem_map_of_mem hm)
  obtain ⟨hlisted, hsupport⟩ := approvalModule_supports (hmodules M hM) hkeys
  exact ⟨hlisted, limitKept_iff hsupport⟩

/-- When some list does, the frontend builds one, and this list does exactly when the frontend finds
what is needed. -/
theorem built_approves_iff (hfiled : IdentityFiled L) (hown : OnlyOwnRecords L)
    (hfinds : ∀ fid, FindsClaims L fid (getProgramAccounts fid))
    (hctr : L.view ClaimTopicsState (Ctr.ctrAddress mint) = some ctr)
    (hstate : L.view ComplianceState ts.compliance = some state)
    (hmodules : ∀ M ∈ state.modules, IsModule L M) {remaining : List Pubkey}
    (happroves : Approves L ts getTokenAccountAddress mint fromWallet toWallet irsState amount
      fromBalance toBalance remaining) :
    ∃ built, clientAccounts L ts toBase58 getProgramAccounts mint fromWallet toWallet irsState =
        .ok built ∧
      (Approves L ts getTokenAccountAddress mint fromWallet toWallet irsState amount fromBalance
          toBalance (built.map AccountMeta.pubkey) ↔
        Covered L ctr state mint fromWallet toWallet irsState amount toBalance) := by
  obtain ⟨built, hbuilt, hkeys⟩ := clientAccounts_eq toBase58 getProgramAccounts fromWallet toWallet
    irsState hctr hstate hmodules
  obtain ⟨registry, hirs, htir, hctrKey, sender, receiver, hsender, hreceiver, hcomplies, hwith⟩ :=
    happroves.parts
  have hctr' : L.view ClaimTopicsState registry.ctrState = some ctr := by
    rw [hctrKey]
    exact hctr
  obtain ⟨hfoundFrom, -, hsenderWith⟩ := verifyWalletAgainstIrp_topics hctr' hsender
  obtain ⟨hfoundTo, -, hreceiverWith⟩ := verifyWalletAgainstIrp_topics hctr' hreceiver
  obtain ⟨-, hcompliesWith⟩ := evaluateCompliance_limits hstate hcomplies
  rw [hirs] at hfoundFrom hfoundTo
  rw [htir] at hsenderWith hreceiverWith
  -- what the list proves and shows
  have htopics : ∀ fid, (∀ topic ∈ ctr.topics, Irp.verifyClaimForTopic L fid topic
      (Tir.tirAddress mint) (built.map AccountMeta.pubkey) L.now = true) ↔
        TopicsCovered L ctr.topics mint [fromWallet, toWallet] fid := by
    intro fid
    refine forall₂_congr fun topic htopic ↦ ?_
    refine verifyClaimForTopic_searched hown hfiled hfinds (List.mem_dedup.2 htopic)
      (fun k hk ↦ (hkeys k).2 (.inl hk)) fun k hk ↦ ?_
    refine ((hkeys k).1 hk).imp_right ?_
    rintro ⟨M, hM, hmodule⟩
    exact approvalModule_no_claim hfiled (hmodules M hM) hmodule
  have hshows : ∀ M ∈ state.modules, M ∈ built.map AccountMeta.pubkey ∧
      (LimitKept L fromWallet amount toBalance receiver.country M ↔
        ¬ LimitShown L (built.map AccountMeta.pubkey) fromWallet amount toBalance receiver.country
          M) := by
    refine built_shows (parseCountry L (Irp.walletIdentityAddress irsState fromWallet)) hmodules
      fun M hM k hk ↦ (hkeys k).2 (.inr ⟨M, hM, ?_⟩)
    rw [parseCountry_of_found hfoundTo]
    exact hk
  have hfoundSame : ∀ {wallet : Pubkey} {known : WalletIdentity},
      Irp.findWalletIdentity L wallet irsState (Irp.walletIdentityAddress irsState wallet) =
        .ok (some known) → ∀ identity, Irp.findWalletIdentity L wallet irsState
          (Irp.walletIdentityAddress irsState wallet) = .ok (some identity) → identity = known := by
    intro wallet known hknown identity hidentity
    exact Option.some.inj (Except.ok.inj (hidentity.symm.trans hknown))
  refine ⟨built, hbuilt, ?_, ?_⟩
  · intro happrovesBuilt
    obtain ⟨registry', hirs', htir', hctrKey', sender', receiver', hsender', hreceiver', hcomplies',
      -⟩ := happrovesBuilt.parts
    have hctr'' : L.view ClaimTopicsState registry'.ctrState = some ctr := by
      rw [hctrKey']
      exact hctr
    obtain ⟨hfoundFrom', hsenderTopics, -⟩ := verifyWalletAgainstIrp_topics hctr'' hsender'
    obtain ⟨hfoundTo', hreceiverTopics, -⟩ := verifyWalletAgainstIrp_topics hctr'' hreceiver'
    obtain ⟨hlimits, -⟩ := evaluateCompliance_limits hstate hcomplies'
    rw [hirs'] at hfoundFrom' hfoundTo'
    rw [htir'] at hsenderTopics hreceiverTopics
    obtain rfl := hfoundSame hfoundTo _ hfoundTo'
    refine ⟨fun identity hidentity ↦ ?_, fun identity hidentity ↦ ?_,
      fun identity hidentity hrunning M hM ↦ ?_⟩
    · rw [hfoundSame hfoundFrom' identity hidentity]
      exact (htopics _).1 hsenderTopics
    · rw [hfoundSame hfoundTo identity hidentity]
      exact (htopics _).1 hreceiverTopics
    · rw [hfoundSame hfoundTo identity hidentity]
      exact (hshows M hM).2.2 (hlimits hrunning M hM)
  · intro hcovered
    refine hwith _ (hsenderWith _ ((htopics _).2 (hcovered.sender _ hfoundFrom)))
      (hreceiverWith _ ((htopics _).2 (hcovered.receiver _ hfoundTo)))
      (hcompliesWith _ fun hrunning M hM ↦ ?_)
    obtain ⟨hlisted, hshown⟩ := hshows M hM
    exact ⟨hlisted, hshown.1 (hcovered.limits _ hfoundTo hrunning M hM)⟩

/-- In every state that a history of the suite reaches, the list of the frontend does when some list
does, exactly when the identities, their claims and the limits that are stored are such that the
frontend finds what is needed: its search goes by the FID of the wallet and skips issuers that have
changed, and its list shows the records of the limits. -/
theorem approval_accounts_suffice_iff (hstart : NothingFiled L₀)
    (hrun : Run Suite.Step L₀ labels L) (hown : OnlyOwnRecords L)
    (hfinds : ∀ fid, FindsClaims L fid (getProgramAccounts fid))
    (hctr : L.view ClaimTopicsState (Ctr.ctrAddress mint) = some ctr)
    (hstate : L.view ComplianceState ts.compliance = some state)
    (hmodules : ∀ M ∈ state.modules, IsModule L M) :
    ((∃ remaining, Approves L ts getTokenAccountAddress mint fromWallet toWallet irsState amount
        fromBalance toBalance remaining) →
      ∃ built, clientAccounts L ts toBase58 getProgramAccounts mint fromWallet toWallet irsState =
          .ok built ∧
        Approves L ts getTokenAccountAddress mint fromWallet toWallet irsState amount fromBalance
          toBalance (built.map AccountMeta.pubkey)) ↔
    ((∃ remaining, Approves L ts getTokenAccountAddress mint fromWallet toWallet irsState amount
        fromBalance toBalance remaining) →
      Covered L ctr state mint fromWallet toWallet irsState amount toBalance) := by
  have hfiled : IdentityFiled L := .of_run hrun hstart.identityFiled
  refine imp_congr_right fun hsome ↦ ?_
  obtain ⟨remaining, happroves⟩ := hsome
  obtain ⟨built, hbuilt, hiff⟩ :=
    built_approves_iff hfiled hown hfinds hctr hstate hmodules happroves
  rw [← hiff]
  constructor
  · rintro ⟨built', hbuilt', happrovesBuilt⟩
    rwa [Except.ok.inj (hbuilt.symm.trans hbuilt')]
  · intro happrovesBuilt
    exact ⟨built, hbuilt, happrovesBuilt⟩

end Client

/-! ## An issuer that changes its signer -/

section Rotated

open Irp

def approvalCompliance : Pubkey := Compliance.complianceAddress mintedToken

def approvalLimit : Pubkey := HookedModule.moduleAddress DailyTransferLimitModule mintedToken

def buyer : Pubkey := .address 6

/-- The sender and the receiver. -/
def parties : List Pubkey := [Fid.claimHolder, buyer]

def partyFid (wallet : Pubkey) : Pubkey := Fid.fidAddress wallet

def partyIdentity (wallet : Pubkey) : Pubkey := walletIdentityAddress rotationIrs wallet

def partyClaim (wallet : Pubkey) : Pubkey := Fid.claimAddress (partyFid wallet) 0

def partyIndex (wallet : Pubkey) : Pubkey :=
  Fid.claimTopicIndexAddress (partyFid wallet) rotationIssuerFid 7

/-- The buyer is registered like the holder, the token gets its compliance with a daily limit, and
then the issuer takes another key as its signer. -/
def approvalEnrolment : List (Pubkey × Suite.Instruction) :=
  enrolment ++
    [(buyer, .platform (.fid (.createFid buyer (partyFid buyer) false 276))),
      (registryOwner, .platform (.irs (.registerIdentity
        ⟨registryOwner, rotationIrs, registryOwner, partyIdentity buyer⟩ (partyFid buyer) buyer
        (partyFid buyer) 276))),
      (registryOwner, .platform (.irs (.setIdentityActivation registryOwner rotationIrs
        (partyIdentity buyer) true))),
      (Fid.claimIssuer, .platform (.fid (.addClaim ⟨Fid.claimIssuer, partyFid buyer,
        partyClaim buyer, partyIndex buyer⟩ 7 rotationIssuerFid 0))),
      (registryOwner, .platform (.core (.compliance (.initializeCompliance registryOwner
        approvalCompliance mintedToken)))),
      (registryOwner, .platform (.core (.module (.initializeDailyLimit registryOwner approvalLimit
        mintedToken 100)))),
      (registryOwner, .platform (.core (.compliance (.bindModule registryOwner approvalCompliance
        approvalLimit)))),
      (Fid.claimIssuer, .platform (.fid (.setSignerKey Fid.claimIssuer rotationIssuerFid
        (.address 4))))]

def approvalSteps : List (Pubkey × Suite.Instruction) :=
  registration ++ (registryOwner, .tir (.addTrustedIssuer registryOwner rotationTir rotationEntry
    rotationIssuerFid [7] "")) :: approvalEnrolment

def approvalHistory : List Suite.Label :=
  approvalSteps.map fun step ↦ .instruction [step.1] step.2

def approvalComplianceRecord : ComplianceState :=
  ⟨registryOwner, mintedToken, [approvalLimit], false⟩

def approvalLimitRecord : DailyTransferLimitModule :=
  ⟨registryOwner, mintedToken, registryOwner, 100⟩

def approvalStorage : IdentityRegistryStorageState :=
  ⟨registryOwner, registryOwner, [enrolledIrp], 2⟩

def issuerRecord (signerKey : Pubkey) : FidAccount :=
  ⟨Fid.claimIssuer, Fid.claimIssuer, signerKey, 0, true, 0⟩

def approvalEntry : IssuerEntry := ⟨rotationIssuerFid, rotationTir, [7], true, ""⟩

def partyIdentityRecord (wallet : Pubkey) : WalletIdentity :=
  ⟨wallet, partyFid wallet, 276, rotationIrs, true, registryOwner, 1000⟩

def partyClaimRecord (wallet : Pubkey) : ClaimAccount :=
  ⟨partyFid wallet, 0, 7, rotationIssuerFid, Fid.claimIssuer, 1000, 0, false⟩

/-- The accounts of a registered wallet. -/
def partyRecords (wallet : Pubkey) : List (Pubkey × Account) :=
  [(partyFid wallet, account (⟨wallet, wallet, wallet, 1, false, 276⟩ : FidAccount)),
    (partyIdentity wallet, account (partyIdentityRecord wallet)),
    (partyClaim wallet, account (partyClaimRecord wallet)),
    (partyIndex wallet, account (⟨partyFid wallet, rotationIssuerFid, 7, partyClaim wallet, 0,
      true⟩ : ClaimTopicIndex))]

/-- The accounts of the registered parties, when their issuer has this signer. -/
def approvalRecords (signerKey : Pubkey) : List (Pubkey × Account) :=
  parties.flatMap partyRecords ++
    [(rotationIssuerFid, account (issuerRecord signerKey)),
      (rotationIrs, account approvalStorage),
      (rotationCtr, account rotationTopics),
      (rotationTir, account enrolledIssuers),
      (rotationEntry, account approvalEntry),
      (enrolledIrp, account enrolledRegistry),
      (approvalCompliance, account approvalComplianceRecord),
      (approvalLimit, account approvalLimitRecord)]

def approvalToken : TokenState := { enrolledToken with compliance := approvalCompliance }

/-- A list that will do. -/
def approvalList : List Pubkey := parties.map partyClaim ++ [rotationEntry, approvalLimit]

theorem approval_run : ∃ L, Run (@Suite.Step strictBorsh) Fid.emptyLedger approvalHistory L ∧
    (∀ r ∈ approvalRecords (.address 4), L.accounts r.1 = r.2) ∧
      ∀ k ∉ (approvalRecords (.address 4)).map Prod.fst, L.accounts k = .vacant := by
  have hlisted : Capacity.Listed Tir.maxTopicsPerIssuer [7] := ⟨by decide, by decide⟩
  have hsigners : ∀ step ∈ approvalEnrolment, ∃ n, step.1 = .address n := by
    simp [approvalEnrolment, enrolment, Fid.claimIssuer, registryOwner, buyer]
  refine ⟨_, registered_run hsigners rfl
    (Tir.addTrustedIssuer_eq rfl hlisted (by decide) rfl (by decide)) rfl, ?_, ?_⟩
  · simp only [approvalRecords, parties, partyRecords, List.flatMap_cons, List.flatMap_nil,
      List.append_nil, List.cons_append, List.nil_append, List.forall_mem_cons, List.not_mem_nil,
      false_implies, implies_true, and_true]
    exact ⟨rfl, rfl, rfl, rfl, rfl, rfl, rfl, rfl, rfl, rfl, rfl, rfl, rfl, rfl, rfl, rfl⟩
  · intro k hk
    simp only [approvalRecords, parties, partyRecords, List.flatMap_cons, List.flatMap_nil,
      List.append_nil, List.cons_append, List.nil_append, List.map_cons, List.map_nil,
      List.mem_cons, List.not_mem_nil, or_false, not_or] at hk
    obtain ⟨h₁, h₂, h₃, h₄, h₅, h₆, h₇, h₈, h₉, h₁₀, h₁₁, h₁₂, h₁₃, h₁₄, h₁₅, h₁₆⟩ := hk
    repeat refine update_vacant (by assumption) ?_
    rfl

/-- The node finds the one claim of a wallet. -/
def claimsOf (fid : Pubkey) : List Pubkey :=
  (parties.filter fun wallet ↦ partyFid wallet = fid).map partyClaim

theorem mem_claimsOf {fid k : Pubkey} :
    k ∈ claimsOf fid ↔ ∃ wallet ∈ parties, partyFid wallet = fid ∧ partyClaim wallet = k := by
  simp [claimsOf, and_assoc]

section Records

variable {L : Ledger} {signerKey wallet : Pubkey}
  (hrecords : ∀ r ∈ approvalRecords signerKey, L.accounts r.1 = r.2)

include hrecords

theorem approval_view {α : Type} [AccountType α] {k : Pubkey} {a : α}
    (h : (k, account a) ∈ approvalRecords signerKey) : L.view α k = some a :=
  view_eq_some.2 (hrecords (k, account a) h)

theorem approval_read {α : Type} [AccountType α] {k : Pubkey} {a : α}
    (h : (k, account a) ∈ approvalRecords signerKey) :
    strictBorsh.decodeView α (L.accounts k).data = some a := by
  rw [hrecords (k, account a) h, account_data]
  exact decode_encode a

theorem party_view {α : Type} [AccountType α] {k : Pubkey} {a : α} (hwallet : wallet ∈ parties)
    (h : (k, account a) ∈ partyRecords wallet) : L.view α k = some a :=
  approval_view hrecords (List.mem_append_left _ (List.mem_flatMap.2 ⟨wallet, hwallet, h⟩))

/-- The claims of the issuer are still backed. -/
theorem approval_backed (hwallet : wallet ∈ parties) :
    Backed L (partyFid wallet) rotationTir 7 L.now (partyClaim wallet)
      (partyClaimRecord wallet) := by
  have hclaim : L.view ClaimAccount (partyClaim wallet) = some (partyClaimRecord wallet) :=
    party_view hrecords hwallet (by simp [partyRecords])
  have hentry : L.view IssuerEntry rotationEntry = some approvalEntry :=
    approval_view hrecords (by simp [approvalRecords])
  exact ⟨⟨hclaim, rfl, rfl, rfl, rfl, .inl rfl, rfl⟩, approvalEntry, hentry, rfl, rfl, rfl, rfl,
    List.mem_cons_self⟩

theorem approval_found (hwallet : wallet ∈ parties) :
    @findWalletIdentity strictBorsh L wallet rotationIrs (partyIdentity wallet) =
      .ok (some (partyIdentityRecord wallet)) := by
  have hidentity : L.view WalletIdentity (partyIdentity wallet) =
      some (partyIdentityRecord wallet) :=
    party_view hrecords hwallet (by simp [partyRecords])
  exact @findWalletIdentity_of_view strictBorsh _ _ _ _ _ rfl hidentity rfl rfl

theorem approval_verified (hwallet : wallet ∈ parties) :
    @verifyWalletAgainstIrp strictBorsh L approvalToken wallet
      ⟨enrolledIrp, rotationIrs, rotationTir, rotationCtr⟩ (partyIdentity wallet) approvalList =
        .ok (partyIdentityRecord wallet) := by
  have hirp : strictBorsh.decodeView IdentityRegistryState (L.accounts enrolledIrp).data =
      some enrolledRegistry := approval_read hrecords (by simp [approvalRecords])
  have hirs : strictBorsh.decodeView IdentityRegistryStorageState (L.accounts rotationIrs).data =
      some approvalStorage := approval_read hrecords (by simp [approvalRecords])
  have htir : strictBorsh.decodeView TrustedIssuersState (L.accounts rotationTir).data =
      some enrolledIssuers := approval_read hrecords (by simp [approvalRecords])
  have hctr : strictBorsh.decodeView ClaimTopicsState (L.accounts rotationCtr).data =
      some rotationTopics := approval_read hrecords (by simp [approvalRecords])
  obtain ⟨hlive, entry, htrusted⟩ := approval_backed hrecords hwallet
  have hclaim : partyClaim wallet ∈ approvalList :=
    List.mem_append_left _ (List.mem_map_of_mem hwallet)
  have hentry : rotationEntry ∈ approvalList := by simp [approvalList]
  have htopics : ∀ topic ∈ rotationTopics.topics, verifyClaimForTopic L
      (partyIdentityRecord wallet).fid topic rotationTir approvalList L.now = true := by
    intro topic htopic
    obtain rfl : topic = 7 := List.mem_singleton.1 htopic
    exact verifyClaimForTopic_iff.2 ⟨partyClaim wallet, hclaim, partyClaimRecord wallet, hlive,
      rotationEntry, hentry, entry, htrusted⟩
  simp only [verifyWalletAgainstIrp, deserializeLocal, bind_eq_ok, require_eq_ok, okOr_eq_ok,
    toOption_join_eq_some, exists_const, Except.ok.injEq]
  exact ⟨rfl, _, hirp, _, hirs, _, htir, _, hctr, rfl, rfl, rfl, rfl, rfl, rfl, List.mem_cons_self,
    partyIdentityRecord wallet, approval_found hrecords hwallet, rfl, htopics, rfl⟩

theorem approval_topics :
    L.view ClaimTopicsState (Ctr.ctrAddress mintedToken) = some rotationTopics :=
  approval_view hrecords (by simp [approvalRecords, rotationCtr])

theorem approval_compliance :
    L.view ComplianceState approvalToken.compliance = some approvalComplianceRecord :=
  approval_view hrecords (by simp [approvalRecords, approvalToken])

theorem approval_modules : ∀ M ∈ approvalComplianceRecord.modules, IsModule L M := by
  intro M hM
  obtain rfl : M = approvalLimit := List.mem_singleton.1 hM
  rw [IsModule, hrecords (approvalLimit, account approvalLimitRecord) (by simp [approvalRecords])]
  decide

theorem approval_complies : @evaluateCompliance strictBorsh L approvalToken approvalCompliance
    approvalList Fid.claimHolder 1 0 276 276 = .ok () := by
  have hstate : @deserializeLocal ComplianceState _ strictBorsh L approvalCompliance =
      .ok approvalComplianceRecord := by
    have hread : strictBorsh.decodeView ComplianceState (L.accounts approvalCompliance).data =
        some approvalComplianceRecord := approval_read hrecords (by simp [approvalRecords])
    rw [deserializeLocal, hread]
    rfl
  have hlimit :
      (L.accounts approvalLimit).data = .dailyTransferLimitModule approvalLimitRecord := by
    rw [hrecords (approvalLimit, account approvalLimitRecord) (by simp [approvalRecords])]
    rfl
  have hunused : shownVolume L approvalList approvalLimit Fid.claimHolder = 0 := by
    have hprogram : (L.accounts approvalLimit).owner = .program .modDailyLimit := by
      rw [hrecords (approvalLimit, account approvalLimitRecord) (by simp [approvalRecords])]
      rfl
    rw [shownVolume, hprogram, if_neg (by decide)]
  refine (@evaluateCompliance_eq_ok _ _ _ _ _ _ _ strictBorsh _ _ _ hstate rfl).2
    ⟨?_, fun M hM ↦ ?_, fun M hM ↦ ?_⟩
  · simp [ReferencesRefused, approvalToken, enrolledToken, approvalComplianceRecord, u64Max]
  · obtain rfl : M = approvalLimit := List.mem_singleton.1 hM
    rw [ModuleRefuses, hlimit]
    simp [approvalList]
  · obtain rfl : M = approvalLimit := List.mem_singleton.1 hM
    rw [LimitShown, hlimit]
    simp [hunused, saturatingAdd, u64Max, approvalLimitRecord]

variable (hvacant : ∀ k ∉ (approvalRecords signerKey).map Prod.fst, L.accounts k = .vacant)

include hvacant

theorem approval_claim {k : Pubkey} {claim : ClaimAccount}
    (h : L.view ClaimAccount k = some claim) :
    ∃ wallet ∈ parties, partyClaim wallet = k ∧ partyClaimRecord wallet = claim := by
  have hlisted : (k, claim) ∈ parties.map fun wallet ↦
      (partyClaim wallet, partyClaimRecord wallet) := view_listed hrecords hvacant rfl h
  obtain ⟨wallet, hwallet, hentry⟩ := List.mem_map.1 hlisted
  exact ⟨wallet, hwallet, Prod.mk.inj hentry⟩

theorem approval_finds (fid : Pubkey) : FindsClaims L fid (claimsOf fid) := by
  refine ⟨fun k claim h hfid ↦ ?_, fun k hk ↦ ?_, fun k hk claim h ↦ ?_⟩
  · obtain ⟨wallet, hwallet, rfl, rfl⟩ := approval_claim hrecords hvacant h
    exact mem_claimsOf.2 ⟨wallet, hwallet, hfid, rfl⟩
  · obtain ⟨wallet, hwallet, -, rfl⟩ := mem_claimsOf.1 hk
    have hclaim : L.view ClaimAccount (partyClaim wallet) = some (partyClaimRecord wallet) :=
      party_view hrecords hwallet (by simp [partyRecords])
    rw [view_eq_some.1 hclaim]
    rfl
  · obtain ⟨wallet, hwallet, hfid, rfl⟩ := mem_claimsOf.1 hk
    have hclaim : L.view ClaimAccount (partyClaim wallet) = some (partyClaimRecord wallet) :=
      party_view hrecords hwallet (by simp [partyRecords])
    rw [← Option.some.inj (hclaim.symm.trans h)]
    exact hfid

/-- The controller accepts a transfer of the holder to the buyer with the claims and the entry of
their issuer. -/
theorem approval_approves : @Approves strictBorsh L approvalToken (fun _ wallet ↦ wallet)
    mintedToken Fid.claimHolder buyer rotationIrs 1 5 0 approvalList := by
  have hunlisted : ∀ wallet ∈ parties,
      frozenAddress mintedToken wallet ∉ (approvalRecords .default).map Prod.fst := by decide
  have hunfrozen : partialFreezeAddress mintedToken Fid.claimHolder ∉
      (approvalRecords .default).map Prod.fst := by decide
  have hnotFrozen : ∀ wallet ∈ parties, @ensureWalletNotFrozen strictBorsh L
      (frozenAddress mintedToken wallet) wallet mintedToken = .ok () := by
    intro wallet hwallet
    have hempty : (L.accounts (frozenAddress mintedToken wallet)).data = .empty := by
      rw [hvacant _ (hunlisted wallet hwallet)]
      rfl
    exact if_pos (.inr (.inl hempty))
  have hfree : @readPartialFreezeAmount strictBorsh L
      (partialFreezeAddress mintedToken Fid.claimHolder) Fid.claimHolder mintedToken = .ok 0 := by
    have hempty : (L.accounts (partialFreezeAddress mintedToken Fid.claimHolder)).data =
        .empty := by
      rw [hvacant _ hunfrozen]
      rfl
    exact if_pos (.inr (.inl hempty))
  have hholder : Fid.claimHolder ∈ parties := List.mem_cons_self
  have hbuyer : buyer ∈ parties := List.mem_cons_of_mem _ List.mem_cons_self
  refine ⟨(276, 276), ?_⟩
  simp only [evaluateTransferComponents, bind_eq_ok, require_eq_ok, exists_const,
    Except.ok.injEq]
  exact ⟨rfl, _, hnotFrozen _ hholder, _, hnotFrozen _ hbuyer, 0, hfree, by decide, _,
    approval_verified hrecords hholder, _, approval_verified hrecords hbuyer, _,
    approval_complies hrecords, rfl⟩

end Records

section Rotation

variable {L : Ledger} (hrecords : ∀ r ∈ approvalRecords (.address 4), L.accounts r.1 = r.2)
  (hvacant : ∀ k ∉ (approvalRecords (.address 4)).map Prod.fst, L.accounts k = .vacant)

include hrecords hvacant

theorem approval_onlyOwnRecords : OnlyOwnRecords L :=
  onlyOwnRecords_of_records hrecords hvacant (by decide) (by decide)

/-- The frontend does not find the claims of an issuer with another signer. -/
theorem approval_not_covered : ¬ @Covered strictBorsh L rotationTopics approvalComplianceRecord
    mintedToken Fid.claimHolder buyer rotationIrs 1 0 := by
  intro hcovered
  have htopics := @Covered.sender strictBorsh _ _ _ _ _ _ _ _ _ hcovered _
    (approval_found hrecords List.mem_cons_self)
  obtain ⟨⟨k, claim, hbacked, issuer, hissuer, -, hsigner⟩, -⟩ := htopics 7 List.mem_cons_self
  obtain ⟨wallet, -, -, rfl⟩ := approval_claim hrecords hvacant hbacked.live.claimAt
  have hrotated : L.view FidAccount rotationIssuerFid = some (issuerRecord (.address 4)) :=
    approval_view hrecords (by simp [approvalRecords])
  have hsame := Option.some.inj (hrotated.symm.trans hissuer)
  rw [← hsame] at hsigner
  have hkeys : Pubkey.address 4 ≠ Fid.claimIssuer := by decide
  exact hkeys hsigner

end Rotation

/-- After the issuer has changed its signer the controller still accepts a transfer with some list,
but not with that of the frontend. -/
theorem rotated_signer_blocks_client : ∃ L,
    Run (@Suite.Step strictBorsh) Fid.emptyLedger approvalHistory L ∧
    (∃ remaining, @Approves strictBorsh L approvalToken (fun _ wallet ↦ wallet) mintedToken
      Fid.claimHolder buyer rotationIrs 1 5 0 remaining) ∧
    ¬ ∃ built, @clientAccounts strictBorsh L approvalToken (fun _ ↦ "") claimsOf mintedToken
        Fid.claimHolder buyer rotationIrs = .ok built ∧
      @Approves strictBorsh L approvalToken (fun _ wallet ↦ wallet) mintedToken Fid.claimHolder
        buyer rotationIrs 1 5 0 (built.map AccountMeta.pubkey) := by
  obtain ⟨L, hrun, hrecords, hvacant⟩ := approval_run
  have happroves := approval_approves hrecords hvacant
  refine ⟨L, hrun, ⟨_, happroves⟩, fun hclient ↦ approval_not_covered hrecords hvacant ?_⟩
  exact (@approval_accounts_suffice_iff strictBorsh L Fid.emptyLedger approvalHistory approvalToken
    (fun _ ↦ "") claimsOf (fun _ wallet ↦ wallet) mintedToken Fid.claimHolder buyer rotationIrs 1 5
    0 rotationTopics approvalComplianceRecord emptyLedger_nothingFiled hrun
    (approval_onlyOwnRecords hrecords hvacant) (approval_finds hrecords hvacant)
    (approval_topics hrecords) (approval_compliance hrecords) (approval_modules hrecords)).1
      (fun _ ↦ hclient) ⟨_, happroves⟩

end Rotated

end Fracks.TransferService
