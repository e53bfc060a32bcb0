import Fracks.KeptIssuers
import Fracks.TransferApprovals

/-!
# Approvals with issuers that keep their keys

Where the trusted issuers keep the keys of their claims, the frontend looks under the FIDs that the
wallets have and the limits that are stored leave room, the list of the frontend does when any list
does.
-/

namespace Fracks.TransferService

open Checked AccountType Ledger Runs Token TokenService

section Kept

variable [Borsh] {L L₀ : Ledger} {labels : List Suite.Label} {ts : TokenState}
  {toBase58 : Pubkey → String} {getProgramAccounts : Pubkey → List Pubkey}
  {getTokenAccountAddress : Pubkey → Pubkey → Pubkey}
  {mint fromWallet toWallet irsState : Pubkey} {amount fromBalance toBalance : ℕ}
  {ctr : ClaimTopicsState} {state : ComplianceState}

/-- Where claims are asked for, the wallet is registered with the FID of one of these wallets. -/
def KnownFid (L : Ledger) (ctr : ClaimTopicsState) (irsState : Pubkey) (wallets : List Pubkey)
    (wallet : Pubkey) : Prop :=
  ∀ identity, Irp.findWalletIdentity L wallet irsState
      (Irp.walletIdentityAddress irsState wallet) = .ok (some identity) →
    ctr.topics ≠ [] → ∃ owner ∈ wallets, identity.fid = Fid.fidAddress owner

/-- What is stored for the limits of the running modules leaves room for the transfer. -/
def LimitsKept (L : Ledger) (state : ComplianceState) (fromWallet toWallet irsState : Pubkey)
    (amount toBalance : ℕ) : Prop :=
  ∀ identity, Irp.findWalletIdentity L toWallet irsState
      (Irp.walletIdentityAddress irsState toWallet) = .ok (some identity) →
    state.modulesPaused = false → ∀ M ∈ state.modules,
      LimitKept L fromWallet amount toBalance identity.country M

/-- A wallet that the chain accepts with some list has its topics covered. -/
theorem topicsCovered_of_verified {wallet : Pubkey} {registry : RegistryAccounts}
    {identity : WalletIdentity} {wallets remaining : List Pubkey} (htrust : TrustBacked L)
    (hirs : registry.irsState = irsState) (htir : registry.tirState = Tir.tirAddress mint)
    (hctr : L.view ClaimTopicsState registry.ctrState = some ctr)
    (hknown : KnownFid L ctr irsState wallets wallet)
    (h : verifyWalletAgainstIrp L ts wallet registry (Irp.walletIdentityAddress irsState wallet)
      remaining = .ok identity) :
    ∀ found, Irp.findWalletIdentity L wallet irsState
        (Irp.walletIdentityAddress irsState wallet) = .ok (some found) →
      TopicsCovered L ctr.topics mint wallets found.fid := by
  obtain ⟨hfound, htopics, -⟩ := verifyWalletAgainstIrp_topics hctr h
  rw [hirs] at hfound
  rw [htir] at htopics
  intro found hsame topic htopic
  obtain rfl := Option.some.inj (Except.ok.inj (hfound.symm.trans hsame))
  obtain ⟨k, -, claim, hlive, x, -, entry, htrusted⟩ :=
    Irp.verifyClaimForTopic_iff.1 (htopics topic htopic)
  obtain rfl := htrusted.canonical
  have hbacked : Backed L identity.fid (Tir.tirAddress mint) topic L.now k claim :=
    ⟨hlive, entry, htrusted⟩
  exact ⟨⟨k, claim, hbacked, htrust.intact hbacked⟩,
    hknown identity hfound (List.ne_nil_of_mem htopic)⟩

/-- In every state that a history reaches in which trusted issuers keep their keys, for wallets with
FIDs of their own and within the limits that are stored, the list of the frontend does when some
list does. -/
theorem kept_accounts_suffice (hstart : NothingFiled L₀)
    (hrun : Run (restrict Suite.Step fun L l _ ↦ KeepsIssuers L l) L₀ labels L)
    (hown : OnlyOwnRecords L) (hfinds : ∀ fid, FindsClaims L fid (getProgramAccounts fid))
    (hctr : L.view ClaimTopicsState (Ctr.ctrAddress mint) = some ctr)
    (hstate : L.view ComplianceState ts.compliance = some state)
    (hmodules : ∀ M ∈ state.modules, IsModule L M)
    (hknown : ∀ wallet ∈ [fromWallet, toWallet],
      KnownFid L ctr irsState [fromWallet, toWallet] wallet)
    (hlimits : LimitsKept L state fromWallet toWallet irsState amount toBalance)
    (hsome : ∃ remaining, Approves L ts getTokenAccountAddress mint fromWallet toWallet irsState
      amount fromBalance toBalance remaining) :
    ∃ built, clientAccounts L ts toBase58 getProgramAccounts mint fromWallet toWallet irsState =
        .ok built ∧
      Approves L ts getTokenAccountAddress mint fromWallet toWallet irsState amount fromBalance
        toBalance (built.map AccountMeta.pubkey) := by
  obtain ⟨hfiled, htrust⟩ := trustBacked_of_run hstart hrun
  obtain ⟨remaining, happroves⟩ := hsome
  obtain ⟨registry, hirs, htir, hctrKey, sender, receiver, hsender, hreceiver, -, -⟩ :=
    happroves.parts
  have hctr' : L.view ClaimTopicsState registry.ctrState = some ctr := by
    rw [hctrKey]
    exact hctr
  obtain ⟨hfrom, hto⟩ := List.forall_mem_cons.1 hknown
  have hcovered : Covered L ctr state mint fromWallet toWallet irsState amount toBalance :=
    { sender := topicsCovered_of_verified htrust hirs htir hctr' hfrom hsender
      receiver := topicsCovered_of_verified htrust hirs htir hctr'
        (List.forall_mem_singleton.1 hto) hreceiver
      limits := hlimits }
  obtain ⟨built, hbuilt, hiff⟩ :=
    built_approves_iff hfiled hown hfinds hctr hstate hmodules happroves
  exact ⟨built, hbuilt, hiff.2 hcovered⟩

end Kept

/-! ## A sale with a kept issuer and with a rotated one -/

section Sale

open Irp

/-- The enrolment of the two parties without its last step: the issuer keeps its signer. -/
def saleHistory : List Suite.Label := approvalHistory.dropLast

/-- The registry of the token and the identity of the buyer. -/
def buyerEnrolment : List (Pubkey × Suite.Instruction) := (approvalEnrolment.drop 1).take 5

/-- The compliance of the token with its daily limit. -/
def saleLimits : List (Pubkey × Suite.Instruction) := (approvalEnrolment.drop 7).take 3

theorem sale_run : ∃ L, Run (restrict (@Suite.Step strictBorsh) fun L l _ ↦ KeepsIssuers L l)
      Fid.emptyLedger saleHistory L ∧
    (∀ r ∈ approvalRecords Fid.claimIssuer, L.accounts r.1 = r.2) ∧
      ∀ k ∉ (approvalRecords Fid.claimIssuer).map Prod.fst, L.accounts k = .vacant := by
  have hlisted : Capacity.Listed Tir.maxTopicsPerIssuer [7] := ⟨by decide, by decide⟩
  have hbuyerSigners : ∀ step ∈ buyerEnrolment, ∃ n, step.1 = .address n := by
    simp [buyerEnrolment, approvalEnrolment, enrolment, registryOwner, buyer]
  have hbuyerFree : ∀ step ∈ buyerEnrolment, ∀ L,
      KeepsIssuers L (.instruction [step.1] step.2) := by
    simp [buyerEnrolment, approvalEnrolment, enrolment, KeepsIssuers]
  have hlimitSigners : ∀ step ∈ saleLimits, ∃ n, step.1 = .address n := by
    simp [saleLimits, approvalEnrolment, enrolment, registryOwner]
  have hlimitFree : ∀ step ∈ saleLimits, ∀ L, KeepsIssuers L (.instruction [step.1] step.2) := by
    simp [saleLimits, approvalEnrolment, enrolment, KeepsIssuers]
  -- the issuer makes both claims with the key of its profile
  refine ⟨_, kept_registration rfl
    (Tir.addTrustedIssuer_eq rfl hlisted (by decide) rfl (by decide))
    (((kept_claim rfl ⟨_, rfl, rfl, rfl⟩).append
      (kept_steps hbuyerSigners hbuyerFree rfl)).append
        ((kept_claim rfl ⟨_, rfl, rfl, rfl⟩).append
          (kept_steps hlimitSigners hlimitFree rfl))), ?_, ?_⟩
  · simp only [approvalRecords, parties, partyRecords, List.flatMap_cons, List.flatMap_nil,
      List.append_nil, List.cons_append, List.nil_append, List.forall_mem_cons, List.not_mem_nil,
      false_implies, implies_true, and_true]
    exact ⟨rfl, rfl, rfl, rfl, rfl, rfl, rfl, rfl, rfl, rfl, rfl, rfl, rfl, rfl, rfl, rfl⟩
  · intro k hk
    simp only [approvalRecords, parties, partyRecords, List.flatMap_cons, List.flatMap_nil,
      List.append_nil, List.cons_append, List.nil_append, List.map_cons, List.map_nil,
      List.mem_cons, List.not_mem_nil, or_false, not_or] at hk
    obtain ⟨h₁, h₂, h₃, h₄, h₅, h₆, h₇, h₈, h₉, h₁₀, h₁₁, h₁₂, h₁₃, h₁₄, h₁₅, h₁₆⟩ := hk
    repeat refine update_vacant (by assumption) ?_
    rfl

section Records

variable {L : Ledger} (hrecords : ∀ r ∈ approvalRecords Fid.claimIssuer, L.accounts r.1 = r.2)

include hrecords

theorem sale_known {wallet : Pubkey} (hwallet : wallet ∈ [Fid.claimHolder, buyer]) :
    @KnownFid strictBorsh L rotationTopics rotationIrs [Fid.claimHolder, buyer] wallet := by
  intro identity hfound _
  have hregistered := Except.ok.inj ((approval_found hrecords hwallet).symm.trans hfound)
  obtain rfl := Option.some.inj hregistered
  exact ⟨wallet, hwallet, rfl⟩

variable (hvacant : ∀ k ∉ (approvalRecords Fid.claimIssuer).map Prod.fst, L.accounts k = .vacant)

include hvacant

theorem sale_onlyOwnRecords : OnlyOwnRecords L :=
  onlyOwnRecords_of_records hrecords hvacant (by decide) (by decide)

theorem sale_limits : @LimitsKept strictBorsh L approvalComplianceRecord Fid.claimHolder buyer
    rotationIrs 1 0 := by
  intro identity _ _ M hM
  obtain rfl : M = approvalLimit := List.mem_singleton.1 hM
  have hlimit : L.accounts approvalLimit = account approvalLimitRecord :=
    hrecords (approvalLimit, account approvalLimitRecord) (by simp [approvalRecords])
  have hunlisted : ModDailyLimit.usageAddress approvalLimit Fid.claimHolder
      (.program .modDailyLimit) ∉ (approvalRecords .default).map Prod.fst := by decide
  -- nothing has been transferred yet
  have hunused : storedVolume L approvalLimit Fid.claimHolder = 0 := by
    have hnone : usageRecord L approvalLimit Fid.claimHolder = none := by
      rw [usageRecord, view_none_of_vacant (hvacant _ hunlisted)]
      rfl
    rw [storedVolume_eq hlimit, hnone]
    rfl
  have hdata : (L.accounts approvalLimit).data = .dailyTransferLimitModule approvalLimitRecord := by
    rw [hlimit]
    rfl
  rw [LimitKept, hdata]
  refine .inr ?_
  rw [hunused]
  decide

end Records

/-- While the issuer keeps its signer the frontend supplies what a sale needs. -/
theorem kept_sale_supplied : ∃ L,
    Run (restrict (@Suite.Step strictBorsh) fun L l _ ↦ KeepsIssuers L l) Fid.emptyLedger
      saleHistory L ∧
    ∃ built, @clientAccounts strictBorsh L approvalToken (fun _ ↦ "") claimsOf mintedToken
        Fid.claimHolder buyer rotationIrs = .ok built ∧
      @Approves strictBorsh L approvalToken (fun _ wallet ↦ wallet) mintedToken Fid.claimHolder
        buyer rotationIrs 1 5 0 (built.map AccountMeta.pubkey) := by
  obtain ⟨L, hrun, hrecords, hvacant⟩ := sale_run
  refine ⟨L, hrun, ?_⟩
  exact @kept_accounts_suffice strictBorsh L Fid.emptyLedger saleHistory approvalToken (fun _ ↦ "")
    claimsOf (fun _ wallet ↦ wallet) mintedToken Fid.claimHolder buyer rotationIrs 1 5 0
    rotationTopics approvalComplianceRecord emptyLedger_nothingFiled hrun
    (sale_onlyOwnRecords hrecords hvacant) (approval_finds hrecords hvacant)
    (approval_topics hrecords) (approval_compliance hrecords) (approval_modules hrecords)
    (fun _ hwallet ↦ sale_known hrecords hwallet) (sale_limits hrecords hvacant)
    ⟨_, approval_approves hrecords hvacant⟩

/-- When the issuer has changed its signer the list of the frontend does not do, though some list
does. -/
theorem rotated_sale_refused : ¬ ∀ (L₀ L : Ledger) (labels : List Suite.Label) (ts : TokenState)
    (toBase58 : Pubkey → String) (getProgramAccounts : Pubkey → List Pubkey)
    (getTokenAccountAddress : Pubkey → Pubkey → Pubkey)
    (mint fromWallet toWallet irsState : Pubkey) (amount fromBalance toBalance : ℕ),
    NothingFiled L₀ → Run (@Suite.Step strictBorsh) L₀ labels L → OnlyOwnRecords L →
    (∀ fid, FindsClaims L fid (getProgramAccounts fid)) →
    (∃ remaining, @Approves strictBorsh L ts getTokenAccountAddress mint fromWallet toWallet
      irsState amount fromBalance toBalance remaining) →
    ∃ built, @clientAccounts strictBorsh L ts toBase58 getProgramAccounts mint fromWallet toWallet
        irsState = .ok built ∧
      @Approves strictBorsh L ts getTokenAccountAddress mint fromWallet toWallet irsState amount
        fromBalance toBalance (built.map AccountMeta.pubkey) := by
  intro hclaim
  obtain ⟨L, hrun, hrecords, hvacant⟩ := approval_run
  have hown := approval_onlyOwnRecords hrecords hvacant
  have hfinds := approval_finds hrecords hvacant
  have happroves := approval_approves hrecords hvacant
  have hfiled : IdentityFiled L :=
    @IdentityFiled.of_run _ _ _ strictBorsh hrun emptyLedger_nothingFiled.identityFiled
  obtain ⟨built, hbuilt, happrovesBuilt⟩ := hclaim Fid.emptyLedger L approvalHistory approvalToken
    (fun _ ↦ "") claimsOf (fun _ wallet ↦ wallet) mintedToken Fid.claimHolder buyer rotationIrs 1 5
    0 emptyLedger_nothingFiled hrun hown hfinds ⟨_, happroves⟩
  obtain ⟨built', hbuilt', hiff⟩ := @built_approves_iff strictBorsh L approvalToken (fun _ ↦ "")
    claimsOf (fun _ wallet ↦ wallet) mintedToken Fid.claimHolder buyer rotationIrs 1 5 0
    rotationTopics approvalComplianceRecord hfiled hown hfinds (approval_topics hrecords)
    (approval_compliance hrecords) (approval_modules hrecords) _ happroves
  rw [Except.ok.inj (hbuilt.symm.trans hbuilt')] at happrovesBuilt
  exact approval_not_covered hrecords hvacant (hiff.1 happrovesBuilt)

end Sale

end Fracks.TransferService
