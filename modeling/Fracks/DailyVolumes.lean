import Fracks.Binding
import Fracks.Postings
import Fracks.SupportRecords
import Fracks.Token.SupportAccounts

/-!
# Daily volumes over runs

A daily limit is checked when a transfer is approved, and the volume is added up
when it is executed.  Between the two other approvals of the same wallet may
have been executed, which the hook does not look at: the limit holds in the runs
in which the check would pass again at every execution.
-/

namespace Fracks

open Checked AccountType Ledger TokenHook HookedModule Compliance Runs

variable {L L' : Ledger} {T M k : Pubkey} {signers : List Pubkey} {i : Instruction}
  {m : DailyTransferLimitModule} {limit : ℕ}

/-! ## Windows -/

/-- The volume that a transfer starts from is at most what the check reads. -/
theorem refreshed_le_stored {u : DailyWalletUsage} {wallet : Pubkey}
    (hM : L.accounts M = account m)
    (hu : L.accounts (ModDailyLimit.usageAddress M wallet (.program .modDailyLimit)) = account u)
    (hmodule : u.module = M) (hwallet : u.wallet = wallet) :
    (ModDailyLimit.refreshWindow u L.now).volume ≤ Token.storedVolume L M wallet := by
  have hrecord : Token.usageRecord L M wallet = some u := by
    simp [Token.usageRecord, Option.filter_eq_some_iff, view_eq_some, hu, hmodule, hwallet]
  rw [Token.storedVolume_eq hM, hrecord, Option.elim_some]
  unfold ModDailyLimit.refreshWindow
  split
  · exact Nat.zero_le _
  · rename_i hopen
    have hrunning : ¬ ModDailyLimit.daySeconds ≤ saturatingSubI64 L.now u.windowStartedAt :=
      fun hover ↦ hopen (.inr hover)
    rw [if_neg hrunning]

/-- A frame without usage records keeps what is read of the volume, at the same
time. -/
theorem storedVolume_frame {S : List AccountKind} {wallet : Pubkey} (h : Frame S L L')
    (hS : AccountKind.dailyWalletUsage ∉ S) (hM : L.accounts M = account m)
    (hM' : L'.accounts M = account m) (hnow : L'.now = L.now) :
    Token.storedVolume L' M wallet = Token.storedVolume L M wallet := by
  have hrecord : Token.usageRecord L' M wallet = Token.usageRecord L M wallet := by
    unfold Token.usageRecord
    rw [h.view_eq hS]
  rw [Token.storedVolume_eq hM', Token.storedVolume_eq hM, hrecord, hnow]

/-! ## The invariant -/

/-- No usage record of the module holds more than the limit. -/
def UsageWithin (M : Pubkey) (limit : ℕ) (L : Ledger) : Prop :=
  ∀ (k : Pubkey) (u : DailyWalletUsage), L.accounts k = account u → u.module = M →
    u.volume ≤ limit

/-- The daily limit `m` at `M` is bound to `T` and in force. -/
structure LimitBound (T M : Pubkey) (m : DailyTransferLimitModule) (L : Ledger) : Prop where
  anchored : Anchored T L
  bound : ∃ state, BoundAt T M L state ∧ state.modulesPaused = false
  module : L.accounts M = account m
  served : m.hookAuthority = complianceAddress T

/-- The limit is bound and never paused, its records are written by transfers
alone, nothing of `T` is recovered, and a forced transfer names the usage record
of its wallet. -/
structure LimitPermitted (T M : Pubkey) (i : Instruction) : Prop where
  anchor : KeepsAnchor T i
  binding : KeepsBinding T M i
  running : ¬ i.Pauses T
  counters : CountersLeft T M i
  ordinary : ∀ operator irsProgram accts lostWallet newWallet amount,
    i = .token (.recovery operator irsProgram accts lostWallet newWallet amount) →
      operator.tokenState ≠ Token.tokenStateAddress T
  supplied : ∀ operator fromPartialFreeze accts source destination amount fromBalance toBalance,
    i = .token (.forcedTransfer operator fromPartialFreeze accts source destination amount
      fromBalance toBalance) → operator.tokenState = Token.tokenStateAddress T →
        source ≠ .default ∧
          ModDailyLimit.usageAddress M source (.program .modDailyLimit) ∈ accts.remaining

/-- The daily limit admits a transfer once more when it is executed: what its
wallet has sent in the open window leaves room for the amount. -/
def LimitAdmits (T M : Pubkey) (limit : ℕ) (L : Ledger) : Instruction → Prop
  | .token2022 (.transferChecked source mint destination authority _ n _) =>
      mint = T → ∀ a, PendingAt T L (approvalAddress source destination authority) a →
        saturatingAdd (Token.storedVolume L M a.sourceWallet) n ≤ limit
  | _ => True

theorem LimitBound.hookAuthority (hL : LimitBound T M m L) :
    (L.accounts M).data.hookAuthority = some (complianceAddress T) := by
  rw [hL.module, ← hL.served]
  rfl

theorem LimitBound.environment (hL : LimitBound T M m L) (h : Frame environmentKinds L L') :
    LimitBound T M m L' := by
  obtain ⟨state, hbound, hrunning⟩ := hL.bound
  exact ⟨hL.anchored.environment h, ⟨state, hbound.of_frame h (by decide), hrunning⟩,
    h.accounts_eq (by decide) hL.module, hL.served⟩

theorem UsageWithin.of_view (hL : UsageWithin M limit L)
    (hview : ∀ k, L'.view DailyWalletUsage k = L.view DailyWalletUsage k) :
    UsageWithin M limit L' := by
  intro k u hu hmodule
  rw [← view_eq_some, hview, view_eq_some] at hu
  exact hL k u hu hmodule

theorem UsageWithin.of_frame {S : List AccountKind} (hL : UsageWithin M limit L)
    (h : Frame S L L') (hS : AccountKind.dailyWalletUsage ∉ S) : UsageWithin M limit L' :=
  hL.of_view (h.view_eq hS)

/-- New usage records are empty. -/
theorem UsageWithin.of_untouched (hL : UsageWithin M limit L)
    (hopened : ∀ k, (L'.accounts k).counterModule k = some M → KnownOrOpened L L' k M)
    (hsame : ∀ k, (L.accounts k).counterModule k = some M → L'.accounts k = L.accounts k) :
    UsageWithin M limit L' := by
  intro k u hu hmodule
  have hcounter : (L'.accounts k).counterModule k = some M := by
    rw [hu, namesModule_usage, hmodule]
  rcases hopened k hcounter with hknown | hzero
  · exact hL k u ((hsame k hknown).symm.trans hu) hmodule
  · have hvolume : u.volume = 0 := by
      rw [hu] at hzero
      exact hzero
    omega

/-- The post-hook of a transfer keeps the limit when the amount fits in the
window. -/
theorem UsageWithin.transferred {C source : Pubkey} {remaining : List Pubkey}
    {amount fromAfter toAfter fromCountry toCountry : ℕ} {state : ComplianceState}
    (hL : UsageWithin M limit L)
    (h : Compliance.transferred L C remaining source amount fromAfter toAfter fromCountry
      toCountry =
      .ok L')
    (hstate : L.accounts C = account state) (hnodup : state.modules.Nodup)
    (hbound : M ∈ state.modules) (hM : L.accounts M = account m)
    (hfits : saturatingAdd (Token.storedVolume L M source) amount ≤ limit) :
    UsageWithin M limit L' := by
  intro k u' hu' hmodule'
  obtain ⟨u, hu, hmodule, rfl | ⟨rfl, hwallet, hvolume, hbounded⟩⟩ :=
    transferred_usage h hstate hnodup hbound hM hu' hmodule'
  · exact hL k u' hu hmodule
  · have hle := refreshed_le_stored hM hu hmodule hwallet
    unfold saturatingAdd at hfits
    omega

/-- The execution of an approval keeps the limit when its amount fits in the
window. -/
theorem UsageWithin.uses {source destination authority : Pubkey} {n : ℕ} {a : TransferApproval}
    {state : ComplianceState} (hL : UsageWithin M limit L) (hb : BoundAt T M L state)
    (hM : L.accounts M = account m) (h : Uses T L L' source destination authority n k a)
    (hfits : saturatingAdd (Token.storedVolume L M a.sourceWallet) n ≤ limit) :
    UsageWithin M limit L' := by
  obtain ⟨L₁, L₂, remaining, hframe, hnow, hposted, hafter⟩ := h.posted
  have hM₁ : L₁.accounts M = account m := hframe.accounts_eq (by decide) hM
  have hstored : Token.storedVolume L₁ M a.sourceWallet = Token.storedVolume L M a.sourceWallet :=
    storedVolume_frame hframe (by decide) hM hM₁ hnow
  have hL₁ : UsageWithin M limit L₁ := hL.of_frame hframe (by decide)
  have hL₂ : UsageWithin M limit L₂ := hL₁.transferred hposted
    (hframe.accounts_eq (by decide) hb.loaded) hb.nodup hb.bound hM₁ (hstored ▸ hfits)
  exact hL₂.of_frame hafter (by decide)

section Process

variable [Borsh]

/-- The check of a transfer that names the usage record of its wallet. -/
theorem LimitBound.complies {ts : TokenState} {C source : Pubkey} {remaining : List Pubkey}
    {amount toBalance fromCountry toCountry : ℕ} (hL : LimitBound T M m L)
    (hts : L.accounts (Token.tokenStateAddress T) = account ts)
    (h : Token.evaluateCompliance L ts C remaining source amount toBalance fromCountry toCountry =
      .ok ()) (hsource : source ≠ .default)
    (hsupplied : ModDailyLimit.usageAddress M source (.program .modDailyLimit) ∈ remaining) :
    saturatingAdd (Token.storedVolume L M source) amount ≤ m.dailyLimit := by
  obtain ⟨state, hbound, hrunning⟩ := hL.bound
  obtain ⟨hkey, -⟩ := Token.evaluateCompliance_ok h
  have hC : C = complianceAddress T := hkey.symm.trans (hL.anchored.compliance hts).2
  subst hC
  have hloaded : Token.deserializeLocal ComplianceState L (complianceAddress T) = .ok state := by
    simp [Token.deserializeLocal, hbound.loaded, Borsh.decodeView_encode]
  obtain ⟨-, -, hlimits⟩ := (Token.evaluateCompliance_eq_ok hloaded hrunning).1 h
  have hlimit := hlimits M hbound.bound
  have hshown : Token.shownVolume L remaining M source = Token.storedVolume L M source := by
    have howner : (L.accounts M).owner = .program .modDailyLimit := by
      rw [hL.module]
      rfl
    rw [Token.shownVolume, howner, if_pos hsupplied]
  simp only [Token.LimitShown, hL.module, account_data, encode, not_and, not_lt, hshown] at hlimit
  exact hlimit hsource

theorem process_limitBound (h : process L signers i = .ok L')
    (hexternal : ∀ k ∈ signers, k.External) (hpermitted : LimitPermitted T M i.core)
    (hL : LimitBound T M m L) : LimitBound T M m L' := by
  obtain ⟨state, hbound, hrunning⟩ := hL.bound
  obtain ⟨state', hrebound⟩ := process_rebound h hpermitted.binding hbound
  exact ⟨process_anchored h hexternal hpermitted.anchor hL.anchored,
    ⟨state', hrebound.bound, (hrebound.paused hpermitted.running).trans hrunning⟩,
    process_settings h (by decide) hpermitted.counters hL.module, hL.served⟩

/-- Movements of tokens keep the limit when executions of pending approvals are
admitted once more. -/
theorem UsageWithin.posts (hwithin : UsageWithin M m.dailyLimit L) (hL : LimitBound T M m L)
    (h : Posts T i L L') (hmoves : i.moves = true)
    (hopened : ∀ k, (L'.accounts k).counterModule k = some M → KnownOrOpened L L' k M)
    (hpermitted : LimitPermitted T M i) (hadmits : LimitAdmits T M m.dailyLimit L i) :
    UsageWithin M m.dailyLimit L' := by
  obtain ⟨state, hbound, -⟩ := hL.bound
  cases h with
  | issued L₁ L₂ ts accts amount country d hissue hts hbooked =>
      exact hwithin.of_frame (frame_issue hissue) (by decide)
  | redeemed L₁ ts accts amount country s hredeemed hts haccts hbooked =>
      exact hwithin.of_frame (frame_redemption hredeemed) (by decide)
  | executed source destination authority additional n decimals k a hi huses =>
      subst hi
      have hfits := hadmits rfl a (huses.key ▸ huses.pending)
      exact hwithin.uses hbound hL.module huses hfits
  | controlled L₁ L₂ source destination authority n k a hframe hnow hgranted huses hreleased =>
      have hM₁ : L₁.accounts M = account m := hframe.accounts_eq (by decide) hL.module
      have hstored : Token.storedVolume L₁ M a.sourceWallet =
          Token.storedVolume L M a.sourceWallet :=
        storedVolume_frame hframe (by decide) hL.module hM₁ hnow
      have hfits : saturatingAdd (Token.storedVolume L M a.sourceWallet) n ≤ m.dailyLimit := by
        cases hgranted with
        | transfer => exact nomatch hmoves
        | forcedTransfer signers L₃ L₄ operator fromPartialFreeze accts wallet _ amount _ _ _ _ ts
            s d happroved hcomplies hstate =>
            have hts : L.accounts (Token.tokenStateAddress T) = account ts :=
              hstate ▸ happroved.tokenStateAt
            obtain ⟨hsource, hsupplied⟩ := hpermitted.supplied _ _ _ _ _ _ _ _ rfl hstate
            have hchecked := hL.complies hts hcomplies hsource hsupplied
            rwa [← huses.amount]
        | recovery signers L₃ L₄ operator irsProgram accts lostWallet newWallet amount _ _ ts s d
            happroved hstate =>
            exact absurd hstate (hpermitted.ordinary _ _ _ _ _ _ rfl)
      have hwithin₁ : UsageWithin M m.dailyLimit L₁ := hwithin.of_frame hframe (by decide)
      have hwithin₂ := hwithin₁.uses (hbound.of_frame hframe (by decide)) hM₁ huses
        (hstored ▸ hfits)
      exact hwithin₂.of_frame hreleased (by decide)
  | aside huntouched =>
      refine hwithin.of_untouched hopened fun k hknown ↦ huntouched.counters k M hknown ?_
      exact hL.hookAuthority

theorem process_usageWithin (h : process L signers i = .ok L')
    (hpermitted : LimitPermitted T M i.core) (hmismoves : ¬ i.core.Mismoves T L)
    (hadmits : LimitAdmits T M m.dailyLimit L i.core)
    (hL : LimitBound T M m L) (hwithin : UsageWithin M m.dailyLimit L) :
    UsageWithin M m.dailyLimit L' := by
  obtain ⟨state, hbound, -⟩ := hL.bound
  have hflags := hL.anchored.wellFormed.flags
  have hopened : ∀ k, (L'.accounts k).counterModule k = some M → KnownOrOpened L L' k M :=
    fun k hcounter ↦ process_opened h hflags hcounter
  cases hmoves : i.core.moves with
  | false =>
      refine hwithin.of_untouched hopened fun k hknown ↦ ?_
      exact process_countersLeft h hflags hmoves hpermitted.counters hL.hookAuthority
        (fun c hc ↦ account_ne_of_kind (by decide) (hL.module.symm.trans hc)) hknown
  | true =>
      by_cases hburn : i.core.Misburns T
      · exact hwithin.of_frame (frame_misburn h hburn) (by decide)
      · have hposts := process_posts h hmoves hL.anchored hbound.loaded hbound.home hburn hmismoves
        exact hwithin.posts hL hposts hmoves hopened hpermitted hadmits

end Process

/-! ## Runs -/

/-- In every run in which the limit stays in force and admits each execution once
more, no usage record holds more than the limit. -/
theorem usage_within_limit [Borsh] {labels : List Label} (hL : LimitBound T M m L)
    (hwithin : UsageWithin M m.dailyLimit L)
    (hrun : Run (restrict Step fun L l _ ↦ l.Core fun i ↦
      LimitPermitted T M i ∧ ¬ i.Mismoves T L ∧ LimitAdmits T M m.dailyLimit L i) L labels L') :
    UsageWithin M m.dailyLimit L' := by
  have hL' : LimitBound T M m L' ∧ UsageWithin M m.dailyLimit L' := by
    refine hrun.invariant (P := fun L ↦ LimitBound T M m L ∧ UsageWithin M m.dailyLimit L)
      (fun L l L' hinv hstep ↦ ?_) ⟨hL, hwithin⟩
    obtain ⟨hL, hwithin⟩ := hinv
    obtain ⟨hstep, hcore⟩ := hstep
    cases hstep with
    | instruction signers i hexternal h =>
        obtain ⟨hpermitted, hmismoves, hadmits⟩ := hcore
        exact ⟨process_limitBound h hexternal hpermitted hL,
          process_usageWithin h hpermitted hmismoves hadmits hL hwithin⟩
    | environment h => exact ⟨hL.environment h, hwithin.of_frame h (by decide)⟩
  exact hL'.2

/-! ## Two approvals of one wallet -/

def dailyLimit : Pubkey := moduleAddress DailyTransferLimitModule (.address 0)

def dailySender : Pubkey := .address 11

def dailyReceiver : Pubkey := .address 21

def firstSource : Holding := ⟨.address 10, dailySender, 60⟩

def secondSource : Holding := ⟨.address 12, dailySender, 60⟩

def firstTarget : Holding := ⟨.address 20, dailyReceiver, 0⟩

def secondTarget : Holding := ⟨.address 22, dailyReceiver, 0⟩

/-- A token with a daily limit, whose sender has two token accounts. -/
def dailyDeployment : Deployment where
  tokenMint := .address 0
  issuer := .address 1
  paused := false
  modules := [dailyLimit]
  modulesPaused := false
  metas := baseMetas ++ [.pubkeyData 8 76 true, .fixed (.program .modDailyLimit) false,
    .externalPda 11 [.literal .dailyUsage, .accountKey 10, .accountData 7 136 32] true]
  wallets := [(dailySender, 276), (dailyReceiver, 276)]
  holdings := [firstSource, secondSource, firstTarget, secondTarget]

def dailyRecord : DailyTransferLimitModule where
  owner := dailyDeployment.issuer
  tokenMint := dailyDeployment.tokenMint
  hookAuthority := dailyDeployment.compliance
  dailyLimit := 100

def dailyUsage : Pubkey :=
  ModDailyLimit.usageAddress dailyLimit dailySender (.program .modDailyLimit)

def dailyUsageRecord (start : ℤ) (volume : ℕ) : DailyWalletUsage where
  module := dailyLimit
  wallet := dailySender
  windowStartedAt := start
  volume := volume

def dailyLedger : Ledger :=
  dailyDeployment.ledger
    [(dailyLimit, account dailyRecord), (dailyUsage, account (dailyUsageRecord 0 0))]

theorem dailyLedger_bound :
    LimitBound dailyDeployment.tokenMint dailyLimit dailyRecord dailyLedger where
  anchored := dailyDeployment.anchored rfl rfl (by simp [kind])
  bound := ⟨_, ⟨rfl, rfl, List.nodup_singleton _, .head _⟩, rfl⟩
  module := rfl
  served := rfl

theorem dailyLedger_within : UsageWithin dailyLimit dailyRecord.dailyLimit dailyLedger := by
  have hall : ∀ k (u : DailyWalletUsage), dailyLedger.accounts k = account u → u.volume = 0 := by
    refine dailyDeployment.ledger_forall (P := fun _ acc ↦ ∀ u : DailyWalletUsage,
      acc = account u → u.volume = 0) (fun r hr u hu ↦ ?_) (fun r hr u hu ↦ ?_)
      fun _ u hu ↦ absurd hu.symm (account_ne_vacant u)
    · simp only [List.mem_cons, List.not_mem_nil, or_false] at hr
      rcases hr with rfl | rfl
      · exact absurd hu (account_ne_of_kind (by decide))
      · obtain rfl := account_inj.1 hu
        rfl
    · rcases dailyDeployment.records_kind hr with hkind | ⟨h, -, rfl⟩
      · simp [hu, kind, Deployment.recordKinds] at hkind
      · exact absurd hu (account_ne_of_kind (by decide))
  intro k u hu _
  have hzero : u.volume = 0 := hall k u hu
  omega

/-- The approval of a transfer of 60 tokens. -/
def dailyApproval (source target : Holding) : Instruction :=
  .token (.transfer (dailyDeployment.transferAccounts source target .default .default .default
    [dailyLimit, dailyUsage]) 60 60 0)

def dailyExecution (source target : Holding) : Instruction :=
  .token2022 (.transferChecked source.key dailyDeployment.tokenMint target.key dailySender
    (dailyDeployment.hookAccounts source.key target.key dailySender ++
      [dailyLimit, .program .modDailyLimit, dailyUsage]) 60 0)

theorem dailyApproval_permitted (source target : Holding) :
    LimitPermitted dailyDeployment.tokenMint dailyLimit (dailyApproval source target) :=
  ⟨trivial, trivial, not_false, trivial, (fun _ _ _ _ _ _ hi ↦ nomatch hi),
    (fun _ _ _ _ _ _ _ _ hi ↦ nomatch hi)⟩

theorem dailyExecution_permitted (source target : Holding) :
    LimitPermitted dailyDeployment.tokenMint dailyLimit (dailyExecution source target) :=
  ⟨trivial, trivial, not_false, trivial, (fun _ _ _ _ _ _ hi ↦ nomatch hi),
    (fun _ _ _ _ _ _ _ _ hi ↦ nomatch hi)⟩

theorem dailySender_external : ∀ k ∈ [dailySender], k.External :=
  List.forall_mem_singleton.2 (Pubkey.external_address 11)

/-- The first of the two transfers is admitted once more when it is executed. -/
theorem first_transfer_within : ∃ u, Run (@Step strictBorsh) dailyLedger
      [.instruction [dailySender] (dailyApproval firstSource firstTarget),
        .instruction [dailySender] (dailyExecution firstSource firstTarget)] u ∧
    u.accounts dailyUsage = account (dailyUsageRecord 1000 60) ∧
      UsageWithin dailyLimit 100 u := by
  obtain ⟨s, u, a, hs, ha, hstored, hu, husage⟩ : ∃ s u a,
      @process strictBorsh dailyLedger [dailySender] (dailyApproval firstSource firstTarget) =
        .ok s ∧
      s.accounts (approvalAddress firstSource.key firstTarget.key dailySender) = account a ∧
      Token.storedVolume s dailyLimit a.sourceWallet = 0 ∧
      @process strictBorsh s [dailySender] (dailyExecution firstSource firstTarget) = .ok u ∧
      u.accounts dailyUsage = account (dailyUsageRecord 1000 60) :=
  ⟨_, _, _, rfl, rfl, rfl, rfl, rfl⟩
  have hfirst := @Step.instruction strictBorsh _ _ _ _ dailySender_external hs
  have hsecond := @Step.instruction strictBorsh _ _ _ _ dailySender_external hu
  have hadmits : LimitAdmits dailyDeployment.tokenMint dailyLimit 100 s
      (dailyExecution firstSource firstTarget) := by
    intro _ b hb
    obtain rfl := account_inj.1 (ha.symm.trans hb.loaded)
    rw [hstored]
    decide
  refine ⟨u, .cons hfirst (.single hsecond), husage, ?_⟩
  exact @usage_within_limit _ _ _ _ _ strictBorsh _ dailyLedger_bound dailyLedger_within
    (.cons ⟨hfirst, dailyApproval_permitted _ _, not_false, trivial⟩
      (.single ⟨hsecond, dailyExecution_permitted _ _, fun h ↦ h.1 rfl, hadmits⟩))

/-- Both transfers are approved within the limit before the first is executed:
the wallet sends 120 tokens of its 100. -/
theorem stale_approvals_exceed_limit : ¬ ∀ (T M : Pubkey) (m : DailyTransferLimitModule)
    (L L' : Ledger) (labels : List Label), LimitBound T M m L → UsageWithin M m.dailyLimit L →
      Run (restrict (@Step strictBorsh) fun _ l _ ↦ l.Core fun i ↦
        LimitPermitted T M i ∧ i.Transfers T) L labels L' → UsageWithin M m.dailyLimit L' := by
  intro hall
  obtain ⟨s, t, u, v, hs, ht, hu, hv, husage⟩ : ∃ s t u v,
      @process strictBorsh dailyLedger [dailySender] (dailyApproval firstSource firstTarget) =
        .ok s ∧
      @process strictBorsh s [dailySender] (dailyApproval secondSource secondTarget) = .ok t ∧
      @process strictBorsh t [dailySender] (dailyExecution firstSource firstTarget) = .ok u ∧
      @process strictBorsh u [dailySender] (dailyExecution secondSource secondTarget) = .ok v ∧
      v.accounts dailyUsage = account (dailyUsageRecord 1000 120) :=
  ⟨_, _, _, _, rfl, rfl, rfl, rfl, rfl⟩
  have hrun : Run (restrict (@Step strictBorsh) fun _ l _ ↦ l.Core fun i ↦
      LimitPermitted dailyDeployment.tokenMint dailyLimit i ∧
        i.Transfers dailyDeployment.tokenMint) dailyLedger _ v :=
    .cons ⟨@Step.instruction strictBorsh _ _ _ _ dailySender_external hs,
        dailyApproval_permitted _ _, rfl⟩ <|
      .cons ⟨@Step.instruction strictBorsh _ _ _ _ dailySender_external ht,
        dailyApproval_permitted _ _, rfl⟩ <|
      .cons ⟨@Step.instruction strictBorsh _ _ _ _ dailySender_external hu,
        dailyExecution_permitted _ _, rfl⟩ <|
      .single ⟨@Step.instruction strictBorsh _ _ _ _ dailySender_external hv,
        dailyExecution_permitted _ _, rfl⟩
  have hwithin := hall _ _ _ _ _ _ dailyLedger_bound dailyLedger_within hrun
  exact absurd (hwithin _ _ husage rfl) (by decide)

end Fracks
