import Fracks.ControlsAtExecution
import Fracks.StrandedBalances

/-!
# Who receives tokens

A balance of a token goes up by a mint or by a transfer that was approved.  Either way the
controller has accepted the owner of the account: at the mint itself, or when the approval was
written.
-/

namespace Fracks

open Checked AccountType Ledger TokenHook Token2022 Runs

/-- The controller accepts the owner of the account at `x`, which is of the mint `T`. -/
def Vouched [Borsh] (T x : Pubkey) (L : Ledger) : Prop :=
  ∃ (ts : TokenState) (d : TokenAccount) (registry : Token.RegistryAccounts)
    (walletIdentity : Pubkey) (remaining : List Pubkey) (identity : WalletIdentity),
      L.accounts (Token.tokenStateAddress T) = account ts ∧ L.accounts x = account d ∧
        d.mint = T ∧ Token.verifyWalletAgainstIrp L ts d.owner registry walletIdentity remaining =
          .ok identity

/-- The hook program of `T` stays the one of this repository. -/
def KeepsHook (T : Pubkey) : Instruction → Prop
  | .token2022 (.updateTransferHook k _ newProgram) => k = T → newProgram = some hookProgram
  | _ => True

/-- A token whose transfers run the hook. -/
structure Hooked (T : Pubkey) (L : Ledger) : Prop where
  wellFormed : WellFormed L
  control : InControl T (Token.tokenStateAddress T) L

variable {L L' L₁ L₂ : Ledger} {T x : Pubkey} {signers : List Pubkey} {l : Label}
  {source destination authority : Pubkey} {additional : List Pubkey} {amount decimals : ℕ}

/-! ## The hook stays -/

theorem process_hooked [Borsh] {i : Instruction} (h : process L signers i = .ok L')
    (hexternal : ∀ k ∈ signers, k.External) (hkeeps : KeepsHook T i.core) (hT : Hooked T L) :
    Hooked T L' where
  wellFormed := process_wellFormed h hT.wellFormed
  control := by
    by_cases hanchor : KeepsAnchor T i.core
    · exact process_control h hexternal hanchor hT.control
    · have hcore := process_core h
      generalize i.core = j at hcore hkeeps hanchor
      cases j with
      | token j => exact TokenInstruction.inControl hcore hT.control
      | token2022 j =>
          cases j with
          | updateTransferHook => exact absurd hkeeps hanchor
          | _ => exact absurd trivial hanchor
      | _ => exact absurd trivial hanchor

theorem Hooked.environment (hT : Hooked T L) (h : Frame environmentKinds L L') : Hooked T L' where
  wellFormed := ⟨hT.wellFormed.tokenStates.of_frame h (by decide),
    hT.wellFormed.flags.of_frame h (by decide)⟩
  control := hT.control.of_frame h (by decide) (by decide)

theorem Hooked.step [Borsh] (hT : Hooked T L) (h : Step L l L') (hkeeps : l.Core (KeepsHook T)) :
    Hooked T L' := by
  cases h with
  | instruction signers i hexternal h => exact process_hooked h hexternal hkeeps hT
  | environment h => exact hT.environment h

theorem Hooked.token (hT : Hooked T L) {ts : TokenState}
    (hts : L.accounts (Token.tokenStateAddress T) = account ts) : ts.tokenMint = T :=
  (tokenStateAddress_inj.1 (hT.wellFormed.tokenStates _ _ hts)).symm

/-! ## Transfers -/

/-- A transfer that raises a balance of `T` uses an approval for that account. -/
theorem Hooked.raised_uses (hT : Hooked T L)
    (h : transferChecked invokeHook L signers source T destination authority additional amount
      decimals = .ok L') (hx : balance L T x < balance L' T x) :
    ∃ k a, PendingAt T L k a ∧ a.destinationTokenAccount = x := by
  have hdestination : destination = x := ((transferChecked_moves h).delivers hx).1
  obtain ⟨m₀, hm₀, -, -, hprogram⟩ := hT.control.mint
  rcases transferChecked_ok h with ⟨-, rfl⟩ |
    ⟨m, _, _, _, -, -, -, hm, -, -, -, -, hnone, -⟩ | ⟨program, m, s, s', d, L₂, hhooked⟩
  · exact absurd hx (Nat.lt_irrefl _)
  · obtain rfl := account_inj.1 (hm₀.symm.trans hm)
    rw [hnone] at hprogram
    exact nomatch hprogram
  · obtain rfl := account_inj.1 (hm₀.symm.trans hhooked.mintAt)
    obtain rfl := Option.some.inj (hhooked.hook.symm.trans hprogram)
    obtain ⟨k, a, hpending, -, hto, -⟩ := hhooked.approvalUsed hT.wellFormed.tokenStates
    exact ⟨k, a, hpending, hto.trans hdestination⟩

/-- Why a balance of `T` has gone up: its owner is accepted now, or a transfer to it was
approved before. -/
inductive Credits [Borsh] (T : Pubkey) (L : Ledger) (x : Pubkey) : Prop
  | vouched : Vouched T x L → Credits T L x
  | approved (k : Pubkey) (a : TransferApproval) :
      PendingAt T L k a → a.destinationTokenAccount = x → Credits T L x

section Process

variable [Borsh] {i : Instruction}

theorem Token.Issue.credits {ts : TokenState} {accts : Token.ReceiverAccounts}
    {n country : ℕ} {d : TokenAccount} (h : Token.Issue L L' ts accts n country d L₁ L₂)
    (hx : balance L T x < balance L' T x) : Credits T L x := by
  by_cases hts : ts.tokenMint = T
  · have happlies : (Movement.minted accts.destinationTokenAccount n).Applies T L L' :=
      hts ▸ h.moves.applies
    obtain ⟨rfl, -⟩ := happlies.delivers hx
    obtain ⟨identity, hverified, -⟩ := h.receiver
    exact .vouched ⟨ts, d, _, _, _, identity, hts ▸ h.tokenStateAt, h.destinationAt,
      h.destinationMint.trans hts, hverified⟩
  · rw [(h.moves.others T (Ne.symm hts)).1] at hx
    exact absurd hx (Nat.lt_irrefl _)

theorem Token.ControllerApproved.vouches {operator : Token.OperatorAccounts}
    {accts : Token.ControllerTransferAccounts} {ts : TokenState} {s d : TokenAccount}
    {args : ApproveTransferArgs} {registry : Token.RegistryAccounts} {walletIdentity : Pubkey}
    {remaining : List Pubkey} {identity : WalletIdentity}
    (h : Token.ControllerApproved L L₁ L₂ signers operator accts ts s d args)
    (hts : ts.tokenMint = T)
    (hverified : Token.verifyWalletAgainstIrp L ts args.destinationWallet registry walletIdentity
      remaining = .ok identity) : Vouched T accts.destinationTokenAccount L := by
  have hstate : L.accounts (Token.tokenStateAddress T) = account ts := by
    rw [← hts, ← h.tokenStateKey]
    exact h.tokenStateAt
  rw [← h.destinationOwner] at hverified
  exact ⟨ts, d, registry, walletIdentity, remaining, identity, hstate, h.destinationAt,
    h.destinationMint.trans hts, hverified⟩

/-- A balance that a transfer by the controller raises is that of its receiver. -/
theorem Token.ControllerApproved.credits {operator : Token.OperatorAccounts}
    {accts : Token.ControllerTransferAccounts} {ts : TokenState} {s d : TokenAccount}
    {args : ApproveTransferArgs} {registry : Token.RegistryAccounts} {walletIdentity : Pubkey}
    {remaining : List Pubkey} {identity : WalletIdentity}
    (h : Token.ControllerApproved L L₁ L₂ signers operator accts ts s d args)
    (hverified : Token.verifyWalletAgainstIrp L ts args.destinationWallet registry walletIdentity
      remaining = .ok identity) (hT : Hooked T L) (hx : balance L T x < balance L₂ T x) :
    Credits T L x := by
  obtain ⟨_, _, htransfer⟩ := h.transfers
  have hframe := approveTransfer_frame h.approves (List.Subset.refl _)
  rw [← balance_frame hframe (by decide)] at hx
  have hT₁ : Hooked T L₁ :=
    ⟨⟨hT.wellFormed.tokenStates.of_frame hframe (by decide),
      hT.wellFormed.flags.of_frame hframe (by decide)⟩,
      hT.control.of_frame hframe (by decide) (by decide)⟩
  by_cases hts : ts.tokenMint = T
  · have hdestination : accts.destinationTokenAccount = x :=
      ((transferChecked_moves htransfer).delivers hx).1
    rw [← hdestination]
    exact .vouched (h.vouches hts hverified)
  · rw [((transferChecked_moves htransfer).others T (Ne.symm hts)).1] at hx
    exact absurd hx (Nat.lt_irrefl _)

theorem TokenInstruction.credits {j : TokenInstruction} (h : j.process L signers = .ok L')
    (hT : Hooked T L) (hx : balance L T x < balance L' T x) : Credits T L x := by
  cases j with
  | mint =>
      obtain ⟨_, _, _, _, _, hissue⟩ := Token.mint_ok h
      exact hissue.credits hx
  | purchaseMint =>
      obtain ⟨_, _, _, _, _, hissue⟩ := Token.purchaseMint_ok h
      exact hissue.credits hx
  | settleSubscriptionMint =>
      obtain ⟨_, _, _, _, _, _, hissue⟩ := Token.settleSubscriptionMint_ok h
      exact hissue.credits hx
  | burn =>
      obtain ⟨_, _, _, _, -, -, hredeemed⟩ := Token.burn_ok h
      exact absurd hx hredeemed.not_raised
  | forcedTransfer operator fromPartialFreeze =>
      obtain ⟨ts, s, d, _, _, L₁, L₂, happroved, -, ⟨receiver, hreceiver, -⟩, -, record, hrecord,
        record', -, rfl⟩ := Token.forcedTransfer_approved h
      have hreleased : Frame [.partialFreeze] L₂ (L₂.put fromPartialFreeze record') :=
        .put hrecord (by decide)
      rw [congrFun (balance_frame hreleased (by decide)) T] at hx
      exact happroved.credits hreceiver hT hx
  | recovery =>
      obtain ⟨ts, s, d, _, _, L₁, happroved, -, -, -, receiver, hreceiver, -⟩ :=
        Token.recovery_approved h
      exact happroved.credits hreceiver hT hx
  | _ =>
      have hbooks := process_books (i := .token _) h rfl
      rw [congrFun hbooks.balance T] at hx
      exact absurd hx (Nat.lt_irrefl _)

theorem Token2022.credits {j : Token2022.Instruction} (h : Token2022.process L signers j = .ok L')
    (hexternal : ∀ k ∈ signers, k.External) (hT : Hooked T L)
    (hx : balance L T x < balance L' T x) : Credits T L x := by
  have hK : Token.tokenStateAddress T ∉ signers := by
    intro hsigned
    exact not_external_tokenStateAddress (hexternal _ hsigned)
  have hchange : balance L' T x ≠ balance L T x := Nat.ne_of_gt hx
  rcases process_balance h hT.control hchange with hhook | hsigned | hburn
  · obtain ⟨source, destination, authority, additional, n, decimals, rfl, -⟩ := hhook
    obtain ⟨k, a, hpending, hdestination⟩ := hT.raised_uses h hx
    exact .approved k a hpending hdestination
  · exact absurd hsigned hK
  · obtain ⟨source, authority, n, decimals, rfl, -⟩ := hburn
    have happlies : (Movement.burned source n).Applies T L L' := (burn_applies h).1
    exact absurd (happlies.delivers hx) id

/-- Every balance that an instruction raises belongs to a wallet that the controller accepts, or
was promised to its account. -/
theorem process_credits (h : process L signers i = .ok L')
    (hexternal : ∀ k ∈ signers, k.External) (hT : Hooked T L)
    (hx : balance L T x < balance L' T x) : Credits T L x := by
  have hcore := process_core h
  by_cases hmoves : i.core.moves = true
  · generalize i.core = j at hcore hmoves
    cases j with
    | token j => exact TokenInstruction.credits hcore hT hx
    | token2022 j => exact Token2022.credits hcore hexternal hT hx
    | createTokenMint =>
        have hframe := Factory.frame_createTokenMint hcore
        rw [congrFun (balance_frame hframe (by decide)) T] at hx
        exact absurd hx (Nat.lt_irrefl _)
    | _ => cases hmoves
  · have hbooks := process_books h (Bool.eq_false_iff.2 hmoves)
    rw [congrFun hbooks.balance T] at hx
    exact absurd hx (Nat.lt_irrefl _)

/-! ## Approvals -/

/-- The receiver of an approved transfer is accepted when the approval is written. -/
theorem TokenInstruction.vouches {j : TokenInstruction} {a : TransferApproval}
    (h : j.process L signers = .ok L') (hT : TokenStatesDerived L)
    (hgranted : Granted T L (.token j) a) : Vouched T a.destinationTokenAccount L := by
  have hmint : ∀ ts : TokenState, L.accounts (Token.tokenStateAddress T) = account ts →
      ts.tokenMint = T := fun ts hts ↦ (tokenStateAddress_inj.1 (hT _ _ hts)).symm
  cases hgranted with
  | transfer _ _ accts amount fromBalance toBalance fromCountry toCountry ts s d happroved _
      hstate =>
      have hts : L.accounts (Token.tokenStateAddress T) = account ts :=
        hstate ▸ happroved.tokenStateAt
      obtain ⟨identity, hverified, -⟩ := happroved.evaluated.receiver
      obtain ⟨hdmint, hdowner, -⟩ := happroved.destinationValid
      exact ⟨ts, d, _, _, _, identity, hts, happroved.destinationAt, hdmint.trans (hmint ts hts),
        hdowner ▸ hverified⟩
  | forcedTransfer _ _ _ operator _ accts _ _ _ _ _ _ _ _ _ _ _ _ hstate =>
      obtain ⟨ts, s, d, _, _, _, _, happroved, -, ⟨identity, hverified, -⟩, -⟩ :=
        Token.forcedTransfer_approved h
      have hts : L.accounts (Token.tokenStateAddress T) = account ts :=
        hstate ▸ happroved.tokenStateAt
      exact happroved.vouches (hmint ts hts) hverified
  | recovery _ _ _ operator _ accts _ _ _ _ _ _ _ _ _ hstate =>
      obtain ⟨ts, s, d, _, _, _, happroved, -, -, -, identity, hverified, -⟩ :=
        Token.recovery_approved h
      have hts : L.accounts (Token.tokenStateAddress T) = account ts :=
        hstate ▸ happroved.tokenStateAt
      exact happroved.vouches (hmint ts hts) hverified

theorem Step.vouches {k : Pubkey} {a : TransferApproval} (h : Step L l L')
    (hT : TokenStatesDerived L) (hL : ¬ PendingAt T L k a) (hL' : PendingAt T L' k a) :
    Vouched T a.destinationTokenAccount L := by
  cases h with
  | instruction signers i hexternal h =>
      have hgranted := (process_pending h hexternal hL').resolve_left hL
      have hcore := process_core h
      generalize i.core = j at hcore hgranted
      cases j with
      | token j => exact TokenInstruction.vouches hcore hT hgranted
      | _ => cases hgranted
  | environment hframe => exact absurd (hL'.of_frame hframe (by decide)) hL

/-! ## Runs -/

/-- In a run without approvals to start with, whatever raises a balance of `T`, the controller has
accepted the owner of that account: in that state or in an earlier one of the run. -/
theorem receipts_vouched {labels : List Label} (hT : Hooked T L)
    (hunapproved : ∀ k a, ¬ PendingAt T L k a)
    (hrun : Run (restrict Step fun _ l _ ↦ l.Core (KeepsHook T)) L labels L₁)
    (hstep : Step L₁ l L₂) (hx : balance L₁ T x < balance L₂ T x) :
    ∃ pre post M, labels = pre ++ post ∧ Run Step L pre M ∧ Run Step M post L₁ ∧
      Vouched T x M := by
  have hhooked : ∀ {pre M}, Run (restrict Step fun _ l _ ↦ l.Core (KeepsHook T)) L pre M →
      Hooked T M := by
    intro pre M hpre
    exact hpre.invariant (P := Hooked T) (fun _ _ _ hM hstep ↦ hM.step hstep.1 hstep.2) hT
  have hcredits : Credits T L₁ x := by
    cases hstep with
    | instruction signers i hexternal h => exact process_credits h hexternal (hhooked hrun) hx
    | environment hframe =>
        rw [congrFun (balance_frame hframe (by decide)) T] at hx
        exact absurd hx (Nat.lt_irrefl _)
  cases hcredits with
  | vouched hvouched =>
      exact ⟨labels, [], L₁, (List.append_nil _).symm, hrun.mono fun _ _ _ h ↦ h.1, .nil _,
        hvouched⟩
  | approved k a hpending hdestination =>
      -- the step that has written the approval
      obtain ⟨pre, l', post, M, M', rfl, hpre, hM, hwrites, hM', hpost⟩ :=
        hrun.since (P := fun L ↦ PendingAt T L k a) (hunapproved k a) hpending
      have hvouched := hwrites.1.vouches (hhooked hpre).wellFormed.tokenStates hM hM'
      refine ⟨pre, l' :: post, M, rfl, hpre.mono fun _ _ _ h ↦ h.1, ?_, hdestination ▸ hvouched⟩
      exact .cons hwrites.1 (hpost.mono fun _ _ _ h ↦ h.1.1)

end Process

/-- A mint of the factory with its derived token state runs the hook. -/
theorem createTokenMint_hooked {accts : Factory.CreateTokenMint}
    (h : Factory.createTokenMint L signers accts decimals = .ok L') (hL : WellFormed L)
    (hstate : accts.tokenState = Token.tokenStateAddress accts.tokenMintAccount)
    (hfresh : ∀ (k : Pubkey) (a : TokenAccount), L.accounts k = account a →
      a.mint ≠ accts.tokenMintAccount) : Hooked accts.tokenMintAccount L' where
  wellFormed := ⟨hL.tokenStates.of_frame (Factory.frame_createTokenMint h) (by decide),
    hL.flags.of_frame (Factory.frame_createTokenMint h) (by decide)⟩
  control := hstate ▸ createTokenMint_inControl h hfresh

/-- The receiver of an approved transfer was accepted. -/
theorem sentTokens_vouched : ∃ labels L₁ L₂,
    Run (@Step strictBorsh) runningLedger labels L₁ ∧
      @Step strictBorsh L₁ (.instruction [heldSender.wallet] sendTokens) L₂ ∧
        ∃ pre post M, labels = pre ++ post ∧ Run (@Step strictBorsh) runningLedger pre M ∧
          Run (@Step strictBorsh) M post L₁ ∧
            @Vouched strictBorsh runningDeployment.tokenMint heldReceiver.key M := by
  obtain ⟨L₁, L₂, hask, hsend, hbefore, hafter⟩ : ∃ L₁ L₂,
      @process strictBorsh runningLedger [heldSender.wallet] askTransfer = .ok L₁ ∧
      @process strictBorsh L₁ [heldSender.wallet] sendTokens = .ok L₂ ∧
      balance L₁ runningDeployment.tokenMint heldReceiver.key = 0 ∧
      balance L₂ runningDeployment.tokenMint heldReceiver.key = 4 :=
    ⟨_, _, rfl, rfl, rfl, rfl⟩
  have hfirst := @Step.instruction strictBorsh _ _ _ _ heldSender_external hask
  have hsecond := @Step.instruction strictBorsh _ _ _ _ heldSender_external hsend
  have hrun : Run (restrict (@Step strictBorsh) fun _ l _ ↦
      l.Core (KeepsHook runningDeployment.tokenMint)) runningLedger
        [.instruction [heldSender.wallet] askTransfer] L₁ := .single ⟨hfirst, trivial⟩
  have hhooked : Hooked runningDeployment.tokenMint runningLedger :=
    ⟨runningLedger_underControls.wellFormed, runningLedger_underControls.control⟩
  refine ⟨_, L₁, L₂, .single hfirst, hsecond, ?_⟩
  apply @receipts_vouched _ _ _ _ _ _ strictBorsh _ hhooked _ hrun hsecond
  · rw [hbefore, hafter]
    decide
  · intro k a h
    exact runningDeployment.not_account (by simp) (by decide) k a h.loaded

end Fracks
