import Fracks.AccountOwners
import Fracks.Pending
import Fracks.Routes
import Fracks.Token.Freezes

/-!
# Pauses and freezes between approval and execution

The pause and the freezes are looked at when a transfer is approved, through
the accounts the sender passes for them, and never again.  What is imposed
afterwards reaches a transfer only if it is imposed before the approval; what
the approval itself was checked against stays true until then.
-/

namespace Fracks

open Checked AccountType Ledger TokenHook Token2022 Runs

variable {L L' L₁ L₂ : Ledger} {T K k w x : Pubkey} {a : TransferApproval} {n : ℕ}
  {signers : List Pubkey} {S : List AccountKind}

/-! ## Controls -/

/-- The token state at `K` is not paused. -/
def Running (K : Pubkey) (L : Ledger) : Prop :=
  ∀ ts : TokenState, L.accounts K = account ts → ts.paused = false

/-- The pause and the freezes of `T` admit a transfer of `n` tokens from `source`,
which holds `held`, to `destination`. -/
structure ControlsAdmit (T : Pubkey) (L : Ledger) (source destination : Pubkey) (n held : ℕ) :
    Prop where
  running : Running (Token.tokenStateAddress T) L
  unfrozen : ¬ Token.FreezesForbid L T source destination n held

/-- The tokens of the wallet that are frozen. -/
def Token.frozenTokens (L : Ledger) (tokenMint wallet : Pubkey) : ℕ :=
  (L.view PartialFreeze (partialFreezeAddress tokenMint wallet)).elim 0 PartialFreeze.frozenAmount

theorem frozenAddress_inj {T' w' : Pubkey} :
    Token.frozenAddress T w = Token.frozenAddress T' w' ↔ T = T' ∧ w = w' := by
  simp [Token.frozenAddress, Pubkey.findProgramAddress, Pubkey.addSeed]

theorem partialFreezeAddress_inj {T' w' : Pubkey} :
    Token.partialFreezeAddress T w = Token.partialFreezeAddress T' w' ↔ T = T' ∧ w = w' := by
  simp [Token.partialFreezeAddress, Pubkey.findProgramAddress, Pubkey.addSeed]

theorem Running.of_view (h : Running K L) (hview : L'.view TokenState K = L.view TokenState K) :
    Running K L' := by
  intro ts hts
  rw [← view_eq_some, hview, view_eq_some] at hts
  exact h ts hts

theorem Token.WalletFrozen.of_view
    (hview : L'.view FrozenWallet (frozenAddress T w) = L.view FrozenWallet (frozenAddress T w))
    (h : WalletFrozen L' T w) : WalletFrozen L T w := by
  obtain ⟨r, hr⟩ := h
  rw [← view_eq_some, hview, view_eq_some] at hr
  exact ⟨r, hr⟩

theorem Token.PartiallyFrozen.of_view
    (hview : L'.view PartialFreeze (partialFreezeAddress T w) =
      L.view PartialFreeze (partialFreezeAddress T w))
    (h : PartiallyFrozen L' T w n) : PartiallyFrozen L T w n := by
  obtain ⟨r, hr, hn⟩ := h
  rw [← view_eq_some, hview, view_eq_some] at hr
  exact ⟨r, hr, hn⟩

/-! ## What the instructions of the controller do to them -/

section Controller

theorem Running.put {ts : TokenState} (h : Running K L)
    (hts : k = K → ts.paused = false) : Running K (L.put k ts) := by
  intro ts' hts'
  by_cases hk : K = k
  · subst hk
    obtain rfl := account_inj.1 (put_accounts_self ts ▸ hts')
    exact hts rfl
  · exact h ts' (put_accounts_of_ne ts hk ▸ hts')

/-- Of what the owner writes, only a pause stops the token. -/
theorem updateTokenState_running {accts : Token.OwnerAccounts} {f : TokenState → TokenState}
    (h : Token.updateTokenState L signers accts f = .ok L') (hK : Running K L)
    (hf : accts.tokenState = K → ∀ ts, ts.paused = false → (f ts).paused = false) :
    Running K L' := by
  obtain ⟨ts, hts, -, rfl⟩ := Token.updateTokenState_ok h
  refine hK.put fun hk ↦ hf hk ts ?_
  exact hK ts (hk ▸ hts)

theorem initializeToken_running {owner tokenState ownerState : Pubkey}
    {args : Token.InitializeTokenArgs}
    (h : Token.initializeToken L signers owner tokenState ownerState args = .ok L')
    (hK : Running K L) : Running K L' := by
  simp only [Token.initializeToken, bind_eq_ok, requireSigner_eq_ok, exists_const] at h
  obtain ⟨-, -, -, L₁, hstate, howner⟩ := h
  obtain ⟨-, -, hnew, hother⟩ := initRecord_ok hstate
  have hframe : Frame [.ownerState] L₁ L' := .initRecord howner (by decide)
  intro ts hts
  rw [← view_eq_some, hframe.view_eq (by decide), view_eq_some] at hts
  by_cases hk : K = tokenState
  · subst hk
    obtain rfl := account_inj.1 (hnew.symm.trans hts)
    rfl
  · exact hK ts ((hother K hk).symm.trans hts)

theorem freezeWallet_frozen {accts : Token.OperatorAccounts} {wallet frozenWallet : Pubkey}
    (h : Token.freezeWallet L signers accts wallet frozenWallet = .ok L')
    (hfrozen : Token.WalletFrozen L' T w) :
    Token.WalletFrozen L T w ∨ accts.tokenState = Token.tokenStateAddress T ∧ w = wallet := by
  obtain ⟨ts, -, hstate, rfl, hother⟩ := Token.freezeWallet_ok h
  by_cases hk : Token.frozenAddress T w = Token.frozenAddress ts.tokenMint wallet
  · obtain ⟨rfl, rfl⟩ := frozenAddress_inj.1 hk
    exact .inr ⟨hstate, rfl⟩
  · obtain ⟨r, hr⟩ := hfrozen
    exact .inl ⟨r, (hother _ hk).symm.trans hr⟩

theorem unfreezeWallet_frozen {accts : Token.OperatorAccounts} {frozenWallet : Pubkey}
    (h : Token.unfreezeWallet L signers accts frozenWallet = .ok L')
    (hfrozen : Token.WalletFrozen L' T w) : Token.WalletFrozen L T w := by
  obtain ⟨-, -, rfl⟩ := Token.unfreezeWallet_ok h
  obtain ⟨r, hr⟩ := hfrozen
  have hne : Token.frozenAddress T w ≠ frozenWallet := by
    rintro rfl
    exact account_ne_vacant r (hr.symm.trans (close_vacant _ _))
  exact ⟨r, (setAccount_accounts_of_ne .vacant hne).symm.trans hr⟩

/-- A partial freeze adds to what was frozen. -/
theorem freezePartial_frozen {accts : Token.OperatorAccounts} {wallet partialFreeze : Pubkey}
    {amount : ℕ} (h : Token.freezePartial L signers accts wallet partialFreeze amount = .ok L')
    (hfrozen : Token.PartiallyFrozen L' T w n) :
    Token.PartiallyFrozen L T w n ∨ accts.tokenState = Token.tokenStateAddress T ∧ w = wallet ∧
      n = Token.frozenTokens L T w + amount := by
  obtain ⟨r, hr, rfl⟩ := hfrozen
  simp only [Token.freezePartial, bind_eq_ok, require_eq_ok, okOr_eq_ok, checkedAdd_eq_some,
    exists_const, Except.ok.injEq] at h
  obtain ⟨ts, hcheck, -, ⟨L₁, old⟩, hinit, m, ⟨-, rfl⟩, rfl⟩ := h
  obtain ⟨-, -, hseeds⟩ := Token.OperatorAccounts.check_ok hcheck
  obtain ⟨rfl, hother, hold, -⟩ := initIfNeeded_ok hinit
  by_cases hk : Token.partialFreezeAddress T w = Token.partialFreezeAddress ts.tokenMint wallet
  · obtain ⟨rfl, rfl⟩ := partialFreezeAddress_inj.1 hk
    obtain rfl := account_inj.1 (hr.symm.trans (put_accounts_self _))
    refine .inr ⟨hseeds, rfl, ?_⟩
    rcases hold with ⟨rfl, hvacant, -⟩ | ⟨r, rfl, hrecord, -⟩
    · have hview : L.view PartialFreeze (Token.partialFreezeAddress ts.tokenMint w) = none := by
        by_contra hne
        obtain ⟨r, hr⟩ := Option.ne_none_iff_exists'.1 hne
        exact account_ne_vacant r ((view_eq_some.1 hr).symm.trans hvacant)
      simp [Token.partialFreezeOrDefault, Token.frozenTokens, hview]
    · simp [Token.partialFreezeOrDefault, Token.frozenTokens, view_eq_some.2 hrecord]
  · exact .inl ⟨r, ((put_accounts_of_ne _ hk).trans (hother _ hk)).symm.trans hr, rfl⟩

theorem unfreezePartial_frozen {accts : Token.OperatorAccounts} {wallet partialFreeze : Pubkey}
    {amount : ℕ} (h : Token.unfreezePartial L signers accts wallet partialFreeze amount = .ok L')
    (hfrozen : Token.PartiallyFrozen L' T w n) :
    ∃ m, Token.PartiallyFrozen L T w m ∧ n ≤ m := by
  obtain ⟨r, hr, rfl⟩ := hfrozen
  obtain ⟨r₀, hr₀, hother, hafter⟩ := Token.unfreezePartial_ok h
  by_cases hk : Token.partialFreezeAddress T w = partialFreeze
  · subst hk
    rcases hafter with hvacant | hafter
    · exact absurd (hr.symm.trans hvacant) (account_ne_vacant r)
    · obtain rfl := account_inj.1 (hr.symm.trans hafter)
      exact ⟨_, ⟨r₀, hr₀, rfl⟩, Nat.sub_le _ _⟩
  · exact ⟨_, ⟨r, (hother _ hk).symm.trans hr, rfl⟩, le_rfl⟩

theorem Token.ControllerApproved.frame {operator : Token.OperatorAccounts}
    {accts : Token.ControllerTransferAccounts} {ts : TokenState} {s d : TokenAccount}
    {args : ApproveTransferArgs}
    (h : Token.ControllerApproved L L₁ L₂ signers operator accts ts s d args) :
    Frame (.tokenAccount :: hookKinds) L L₂ := by
  obtain ⟨_, _, htransfer⟩ := h.transfers
  exact (approveTransfer_frame h.approves (by decide)).trans (frame_transferChecked htransfer)

end Controller

/-! ## What the instructions impose -/

/-- The instruction imposes a control on the transfer of the approval: the pause,
the freeze of one of its wallets, or a partial freeze that leaves too little. -/
def Instruction.Forbids (T : Pubkey) (L : Ledger) (a : TransferApproval) : Instruction → Prop
  | .token (.pause accts) => accts.tokenState = Token.tokenStateAddress T
  | .token (.freezeWallet accts wallet _) => accts.tokenState = Token.tokenStateAddress T ∧
      (a.sourceWallet = wallet ∨ a.destinationWallet = wallet)
  | .token (.freezePartial accts wallet _ amount) => accts.tokenState = Token.tokenStateAddress T ∧
      a.sourceWallet = wallet ∧ a.fromBalance - (Token.frozenTokens L T wallet + amount) < a.amount
  | _ => False

/-- The controls admit the transfer of the approval. -/
def Admits (T : Pubkey) (L : Ledger) (a : TransferApproval) : Prop :=
  ControlsAdmit T L a.sourceWallet a.destinationWallet a.amount a.fromBalance

theorem ControlsAdmit.of_frame {source destination : Pubkey} {held : ℕ}
    (h : ControlsAdmit T L source destination n held) (hframe : Frame S L L')
    (hstate : AccountKind.tokenState ∉ S) (hwallet : AccountKind.frozenWallet ∉ S)
    (hpartly : AccountKind.partialFreeze ∉ S) :
    ControlsAdmit T L' source destination n held where
  running := h.running.of_view (hframe.view_eq hstate _)
  unfrozen := by
    rintro (hfrozen | hfrozen | ⟨m, hfrozen, hlt⟩)
    · exact h.unfrozen (.inl (hfrozen.of_view (hframe.view_eq hwallet _)))
    · exact h.unfrozen (.inr (.inl (hfrozen.of_view (hframe.view_eq hwallet _))))
    · exact h.unfrozen (.inr (.inr ⟨m, hfrozen.of_view (hframe.view_eq hpartly _), hlt⟩))

section Process

variable [Borsh]

theorem TokenInstruction.running {i : TokenInstruction} (h : i.process L signers = .ok L')
    (hi : ∀ accts, i = .pause accts → accts.tokenState ≠ K) (hK : Running K L) :
    Running K L' := by
  cases i with
  | initializeToken => exact initializeToken_running h hK
  | pause accts =>
      rw [TokenInstruction.process, Token.pause] at h
      exact updateTokenState_running h hK fun hk ↦ absurd hk (hi accts rfl)
  | unpause =>
      rw [TokenInstruction.process, Token.unpause] at h
      exact updateTokenState_running h hK fun _ _ _ ↦ rfl
  | setIdentityRegistry =>
      rw [TokenInstruction.process, Token.setIdentityRegistry] at h
      exact updateTokenState_running h hK fun _ _ hts ↦ hts
  | setCompliance =>
      rw [TokenInstruction.process, Token.setCompliance] at h
      exact updateTokenState_running h hK fun _ _ hts ↦ hts
  | _ =>
      have hframe := TokenInstruction.frame h
      exact hK.of_view (hframe.view_eq
        (by simp [TokenInstruction.kinds, hookKinds, Irs.identityKinds, kind]) K)

theorem TokenInstruction.walletFrozen {i : TokenInstruction} (h : i.process L signers = .ok L')
    (hfrozen : Token.WalletFrozen L' T w) :
    Token.WalletFrozen L T w ∨ ∃ accts key, i = .freezeWallet accts w key ∧
      accts.tokenState = Token.tokenStateAddress T := by
  cases i with
  | freezeWallet accts wallet key =>
      refine (freezeWallet_frozen h hfrozen).imp_right ?_
      rintro ⟨hstate, rfl⟩
      exact ⟨accts, key, rfl, hstate⟩
  | unfreezeWallet => exact .inl (unfreezeWallet_frozen h hfrozen)
  | _ =>
      have hframe := TokenInstruction.frame h
      exact .inl (hfrozen.of_view (hframe.view_eq
        (by simp [TokenInstruction.kinds, hookKinds, Irs.identityKinds, kind]) _))

theorem TokenInstruction.partiallyFrozen {i : TokenInstruction}
    (h : i.process L signers = .ok L') (hfrozen : Token.PartiallyFrozen L' T w n) :
    (∃ m, Token.PartiallyFrozen L T w m ∧ n ≤ m) ∨
      ∃ accts key amount, i = .freezePartial accts w key amount ∧
        accts.tokenState = Token.tokenStateAddress T ∧
          n = Token.frozenTokens L T w + amount := by
  cases i with
  | freezePartial accts wallet key amount =>
      rcases freezePartial_frozen h hfrozen with hbefore | ⟨hstate, rfl, hn⟩
      · exact .inl ⟨n, hbefore, le_rfl⟩
      · exact .inr ⟨accts, key, amount, rfl, hstate, hn⟩
  | unfreezePartial => exact .inl (unfreezePartial_frozen h hfrozen)
  | forcedTransfer operator key =>
      obtain ⟨_, _, _, _, _, L₁, L₂, happroved, -, -, -, r, hr, r', hle, rfl⟩ :=
        Token.forcedTransfer_approved h
      have hframe := happroved.frame
      obtain ⟨r₁, hr₁, rfl⟩ := hfrozen
      by_cases hk : Token.partialFreezeAddress T w = key
      · -- the record of the wallet is the one that shrinks
        subst hk
        obtain rfl := account_inj.1 (hr₁.symm.trans (put_accounts_self _))
        have hbefore : Token.PartiallyFrozen L₂ T w r.frozenAmount := ⟨r, hr, rfl⟩
        exact .inl ⟨_, hbefore.of_view (hframe.view_eq (by decide) _), hle⟩
      · have hbefore : Token.PartiallyFrozen L₂ T w r₁.frozenAmount :=
          ⟨r₁, (put_accounts_of_ne _ hk).symm.trans hr₁, rfl⟩
        exact .inl ⟨_, hbefore.of_view (hframe.view_eq (by decide) _), le_rfl⟩
  | recovery =>
      obtain ⟨_, _, _, _, _, L₁, happroved, -⟩ := Token.recovery_approved h
      have hframe := happroved.frame
      exact .inl ⟨n, hfrozen.of_view (hframe.view_eq (by decide) _), le_rfl⟩
  | _ =>
      have hframe := TokenInstruction.frame h
      exact .inl ⟨n, hfrozen.of_view (hframe.view_eq
        (by simp [TokenInstruction.kinds, Irs.identityKinds, kind]) _), le_rfl⟩

/-- What the controls admit they admit after every instruction of the controller
that imposes nothing on it. -/
theorem TokenInstruction.admits {i : TokenInstruction} (h : i.process L signers = .ok L')
    (hi : ¬ (Instruction.token i).Forbids T L a) (ha : Admits T L a) : Admits T L' a where
  running := by
    refine TokenInstruction.running h (fun accts hpause hstate ↦ ?_) ha.running
    subst hpause
    exact hi hstate
  unfrozen := by
    have hwallet : ∀ w, a.sourceWallet = w ∨ a.destinationWallet = w →
        Token.WalletFrozen L' T w → Token.WalletFrozen L T w := by
      intro w hw hfrozen
      rcases TokenInstruction.walletFrozen h hfrozen with hbefore | ⟨accts, key, rfl, hstate⟩
      · exact hbefore
      · exact absurd ⟨hstate, hw⟩ hi
    rintro (hfrozen | hfrozen | ⟨m, hfrozen, hlt⟩)
    · exact ha.unfrozen (.inl (hwallet _ (.inl rfl) hfrozen))
    · exact ha.unfrozen (.inr (.inl (hwallet _ (.inr rfl) hfrozen)))
    · rcases TokenInstruction.partiallyFrozen h hfrozen with
        ⟨m₀, hbefore, hle⟩ | ⟨accts, key, amount, rfl, hstate, rfl⟩
      · exact ha.unfrozen (.inr (.inr ⟨m₀, hbefore, by omega⟩))
      · exact hi ⟨hstate, rfl, hlt⟩

theorem process_admits {i : Instruction} (h : process L signers i = .ok L')
    (hi : ¬ i.core.Forbids T L a) (ha : Admits T L a) : Admits T L' a := by
  induction i with
  | token i => exact TokenInstruction.admits h hi ha
  | hook i =>
      have hframe := HookInstruction.frame h
      exact ha.of_frame hframe (by cases i <;> simp [HookInstruction.kinds, hookKinds])
        (by cases i <;> simp [HookInstruction.kinds, hookKinds])
        (by cases i <;> simp [HookInstruction.kinds, hookKinds])
  | compliance i =>
      have hframe := ComplianceInstruction.frame h
      exact ha.of_frame hframe
        (by cases i <;> simp [ComplianceInstruction.kinds, Compliance.PostHook.kinds])
        (by cases i <;> simp [ComplianceInstruction.kinds, Compliance.PostHook.kinds])
        (by cases i <;> simp [ComplianceInstruction.kinds, Compliance.PostHook.kinds])
  | module i =>
      have hframe := ModuleInstruction.frame h
      exact ha.of_frame hframe (by cases i <;> simp [ModuleInstruction.kinds])
        (by cases i <;> simp [ModuleInstruction.kinds])
        (by cases i <;> simp [ModuleInstruction.kinds])
  | token2022 i =>
      exact ha.of_frame (Token2022.process_frame h) (by decide) (by decide) (by decide)
  | createTokenMint =>
      exact ha.of_frame (Factory.frame_createTokenMint h) (by decide) (by decide) (by decide)
  | callModuleFunction owner complianceState inner ih =>
      obtain ⟨_, -, hinner⟩ := bind_eq_ok.1 h
      exact ih hinner hi

end Process

/-! ## Pending approvals of the owners -/

/-- An approval that waits for the owner of the tokens, not for the controller. -/
structure OwnerPending (T : Pubkey) (L : Ledger) (k : Pubkey) (a : TransferApproval) : Prop where
  pending : PendingAt T L k a
  owner : a.authority ≠ Token.tokenStateAddress T

/-- The accounts of the approval belong to its wallets. -/
structure OwnedBy (L : Ledger) (a : TransferApproval) : Prop where
  source : ∀ s : TokenAccount, L.accounts a.sourceTokenAccount = account s →
    s.owner = a.sourceWallet
  destination : ∀ d : TokenAccount, L.accounts a.destinationTokenAccount = account d →
    d.owner = a.destinationWallet

/-- The controls admit every transfer that its owner may still execute. -/
def PendingAdmitted (T : Pubkey) (L : Ledger) : Prop :=
  ∀ (k : Pubkey) (a : TransferApproval), OwnerPending T L k a → Admits T L a ∧ OwnedBy L a

/-- A transfer is approved with the derived addresses for its freezes, nothing is
imposed on a transfer that its owner may still execute, and its accounts are
neither opened anew nor handed over. -/
structure SparesPending (T : Pubkey) (L : Ledger) (i : Instruction) : Prop where
  freezes : ∀ accts amount fromBalance toBalance,
    i = .token (.transfer accts amount fromBalance toBalance) →
      accts.tokenState = Token.tokenStateAddress T → Token.CanonicalFreezes T accts
  controls : ∀ k a, OwnerPending T L k a → ¬ i.Forbids T L a
  owners : ∀ k a, OwnerPending T L k a →
    ¬ i.Rehomes a.sourceTokenAccount ∧ ¬ i.Rehomes a.destinationTokenAccount

theorem OwnedBy.of_frame (h : OwnedBy L a) (hframe : Frame S L L')
    (hS : AccountKind.tokenAccount ∉ S) : OwnedBy L' a where
  source := by
    intro s hs
    rw [← view_eq_some, hframe.view_eq hS, view_eq_some] at hs
    exact h.source s hs
  destination := by
    intro d hd
    rw [← view_eq_some, hframe.view_eq hS, view_eq_some] at hd
    exact h.destination d hd

theorem PendingAdmitted.of_frame (h : PendingAdmitted T L) (hframe : Frame S L L')
    (happroval : AccountKind.transferApproval ∉ S) (haccount : AccountKind.tokenAccount ∉ S)
    (hstate : AccountKind.tokenState ∉ S) (hwallet : AccountKind.frozenWallet ∉ S)
    (hpartly : AccountKind.partialFreeze ∉ S) : PendingAdmitted T L' := by
  intro k a ha
  obtain ⟨hadmits, howned⟩ := h k a ⟨ha.pending.of_frame hframe happroval, ha.owner⟩
  exact ⟨hadmits.of_frame hframe hstate hwallet hpartly, howned.of_frame hframe haccount⟩

section Process

variable [Borsh] {i : Instruction}

theorem process_ownedBy (h : process L signers i = .ok L')
    (hsource : ¬ i.core.Rehomes a.sourceTokenAccount)
    (hdestination : ¬ i.core.Rehomes a.destinationTokenAccount) (ha : OwnedBy L a) :
    OwnedBy L' a where
  source := by
    intro s hs
    obtain ⟨s₀, hs₀, -, howner⟩ := process_ownerKept h hsource hs
    exact howner.trans (ha.source s₀ hs₀)
  destination := by
    intro d hd
    obtain ⟨d₀, hd₀, -, howner⟩ := process_ownerKept h hdestination hd
    exact howner.trans (ha.destination d₀ hd₀)

/-- With the derived addresses an approval is written only for what the controls
admit. -/
theorem Granted.admits (h : Granted T L i a) (howner : a.authority ≠ Token.tokenStateAddress T)
    (hT : TokenStatesDerived L)
    (hfreezes : ∀ accts amount fromBalance toBalance,
      i = .token (.transfer accts amount fromBalance toBalance) →
        accts.tokenState = Token.tokenStateAddress T → Token.CanonicalFreezes T accts) :
    Admits T L a ∧ OwnedBy L a ∧ ∃ accts amount fromBalance toBalance,
      i = .token (.transfer accts amount fromBalance toBalance) := by
  cases h with
  | transfer signers L' accts amount fromBalance toBalance fromCountry toCountry ts s d happroved
      hread hstate =>
      obtain ⟨n, hread, hamount⟩ := hread
      obtain ⟨hsource, hdestination, hheld⟩ := Token.freezesRead_iff.1 hread
      have hts := happroved.tokenStateAt
      have hmint : ts.tokenMint = T :=
        (tokenStateAddress_inj.1 (hstate.symm.trans (hT _ _ hts))).symm
      rw [hmint] at hheld
      have hcanonical := hfreezes _ _ _ _ rfl hstate
      refine ⟨⟨fun ts' hts' ↦ ?_, hcanonical.not_forbid hsource hdestination hheld hamount⟩,
        ⟨fun s' hs' ↦ ?_, fun d' hd' ↦ ?_⟩, accts, amount, fromBalance, toBalance, rfl⟩
      · obtain rfl := account_inj.1 ((hstate ▸ hts).symm.trans hts')
        exact happroved.evaluated.notPaused
      · obtain rfl := account_inj.1 (happroved.sourceAt.symm.trans hs')
        exact happroved.sourceValid.2.1
      · obtain rfl := account_inj.1 (happroved.destinationAt.symm.trans hd')
        exact happroved.destinationValid.2.1
  | forcedTransfer _ _ _ _ _ _ _ _ _ _ _ _ _ _ _ _ _ _ hstate =>
      exact absurd hstate howner
  | recovery _ _ _ _ _ _ _ _ _ _ _ _ _ _ _ hstate => exact absurd hstate howner

theorem process_pendingAdmitted (h : process L signers i = .ok L')
    (hexternal : ∀ k ∈ signers, k.External) (hT : TokenStatesDerived L)
    (hspares : SparesPending T L i.core) (hL : PendingAdmitted T L) : PendingAdmitted T L' := by
  intro k a ha
  rcases process_pending h hexternal ha.pending with hbefore | hgranted
  · have hpending : OwnerPending T L k a := ⟨hbefore, ha.owner⟩
    obtain ⟨hadmits, howned⟩ := hL k a hpending
    obtain ⟨hsource, hdestination⟩ := hspares.owners k a hpending
    exact ⟨process_admits h (hspares.controls k a hpending) hadmits,
      process_ownedBy h hsource hdestination howned⟩
  · obtain ⟨hadmits, howned, accts, amount, fromBalance, toBalance, hi⟩ :=
      hgranted.admits ha.owner hT hspares.freezes
    refine ⟨process_admits h ?_ hadmits, process_ownedBy h ?_ ?_ howned⟩
    all_goals
      rw [hi]
      exact not_false

end Process

/-! ## Executions -/

/-- The instruction executes a transfer of `n` tokens of `T`: through Token-2022, or
by a direct call of the hook. -/
inductive Executes (T : Pubkey) : Instruction → Pubkey → Pubkey → ℕ → Prop
  | transferChecked (source destination authority : Pubkey) (additional : List Pubkey)
      (n decimals : ℕ) : source ≠ destination →
        Executes T (.token2022 (.transferChecked source T destination authority additional n
          decimals)) source destination n
  | hook (accts : ExecuteAccounts) (n : ℕ) : accts.mint = T →
      Executes T (.hook (.executeTransferHook accts n)) accts.source accts.destination n

theorem Token2022.HookedTransfer.approvalUsed {source destination authority : Pubkey}
    {additional : List Pubkey} {amount : ℕ} {m : Mint} {s s' d : TokenAccount}
    (hT : TokenStatesDerived L)
    (h : HookedTransfer L L' signers source T destination authority additional amount hookProgram
      m s s' d L₂) :
    ∃ k a, PendingAt T L k a ∧ a.sourceTokenAccount = source ∧
      a.destinationTokenAccount = destination ∧ a.authority = authority ∧ a.amount = amount ∧
        a.fromBalance = s.amount := by
  obtain ⟨accts, a, ts, rfl, hmint, rfl, rfl, hfrom, -, hexecuted⟩ := h.executed
  have hback : ∀ {α : Type} [AccountType α], kind α ∉ [AccountKind.tokenAccount] →
      ∀ {k : Pubkey} {r : α}, (movedLedger L accts.source accts.destination (debited s s' amount)
        (credited d amount)).accounts k = account r → L.accounts k = account r := by
    intro α _ hα k r hr
    rw [← view_eq_some, h.frame_moved.view_eq hα, view_eq_some] at hr
    exact hr
  have hts := hback (by decide) hexecuted.tokenStateAt
  have hstate : accts.tokenState = Token.tokenStateAddress T := by
    rw [hT _ _ hts, hexecuted.tokenMint, hmint]
  exact ⟨accts.transferApproval, a, ⟨hback (by decide) hexecuted.approvalAt, hexecuted.unconsumed,
    hexecuted.approvalTokenState.trans hstate⟩, hexecuted.approvalSource,
    hexecuted.approvalDestination, hexecuted.approvalAuthority, hexecuted.approvalAmount, hfrom⟩

/-- A token whose transfers run the hook, with all that is pending admitted. -/
structure UnderControls (T : Pubkey) (L : Ledger) : Prop where
  wellFormed : WellFormed L
  control : InControl T (Token.tokenStateAddress T) L
  pending : PendingAdmitted T L

theorem UnderControls.environment (hL : UnderControls T L) (h : Frame environmentKinds L L') :
    UnderControls T L' where
  wellFormed := ⟨hL.wellFormed.tokenStates.of_frame h (by decide),
    hL.wellFormed.flags.of_frame h (by decide)⟩
  control := hL.control.of_frame h (by decide) (by decide)
  pending := hL.pending.of_frame h (by decide) (by decide) (by decide) (by decide) (by decide)

section Process

variable [Borsh] {i : Instruction} {source destination : Pubkey}

theorem process_underControls (h : process L signers i = .ok L')
    (hexternal : ∀ k ∈ signers, k.External) (hkeeps : KeepsAnchor T i.core)
    (hspares : SparesPending T L i.core) (hL : UnderControls T L) : UnderControls T L' where
  wellFormed := process_wellFormed h hL.wellFormed
  control := process_control h hexternal hkeeps hL.control
  pending := process_pendingAdmitted h hexternal hL.wellFormed.tokenStates hspares hL.pending

/-- An execution uses an approval that the owner has asked for, and finds the
balance and the owners of that approval. -/
theorem UnderControls.executes (hL : UnderControls T L) (h : process L signers i = .ok L')
    (hexternal : ∀ k ∈ signers, k.External) (hi : Executes T i.core source destination n)
    {s d : TokenAccount} (hs : L.accounts source = account s)
    (hd : L.accounts destination = account d) :
    ControlsAdmit T L s.owner d.owner n s.amount := by
  have hcore := process_core h
  generalize i.core = j at hcore hi
  cases hi with
  | hook accts n hmint => exact absurd hcore (executeTransferHook_refused hL.wellFormed.flags)
  | transferChecked source destination authority additional n decimals hne =>
      obtain ⟨m₀, hm₀, -, -, hprogram⟩ := hL.control.mint
      rcases transferChecked_ok hcore with ⟨hsame, -⟩ |
        ⟨m, _, _, _, -, -, -, hm, -, -, -, -, hnone, -⟩ | ⟨program, m, x, x', y, L₂, hhooked⟩
      · exact absurd hsame hne
      · obtain rfl := account_inj.1 (hm₀.symm.trans hm)
        rw [hnone] at hprogram
        exact nomatch hprogram
      · obtain rfl := account_inj.1 (hm₀.symm.trans hhooked.mintAt)
        obtain rfl := Option.some.inj (hhooked.hook.symm.trans hprogram)
        obtain rfl := account_inj.1 (hs.symm.trans hhooked.sourceAt)
        obtain ⟨k, a, hpending, rfl, rfl, rfl, rfl, hfrom⟩ :=
          hhooked.approvalUsed hL.wellFormed.tokenStates
        have howner : a.authority ≠ Token.tokenStateAddress T := by
          intro hstate
          exact not_external_tokenStateAddress (hstate ▸ hexternal _ hhooked.debit.signed)
        obtain ⟨hadmits, howned⟩ := hL.pending k a ⟨hpending, howner⟩
        rw [howned.source s hs, howned.destination d hd, ← hfrom]
        exact hadmits

end Process

/-! ## Runs -/

/-- In every run in which nothing is imposed on a transfer that is still to be
executed, the controls admit every transfer when it is executed. -/
theorem controls_hold_at_execution [Borsh] {labels : List Label} {i : Instruction}
    {source destination : Pubkey} {s d : TokenAccount} (hL : UnderControls T L)
    (hrun : Run (restrict Step fun L l _ ↦ l.Core fun i ↦
      KeepsAnchor T i ∧ SparesPending T L i) L labels L₁)
    (hstep : Step L₁ (.instruction signers i) L') (hi : Executes T i.core source destination n)
    (hs : L₁.accounts source = account s) (hd : L₁.accounts destination = account d) :
    ControlsAdmit T L₁ s.owner d.owner n s.amount := by
  have hL₁ : UnderControls T L₁ := by
    refine hrun.invariant (P := fun L ↦ UnderControls T L) (fun L l L' hL hstep ↦ ?_) hL
    obtain ⟨hstep, hcore⟩ := hstep
    cases hstep with
    | instruction signers i hexternal h =>
        obtain ⟨hkeeps, hspares⟩ := hcore
        exact process_underControls h hexternal hkeeps hspares hL
    | environment h => exact hL.environment h
  cases hstep with
  | instruction _ _ hexternal h => exact hL₁.executes h hexternal hi hs hd

/-! ## A pause after the approval -/

def heldSender : Holding := ⟨.address 10, .address 11, 10⟩

def heldReceiver : Holding := ⟨.address 20, .address 21, 0⟩

def runningDeployment : Deployment where
  tokenMint := .address 0
  issuer := .address 1
  paused := false
  modules := []
  modulesPaused := false
  metas := baseMetas
  wallets := [(heldSender.wallet, 276), (heldReceiver.wallet, 276)]
  holdings := [heldSender, heldReceiver]

def runningLedger : Ledger := runningDeployment.ledger []

theorem runningLedger_unapproved (k : Pubkey) (a : TransferApproval) :
    ¬ OwnerPending runningDeployment.tokenMint runningLedger k a :=
  fun h ↦ runningDeployment.not_account (by simp) (by decide) k a h.pending.loaded

theorem runningLedger_underControls : UnderControls runningDeployment.tokenMint runningLedger := by
  have hanchored : Anchored runningDeployment.tokenMint (runningDeployment.ledger []) :=
    runningDeployment.anchored rfl rfl (by simp)
  exact ⟨hanchored.wellFormed, hanchored.control,
    fun k a ha ↦ absurd ha (runningLedger_unapproved k a)⟩

/-- The sender approves the transfer of 4 tokens with its own freeze records. -/
def askTransfer : Instruction :=
  .token (.transfer (runningDeployment.transferAccounts heldSender heldReceiver
    (Token.frozenAddress runningDeployment.tokenMint heldSender.wallet)
    (Token.frozenAddress runningDeployment.tokenMint heldReceiver.wallet)
    (Token.partialFreezeAddress runningDeployment.tokenMint heldSender.wallet) []) 4 10 0)

def sendTokens : Instruction :=
  .token2022 (.transferChecked heldSender.key runningDeployment.tokenMint heldReceiver.key
    heldSender.wallet (runningDeployment.hookAccounts heldSender.key heldReceiver.key
      heldSender.wallet) 4 0)

def pauseToken : Instruction :=
  .token (.pause
    { owner := runningDeployment.issuer, tokenState := runningDeployment.tokenState,
      ownerState := Token.ownerAddress runningDeployment.tokenMint })

theorem heldSender_external : ∀ k ∈ [heldSender.wallet], k.External :=
  List.forall_mem_singleton.2 (Pubkey.external_address 11)

theorem runningIssuer_external : ∀ k ∈ [runningDeployment.issuer], k.External :=
  List.forall_mem_singleton.2 (Pubkey.external_address 1)

theorem askTransfer_canonical (accts : Token.TransferEvaluation) (amount fromBalance toBalance : ℕ)
    (h : askTransfer = .token (.transfer accts amount fromBalance toBalance)) :
    Token.CanonicalFreezes runningDeployment.tokenMint accts := by
  cases h
  exact ⟨rfl, rfl, rfl⟩

/-- Without a pause in between the transfer goes through. -/
theorem sendTokens_admitted : ∃ L₁ L₂,
    Run (@Step strictBorsh) runningLedger [.instruction [heldSender.wallet] askTransfer] L₁ ∧
      @Step strictBorsh L₁ (.instruction [heldSender.wallet] sendTokens) L₂ ∧
        ControlsAdmit runningDeployment.tokenMint L₁ heldSender.wallet heldReceiver.wallet 4
          10 := by
  obtain ⟨L₁, L₂, hask, hsend, hs, hd⟩ : ∃ L₁ L₂,
      @process strictBorsh runningLedger [heldSender.wallet] askTransfer = .ok L₁ ∧
      @process strictBorsh L₁ [heldSender.wallet] sendTokens = .ok L₂ ∧
      L₁.accounts heldSender.key = account (runningDeployment.holdingRecord heldSender) ∧
      L₁.accounts heldReceiver.key = account (runningDeployment.holdingRecord heldReceiver) :=
    ⟨_, _, rfl, rfl, rfl, rfl⟩
  have hfirst := @Step.instruction strictBorsh _ _ _ _ heldSender_external hask
  have hsecond := @Step.instruction strictBorsh _ _ _ _ heldSender_external hsend
  have hspares : SparesPending runningDeployment.tokenMint runningLedger askTransfer :=
    ⟨fun _ _ _ _ hi _ ↦ askTransfer_canonical _ _ _ _ hi,
      fun k a ha ↦ absurd ha (runningLedger_unapproved k a),
      fun k a ha ↦ absurd ha (runningLedger_unapproved k a)⟩
  refine ⟨L₁, L₂, .single hfirst, hsecond, ?_⟩
  exact @controls_hold_at_execution _ _ _ _ _ _ strictBorsh _ _ _ _ _ _ runningLedger_underControls
    (.single ⟨hfirst, trivial, hspares⟩) hsecond (.transferChecked _ _ _ _ _ _ (by decide)) hs hd

/-- Approvals with the derived addresses, pauses, freezes and transfers of `T`. -/
def Instruction.ApprovesOrControls (T : Pubkey) : Instruction → Prop
  | .token (.transfer accts _ _ _) => Token.CanonicalFreezes T accts
  | .token (.pause _) | .token (.unpause _) | .token (.freezeWallet ..)
  | .token (.freezePartial ..) => True
  | .token2022 (.transferChecked _ mint _ _ _ _ _) => mint = T
  | _ => False

/-- The token is paused between the approval and the transfer, and the transfer
goes through all the same. -/
theorem paused_token_transfers : ¬ ∀ (T source destination : Pubkey) (n : ℕ) (L L₁ L' : Ledger)
    (labels : List Label) (signers : List Pubkey) (i : Instruction) (s d : TokenAccount),
      UnderControls T L → Run (restrict (@Step strictBorsh) fun _ l _ ↦
          l.Core (Instruction.ApprovesOrControls T)) L labels L₁ →
        @Step strictBorsh L₁ (.instruction signers i) L' →
          Executes T i.core source destination n → L₁.accounts source = account s →
            L₁.accounts destination = account d →
              ControlsAdmit T L₁ s.owner d.owner n s.amount := by
  intro hall
  obtain ⟨L₀, L₁, L₂, hask, hpause, hsend, hs, hd, hpaused⟩ : ∃ L₀ L₁ L₂,
      @process strictBorsh runningLedger [heldSender.wallet] askTransfer = .ok L₀ ∧
      @process strictBorsh L₀ [runningDeployment.issuer] pauseToken = .ok L₁ ∧
      @process strictBorsh L₁ [heldSender.wallet] sendTokens = .ok L₂ ∧
      L₁.accounts heldSender.key = account (runningDeployment.holdingRecord heldSender) ∧
      L₁.accounts heldReceiver.key = account (runningDeployment.holdingRecord heldReceiver) ∧
      L₁.accounts runningDeployment.tokenState =
        account { runningDeployment.tokenStateRecord with paused := true } :=
    ⟨_, _, _, rfl, rfl, rfl, rfl, rfl, rfl⟩
  have hcanonical : askTransfer.ApprovesOrControls runningDeployment.tokenMint :=
    askTransfer_canonical _ _ _ _ rfl
  have hadmits := hall _ _ _ _ _ _ _ _ _ _ _ _ runningLedger_underControls
    (.cons ⟨@Step.instruction strictBorsh _ _ _ _ heldSender_external hask, hcanonical⟩
      (.single ⟨@Step.instruction strictBorsh _ _ _ _ runningIssuer_external hpause, trivial⟩))
    (@Step.instruction strictBorsh _ _ _ _ heldSender_external hsend)
    (.transferChecked _ _ _ _ _ _ (by decide)) hs hd
  exact nomatch hadmits.running _ hpaused

end Fracks
