import Fracks.Reachable
import Fracks.ControlledBalances

/-!
# A token under its own compliance state

The token state of a mint is its mint authority and permanent delegate, the
hook is that of this repository, and the compliance state it points to is the
one derived from the mint.  Only `set_compliance` and a new hook program can
change that; both need the issuer.
-/

namespace Fracks

open Checked AccountType Ledger TokenHook

structure Anchored (T : Pubkey) (L : Ledger) : Prop where
  wellFormed : WellFormed L
  control : Token2022.InControl T (Token.tokenStateAddress T) L
  tokenState : ∃ ts : TokenState, L.accounts (Token.tokenStateAddress T) = account ts ∧
    ts.compliance = Compliance.complianceAddress T

/-- The token state of `T` keeps its compliance state, and `T` its hook program. -/
def KeepsAnchor (T : Pubkey) : Instruction → Prop
  | .token (.setCompliance accts _) => accts.tokenState ≠ Token.tokenStateAddress T
  | .token2022 (.updateTransferHook k _ newProgram) => k = T → newProgram = some hookProgram
  | _ => True

variable {L L' L₁ L₂ : Ledger} {T K C : Pubkey} {signers : List Pubkey} {S : List AccountKind}

theorem tokenStateAddress_inj {T T' : Pubkey} :
    Token.tokenStateAddress T = Token.tokenStateAddress T' ↔ T = T' := by
  simp [Token.tokenStateAddress, Pubkey.findProgramAddress, Pubkey.addSeed]

theorem not_external_tokenStateAddress : ¬ (Token.tokenStateAddress T).External :=
  Pubkey.not_external_findProgramAddress _ _ _

/-! ## The token state -/

/-- The token state at `K` points to `C`. -/
def PointsTo (K C : Pubkey) (L : Ledger) : Prop :=
  ∃ ts : TokenState, L.accounts K = account ts ∧ ts.compliance = C

theorem PointsTo.of_frame (h : PointsTo K C L) (hframe : Frame S L L')
    (hS : AccountKind.tokenState ∉ S) : PointsTo K C L' := by
  obtain ⟨ts, hts, hcompliance⟩ := h
  exact ⟨ts, hframe.accounts_eq hS hts, hcompliance⟩

theorem updateTokenState_pointsTo {accts : Token.OwnerAccounts} {f : TokenState → TokenState}
    (h : Token.updateTokenState L signers accts f = .ok L')
    (hf : accts.tokenState = K → ∀ ts, (f ts).compliance = ts.compliance)
    (hK : PointsTo K C L) : PointsTo K C L' := by
  obtain ⟨ts, hts, -, rfl⟩ := Token.updateTokenState_ok h
  obtain ⟨ts₀, hts₀, hcompliance⟩ := hK
  by_cases hk : K = accts.tokenState
  · subst hk
    obtain rfl := account_inj.1 (hts₀.symm.trans hts)
    exact ⟨f ts₀, put_accounts_self _, (hf rfl ts₀).trans hcompliance⟩
  · exact ⟨ts₀, (put_accounts_of_ne _ hk).trans hts₀, hcompliance⟩

theorem initializeToken_pointsTo {owner tokenState ownerState : Pubkey}
    {args : Token.InitializeTokenArgs}
    (h : Token.initializeToken L signers owner tokenState ownerState args = .ok L')
    (hK : PointsTo K C L) : PointsTo K C L' := by
  simp only [Token.initializeToken, bind_eq_ok, requireSigner_eq_ok, exists_const] at h
  obtain ⟨-, -, -, L₁, hstate, howner⟩ := h
  obtain ⟨-, hvacant, -, hother⟩ := initRecord_ok hstate
  have hframe : Frame [.ownerState] L₁ L' := .initRecord howner (by decide)
  refine PointsTo.of_frame ?_ hframe (by decide)
  obtain ⟨ts, hts, hcompliance⟩ := hK
  have hne : K ≠ tokenState := by
    rintro rfl
    exact account_ne_vacant ts (hts.symm.trans hvacant)
  exact ⟨ts, (hother K hne).trans hts, hcompliance⟩

/-! ## Control over the mint -/

namespace Token2022

theorem InControl.of_frame (h : InControl T K L) (hframe : Frame S L L')
    (hmint : AccountKind.mint ∉ S) (haccount : AccountKind.tokenAccount ∉ S) :
    InControl T K L' :=
  ⟨h.mint.of_frame hframe hmint, h.accounts.of_frame hframe haccount⟩

theorem createTokenMint_keeps {accts : Factory.CreateTokenMint} {decimals : ℕ}
    (h : Factory.createTokenMint L signers accts decimals = .ok L') (hc : InControl T K L) :
    InControl T K L' := by
  obtain ⟨hvacant, -, hother⟩ := Factory.createTokenMint_ok h
  obtain ⟨m, hm, -⟩ := hc.mint
  have hne : T ≠ accts.tokenMintAccount := by
    rintro rfl
    exact account_ne_vacant m (hm.symm.trans hvacant)
  have hframe := Factory.frame_createTokenMint h
  exact ⟨hc.mint.congr (hother T hne), hc.accounts.of_frame hframe (by decide)⟩

end Token2022

open Token2022 (InControl)

section Tokens

variable [Borsh]

theorem Token.Issue.inControl {ts : TokenState} {accts : Token.ReceiverAccounts}
    {amount country : ℕ} {d : TokenAccount}
    (h : Token.Issue L L' ts accts amount country d L₁ L₂) (hc : InControl T K L) :
    InControl T K L' := by
  obtain ⟨_, hminted⟩ := h.minted
  have hc₁ : InControl T K L₁ := hc.of_frame h.paid (by decide) (by decide)
  have hc₂ : InControl T K L₂ :=
    hc₁.of_frame (frame_invokeComplianceCreated h.booked) (by decide) (by decide)
  exact Token2022.mintTo_inControl hminted hc₂

omit [Borsh] in
theorem Token.Redemption.inControl {ts : TokenState} {accts : Token.BurnAccounts}
    {amount country : ℕ} {s : TokenAccount}
    (h : Token.Redemption L L' ts accts amount country s L₁) (hc : InControl T K L) :
    InControl T K L' := by
  obtain ⟨_, hburned⟩ := h.burned
  have hc₁ : InControl T K L₁ :=
    hc.of_frame (frame_invokeComplianceDestroyed h.booked) (by decide) (by decide)
  exact Token2022.burn_inControl hburned hc₁

omit [Borsh] in
theorem Token.ControllerTransfer.inControl {ts : TokenState}
    {accts : Token.ControllerTransferAccounts} {source destination : Pubkey} {amount : ℕ}
    {s d : TokenAccount}
    (h : Token.ControllerTransfer L L' ts accts source destination amount s d L₁ L₂)
    (hc : InControl T K L) : InControl T K L' := by
  obtain ⟨_, _, _, -, -, -, -, happroved⟩ := h.approved
  obtain ⟨_, _, hmoved⟩ := h.moved
  have hframe := approveTransfer_frame happroved (List.Subset.refl _)
  have hc₁ : InControl T K L₁ := hc.of_frame hframe (by decide) (by decide)
  have hc₂ : InControl T K L₂ :=
    Token2022.process_inControl (i := .transferChecked _ _ _ _ _ _ _) hmoved trivial hc₁
  exact hc₂.of_frame h.released (by decide) (by decide)

theorem TokenInstruction.inControl {i : TokenInstruction} (h : i.process L signers = .ok L')
    (hc : InControl T K L) : InControl T K L' := by
  cases i with
  | mint =>
      obtain ⟨_, _, _, _, _, hissue⟩ := Token.mint_ok h
      exact hissue.inControl hc
  | purchaseMint =>
      obtain ⟨_, _, _, _, _, hissue⟩ := Token.purchaseMint_ok h
      exact hissue.inControl hc
  | settleSubscriptionMint =>
      obtain ⟨_, _, _, _, _, _, hissue⟩ := Token.settleSubscriptionMint_ok h
      exact hissue.inControl hc
  | burn =>
      obtain ⟨_, _, _, _, -, -, hredeemed⟩ := Token.burn_ok h
      exact hredeemed.inControl hc
  | forcedTransfer =>
      obtain ⟨_, _, _, _, _, htransfer, -⟩ := Token.forcedTransfer_ok h
      exact htransfer.inControl hc
  | recovery =>
      obtain ⟨_, _, _, _, htransfer⟩ := Token.recovery_ok h
      exact htransfer.inControl hc
  | _ =>
      exact hc.of_frame (TokenInstruction.frame h)
        (by simp [TokenInstruction.kinds, Irs.identityKinds])
        (by simp [TokenInstruction.kinds, Irs.identityKinds])

theorem TokenInstruction.pointsTo {i : TokenInstruction} (h : i.process L signers = .ok L')
    (hkeeps : ∀ accts newCompliance, i = .setCompliance accts newCompliance →
      accts.tokenState ≠ K) (hK : PointsTo K C L) : PointsTo K C L' := by
  cases i with
  | initializeToken => exact initializeToken_pointsTo h hK
  | pause =>
      rw [TokenInstruction.process, Token.pause] at h
      exact updateTokenState_pointsTo h (fun _ _ ↦ rfl) hK
  | unpause =>
      rw [TokenInstruction.process, Token.unpause] at h
      exact updateTokenState_pointsTo h (fun _ _ ↦ rfl) hK
  | setIdentityRegistry =>
      rw [TokenInstruction.process, Token.setIdentityRegistry] at h
      exact updateTokenState_pointsTo h (fun _ _ ↦ rfl) hK
  | setCompliance accts newCompliance =>
      rw [TokenInstruction.process, Token.setCompliance] at h
      exact updateTokenState_pointsTo h (fun hk ↦ absurd hk (hkeeps _ _ rfl)) hK
  | _ =>
      exact hK.of_frame (TokenInstruction.frame h)
        (by simp [TokenInstruction.kinds, hookKinds, Irs.identityKinds])

end Tokens

/-! ## Every step -/

section Process

variable [Borsh]

theorem process_control {i : Instruction} (h : process L signers i = .ok L')
    (hexternal : ∀ k ∈ signers, k.External) (hkeeps : KeepsAnchor T i.core)
    (hc : InControl T (Token.tokenStateAddress T) L) :
    InControl T (Token.tokenStateAddress T) L' := by
  induction i with
  | token i => exact TokenInstruction.inControl h hc
  | hook i =>
      have hframe := HookInstruction.frame h
      exact hc.of_frame hframe (by cases i <;> simp [HookInstruction.kinds, hookKinds])
        (by cases i <;> simp [HookInstruction.kinds, hookKinds])
  | compliance i =>
      have hframe := ComplianceInstruction.frame h
      exact hc.of_frame hframe
        (by cases i <;> simp [ComplianceInstruction.kinds, Compliance.PostHook.kinds])
        (by cases i <;> simp [ComplianceInstruction.kinds, Compliance.PostHook.kinds])
  | module i =>
      have hframe := ModuleInstruction.frame h
      exact hc.of_frame hframe (by cases i <;> simp [ModuleInstruction.kinds])
        (by cases i <;> simp [ModuleInstruction.kinds])
  | token2022 i =>
      refine Token2022.process_inControl h ?_ hc
      cases i with
      | setMintAuthority k authority type newAuthority =>
          -- the token state does not sign a transaction
          obtain ⟨_, _, hchanged, -⟩ := Token2022.setMintAuthority_ok h
          rintro ⟨-, rfl⟩
          exact not_external_tokenStateAddress (hexternal _ hchanged.signed)
      | updateTransferHook => exact hkeeps
      | _ => trivial
  | createTokenMint => exact Token2022.createTokenMint_keeps h hc
  | callModuleFunction owner complianceState inner ih =>
      obtain ⟨_, -, hinner⟩ := bind_eq_ok.1 h
      exact ih hinner hkeeps

theorem process_pointsTo {i : Instruction} (h : process L signers i = .ok L')
    (hkeeps : KeepsAnchor T i.core) (hK : PointsTo (Token.tokenStateAddress T) C L) :
    PointsTo (Token.tokenStateAddress T) C L' := by
  induction i with
  | token i =>
      refine TokenInstruction.pointsTo h (fun accts newCompliance hi ↦ ?_) hK
      subst hi
      exact hkeeps
  | hook i =>
      have hframe := HookInstruction.frame h
      exact hK.of_frame hframe (by cases i <;> simp [HookInstruction.kinds, hookKinds])
  | compliance i =>
      have hframe := ComplianceInstruction.frame h
      exact hK.of_frame hframe
        (by cases i <;> simp [ComplianceInstruction.kinds, Compliance.PostHook.kinds])
  | module i =>
      have hframe := ModuleInstruction.frame h
      exact hK.of_frame hframe (by cases i <;> simp [ModuleInstruction.kinds])
  | token2022 i => exact hK.of_frame (Token2022.process_frame h) (by decide)
  | createTokenMint => exact hK.of_frame (Factory.frame_createTokenMint h) (by decide)
  | callModuleFunction owner complianceState inner ih =>
      obtain ⟨_, -, hinner⟩ := bind_eq_ok.1 h
      exact ih hinner hkeeps

theorem process_anchored {i : Instruction} (h : process L signers i = .ok L')
    (hexternal : ∀ k ∈ signers, k.External) (hkeeps : KeepsAnchor T i.core)
    (hT : Anchored T L) : Anchored T L' where
  wellFormed := process_wellFormed h hT.wellFormed
  control := process_control h hexternal hkeeps hT.control
  tokenState := process_pointsTo h hkeeps hT.tokenState

omit [Borsh] in
theorem Anchored.of_frame (hT : Anchored T L) (h : Frame S L L') (hmint : AccountKind.mint ∉ S)
    (haccount : AccountKind.tokenAccount ∉ S) (hstate : AccountKind.tokenState ∉ S) :
    Anchored T L' where
  wellFormed := ⟨hT.wellFormed.tokenStates.of_frame h hstate,
    hT.wellFormed.flags.of_frame h haccount⟩
  control := hT.control.of_frame h hmint haccount
  tokenState := PointsTo.of_frame hT.tokenState h hstate

omit [Borsh] in
theorem Anchored.environment (h : Frame environmentKinds L L') (hT : Anchored T L) :
    Anchored T L' :=
  hT.of_frame h (by decide) (by decide) (by decide)

end Process

/-! ## What the anchor says about instructions -/

/-- The token state of `T` is at its address, and points to its compliance state. -/
theorem Anchored.compliance (hT : Anchored T L) {ts : TokenState}
    (hts : L.accounts (Token.tokenStateAddress T) = account ts) :
    ts.tokenMint = T ∧ ts.compliance = Compliance.complianceAddress T := by
  obtain ⟨ts', hts', hcompliance⟩ := hT.tokenState
  obtain rfl := account_inj.1 (hts.symm.trans hts')
  exact ⟨(tokenStateAddress_inj.1 (hT.wellFormed.tokenStates _ _ hts)).symm, hcompliance⟩

/-- A transfer of `T` between two accounts runs the hook and is booked under the
compliance state of `T`. -/
theorem Anchored.transferred {v : Movement} (hT : Anchored T L) (h : Transferred T v L L') :
    Frame aroundKinds L L' ∨ Booked T (Compliance.complianceAddress T) v L L' := by
  cases h with
  | same h => exact .inl h
  | hooked m k ts _ _ _ hts hmint h =>
      have hk := hT.wellFormed.tokenStates k ts hts
      rw [hmint] at hk
      subst hk
      exact .inr ((hT.compliance hts).2 ▸ h)
  | unhooked m hm hhook =>
      obtain ⟨m', hm', -, -, hprogram⟩ := hT.control.mint
      obtain rfl := account_inj.1 (hm.symm.trans hm')
      exact absurd hprogram hhook

/-! ## Deployments -/

namespace Deployment

variable (d : Deployment) {extra : List (Pubkey × Account)}

/-- The accounts of a deployment have the flag of the transfer hook. -/
theorem carried (hextra : ∀ r ∈ extra, r.2.kind ≠ .tokenAccount) :
    Token2022.Carried T (d.ledger extra) := by
  refine d.ledger_forall (P := fun _ acc ↦ ∀ a : TokenAccount, acc = account a → a.mint = T →
    a.transferring.isSome = true) (fun r hr a ha ↦ ?_) (fun r hr a ha ↦ ?_)
    fun _ a ha ↦ absurd ha.symm (account_ne_vacant a)
  · exact absurd (ha ▸ kind_account a) (hextra r hr)
  · rcases d.records_kind hr with hkind | ⟨h, -, rfl⟩
    · simp [ha, kind, recordKinds] at hkind
    · obtain rfl := account_inj.1 ha
      exact fun _ ↦ rfl

theorem anchored (hmint : (d.ledger extra).accounts d.tokenMint = account d.mintRecord)
    (hstate : (d.ledger extra).accounts d.tokenState = account d.tokenStateRecord)
    (hextra : ∀ r ∈ extra, r.2.kind ∉ [.tokenState, .tokenAccount]) :
    Anchored d.tokenMint (d.ledger extra) where
  wellFormed := d.wellFormed
    (fun r hr hkind ↦ hextra r hr (by simp [hkind]))
    fun r hr a ha ↦ absurd (ha ▸ kind_account a ▸ by simp [kind]) (hextra r hr)
  control := ⟨⟨_, hmint, rfl, rfl, rfl⟩,
    d.carried fun r hr hkind ↦ hextra r hr (by simp [hkind])⟩
  tokenState := ⟨_, hstate, rfl⟩

/-- Without holdings nobody has a balance. -/
theorem unheld (hextra : ∀ r ∈ extra, r.2.kind ≠ .tokenAccount)
    (hholdings : ∀ h ∈ d.holdings, h.amount = 0) (k : Pubkey) :
    balance (d.ledger extra) T k = 0 := by
  have hall := d.ledger_forall (P := fun _ acc ↦ ∀ a : TokenAccount, acc = account a → a.amount = 0)
    (fun r hr a ha ↦ absurd (ha ▸ kind_account a) (hextra r hr)) (fun r hr a ha ↦ by
      rcases d.records_kind hr with hkind | ⟨h, hh, rfl⟩
      · simp [ha, kind, recordKinds] at hkind
      · obtain rfl := account_inj.1 ha
        exact hholdings h hh) (fun _ a ha ↦ absurd ha.symm (account_ne_vacant a)) k
  cases hview : (d.ledger extra).view TokenAccount k with
  | none => simp [balance, hview]
  | some a =>
      have hzero := hall a (view_eq_some.1 hview)
      simp [balance, hview, hzero]

end Deployment

end Fracks
