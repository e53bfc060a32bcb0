import Fracks.Bookings
import Fracks.Deployment

/-!
# What holds in every state

Token states are at the addresses derived from their mints, and between the
instructions no token account is in the middle of a transfer, so that the hook
cannot be called directly.
-/

namespace Fracks

open Checked AccountType Ledger TokenHook

/-- Token states are at their addresses. -/
def TokenStatesDerived (L : Ledger) : Prop :=
  ∀ (k : Pubkey) (ts : TokenState), L.accounts k = account ts →
    k = Token.tokenStateAddress ts.tokenMint

structure WellFormed (L : Ledger) : Prop where
  tokenStates : TokenStatesDerived L
  flags : FlagsDown L

variable {L L' : Ledger} {signers : List Pubkey} {S : List AccountKind}

theorem TokenStatesDerived.of_frame (h : TokenStatesDerived L) (hframe : Frame S L L')
    (hS : AccountKind.tokenState ∉ S) : TokenStatesDerived L' := by
  intro k ts hts
  rw [← view_eq_some, hframe.view_eq (α := TokenState) hS, view_eq_some] at hts
  exact h k ts hts

theorem TokenStatesDerived.put {k : Pubkey} {ts : TokenState} (h : TokenStatesDerived L)
    (hk : k = Token.tokenStateAddress ts.tokenMint) : TokenStatesDerived (L.put k ts) := by
  intro x ts' hts'
  by_cases hx : x = k
  · subst hx
    obtain rfl := account_inj.1 (put_accounts_self ts ▸ hts')
    exact hk
  · exact h x ts' (put_accounts_of_ne ts hx ▸ hts')

theorem updateTokenState_derived {accts : Token.OwnerAccounts} {f : TokenState → TokenState}
    (h : Token.updateTokenState L signers accts f = .ok L') (hL : TokenStatesDerived L)
    (hf : ∀ ts, (f ts).tokenMint = ts.tokenMint) : TokenStatesDerived L' := by
  obtain ⟨ts, -, hseeds, rfl⟩ := Token.updateTokenState_ok h
  exact hL.put (by rw [hf, hseeds])

theorem initializeToken_derived {owner tokenState ownerState : Pubkey}
    {args : Token.InitializeTokenArgs}
    (h : Token.initializeToken L signers owner tokenState ownerState args = .ok L')
    (hL : TokenStatesDerived L) : TokenStatesDerived L' := by
  simp only [Token.initializeToken, bind_eq_ok, requireSigner_eq_ok, exists_const] at h
  obtain ⟨-, -, -, L₁, hstate, howner⟩ := h
  obtain ⟨hkey, -, hnew, hother⟩ := initRecord_ok hstate
  have hL₁ : TokenStatesDerived L₁ := by
    intro k ts hts
    by_cases hk : k = tokenState
    · subst hk
      obtain rfl := account_inj.1 (hnew.symm.trans hts)
      exact hkey
    · exact hL k ts (hother k hk ▸ hts)
  exact hL₁.of_frame (S := [.ownerState]) (.initRecord howner (by decide)) (by decide)

variable [Borsh]

theorem TokenInstruction.tokenStates {i : TokenInstruction} (h : i.process L signers = .ok L')
    (hL : TokenStatesDerived L) : TokenStatesDerived L' := by
  cases i with
  | initializeToken => exact initializeToken_derived h hL
  | pause =>
      rw [TokenInstruction.process, Token.pause] at h
      exact updateTokenState_derived h hL fun _ ↦ rfl
  | unpause =>
      rw [TokenInstruction.process, Token.unpause] at h
      exact updateTokenState_derived h hL fun _ ↦ rfl
  | setIdentityRegistry =>
      rw [TokenInstruction.process, Token.setIdentityRegistry] at h
      exact updateTokenState_derived h hL fun _ ↦ rfl
  | setCompliance =>
      rw [TokenInstruction.process, Token.setCompliance] at h
      exact updateTokenState_derived h hL fun _ ↦ rfl
  | _ => exact hL.of_frame (TokenInstruction.frame h) (by simp [TokenInstruction.kinds, hookKinds,
      Irs.identityKinds])

omit [Borsh] in
theorem mintTo_flags {mintKey destination authority : Pubkey} {amount : ℕ} {decimals : Option ℕ}
    (h : Token2022.mintTo L signers mintKey destination authority amount decimals = .ok L')
    (hL : FlagsDown L) : FlagsDown L' :=
  Token2022.process_flags (i := .mintTo mintKey destination authority amount decimals) h hL

theorem issue_flags {ts : TokenState} {accts : Token.ReceiverAccounts} {amount country : ℕ}
    {d : TokenAccount} {L₁ L₂ : Ledger}
    (h : Token.Issue L L' ts accts amount country d L₁ L₂) (hL : FlagsDown L) : FlagsDown L' := by
  obtain ⟨_, hminted⟩ := h.minted
  exact mintTo_flags hminted ((hL.of_frame h.paid (by decide)).of_frame
    (frame_invokeComplianceCreated h.booked) (by decide))

omit [Borsh] in
theorem controllerTransfer_flags {ts : TokenState} {accts : Token.ControllerTransferAccounts}
    {source destination : Pubkey} {amount : ℕ} {s d : TokenAccount} {L₁ L₂ : Ledger}
    (h : Token.ControllerTransfer L L' ts accts source destination amount s d L₁ L₂)
    (hL : FlagsDown L) : FlagsDown L' := by
  obtain ⟨_, _, _, -, -, -, -, happroved⟩ := h.approved
  obtain ⟨_, additional, hmoved⟩ := h.moved
  have hL₁ : FlagsDown L₁ := hL.of_frame (approveTransfer_frame happroved (List.Subset.refl _))
    (by decide)
  have hL₂ : FlagsDown L₂ :=
    Token2022.process_flags (i := .transferChecked _ _ _ _ _ _ _) hmoved hL₁
  exact hL₂.of_frame h.released (by decide)

theorem TokenInstruction.flags {i : TokenInstruction} (h : i.process L signers = .ok L')
    (hL : FlagsDown L) : FlagsDown L' := by
  cases i with
  | mint =>
      obtain ⟨_, _, _, _, _, hissue⟩ := Token.mint_ok h
      exact issue_flags hissue hL
  | purchaseMint =>
      obtain ⟨_, _, _, _, _, hissue⟩ := Token.purchaseMint_ok h
      exact issue_flags hissue hL
  | settleSubscriptionMint =>
      obtain ⟨_, _, _, _, _, _, hissue⟩ := Token.settleSubscriptionMint_ok h
      exact issue_flags hissue hL
  | burn =>
      obtain ⟨_, _, _, _, -, -, hredeemed⟩ := Token.burn_ok h
      obtain ⟨_, hburned⟩ := hredeemed.burned
      exact Token2022.process_flags (i := .burn _ _ _ _ _) hburned
        (hL.of_frame (frame_invokeComplianceDestroyed hredeemed.booked) (by decide))
  | forcedTransfer =>
      obtain ⟨_, _, _, _, _, htransfer, -⟩ := Token.forcedTransfer_ok h
      exact controllerTransfer_flags htransfer hL
  | recovery =>
      obtain ⟨_, _, _, _, htransfer⟩ := Token.recovery_ok h
      exact controllerTransfer_flags htransfer hL
  | _ => exact hL.of_frame (TokenInstruction.frame h) (by simp [TokenInstruction.kinds,
      Irs.identityKinds])

theorem process_wellFormed {i : Instruction} (h : process L signers i = .ok L')
    (hL : WellFormed L) : WellFormed L' := by
  induction i with
  | token i =>
      exact ⟨TokenInstruction.tokenStates h hL.tokenStates, TokenInstruction.flags h hL.flags⟩
  | hook i =>
      have hframe := HookInstruction.frame h
      exact ⟨hL.tokenStates.of_frame hframe
          (by cases i <;> simp [HookInstruction.kinds, hookKinds]),
        hL.flags.of_frame hframe (by cases i <;> simp [HookInstruction.kinds, hookKinds])⟩
  | compliance i =>
      have hframe := ComplianceInstruction.frame h
      exact ⟨hL.tokenStates.of_frame hframe
          (by cases i <;> simp [ComplianceInstruction.kinds, Compliance.PostHook.kinds]),
        hL.flags.of_frame hframe
          (by cases i <;> simp [ComplianceInstruction.kinds, Compliance.PostHook.kinds])⟩
  | module i =>
      have hframe := ModuleInstruction.frame h
      exact ⟨hL.tokenStates.of_frame hframe (by cases i <;> simp [ModuleInstruction.kinds]),
        hL.flags.of_frame hframe (by cases i <;> simp [ModuleInstruction.kinds])⟩
  | token2022 i =>
      exact ⟨hL.tokenStates.of_frame (Token2022.process_frame h) (by decide),
        Token2022.process_flags h hL.flags⟩
  | createTokenMint =>
      have hframe := Factory.frame_createTokenMint h
      exact ⟨hL.tokenStates.of_frame hframe (by decide), hL.flags.of_frame hframe (by decide)⟩
  | callModuleFunction owner complianceState inner ih =>
      obtain ⟨_, -, hinner⟩ := bind_eq_ok.1 h
      exact ih hinner

omit [Borsh] in
/-- A deployment is well formed. -/
theorem Deployment.wellFormed (d : Deployment) {extra : List (Pubkey × Account)}
    (hstates : ∀ r ∈ extra, r.2.kind ≠ .tokenState)
    (hflags : ∀ r ∈ extra, ∀ a : TokenAccount, r.2 = account a → a.transferring ≠ some true) :
    WellFormed (d.ledger extra) := by
  refine ⟨fun k ts hts ↦ ?_, d.flagsDown hflags⟩
  refine d.ledger_forall (P := fun k acc ↦ acc = account ts →
    k = Token.tokenStateAddress ts.tokenMint) (fun r hr hts ↦ ?_) (fun r hr hts ↦ ?_)
    (fun k hk ↦ absurd hk.symm (account_ne_vacant ts)) k hts
  · exact absurd (hts ▸ kind_account ts) (hstates r hr)
  · have hkind : r.2.kind = .tokenState := hts ▸ kind_account ts
    simp only [Deployment.records, List.mem_append, List.mem_map, List.mem_cons,
      List.not_mem_nil, or_false] at hr
    rcases hr with ((rfl | rfl | rfl | rfl | rfl | rfl | rfl | rfl | rfl) | ⟨w, -, rfl⟩) |
      ⟨h, -, rfl⟩
    · obtain rfl := account_inj.1 hts
      rfl
    all_goals simp [kind] at hkind

theorem Step.wellFormed {l : Label} (h : Step L l L') (hL : WellFormed L) : WellFormed L' := by
  cases h with
  | instruction signers i _ h => exact process_wellFormed h hL
  | environment h => exact ⟨hL.tokenStates.of_frame h (by decide), hL.flags.of_frame h (by decide)⟩

end Fracks
