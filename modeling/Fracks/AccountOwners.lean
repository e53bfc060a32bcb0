import Fracks.Footprints

/-!
# Owners of token accounts

A token account keeps its mint for good, and its owner until the owner hands it
over; a new one is empty.
-/

namespace Fracks

open Checked AccountType Ledger TokenHook Token2022

/-- The token account at `x` is handed over to `w`. -/
def Instruction.HandsOver (x w : Pubkey) : Instruction → Prop
  | .token2022 (.setAccountAuthority k _ .accountOwner newAuthority) =>
      k = x ∧ newAuthority = some w
  | _ => False

/-- The instructions of Token-2022 that decide who owns the account at `x`: it is
opened, or handed over. -/
def Token2022.Instruction.Rehomes (x : Pubkey) : Token2022.Instruction → Prop
  | .createTokenAccount _ k _ _ _ => k = x
  | .setAccountAuthority k _ .accountOwner _ => k = x
  | _ => False

def Instruction.Rehomes (x : Pubkey) : Instruction → Prop
  | .token2022 i => i.Rehomes x
  | _ => False

/-- Every token account was there before, with the same mint and owner. -/
def OwnersKept (L L' : Ledger) : Prop :=
  ∀ (x : Pubkey) (a' : TokenAccount), L'.accounts x = account a' →
    ∃ a : TokenAccount, L.accounts x = account a ∧ a'.mint = a.mint ∧ a'.owner = a.owner

/-- Where a token account comes from: it was there with the same mint and owner,
or it has just been created, or it has been handed over. -/
inductive ComesFrom (L : Ledger) (i : Instruction) (x : Pubkey) (a' : TokenAccount) : Prop
  | kept (a : TokenAccount) : L.accounts x = account a → a'.mint = a.mint → a'.owner = a.owner →
      ComesFrom L i x a'
  | opened : L.accounts x = .vacant → a'.amount = 0 → ComesFrom L i x a'
  | handed (a : TokenAccount) : L.accounts x = account a → a'.mint = a.mint →
      a'.amount = a.amount → i.HandsOver x a'.owner → ComesFrom L i x a'

variable {L L' L₁ L₂ : Ledger} {signers : List Pubkey} {S : List AccountKind} {k : Pubkey}

/-! ## Writes -/

theorem OwnersKept.of_frame (h : Frame S L L') (hS : AccountKind.tokenAccount ∉ S) :
    OwnersKept L L' := by
  intro x a' ha'
  rw [← view_eq_some, h.view_eq (α := TokenAccount) hS, view_eq_some] at ha'
  exact ⟨a', ha', rfl, rfl⟩

theorem OwnersKept.trans (h : OwnersKept L L₁) (h' : OwnersKept L₁ L') : OwnersKept L L' := by
  intro x a' ha'
  obtain ⟨a₁, ha₁, hmint', howner'⟩ := h' x a' ha'
  obtain ⟨a, ha, hmint, howner⟩ := h x a₁ ha₁
  exact ⟨a, ha, hmint'.trans hmint, howner'.trans howner⟩

theorem OwnersKept.put {a a' : TokenAccount} (ha : L.accounts k = account a)
    (hmint : a'.mint = a.mint) (howner : a'.owner = a.owner) : OwnersKept L (L.put k a') := by
  intro x b hb
  by_cases hx : x = k
  · subst hx
    obtain rfl := account_inj.1 (put_accounts_self a' ▸ hb)
    exact ⟨a, ha, hmint, howner⟩
  · exact ⟨b, put_accounts_of_ne a' hx ▸ hb, rfl, rfl⟩

theorem OwnersKept.put_pair {source destination : Pubkey} {a b x y : TokenAccount}
    (hne : source ≠ destination) (ha : L.accounts source = account a)
    (hb : L.accounts destination = account b) (hxmint : x.mint = a.mint)
    (hxowner : x.owner = a.owner) (hymint : y.mint = b.mint) (hyowner : y.owner = b.owner) :
    OwnersKept L ((L.put source x).put destination y) := by
  have hb' : (L.put source x).accounts destination = account b := by
    rw [put_accounts_of_ne _ hne.symm, hb]
  exact (OwnersKept.put ha hxmint hxowner).trans (.put hb' hymint hyowner)

theorem OwnersKept.put_mint {m m' : Mint} (hm : L.accounts k = account m) :
    OwnersKept L (L.put k m') := .of_frame (S := [.mint]) (.put hm (by decide)) (by decide)

/-! ## Token-2022 -/

section Token2022

variable {source destination mintKey authority payer owner : Pubkey} {amount : ℕ}

theorem Token2022.mintTo_owners {decimals : Option ℕ}
    (h : mintTo L signers mintKey destination authority amount decimals = .ok L') :
    OwnersKept L L' := by
  obtain ⟨a, m, ha, hm, -, -, -, rfl⟩ := mintTo_ok h
  have hm' : (L.put destination { a with amount := a.amount + amount }).accounts mintKey =
      account m := by rw [put_accounts_of_ne _ (account_ne_mint ha hm).symm, hm]
  have hcredited : OwnersKept L (L.put destination { a with amount := a.amount + amount }) :=
    .put ha rfl rfl
  exact hcredited.trans (.put_mint hm')

theorem Token2022.burn_owners {decimals : Option ℕ}
    (h : burn L signers source mintKey authority amount decimals = .ok L') :
    OwnersKept L L' := by
  obtain ⟨a, a', m, ha, hm, -, -, -, hdebit, rfl⟩ := burn_ok h
  have hm' : (L.put source { a' with amount := a.amount - amount }).accounts mintKey =
      account m := by rw [put_accounts_of_ne _ (account_ne_mint ha hm).symm, hm]
  have hsame : a'.mint = a.mint ∧ a'.owner = a.owner := by
    rcases hdebit with ⟨-, rfl⟩ | hdebit
    · exact ⟨rfl, rfl⟩
    · exact ⟨hdebit.mint, hdebit.owner⟩
  have hdebited : OwnersKept L (L.put source { a' with amount := a.amount - amount }) :=
    .put ha hsame.1 hsame.2
  exact hdebited.trans (.put_mint hm')

theorem Token2022.HookedTransfer.owners {additional : List Pubkey} {program : Pubkey} {m : Mint}
    {a a' b : TokenAccount}
    (h : HookedTransfer L L' signers source mintKey destination authority additional amount program
      m a a' b L₂) : OwnersKept L L' := by
  have hmoved : OwnersKept L
      (movedLedger L source destination (debited a a' amount) (credited b amount)) :=
    .put_pair h.ne h.sourceAt h.destinationAt h.debit.mint h.debit.owner rfl rfl
  have hhooked : OwnersKept
      (movedLedger L source destination (debited a a' amount) (credited b amount)) L₂ :=
    .of_frame (frame_invokeHook h.invoked) (by decide)
  rw [h.result]
  exact (hmoved.trans hhooked).trans
    (.put_pair h.ne h.sourceSeen h.destinationSeen rfl rfl rfl rfl)

theorem Token2022.transferChecked_owners {additional : List Pubkey} {decimals : ℕ}
    (h : transferChecked invokeHook L signers source mintKey destination authority additional amount
      decimals = .ok L') : OwnersKept L L' := by
  rcases transferChecked_ok h with ⟨-, rfl⟩ |
    ⟨m, a, a', b, hne, ha, hb, -, -, -, -, hdebit, -, rfl⟩ | ⟨_, _, _, _, _, _, hhooked⟩
  · exact fun x a ha ↦ ⟨a, ha, rfl, rfl⟩
  · exact .put_pair hne ha hb hdebit.mint hdebit.owner rfl rfl
  · exact hhooked.owners

theorem OwnersKept.comesFrom {i : Instruction} {x : Pubkey} {a' : TokenAccount}
    (h : OwnersKept L L') (ha' : L'.accounts x = account a') : ComesFrom L i x a' := by
  obtain ⟨a, ha, hmint, howner⟩ := h x a' ha'
  exact .kept a ha hmint howner

theorem Token2022.setAccountAuthority_owners {type : AccountAuthority}
    {newAuthority : Option Pubkey}
    (h : setAccountAuthority L signers k authority type newAuthority = .ok L')
    (htype : type ≠ .accountOwner) : OwnersKept L L' := by
  simp only [setAccountAuthority, bind_eq_ok, unpackAccount_eq_ok, require_eq_ok,
    exists_const] at h
  obtain ⟨a, ha, -, h⟩ := h
  cases type with
  | accountOwner => exact absurd rfl htype
  | closeAccount =>
      simp only [bind_eq_ok, validateOwner_eq_ok, exists_const, Except.ok.injEq] at h
      obtain ⟨-, rfl⟩ := h
      exact .put ha rfl rfl

theorem Token2022.setAccountAuthority_comesFrom {type : AccountAuthority}
    {newAuthority : Option Pubkey} {x : Pubkey} {a' : TokenAccount}
    (h : setAccountAuthority L signers k authority type newAuthority = .ok L')
    (ha' : L'.accounts x = account a') :
    ComesFrom L (.token2022 (.setAccountAuthority k authority type newAuthority)) x a' := by
  cases type with
  | accountOwner =>
      simp only [setAccountAuthority, bind_eq_ok, unpackAccount_eq_ok, require_eq_ok,
        validateOwner_eq_ok, okOr_eq_ok, exists_const, Except.ok.injEq] at h
      obtain ⟨a, ha, -, -, -, w, hw, rfl⟩ := h
      by_cases hx : x = k
      · subst hx
        have hnew := ha'.symm.trans (put_accounts_self _)
        obtain rfl := account_inj.1 hnew
        exact .handed a ha rfl rfl ⟨rfl, hw⟩
      · rw [put_accounts_of_ne _ hx] at ha'
        exact .kept a' ha' rfl rfl
  | closeAccount => exact (setAccountAuthority_owners h (by decide)).comesFrom ha'

theorem Token2022.createTokenAccount_comesFrom {i : Fracks.Instruction} {immutableOwner : Bool}
    {x : Pubkey} {a' : TokenAccount}
    (h : createTokenAccount L signers payer k mintKey owner immutableOwner = .ok L')
    (ha' : L'.accounts x = account a') : ComesFrom L i x a' := by
  simp only [createTokenAccount, bind_eq_ok, requireSigner_eq_ok, unpackMint_eq_ok, exists_const,
    Except.ok.injEq] at h
  obtain ⟨-, m, -, L₁, hcreate, rfl⟩ := h
  obtain ⟨hvacant, hother, -⟩ := createAccount_ok hcreate
  by_cases hx : x = k
  · subst hx
    have hnew := ha'.symm.trans (put_accounts_self _)
    obtain rfl := account_inj.1 hnew
    exact .opened hvacant rfl
  · rw [put_accounts_of_ne _ hx, hother x hx] at ha'
    exact .kept a' ha' rfl rfl

/-- All others keep the owner of every account. -/
theorem Token2022.process_owners {i : Token2022.Instruction}
    (h : Token2022.process L signers i = .ok L') (hi : ∀ x, ¬ i.Rehomes x) :
    OwnersKept L L' := by
  cases i with
  | createMint payer k mint =>
      simp only [process, createMint, bind_eq_ok, requireSigner_eq_ok, exists_const,
        Except.ok.injEq] at h
      obtain ⟨-, L₁, hcreate, rfl⟩ := h
      exact .of_frame (S := [.mint]) (.create hcreate (by decide)) (by decide)
  | createTokenAccount _ k => exact absurd rfl (hi k)
  | approve source delegate authority amount =>
      simp only [process, approve, bind_eq_ok, unpackAccount_eq_ok, require_eq_ok,
        validateOwner_eq_ok, exists_const, Except.ok.injEq] at h
      obtain ⟨a, ha, -, -, rfl⟩ := h
      exact .put ha rfl rfl
  | revoke source authority =>
      simp only [process, revoke, bind_eq_ok, unpackAccount_eq_ok, validateOwner_eq_ok,
        exists_const, Except.ok.injEq] at h
      obtain ⟨a, ha, -, rfl⟩ := h
      exact .put ha rfl rfl
  | closeAccount k destination authority =>
      obtain ⟨a, ha, -, rfl⟩ := closeAccount_ok h
      intro x a' ha'
      have hx : x ≠ k := by
        rintro rfl
        exact account_ne_vacant a' (ha'.symm.trans (close_vacant x destination))
      exact ⟨a', setAccount_accounts_of_ne .vacant hx ▸ ha', rfl, rfl⟩
  | setAccountAuthority k authority type newAuthority =>
      refine setAccountAuthority_owners h ?_
      rintro rfl
      exact absurd rfl (hi k)
  | setFrozen k mintKey authority frozen =>
      simp only [process, setFrozen, bind_eq_ok, unpackAccount_eq_ok, unpackMint_eq_ok,
        require_eq_ok, okOr_eq_ok, validateOwner_eq_ok, exists_const, Except.ok.injEq] at h
      obtain ⟨a, ha, -, -, _, -, _, -, -, rfl⟩ := h
      exact .put ha rfl rfl
  | setMintAuthority =>
      obtain ⟨m, m', hm, -⟩ := setMintAuthority_ok h
      rw [hm.result]
      exact .put_mint hm.before
  | updateTransferHook =>
      obtain ⟨m, m', hm⟩ := updateTransferHook_ok h
      rw [hm.result]
      exact .put_mint hm.before
  | mintTo => exact mintTo_owners h
  | burn => exact burn_owners h
  | transferChecked => exact transferChecked_owners h
  | transfer source destination authority amount =>
      rcases transfer_ok h with ⟨-, rfl⟩ | ⟨a, a', b, hne, ha, hb, -, -, -, hdebit, rfl⟩
      · exact fun x a ha ↦ ⟨a, ha, rfl, rfl⟩
      · exact .put_pair hne ha hb hdebit.mint hdebit.owner rfl rfl

/-- Nor do those change the owner of any other account. -/
theorem Token2022.process_ownerKept {i : Token2022.Instruction} {x : Pubkey} {a' : TokenAccount}
    (h : Token2022.process L signers i = .ok L') (hx : ¬ i.Rehomes x)
    (ha' : L'.accounts x = account a') :
    ∃ a : TokenAccount, L.accounts x = account a ∧ a'.mint = a.mint ∧ a'.owner = a.owner := by
  cases i with
  | createTokenAccount payer k =>
      have hne : x ≠ k := Ne.symm hx
      simp only [process, createTokenAccount, bind_eq_ok, requireSigner_eq_ok, unpackMint_eq_ok,
        exists_const, Except.ok.injEq] at h
      obtain ⟨-, m, -, L₁, hcreate, rfl⟩ := h
      obtain ⟨-, hother, -⟩ := createAccount_ok hcreate
      rw [put_accounts_of_ne _ hne, hother x hne] at ha'
      exact ⟨a', ha', rfl, rfl⟩
  | setAccountAuthority k authority type newAuthority =>
      cases type with
      | accountOwner =>
          have hne : x ≠ k := Ne.symm hx
          simp only [process, setAccountAuthority, bind_eq_ok, Except.ok.injEq] at h
          obtain ⟨a, -, _, -, _, -, _, -, w, -, rfl⟩ := h
          rw [put_accounts_of_ne _ hne] at ha'
          exact ⟨a', ha', rfl, rfl⟩
      | closeAccount =>
          simp only [process] at h
          exact setAccountAuthority_owners h (by decide) x a' ha'
  | _ => exact process_owners h (fun _ ↦ not_false) x a' ha'

theorem Token2022.process_comesFrom {i : Token2022.Instruction} {x : Pubkey} {a' : TokenAccount}
    (h : Token2022.process L signers i = .ok L') (ha' : L'.accounts x = account a') :
    ComesFrom L (.token2022 i) x a' := by
  cases i with
  | createTokenAccount => exact createTokenAccount_comesFrom h ha'
  | setAccountAuthority => exact setAccountAuthority_comesFrom h ha'
  | _ => exact (process_owners h fun _ ↦ not_false).comesFrom ha'

end Token2022

/-! ## Any instruction -/

section Process

variable [Borsh]

theorem Token.Issue.owners {ts : TokenState} {accts : Token.ReceiverAccounts} {amount country : ℕ}
    {d : TokenAccount} (h : Token.Issue L L' ts accts amount country d L₁ L₂) :
    OwnersKept L L' := by
  obtain ⟨_, hminted⟩ := h.minted
  exact ((OwnersKept.of_frame h.paid (by decide)).trans
    (.of_frame (frame_invokeComplianceCreated h.booked) (by decide))).trans (mintTo_owners hminted)

omit [Borsh] in
theorem Token.ControllerTransfer.owners {ts : TokenState}
    {accts : Token.ControllerTransferAccounts} {source destination : Pubkey} {amount : ℕ}
    {s d : TokenAccount}
    (h : Token.ControllerTransfer L L' ts accts source destination amount s d L₁ L₂) :
    OwnersKept L L' := by
  obtain ⟨_, _, _, -, -, -, -, happroved⟩ := h.approved
  obtain ⟨_, _, hmoved⟩ := h.moved
  have hfirst : OwnersKept L L₁ :=
    .of_frame (approveTransfer_frame happroved (List.Subset.refl _)) (by decide)
  exact (hfirst.trans (transferChecked_owners hmoved)).trans (.of_frame h.released (by decide))

theorem TokenInstruction.owners {j : TokenInstruction} (h : j.process L signers = .ok L') :
    OwnersKept L L' := by
  cases j with
  | mint =>
      obtain ⟨_, _, _, _, _, hissue⟩ := Token.mint_ok h
      exact hissue.owners
  | purchaseMint =>
      obtain ⟨_, _, _, _, _, hissue⟩ := Token.purchaseMint_ok h
      exact hissue.owners
  | settleSubscriptionMint =>
      obtain ⟨_, _, _, _, _, _, hissue⟩ := Token.settleSubscriptionMint_ok h
      exact hissue.owners
  | burn =>
      obtain ⟨_, _, _, _, -, -, hredeemed⟩ := Token.burn_ok h
      obtain ⟨_, hburned⟩ := hredeemed.burned
      have hbooked := frame_invokeComplianceDestroyed hredeemed.booked
      exact (OwnersKept.of_frame hbooked (by decide)).trans (burn_owners hburned)
  | forcedTransfer =>
      obtain ⟨_, _, _, _, _, htransfer, -⟩ := Token.forcedTransfer_ok h
      exact htransfer.owners
  | recovery =>
      obtain ⟨_, _, _, _, htransfer⟩ := Token.recovery_ok h
      exact htransfer.owners
  | _ => exact .of_frame (TokenInstruction.frame h) (by simp [TokenInstruction.kinds,
      Irs.identityKinds])

/-- All owners are kept by everything but a direct instruction of Token-2022. -/
theorem process_owners {i : Instruction} (h : process L signers i = .ok L') :
    OwnersKept L L' ∨
      ∃ j, i.core = .token2022 j ∧ Token2022.process L signers j = .ok L' := by
  induction i with
  | token j => exact .inl (TokenInstruction.owners h)
  | token2022 j => exact .inr ⟨j, rfl, h⟩
  | hook j =>
      have hframe := HookInstruction.frame h
      exact .inl (.of_frame hframe (by cases j <;> simp [HookInstruction.kinds, hookKinds]))
  | compliance j =>
      have hframe := ComplianceInstruction.frame h
      exact .inl (.of_frame hframe
        (by cases j <;> simp [ComplianceInstruction.kinds, Compliance.PostHook.kinds]))
  | module j =>
      have hframe := ModuleInstruction.frame h
      exact .inl (.of_frame hframe (by cases j <;> simp [ModuleInstruction.kinds]))
  | createTokenMint => exact .inl (.of_frame (Factory.frame_createTokenMint h) (by decide))
  | callModuleFunction owner complianceState inner ih =>
      obtain ⟨_, -, hinner⟩ := bind_eq_ok.1 h
      exact ih hinner

/-- Where every token account comes from. -/
theorem process_comesFrom {i : Instruction} {x : Pubkey} {a' : TokenAccount}
    (h : process L signers i = .ok L') (ha' : L'.accounts x = account a') :
    ComesFrom L i.core x a' := by
  rcases process_owners h with hkept | ⟨j, hj, hprocess⟩
  · exact hkept.comesFrom ha'
  · rw [hj]
    exact Token2022.process_comesFrom hprocess ha'

/-- An account keeps its owner unless it is the one that is opened or handed
over. -/
theorem process_ownerKept {i : Instruction} {x : Pubkey} {a' : TokenAccount}
    (h : process L signers i = .ok L') (hx : ¬ i.core.Rehomes x)
    (ha' : L'.accounts x = account a') :
    ∃ a : TokenAccount, L.accounts x = account a ∧ a'.mint = a.mint ∧ a'.owner = a.owner := by
  rcases process_owners h with hkept | ⟨j, hj, hprocess⟩
  · exact hkept x a' ha'
  · rw [hj] at hx
    exact Token2022.process_ownerKept hprocess hx ha'

end Process

end Fracks
