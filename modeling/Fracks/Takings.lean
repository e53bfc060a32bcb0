import Fracks.OperatorAuthority
import Fracks.Receipts

/-!
# Who can take tokens

What an account holds of a token is at the disposal of its owner and its delegate, and of those
who operate the token: its owner, its agents, and whoever may replace its hook.  As long as none
of them signs, the account keeps its owner and its tokens, whatever the others do.
-/

namespace Fracks

open Checked AccountType Ledger TokenHook Token2022 Runs

/-- The keys that have signed a step. -/
def Label.signers : Label → List Pubkey
  | .instruction signers _ => signers
  | .environment => []

/-- The key that may replace the hook program of a mint. -/
def transferHookAuthority (L : Ledger) (T : Pubkey) : Option Pubkey :=
  (L.view Mint T).bind fun m ↦ m.transferHook.bind TransferHook.authority

/-- The keys with a say over the tokens of `T` in the account `s`. -/
inductive HasSay (T : Pubkey) (s : TokenAccount) (L : Ledger) : Pubkey → Prop
  | holder : HasSay T s L s.owner
  | delegate {a : Pubkey} : s.delegate = some a → HasSay T s L a
  | owner {a : Pubkey} : OwnerIs T a L → HasSay T s L a
  | agent {a : Pubkey} : AgentOf T a L → HasSay T s L a
  | hook {a : Pubkey} : transferHookAuthority L T = some a → HasSay T s L a

/-- The account at `x` is still that of `s`, with at least as many tokens of `T`. -/
def Holds (T x : Pubkey) (s : TokenAccount) (L : Ledger) : Prop :=
  ∃ a : TokenAccount, L.accounts x = account a ∧ a.mint = T ∧ a.owner = s.owner ∧
    a.delegate = s.delegate ∧ s.amount ≤ a.amount

variable {L L' L₁ L₂ : Ledger} {T x k : Pubkey} {s : TokenAccount} {signers : List Pubkey}
  {S : List AccountKind} {l : Label}

/-! ## The hook authority -/

theorem transferHookAuthority_frame (h : Frame S L L') (hS : AccountKind.mint ∉ S) :
    transferHookAuthority L' T = transferHookAuthority L T := by
  rw [transferHookAuthority, h.view_eq hS, transferHookAuthority]

theorem transferHookAuthority_of_account {m : Mint} (h : L.accounts T = account m) :
    transferHookAuthority L T = m.transferHook.bind TransferHook.authority := by
  rw [transferHookAuthority, view_eq_some.2 h, Option.bind_some]

/-- A mint rewritten with the same hook authority. -/
theorem transferHookAuthority_put {m m' : Mint} (hm : L.accounts k = account m)
    (hsame : k = T → m'.transferHook.bind TransferHook.authority =
      m.transferHook.bind TransferHook.authority) :
    transferHookAuthority (L.put k m') T = transferHookAuthority L T := by
  by_cases hk : k = T
  · subst hk
    rw [transferHookAuthority_of_account (put_accounts_self m'),
      transferHookAuthority_of_account hm, hsame rfl]
  · have hsame : (L.put k m').accounts T = L.accounts T := put_accounts_of_ne m' (Ne.symm hk)
    rw [transferHookAuthority, view, hsame, transferHookAuthority, view]

theorem transferHookAuthority_put_account {a a' : TokenAccount} (ha : L.accounts k = account a) :
    transferHookAuthority (L.put k a') T = transferHookAuthority L T :=
  transferHookAuthority_frame (S := [.tokenAccount]) (.put ha (by decide)) (by decide)

section Token2022

variable {source destination mintKey authority payer owner : Pubkey} {amount : ℕ}

theorem mintTo_transferHookAuthority {decimals : Option ℕ}
    (h : mintTo L signers mintKey destination authority amount decimals = .ok L') :
    transferHookAuthority L' T = transferHookAuthority L T := by
  obtain ⟨a, m, ha, hm, -, -, -, rfl⟩ := mintTo_ok h
  have hm' : (L.put destination { a with amount := a.amount + amount }).accounts mintKey =
      account m := by rw [put_accounts_of_ne _ (account_ne_mint ha hm).symm, hm]
  apply Eq.trans (transferHookAuthority_put hm' _) (transferHookAuthority_put_account ha)
  exact fun _ ↦ rfl

theorem burn_transferHookAuthority {decimals : Option ℕ}
    (h : Token2022.burn L signers source mintKey authority amount decimals = .ok L') :
    transferHookAuthority L' T = transferHookAuthority L T := by
  obtain ⟨a, a', m, ha, hm, -, -, -, -, rfl⟩ := burn_ok h
  have hm' : (L.put source { a' with amount := a.amount - amount }).accounts mintKey =
      account m := by rw [put_accounts_of_ne _ (account_ne_mint ha hm).symm, hm]
  apply Eq.trans (transferHookAuthority_put hm' _) (transferHookAuthority_put_account ha)
  exact fun _ ↦ rfl

/-- Only the hook authority hands itself over. -/
theorem setMintAuthority_transferHookAuthority {type : MintAuthority} {newAuthority : Option Pubkey}
    (h : setMintAuthority L signers k authority type newAuthority = .ok L')
    (hsilent : ∀ a ∈ signers, transferHookAuthority L T ≠ some a) :
    transferHookAuthority L' T = transferHookAuthority L T := by
  simp only [setMintAuthority, bind_eq_ok, unpackMint_eq_ok] at h
  obtain ⟨m, hm, h⟩ := h
  cases type with
  | mintTokens =>
      simp only [bind_eq_ok, okOr_eq_ok, Except.ok.injEq] at h
      obtain ⟨_, -, _, -, rfl⟩ := h
      exact transferHookAuthority_put hm fun _ ↦ rfl
  | freezeAccount =>
      simp only [bind_eq_ok, okOr_eq_ok, Except.ok.injEq] at h
      obtain ⟨_, -, _, -, rfl⟩ := h
      exact transferHookAuthority_put hm fun _ ↦ rfl
  | transferHookProgramId =>
      simp only [bind_eq_ok, okOr_eq_ok, validateOwner_eq_ok, exists_const, Except.ok.injEq] at h
      obtain ⟨hook, hhook, current, hcurrent, ⟨rfl, hsigned⟩, rfl⟩ := h
      apply transferHookAuthority_put hm
      rintro rfl
      have hauthority : transferHookAuthority L k = some current := by
        rw [transferHookAuthority_of_account hm, hhook]
        exact hcurrent
      exact absurd hauthority (hsilent _ hsigned)
  | permanentDelegate =>
      simp only [bind_eq_ok, okOr_eq_ok, Except.ok.injEq] at h
      obtain ⟨_, -, _, -, _, -, rfl⟩ := h
      exact transferHookAuthority_put hm fun _ ↦ rfl

theorem updateTransferHook_transferHookAuthority {newProgram : Option Pubkey}
    (h : updateTransferHook L signers k authority newProgram = .ok L') :
    (∀ T, transferHookAuthority L' T = transferHookAuthority L T) ∧
      ∃ a ∈ signers, transferHookAuthority L k = some a := by
  simp only [updateTransferHook, bind_eq_ok, unpackMint_eq_ok, okOr_eq_ok, validateOwner_eq_ok,
    require_eq_ok, exists_const, Except.ok.injEq] at h
  obtain ⟨m, hm, hook, hhook, current, hcurrent, ⟨rfl, hsigned⟩, -, rfl⟩ := h
  constructor
  · intro T
    apply transferHookAuthority_put hm
    intro _
    rw [hhook]
    rfl
  · refine ⟨current, hsigned, ?_⟩
    rw [transferHookAuthority_of_account hm, hhook]
    exact hcurrent

theorem Token2022.process_transferHookAuthority {j : Token2022.Instruction}
    (h : Token2022.process L signers j = .ok L') {m : Mint} (hm : L.accounts T = account m)
    (hsilent : ∀ a ∈ signers, transferHookAuthority L T ≠ some a) :
    transferHookAuthority L' T = transferHookAuthority L T := by
  cases j with
  | createMint payer k mint =>
      simp only [process, createMint, bind_eq_ok, requireSigner_eq_ok, exists_const,
        Except.ok.injEq] at h
      obtain ⟨-, L₁, hcreate, rfl⟩ := h
      obtain ⟨hvacant, hother, -⟩ := createAccount_ok hcreate
      have hne : T ≠ k := by
        rintro rfl
        exact account_ne_vacant m (hm.symm.trans hvacant)
      have hm' := (put_accounts_of_ne { mint with supply := 0, isInitialized := true } hne).trans
        ((hother T hne).trans hm)
      rw [transferHookAuthority_of_account hm', transferHookAuthority_of_account hm]
  | setMintAuthority => exact setMintAuthority_transferHookAuthority h hsilent
  | updateTransferHook => exact (updateTransferHook_transferHookAuthority h).1 T
  | mintTo => exact mintTo_transferHookAuthority h
  | burn => exact burn_transferHookAuthority h
  | transferChecked => exact transferHookAuthority_frame (frame_transferChecked h) (by decide)
  | transfer =>
      rcases transfer_ok h with ⟨-, rfl⟩ | ⟨_, _, _, hne, ha, hb, -, -, -, -, rfl⟩
      · rfl
      · exact transferHookAuthority_frame (frame_put_pair hne ha hb) (by decide)
  | createTokenAccount =>
      simp only [process, createTokenAccount, bind_eq_ok, requireSigner_eq_ok, exists_const,
        Except.ok.injEq] at h
      obtain ⟨-, _, -, L₁, hcreate, rfl⟩ := h
      exact transferHookAuthority_frame (S := [.tokenAccount]) (.create hcreate (by decide))
        (by decide)
  | approve =>
      obtain ⟨_, _, hrewritten⟩ := approve_ok h
      rw [hrewritten.result, transferHookAuthority_put_account hrewritten.before]
  | revoke =>
      obtain ⟨_, _, hrewritten⟩ := revoke_ok h
      rw [hrewritten.result, transferHookAuthority_put_account hrewritten.before]
  | setAccountAuthority =>
      obtain ⟨_, _, hrewritten⟩ := setAccountAuthority_ok h
      rw [hrewritten.result, transferHookAuthority_put_account hrewritten.before]
  | setFrozen =>
      obtain ⟨_, _, hrewritten⟩ := setFrozen_ok h
      rw [hrewritten.result, transferHookAuthority_put_account hrewritten.before]
  | closeAccount =>
      obtain ⟨a, ha, -, rfl⟩ := closeAccount_ok h
      exact transferHookAuthority_frame (S := [.tokenAccount]) (.close ha (by decide)) (by decide)

end Token2022

section Process

variable [Borsh]

theorem TokenInstruction.transferHookAuthority {j : TokenInstruction}
    (h : j.process L signers = .ok L') :
    Fracks.transferHookAuthority L' T = Fracks.transferHookAuthority L T := by
  have hissued : ∀ {ts accts n country d L₁ L₂}, Token.Issue L L' ts accts n country d L₁ L₂ →
      Fracks.transferHookAuthority L' T = Fracks.transferHookAuthority L T := by
    intro ts accts n country d L₁ L₂ hissue
    obtain ⟨_, hminted⟩ := hissue.minted
    rw [mintTo_transferHookAuthority hminted,
      transferHookAuthority_frame (frame_invokeComplianceCreated hissue.booked) (by decide),
      transferHookAuthority_frame hissue.paid (by decide)]
  cases j with
  | mint =>
      obtain ⟨_, _, _, _, _, hissue⟩ := Token.mint_ok h
      exact hissued hissue
  | purchaseMint =>
      obtain ⟨_, _, _, _, _, hissue⟩ := Token.purchaseMint_ok h
      exact hissued hissue
  | settleSubscriptionMint =>
      obtain ⟨_, _, _, _, _, _, hissue⟩ := Token.settleSubscriptionMint_ok h
      exact hissued hissue
  | burn =>
      obtain ⟨_, _, _, _, -, -, hredeemed⟩ := Token.burn_ok h
      obtain ⟨_, hburned⟩ := hredeemed.burned
      rw [burn_transferHookAuthority hburned,
        transferHookAuthority_frame (frame_invokeComplianceDestroyed hredeemed.booked) (by decide)]
  | _ =>
      exact transferHookAuthority_frame (TokenInstruction.frame h)
        (by simp [TokenInstruction.kinds, Irs.identityKinds, hookKinds])

/-- An instruction without the signature of the hook authority leaves it in place. -/
theorem process_transferHookAuthority {i : Instruction} (h : process L signers i = .ok L')
    {m : Mint} (hm : L.accounts T = account m)
    (hsilent : ∀ a ∈ signers, transferHookAuthority L T ≠ some a) :
    transferHookAuthority L' T = transferHookAuthority L T := by
  induction i with
  | token i => exact TokenInstruction.transferHookAuthority h
  | token2022 i => exact Token2022.process_transferHookAuthority h hm hsilent
  | hook i =>
      exact transferHookAuthority_frame (HookInstruction.frame h)
        (by cases i <;> simp [HookInstruction.kinds, hookKinds])
  | compliance i =>
      exact transferHookAuthority_frame (ComplianceInstruction.frame h)
        (by cases i <;> simp [ComplianceInstruction.kinds, Compliance.PostHook.kinds])
  | module i =>
      exact transferHookAuthority_frame (ModuleInstruction.frame h)
        (by cases i <;> simp [ModuleInstruction.kinds])
  | createTokenMint accts =>
      obtain ⟨hvacant, -, hother⟩ := Factory.createTokenMint_ok h
      have hne : T ≠ accts.tokenMintAccount := by
        rintro rfl
        exact account_ne_vacant m (hm.symm.trans hvacant)
      rw [transferHookAuthority_of_account ((hother T hne).trans hm),
        transferHookAuthority_of_account hm]
  | callModuleFunction owner complianceState inner ih =>
      obtain ⟨_, -, hinner⟩ := bind_eq_ok.1 h
      exact ih hinner

/-- Without that signature the hook program stays. -/
theorem process_keepsHook {i : Instruction} (h : process L signers i = .ok L')
    (hsilent : ∀ a ∈ signers, transferHookAuthority L T ≠ some a) : KeepsHook T i.core := by
  have hcore := process_core h
  generalize i.core = j at hcore
  cases j with
  | token2022 j =>
      cases j with
      | updateTransferHook =>
          rintro rfl
          obtain ⟨a, hsigned, ha⟩ := (updateTransferHook_transferHookAuthority hcore).2
          exact absurd ha (hsilent a hsigned)
      | _ => trivial
  | _ => trivial

end Process

/-! ## An account that keeps its tokens -/

section Holds

variable {source destination mintKey authority K : Pubkey} {amount : ℕ} {additional : List Pubkey}
  {decimals : ℕ}

theorem holds_self {a : TokenAccount} (ha : L.accounts x = account a) (hmint : a.mint = T) :
    Holds T x a L :=
  ⟨a, ha, hmint, rfl, rfl, le_rfl⟩

theorem Holds.of_frame (h : Holds T x s L) (hframe : Frame S L L')
    (hS : AccountKind.tokenAccount ∉ S) : Holds T x s L' := by
  obtain ⟨a, ha, hrest⟩ := h
  exact ⟨a, hframe.accounts_eq hS ha, hrest⟩

theorem Holds.congr (h : Holds T x s L) (hx : L'.accounts x = L.accounts x) : Holds T x s L' := by
  obtain ⟨a, ha, hrest⟩ := h
  exact ⟨a, hx.trans ha, hrest⟩

/-- Writing a token account: another one, or this one with no less in it. -/
theorem Holds.rewrite {b b' : TokenAccount} (h : Holds T x s L) (hb : L.accounts k = account b)
    (hsame : k = x → b'.mint = b.mint ∧ b'.owner = b.owner ∧ b'.delegate = b.delegate ∧
      b.amount ≤ b'.amount) : Holds T x s (L.put k b') := by
  by_cases hk : k = x
  · subst hk
    obtain ⟨a, ha, hmint, howner, hdelegate, hle⟩ := h
    obtain rfl := account_inj.1 (ha.symm.trans hb)
    obtain ⟨hmint', howner', hdelegate', hle'⟩ := hsame rfl
    exact ⟨b', put_accounts_self b', hmint'.trans hmint, howner'.trans howner,
      hdelegate'.trans hdelegate, hle.trans hle'⟩
  · exact h.congr (put_accounts_of_ne b' (Ne.symm hk))

theorem Holds.put_mint {m m' : Mint} (h : Holds T x s L) (hm : L.accounts k = account m) :
    Holds T x s (L.put k m') :=
  h.of_frame (S := [.mint]) (.put hm (by decide)) (by decide)

/-- The account of another mint is another account. -/
theorem Holds.ne_of_mint {b : TokenAccount} (h : Holds T x s L) (hb : L.accounts k = account b)
    (hmint : b.mint ≠ T) : k ≠ x := by
  rintro rfl
  obtain ⟨a, ha, hT, -⟩ := h
  obtain rfl := account_inj.1 (ha.symm.trans hb)
  exact hmint hT

theorem Holds.minted {decimals : Option ℕ} (h : Holds T x s L)
    (hminted : mintTo L signers mintKey destination authority amount decimals = .ok L') :
    Holds T x s L' := by
  obtain ⟨b, m, hb, hm, -, -, -, rfl⟩ := mintTo_ok hminted
  have hm' : (L.put destination { b with amount := b.amount + amount }).accounts mintKey =
      account m := by rw [put_accounts_of_ne _ (account_ne_mint hb hm).symm, hm]
  have hcredited : Holds T x s (L.put destination { b with amount := b.amount + amount }) :=
    h.rewrite hb fun _ ↦ ⟨rfl, rfl, rfl, Nat.le_add_right _ _⟩
  exact hcredited.put_mint hm'

theorem Holds.burned {decimals : Option ℕ} (h : Holds T x s L) (hsource : source ≠ x)
    (hburned : Token2022.burn L signers source mintKey authority amount decimals = .ok L') :
    Holds T x s L' := by
  obtain ⟨b, b', m, hb, hm, -, -, -, -, rfl⟩ := burn_ok hburned
  have hm' : (L.put source { b' with amount := b.amount - amount }).accounts mintKey =
      account m := by rw [put_accounts_of_ne _ (account_ne_mint hb hm).symm, hm]
  have hdebited : Holds T x s (L.put source { b' with amount := b.amount - amount }) :=
    h.rewrite hb fun hx ↦ absurd hx hsource
  exact hdebited.put_mint hm'

/-- The two accounts of a transfer from another account. -/
theorem Holds.put_pair {b b' c c' : TokenAccount} (h : Holds T x s L) (hsource : source ≠ x)
    (hne : source ≠ destination) (hb : L.accounts source = account b)
    (hc : L.accounts destination = account c)
    (hsame : c'.mint = c.mint ∧ c'.owner = c.owner ∧ c'.delegate = c.delegate ∧
      c.amount ≤ c'.amount) :
    Holds T x s ((L.put source b').put destination c') := by
  have hdebited : Holds T x s (L.put source b') := h.rewrite hb fun hx ↦ absurd hx hsource
  have hc' : (L.put source b').accounts destination = account c := by
    rw [put_accounts_of_ne _ hne.symm, hc]
  exact hdebited.rewrite hc' fun _ ↦ hsame

theorem Holds.transferred (h : Holds T x s L) (hsource : source ≠ x)
    (htransfer : transferChecked invokeHook L signers source mintKey destination authority
      additional amount decimals = .ok L') : Holds T x s L' := by
  rcases transferChecked_ok htransfer with ⟨-, rfl⟩ |
    ⟨m, b, b', c, hne, hb, hc, -, -, -, -, -, -, rfl⟩ | ⟨program, m, b, b', c, L₂, hhooked⟩
  · exact h
  · exact h.put_pair hsource hne hb hc ⟨rfl, rfl, rfl, Nat.le_add_right _ _⟩
  · have hmoved : Holds T x s
        (movedLedger L source destination (debited b b' amount) (credited c amount)) :=
      h.put_pair hsource hhooked.ne hhooked.sourceAt hhooked.destinationAt
        ⟨rfl, rfl, rfl, Nat.le_add_right _ _⟩
    have hinvoked : Holds T x s L₂ := hmoved.of_frame (frame_invokeHook hhooked.invoked) (by decide)
    rw [hhooked.result]
    exact hinvoked.put_pair hsource hhooked.ne hhooked.sourceSeen hhooked.destinationSeen
      ⟨rfl, rfl, rfl, le_rfl⟩

/-- Without the owner, the delegate and the permanent delegate nothing is debited. -/
theorem Holds.not_debited {m : Mint} {b b' : TokenAccount} (h : Holds T x s L)
    (hb : L.accounts x = account b)
    (hdebit : Debit signers m.permanentDelegate.join authority b b')
    (hpermanent : ∀ a ∈ signers, m.permanentDelegate ≠ some (some a)) (howner : s.owner ∉ signers)
    (hdelegate : ∀ a ∈ signers, s.delegate ≠ some a) : False := by
  obtain ⟨a, ha, -, hsame, hdelegated, -⟩ := h
  obtain rfl := account_inj.1 (ha.symm.trans hb)
  rcases hdebit.authorized with hauthorized | hauthorized | hauthorized
  · exact hpermanent _ hdebit.signed (Option.join_eq_some_iff.1 hauthorized)
  · exact hdelegate _ hdebit.signed (hdelegated.symm.trans hauthorized)
  · rw [hsame] at hauthorized
    exact howner (hauthorized ▸ hdebit.signed)

/-- Under control, an instruction of Token-2022 signed neither by the owner nor by the delegate
leaves the account its tokens. -/
theorem Holds.token2022 {j : Token2022.Instruction} (h : Holds T x s L)
    (hprocess : Token2022.process L signers j = .ok L') (hT : InControl T K L)
    (hpos : 0 < s.amount) (hsystem : ¬ ownedBySystemOrIncinerator s) (hK : K ∉ signers)
    (howner : s.owner ∉ signers) (hdelegate : ∀ a ∈ signers, s.delegate ≠ some a) :
    Holds T x s L' := by
  obtain ⟨a, ha, hmint, hsame, hdelegated, hle⟩ := id h
  obtain ⟨m₀, hm₀, -, hpermanent, -⟩ := hT.mint
  have hvacant : ∀ {k}, L.accounts k = .vacant → x ≠ k := by
    rintro k hk rfl
    exact account_ne_vacant a (ha.symm.trans hk)
  have hdebited : ∀ {authority : Pubkey} {b b' : TokenAccount} {m : Mint},
      L.accounts x = account b → L.accounts T = account m →
        ¬ Debit signers m.permanentDelegate.join authority b b' := by
    intro authority b b' m hb hm hdebit
    obtain rfl := account_inj.1 (hm₀.symm.trans hm)
    apply h.not_debited hb hdebit _ howner hdelegate
    intro c hc hpermanent'
    rw [hpermanent] at hpermanent'
    obtain rfl := Option.some.inj (Option.some.inj hpermanent')
    exact hK hc
  have hsaid : ∀ {b : TokenAccount}, L.accounts x = account b → b.owner ∉ signers ∧
      ∀ c ∈ signers, b.delegate ≠ some c := by
    intro b hb
    obtain rfl := account_inj.1 (ha.symm.trans hb)
    exact ⟨hsame ▸ howner, hdelegated ▸ hdelegate⟩
  cases j with
  | createMint payer k mint =>
      simp only [Token2022.process, createMint, bind_eq_ok, requireSigner_eq_ok, exists_const,
        Except.ok.injEq] at hprocess
      obtain ⟨-, L₁, hcreate, rfl⟩ := hprocess
      exact h.of_frame (S := [.mint]) (.create hcreate (by decide)) (by decide)
  | createTokenAccount payer k mintKey owner immutableOwner =>
      obtain ⟨-, hother, hfree, -⟩ := createTokenAccount_ok hprocess
      exact h.congr (hother x (hvacant hfree))
  | approve source delegate authority amount =>
      simp only [Token2022.process, approve, bind_eq_ok, unpackAccount_eq_ok, require_eq_ok,
        validateOwner_eq_ok, exists_const, Except.ok.injEq] at hprocess
      obtain ⟨b, hb, -, ⟨rfl, hsigned⟩, rfl⟩ := hprocess
      apply h.rewrite hb
      rintro rfl
      exact absurd hsigned (hsaid hb).1
  | revoke source authority =>
      simp only [Token2022.process, revoke, bind_eq_ok, unpackAccount_eq_ok, validateOwner_eq_ok,
        exists_const, Except.ok.injEq] at hprocess
      obtain ⟨b, hb, ⟨hauthority, hsigned⟩, rfl⟩ := hprocess
      apply h.rewrite hb
      rintro rfl
      split at hauthority
      case isTrue hrevoked => exact absurd hrevoked ((hsaid hb).2 _ hsigned)
      case isFalse => exact absurd (hauthority ▸ hsigned) (hsaid hb).1
  | closeAccount k destination authority =>
      obtain ⟨b, hb, hzero, rfl⟩ := closeAccount_ok hprocess
      have hk : x ≠ k := by
        rintro rfl
        obtain rfl := account_inj.1 (ha.symm.trans hb)
        omega
      exact h.congr (setAccount_accounts_of_ne .vacant hk)
  | setAccountAuthority k authority type newAuthority =>
      simp only [Token2022.process, setAccountAuthority, bind_eq_ok, unpackAccount_eq_ok,
        require_eq_ok, exists_const] at hprocess
      obtain ⟨b, hb, -, hprocess⟩ := hprocess
      cases type with
      | accountOwner =>
          simp only [bind_eq_ok, require_eq_ok, validateOwner_eq_ok, okOr_eq_ok, exists_const,
            Except.ok.injEq] at hprocess
          obtain ⟨-, ⟨rfl, hsigned⟩, w, -, rfl⟩ := hprocess
          apply h.rewrite hb
          rintro rfl
          exact absurd hsigned (hsaid hb).1
      | closeAccount =>
          simp only [bind_eq_ok, validateOwner_eq_ok, exists_const, Except.ok.injEq] at hprocess
          obtain ⟨-, rfl⟩ := hprocess
          exact h.rewrite hb fun _ ↦ ⟨rfl, rfl, rfl, le_rfl⟩
  | setFrozen k mintKey authority frozen =>
      simp only [Token2022.process, setFrozen, bind_eq_ok, unpackAccount_eq_ok, unpackMint_eq_ok,
        require_eq_ok, okOr_eq_ok, validateOwner_eq_ok, exists_const, Except.ok.injEq] at hprocess
      obtain ⟨b, hb, -, -, _, -, _, -, -, rfl⟩ := hprocess
      exact h.rewrite hb fun _ ↦ ⟨rfl, rfl, rfl, le_rfl⟩
  | setMintAuthority =>
      obtain ⟨m, m', hm, -⟩ := setMintAuthority_ok hprocess
      rw [hm.result]
      exact h.put_mint hm.before
  | updateTransferHook =>
      obtain ⟨m, m', hm⟩ := updateTransferHook_ok hprocess
      rw [hm.result]
      exact h.put_mint hm.before
  | mintTo => exact h.minted hprocess
  | burn source mintKey authority amount decimals =>
      obtain ⟨b, b', m, hb, hm, hbmint, -, -, hdebit, -⟩ := burn_ok hprocess
      refine h.burned ?_ hprocess
      rintro rfl
      obtain rfl := account_inj.1 (ha.symm.trans hb)
      have hm' : L.accounts T = account m := by rw [← hmint, hbmint, hm]
      rcases hdebit with ⟨hfree, -⟩ | hdebit
      · rw [ownedBySystemOrIncinerator, hsame] at hfree
        exact hsystem hfree
      · exact hdebited ha hm' hdebit
  | transferChecked source mintKey destination authority additional amount decimals =>
      by_cases hsource : source = x
      · rcases transferChecked_ok hprocess with ⟨-, rfl⟩ |
          ⟨m, b, b', _, -, hb, -, hm, hbmint, -, -, hdebit, -⟩ | ⟨_, m, b, b', _, _, hhooked⟩
        · exact h
        · subst hsource
          obtain rfl := account_inj.1 (ha.symm.trans hb)
          exact absurd hdebit (hdebited ha (by rw [← hmint, hbmint, hm]))
        · subst hsource
          obtain rfl := account_inj.1 (ha.symm.trans hhooked.sourceAt)
          have hm' : L.accounts T = account m := by rw [← hmint, hhooked.sourceMint, hhooked.mintAt]
          exact absurd hhooked.debit (hdebited ha hm')
      · exact h.transferred hsource hprocess
  | transfer source destination authority amount =>
      rcases transfer_ok hprocess with ⟨-, rfl⟩ | ⟨b, b', c, hne, hb, hc, -, hflag, -, hdebit, rfl⟩
      · exact h
      · -- the accounts of `T` have the flag that this instruction refuses
        have hsource : source ≠ x := by
          rintro rfl
          obtain rfl := account_inj.1 (ha.symm.trans hb)
          have hcarried := hT.accounts _ _ ha hmint
          simp [hflag] at hcarried
        exact h.put_pair hsource hne hb hc ⟨rfl, rfl, rfl, Nat.le_add_right _ _⟩

end Holds

/-! ## Operators -/

/-- The owner or an agent of the mint. -/
def Operates (T a : Pubkey) (L : Ledger) : Prop := OwnerIs T a L ∨ AgentOf T a L

theorem Token.OperatorAccounts.operates {accts : Token.OperatorAccounts} {ts : TokenState}
    (h : accts.check L signers = .ok ts) :
    accts.authority ∈ signers ∧ Operates ts.tokenMint accts.authority L := by
  simp only [Token.OperatorAccounts.check, bind_eq_ok, requireSigner_eq_ok, exists_const,
    Except.ok.injEq] at h
  obtain ⟨hsigned, ts', -, _, hauthorized, rfl⟩ := h
  exact ⟨hsigned, authorizeOperator_evidence hauthorized⟩

theorem Token.OwnerAccounts.signed {accts : Token.OwnerAccounts} {r : TokenState × OwnerState}
    (h : accts.check L signers = .ok r) : accts.owner ∈ signers := by
  simp only [Token.OwnerAccounts.check, bind_eq_ok, requireSigner_eq_ok, exists_const] at h
  exact h.1

section Process

variable [Borsh]

theorem Holds.issued {ts : TokenState} {accts : Token.ReceiverAccounts} {n country : ℕ}
    {d : TokenAccount} (h : Holds T x s L)
    (hissue : Token.Issue L L' ts accts n country d L₁ L₂) : Holds T x s L' := by
  obtain ⟨_, hminted⟩ := hissue.minted
  have hpaid : Holds T x s L₁ := h.of_frame hissue.paid (by decide)
  have hbooked : Holds T x s L₂ :=
    hpaid.of_frame (frame_invokeComplianceCreated hissue.booked) (by decide)
  exact hbooked.minted hminted

omit [Borsh] in
/-- A transfer by the controller that no operator of `T` has signed is of another token. -/
theorem Holds.controlled {operator : Token.OperatorAccounts}
    {accts : Token.ControllerTransferAccounts} {ts : TokenState} {a d : TokenAccount}
    {args : ApproveTransferArgs} (h : Holds T x s L)
    (happroved : Token.ControllerApproved L L₁ L₂ signers operator accts ts a d args)
    (hsilent : ∀ a ∈ signers, ¬ Operates T a L) : Holds T x s L₂ := by
  obtain ⟨hsigned, hoperates⟩ := Token.OperatorAccounts.operates happroved.checked
  have hmint : ts.tokenMint ≠ T := by
    rintro rfl
    exact hsilent _ hsigned hoperates
  have hsource : accts.sourceTokenAccount ≠ x :=
    h.ne_of_mint happroved.sourceAt (happroved.sourceMint ▸ hmint)
  obtain ⟨_, _, htransfer⟩ := happroved.transfers
  have hframe := approveTransfer_frame happroved.approves (List.Subset.refl _)
  exact (h.of_frame hframe (by decide)).transferred hsource htransfer

theorem TokenInstruction.holds {j : TokenInstruction} (hprocess : j.process L signers = .ok L')
    (h : Holds T x s L) (hsilent : ∀ a ∈ signers, ¬ Operates T a L) : Holds T x s L' := by
  cases j with
  | mint =>
      obtain ⟨_, _, _, _, _, hissue⟩ := Token.mint_ok hprocess
      exact h.issued hissue
  | purchaseMint =>
      obtain ⟨_, _, _, _, _, hissue⟩ := Token.purchaseMint_ok hprocess
      exact h.issued hissue
  | settleSubscriptionMint =>
      obtain ⟨_, _, _, _, _, _, hissue⟩ := Token.settleSubscriptionMint_ok hprocess
      exact h.issued hissue
  | burn operator accts wallet amount fromBalanceAfter =>
      obtain ⟨ts, _, b, L₁, -, hstate, hredeemed⟩ := Token.burn_ok hprocess
      obtain ⟨ts', hcheck, -⟩ := bind_eq_ok.1 hprocess
      obtain ⟨hsigned, hoperates⟩ := Token.OperatorAccounts.operates hcheck
      have hts' := (Token.OperatorAccounts.check_ok hcheck).2.1
      rw [hstate, hredeemed.tokenStateAt] at hts'
      obtain rfl := account_inj.1 hts'
      have hmint : ts.tokenMint ≠ T := by
        rintro rfl
        exact hsilent _ hsigned hoperates
      have hsource : accts.sourceTokenAccount ≠ x :=
        h.ne_of_mint hredeemed.sourceAt (hredeemed.sourceMint ▸ hmint)
      obtain ⟨_, hburned⟩ := hredeemed.burned
      have hbooked := frame_invokeComplianceDestroyed hredeemed.booked
      exact (h.of_frame hbooked (by decide)).burned hsource hburned
  | forcedTransfer operator fromPartialFreeze =>
      obtain ⟨_, _, _, _, _, _, L₂, happroved, -, -, -, record, hrecord, record', -, rfl⟩ :=
        Token.forcedTransfer_approved hprocess
      exact (h.controlled happroved hsilent).of_frame (S := [.partialFreeze])
        (.put hrecord (by decide)) (by decide)
  | recovery =>
      obtain ⟨_, _, _, _, _, _, happroved, -⟩ := Token.recovery_approved hprocess
      exact h.controlled happroved hsilent
  | _ =>
      exact h.of_frame (TokenInstruction.frame hprocess)
        (by simp [TokenInstruction.kinds, Irs.identityKinds])

/-- Without the signatures of its owner, its delegate and the operators of `T` an account keeps its
tokens. -/
theorem process_holds {i : Instruction} (hprocess : process L signers i = .ok L')
    (hexternal : ∀ k ∈ signers, k.External) (h : Holds T x s L) (hT : Hooked T L)
    (hpos : 0 < s.amount) (hsystem : ¬ ownedBySystemOrIncinerator s) (howner : s.owner ∉ signers)
    (hdelegate : ∀ a ∈ signers, s.delegate ≠ some a)
    (hsilent : ∀ a ∈ signers, ¬ Operates T a L) : Holds T x s L' := by
  induction i with
  | token i => exact TokenInstruction.holds hprocess h hsilent
  | token2022 i =>
      have hK : Token.tokenStateAddress T ∉ signers := by
        intro hsigned
        exact not_external_tokenStateAddress (hexternal _ hsigned)
      exact h.token2022 hprocess hT.control hpos hsystem hK howner hdelegate
  | hook i =>
      exact h.of_frame (HookInstruction.frame hprocess)
        (by cases i <;> simp [HookInstruction.kinds, hookKinds])
  | compliance i =>
      exact h.of_frame (ComplianceInstruction.frame hprocess)
        (by cases i <;> simp [ComplianceInstruction.kinds, Compliance.PostHook.kinds])
  | module i =>
      exact h.of_frame (ModuleInstruction.frame hprocess)
        (by cases i <;> simp [ModuleInstruction.kinds])
  | createTokenMint => exact h.of_frame (Factory.frame_createTokenMint hprocess) (by decide)
  | callModuleFunction owner complianceState inner ih =>
      obtain ⟨_, -, hinner⟩ := bind_eq_ok.1 hprocess
      exact ih hinner

/-! ## Nobody gains a say -/

/-- The token is initialized, and those who operate it are among those of an earlier state. -/
structure Staffed (T : Pubkey) (L₀ L : Ledger) : Prop where
  initialized : ∃ C, PointsTo (Token.tokenStateAddress T) C L
  owners : ∀ a, OwnerIs T a L → OwnerIs T a L₀
  agents : ∀ a, AgentOf T a L → AgentOf T a L₀
  hook : transferHookAuthority L T = transferHookAuthority L₀ T

omit [Borsh] in
theorem updateTokenState_operated {accts : Token.OwnerAccounts} {f : TokenState → TokenState}
    (h : Token.updateTokenState L signers accts f = .ok L') (hT : Hooked T L)
    (hstate : accts.tokenState = Token.tokenStateAddress T) :
    ∃ a ∈ signers, OwnerIs T a L := by
  obtain ⟨⟨ts, os⟩, hcheck, -⟩ := bind_eq_ok.1 h
  have hts := (Token.OwnerAccounts.check_ok hcheck).1
  have hmint : ts.tokenMint = T := hT.token (hstate ▸ hts)
  have howned := (Token.OwnerAccounts.owned hcheck).2
  exact ⟨accts.owner, Token.OwnerAccounts.signed hcheck, hmint ▸ howned⟩

/-- Without the owner and the hook authority the token keeps its compliance state and its hook. -/
theorem process_keepsAnchor {i : Instruction} (h : process L signers i = .ok L') (hT : Hooked T L)
    (hsilent : ∀ a ∈ signers, ¬ OwnerIs T a L ∧ transferHookAuthority L T ≠ some a) :
    KeepsAnchor T i.core := by
  have hhook : KeepsHook T i.core := process_keepsHook h fun a ha ↦ (hsilent a ha).2
  have hcore := process_core h
  generalize i.core = j at hcore hhook
  cases j with
  | token j =>
      cases j with
      | setCompliance accts newCompliance =>
          intro hstate
          have hupdate : Token.setCompliance L signers accts newCompliance = .ok L' := hcore
          rw [Token.setCompliance] at hupdate
          obtain ⟨a, hsigned, howned⟩ := updateTokenState_operated hupdate hT hstate
          exact (hsilent a hsigned).1 howned
      | _ => trivial
  | token2022 j =>
      cases j with
      | updateTransferHook => exact hhook
      | _ => trivial
  | _ => trivial

omit [Borsh] in
/-- A token that is there is not initialized once more. -/
theorem initializeToken_fresh {owner tokenState ownerState : Pubkey}
    {args : Token.InitializeTokenArgs}
    (h : Token.initializeToken L signers owner tokenState ownerState args = .ok L') :
    L.accounts (Token.tokenStateAddress args.tokenMint) = .vacant := by
  simp only [Token.initializeToken, bind_eq_ok, requireSigner_eq_ok, exists_const] at h
  obtain ⟨-, -, -, L₁, hstate, -⟩ := h
  obtain ⟨hkey, hvacant, -⟩ := initRecord_ok hstate
  exact hkey ▸ hvacant

theorem process_owners_kept {i : Instruction} (h : process L signers i = .ok L')
    {C a : Pubkey} (hT : PointsTo (Token.tokenStateAddress T) C L)
    (hsilent : ∀ a ∈ signers, ¬ OwnerIs T a L) (ha : OwnerIs T a L') : OwnerIs T a L := by
  by_contra hnew
  have hcrowned := process_crowns h hnew ha
  have hcore := process_core h
  generalize i.core = j at hcore hcrowned
  cases hcrowned with
  | initialized tokenState args hmint =>
      obtain ⟨ts, hts, -⟩ := hT
      have hfresh := initializeToken_fresh hcore
      rw [hmint, hts] at hfresh
      exact account_ne_vacant ts hfresh
  | handedOver accts _ howned =>
      obtain ⟨r, hcheck, -⟩ := bind_eq_ok.1 hcore
      exact hsilent _ (Token.OwnerAccounts.signed hcheck) howned

theorem process_agents_kept {i : Instruction} (h : process L signers i = .ok L') {a : Pubkey}
    (hsilent : ∀ a ∈ signers, ¬ OwnerIs T a L) (ha : AgentOf T a L') : AgentOf T a L := by
  by_contra hnew
  have happointed := process_appoints h hnew ha
  have hcore := process_core h
  generalize i.core = j at hcore happointed
  cases happointed with
  | added accts howned =>
      obtain ⟨r, hcheck, -⟩ := bind_eq_ok.1 hcore
      exact hsilent _ (Token.OwnerAccounts.signed hcheck) howned

theorem process_staffed {L₀ : Ledger} {i : Instruction} (h : process L signers i = .ok L')
    (hT : Hooked T L) (hL : Staffed T L₀ L)
    (hsilent : ∀ a ∈ signers, ¬ OwnerIs T a L₀ ∧ transferHookAuthority L₀ T ≠ some a) :
    Staffed T L₀ L' := by
  have howner : ∀ a ∈ signers, ¬ OwnerIs T a L := fun a ha howned ↦
    (hsilent a ha).1 (hL.owners a howned)
  have hhook : ∀ a ∈ signers, transferHookAuthority L T ≠ some a := by
    intro a ha
    rw [hL.hook]
    exact (hsilent a ha).2
  obtain ⟨C, hC⟩ := hL.initialized
  obtain ⟨m, hm, -⟩ := hT.control.mint
  constructor
  · have hkeeps := process_keepsAnchor h hT fun a ha ↦ ⟨howner a ha, hhook a ha⟩
    exact ⟨C, process_pointsTo h hkeeps hC⟩
  · intro a ha
    exact hL.owners a (process_owners_kept h hC howner ha)
  · intro a ha
    exact hL.agents a (process_agents_kept h howner ha)
  · rw [process_transferHookAuthority h hm hhook, hL.hook]

/-! ## Runs -/

/-- The token and the account, since an earlier state. -/
structure SafeSince (T x : Pubkey) (s : TokenAccount) (L₀ L : Ledger) : Prop where
  hooked : Hooked T L
  staffed : Staffed T L₀ L
  held : Holds T x s L

theorem SafeSince.step {L₀ : Ledger} (hL : SafeSince T x s L₀ L) (h : Step L l L')
    (hpos : 0 < s.amount) (hsystem : ¬ ownedBySystemOrIncinerator s)
    (hsilent : ∀ a ∈ l.signers, ¬ HasSay T s L₀ a) : SafeSince T x s L₀ L' := by
  cases h with
  | instruction signers i hexternal h =>
      have hstaff : ∀ a ∈ signers, ¬ OwnerIs T a L₀ ∧ transferHookAuthority L₀ T ≠ some a :=
        fun a ha ↦ ⟨fun howned ↦ hsilent a ha (.owner howned), fun hhook ↦
          hsilent a ha (.hook hhook)⟩
      have hhook : ∀ a ∈ signers, transferHookAuthority L T ≠ some a := by
        intro a ha
        rw [hL.staffed.hook]
        exact (hstaff a ha).2
      have hoperates : ∀ a ∈ signers, ¬ Operates T a L := by
        rintro a ha (howned | hagent)
        · exact hsilent a ha (.owner (hL.staffed.owners a howned))
        · exact hsilent a ha (.agent (hL.staffed.agents a hagent))
      constructor
      · exact process_hooked h hexternal (process_keepsHook h hhook) hL.hooked
      · exact process_staffed h hL.hooked hL.staffed hstaff
      · apply process_holds h hexternal hL.held hL.hooked hpos hsystem _ _ hoperates
        · exact fun howner ↦ hsilent _ howner .holder
        · exact fun a ha hdelegate ↦ hsilent a ha (.delegate hdelegate)
  | environment hframe =>
      constructor
      · exact hL.hooked.environment hframe
      · obtain ⟨C, hC⟩ := hL.staffed.initialized
        constructor
        · exact ⟨C, hC.of_frame hframe (by decide)⟩
        · exact fun a ha ↦ hL.staffed.owners a (ha.before_frame hframe (by decide))
        · exact fun a ha ↦ hL.staffed.agents a (ha.of_frame hframe (by decide))
        · rw [transferHookAuthority_frame hframe (by decide), hL.staffed.hook]
      · exact hL.held.of_frame hframe (by decide)

end Process

/-! ## Two holders -/

/-- The receiver names a delegate for its own account. -/
def nameDelegate : Instruction :=
  .token2022 (.approve heldReceiver.key (.address 9) heldReceiver.wallet 5)

theorem heldSender_hasSay {a : Pubkey} (h : HasSay runningDeployment.tokenMint
    (runningDeployment.holdingRecord heldSender) runningLedger a) :
    a = heldSender.wallet ∨ a = runningDeployment.issuer := by
  have hstate : runningLedger.accounts (Token.ownerAddress runningDeployment.tokenMint) =
      account ({ owner := runningDeployment.issuer, tokenMint := runningDeployment.tokenMint } :
        OwnerState) := rfl
  have hmint : runningLedger.accounts runningDeployment.tokenMint =
      account runningDeployment.mintRecord := rfl
  cases h with
  | holder => exact .inl rfl
  | delegate h => cases h
  | owner h =>
      obtain ⟨record, hrecord, rfl⟩ := h
      obtain rfl := account_inj.1 (hstate.symm.trans hrecord)
      exact .inr rfl
  | agent h =>
      obtain ⟨role, hrole⟩ := h
      exact absurd hrole (runningDeployment.not_account (by simp) (by decide) _ role)
  | hook h =>
      rw [transferHookAuthority_of_account hmint] at h
      exact .inr (Option.some.inj h).symm

end Fracks
