import Fracks.Factory
import Fracks.HookExecution

/-!
# Instructions of Token-2022 and what they keep

One type for the instructions of the token program.  Those that administer
accounts and mints leave all balances and supplies alone, none of them raises a
`transferring` flag, and the authorities of a mint change only at their own
hands.
-/

namespace Fracks.Token2022

open Checked AccountType Ledger TokenHook

inductive Instruction
  | createMint (payer k : Pubkey) (mint : Mint)
  | createTokenAccount (payer k mint owner : Pubkey) (immutableOwner : Bool)
  | approve (source delegate authority : Pubkey) (amount : ℕ)
  | revoke (source authority : Pubkey)
  | closeAccount (k destination authority : Pubkey)
  | setAccountAuthority (k authority : Pubkey) (type : AccountAuthority)
      (newAuthority : Option Pubkey)
  | setMintAuthority (k authority : Pubkey) (type : MintAuthority) (newAuthority : Option Pubkey)
  | updateTransferHook (k authority : Pubkey) (newProgram : Option Pubkey)
  | setFrozen (k mint authority : Pubkey) (frozen : Bool)
  | mintTo (mint destination authority : Pubkey) (amount : ℕ) (decimals : Option ℕ)
  | burn (source mint authority : Pubkey) (amount : ℕ) (decimals : Option ℕ)
  | transferChecked (source mint destination authority : Pubkey) (additional : List Pubkey)
      (amount decimals : ℕ)
  | transfer (source destination authority : Pubkey) (amount : ℕ)

def process (L : Ledger) (signers : List Pubkey) : Instruction → Result Ledger
  | .createMint payer k mint => createMint L signers payer k mint
  | .createTokenAccount payer k mint owner immutableOwner =>
      createTokenAccount L signers payer k mint owner immutableOwner
  | .approve source delegate authority amount =>
      approve L signers source delegate authority amount
  | .revoke source authority => revoke L signers source authority
  | .closeAccount k destination authority => closeAccount L signers k destination authority
  | .setAccountAuthority k authority type newAuthority =>
      setAccountAuthority L signers k authority type newAuthority
  | .setMintAuthority k authority type newAuthority =>
      setMintAuthority L signers k authority type newAuthority
  | .updateTransferHook k authority newProgram =>
      updateTransferHook L signers k authority newProgram
  | .setFrozen k mint authority frozen => setFrozen L signers k mint authority frozen
  | .mintTo mint destination authority amount decimals =>
      mintTo L signers mint destination authority amount decimals
  | .burn source mint authority amount decimals =>
      burn L signers source mint authority amount decimals
  | .transferChecked source mint destination authority additional amount decimals =>
      transferChecked invokeHook L signers source mint destination authority additional amount
        decimals
  | .transfer source destination authority amount =>
      transfer L signers source destination authority amount

variable {L L' : Ledger} {signers : List Pubkey} {T k K : Pubkey}

/-! ## Administration -/

/-- No balance and no supply changes, and no flag goes up. -/
structure Quiet (L L' : Ledger) : Prop where
  frame : Frame [.mint, .tokenAccount] L L'
  books : ∀ T, balance L' T = balance L T ∧ supply L' T = supply L T
  flags : FlagsDown L → FlagsDown L'

theorem Quiet.put_account {a a' : TokenAccount} (h : L.accounts k = account a)
    (hmint : a'.mint = a.mint) (hamount : a'.amount = a.amount)
    (hflag : a'.transferring = a.transferring) : Quiet L (L.put k a') where
  frame := .put h (by decide)
  books T := by
    refine ⟨?_, congrFun (supply_put_account h) T⟩
    rw [balance_put, hmint, hamount, ← balance_of_account h, Function.update_eq_self]
  flags hdown := hdown.put (hflag ▸ hdown k a h)

theorem Quiet.put_mint {m m' : Mint} (h : L.accounts k = account m)
    (hsupply : m'.supply = m.supply) : Quiet L (L.put k m') where
  frame := .put h (by decide)
  books T := by
    refine ⟨congrFun (balance_put_mint h) T, ?_⟩
    rw [supply_put_mint, hsupply, ← supply_of_account h]
    split
    case isTrue hT => rw [hT]
    case isFalse => rfl
  flags hdown := hdown.of_frame (S := [.mint]) (.put h (by decide)) (by decide)

/-- A change at an address that holds neither a balance nor a supply, before or
after. -/
theorem Quiet.of_empty (hframe : Frame [.mint, .tokenAccount] L L')
    (hother : ∀ x, x ≠ k → L'.accounts x = L.accounts x)
    (hbalance : ∀ T, balance L' T k = balance L T k) (hsupply : supply L' k = supply L k)
    (hflag : ∀ a : TokenAccount, L'.accounts k = account a → a.transferring ≠ some true) :
    Quiet L L' where
  frame := hframe
  books T := by
    constructor
    · funext x
      by_cases hx : x = k
      · rw [hx, hbalance]
      · simp only [balance, view_congr (hother x hx)]
    · by_cases hT : T = k
      · rw [hT, hsupply]
      · simp only [supply, view_congr (hother T hT)]
  flags hdown x a ha := by
    by_cases hx : x = k
    · exact hflag a (hx ▸ ha)
    · exact hdown x a (hother x hx ▸ ha)

theorem balance_of_kind (h : (L.accounts k).kind ≠ .tokenAccount) : balance L T k = 0 := by
  simp only [balance]
  split
  case h_1 a ha =>
    rw [view_eq_some] at ha
    exact absurd (ha ▸ kind_account a) h
  case h_2 => rfl

theorem supply_of_kind (h : (L.accounts k).kind ≠ .mint) : supply L k = 0 := by
  simp only [supply]
  split
  case h_1 m hm =>
    rw [view_eq_some] at hm
    exact absurd (hm ▸ kind_account m) h
  case h_2 => rfl

/-- The first record of a new account. -/
theorem Quiet.create {α : Type} [AccountType α] {L₁ : Ledger} {a : α} {payer : Pubkey}
    {space : ℕ} (h : L.createAccount payer k .token2022 space = .ok L₁)
    (hkind : kind α ∈ [AccountKind.mint, .tokenAccount])
    (hbalance : ∀ T, balance (L₁.put k a) T k = 0) (hsupply : supply (L₁.put k a) k = 0)
    (hflag : ∀ b : TokenAccount, account a = account b → b.transferring ≠ some true) :
    Quiet L (L₁.put k a) := by
  obtain ⟨hvacant, hother, -⟩ := createAccount_ok h
  have hnone : (L.accounts k).kind ≠ .tokenAccount ∧ (L.accounts k).kind ≠ .mint := by
    rw [hvacant]
    decide
  refine .of_empty (k := k) (.create h hkind) (fun x hx ↦ ?_) (fun T ↦ ?_) ?_ fun b hb ↦ ?_
  · rw [put_accounts_of_ne _ hx, hother x hx]
  · rw [hbalance, balance_of_kind hnone.1]
  · rw [hsupply, supply_of_kind hnone.2]
  · exact hflag b (put_accounts_self a ▸ hb)

section Administrative

variable {payer mintKey owner source delegate authority destination : Pubkey}

theorem createMint_quiet {mint : Mint} (h : createMint L signers payer k mint = .ok L') :
    Quiet L L' := by
  simp only [createMint, bind_eq_ok, requireSigner_eq_ok, exists_const, Except.ok.injEq] at h
  obtain ⟨-, L₁, hcreate, rfl⟩ := h
  refine .create hcreate (by simp [kind]) (fun T ↦ ?_) ?_ fun b hb ↦ ?_
  · exact balance_of_kind (by simp [kind])
  · exact supply_of_account (put_accounts_self _)
  · have hkind := congrArg Account.kind hb
    simp [kind] at hkind

/-- A new token account of an existing mint: empty, and with a flag exactly when
the mint has the hook extension. -/
theorem createTokenAccount_ok {immutableOwner : Bool}
    (h : createTokenAccount L signers payer k mintKey owner immutableOwner = .ok L') :
    Quiet L L' ∧ (∀ x, x ≠ k → L'.accounts x = L.accounts x) ∧ L.accounts k = .vacant ∧
      ∃ (m : Mint) (a : TokenAccount), L.accounts mintKey = account m ∧
        L'.accounts k = account a ∧ a.mint = mintKey ∧
          a.transferring = m.transferHook.map fun _ ↦ false := by
  simp only [createTokenAccount, bind_eq_ok, requireSigner_eq_ok, unpackMint_eq_ok, exists_const,
    Except.ok.injEq] at h
  obtain ⟨-, m, hm, L₁, hcreate, rfl⟩ := h
  obtain ⟨hvacant, hother, -⟩ := createAccount_ok hcreate
  refine ⟨.create hcreate (by simp [kind]) (fun T ↦ ?_) ?_ fun b hb ↦ ?_, fun x hx ↦ ?_, hvacant,
    m, _, hm, put_accounts_self _, rfl, rfl⟩
  · rw [balance_of_account (put_accounts_self _)]
    simp
  · exact supply_of_kind (by simp [kind])
  · obtain rfl := account_inj.1 hb
    cases m.transferHook <;> simp
  · rw [put_accounts_of_ne _ hx, hother x hx]

/-- The instructions that overwrite a token account change neither its mint, nor
its amount, nor its flag. -/
structure Rewritten (L L' : Ledger) (k : Pubkey) (a a' : TokenAccount) : Prop where
  before : L.accounts k = account a
  result : L' = L.put k a'
  mint : a'.mint = a.mint
  amount : a'.amount = a.amount
  transferring : a'.transferring = a.transferring

theorem Rewritten.quiet {a a' : TokenAccount} (h : Rewritten L L' k a a') : Quiet L L' :=
  h.result ▸ .put_account h.before h.mint h.amount h.transferring

theorem approve_ok {amount : ℕ}
    (h : approve L signers source delegate authority amount = .ok L') :
    ∃ a a', Rewritten L L' source a a' := by
  simp only [approve, bind_eq_ok, unpackAccount_eq_ok, require_eq_ok, validateOwner_eq_ok,
    exists_const, Except.ok.injEq] at h
  obtain ⟨a, ha, -, -, rfl⟩ := h
  exact ⟨a, _, ha, rfl, rfl, rfl, rfl⟩

theorem revoke_ok (h : revoke L signers source authority = .ok L') :
    ∃ a a', Rewritten L L' source a a' := by
  simp only [revoke, bind_eq_ok, unpackAccount_eq_ok, validateOwner_eq_ok, exists_const,
    Except.ok.injEq] at h
  obtain ⟨a, ha, -, rfl⟩ := h
  exact ⟨a, _, ha, rfl, rfl, rfl, rfl⟩

theorem setFrozen_ok {frozen : Bool}
    (h : setFrozen L signers k mintKey authority frozen = .ok L') :
    ∃ a a', Rewritten L L' k a a' := by
  simp only [setFrozen, bind_eq_ok, unpackAccount_eq_ok, unpackMint_eq_ok, require_eq_ok,
    okOr_eq_ok, validateOwner_eq_ok, exists_const, Except.ok.injEq] at h
  obtain ⟨a, ha, -, -, _, -, _, -, -, rfl⟩ := h
  exact ⟨a, _, ha, rfl, rfl, rfl, rfl⟩

theorem setAccountAuthority_ok {type : AccountAuthority} {newAuthority : Option Pubkey}
    (h : setAccountAuthority L signers k authority type newAuthority = .ok L') :
    ∃ a a', Rewritten L L' k a a' := by
  simp only [setAccountAuthority, bind_eq_ok, unpackAccount_eq_ok, require_eq_ok,
    exists_const] at h
  obtain ⟨a, ha, -, h⟩ := h
  cases type with
  | accountOwner =>
      simp only [bind_eq_ok, require_eq_ok, validateOwner_eq_ok, okOr_eq_ok, exists_const,
        Except.ok.injEq] at h
      obtain ⟨-, -, _, -, rfl⟩ := h
      exact ⟨a, _, ha, rfl, rfl, rfl, rfl⟩
  | closeAccount =>
      simp only [bind_eq_ok, validateOwner_eq_ok, exists_const, Except.ok.injEq] at h
      obtain ⟨-, rfl⟩ := h
      exact ⟨a, _, ha, rfl, rfl, rfl, rfl⟩

/-- Only an empty account is closed. -/
theorem closeAccount_ok (h : closeAccount L signers k destination authority = .ok L') :
    ∃ a : TokenAccount, L.accounts k = account a ∧ a.amount = 0 ∧ L' = L.close k destination := by
  simp only [closeAccount, bind_eq_ok, require_eq_ok, unpackAccount_eq_ok, exists_const] at h
  obtain ⟨-, a, ha, hempty, h⟩ := h
  split at h
  · simp only [bind_eq_ok, require_eq_ok, exists_const, Except.ok.injEq] at h
    exact ⟨a, ha, hempty, h.2.symm⟩
  · simp only [bind_eq_ok, validateOwner_eq_ok, exists_const, Except.ok.injEq] at h
    exact ⟨a, ha, hempty, h.2.symm⟩

theorem close_vacant (k destination : Pubkey) : (L.close k destination).accounts k = .vacant := by
  simp [Ledger.close, setAccount]

theorem closeAccount_quiet (h : closeAccount L signers k destination authority = .ok L') :
    Quiet L L' := by
  obtain ⟨a, ha, hempty, rfl⟩ := closeAccount_ok h
  have hvacant := close_vacant (L := L) k destination
  refine .of_empty (k := k) (.close ha (by decide)) (fun x hx ↦ setAccount_accounts_of_ne _ hx)
    (fun T ↦ ?_) ?_ fun b hb ↦ absurd (hvacant ▸ hb).symm (account_ne_vacant b)
  · rw [balance_of_kind (by rw [hvacant]; decide), balance_of_account ha, hempty, ite_self]
  · rw [supply_of_kind (by rw [hvacant]; decide), supply_of_kind (by simp [ha, kind])]

/-- A mint whose authorities are changed by one of them. -/
structure Readministered (signers : List Pubkey) (L L' : Ledger) (k authority : Pubkey)
    (m m' : Mint) : Prop where
  before : L.accounts k = account m
  result : L' = L.put k m'
  supply : m'.supply = m.supply
  extension : m'.transferHook.isSome = m.transferHook.isSome
  signed : authority ∈ signers

theorem Readministered.quiet {m m' : Mint} (h : Readministered signers L L' k authority m m') :
    Quiet L L' := h.result ▸ .put_mint h.before h.supply

theorem setMintAuthority_ok {type : MintAuthority} {newAuthority : Option Pubkey}
    (h : setMintAuthority L signers k authority type newAuthority = .ok L') :
    ∃ m m', Readministered signers L L' k authority m m' ∧
      (m'.mintAuthority = m.mintAuthority ∨ m.mintAuthority = some authority) ∧
      (m'.permanentDelegate = m.permanentDelegate ∨
        m.permanentDelegate = some (some authority)) ∧
      m'.transferHook.bind TransferHook.programId = m.transferHook.bind TransferHook.programId := by
  simp only [setMintAuthority, bind_eq_ok, unpackMint_eq_ok] at h
  obtain ⟨m, hm, h⟩ := h
  cases type with
  | mintTokens =>
      simp only [bind_eq_ok, okOr_eq_ok, validateOwner_eq_ok, exists_const, Except.ok.injEq] at h
      obtain ⟨_, hcurrent, ⟨rfl, hsigned⟩, rfl⟩ := h
      exact ⟨m, _, ⟨hm, rfl, rfl, rfl, hsigned⟩, .inr hcurrent, .inl rfl, rfl⟩
  | freezeAccount =>
      simp only [bind_eq_ok, okOr_eq_ok, validateOwner_eq_ok, exists_const, Except.ok.injEq] at h
      obtain ⟨_, -, ⟨rfl, hsigned⟩, rfl⟩ := h
      exact ⟨m, _, ⟨hm, rfl, rfl, rfl, hsigned⟩, .inl rfl, .inl rfl, rfl⟩
  | transferHookProgramId =>
      simp only [bind_eq_ok, okOr_eq_ok, validateOwner_eq_ok, exists_const, Except.ok.injEq] at h
      obtain ⟨hook, hhook, _, -, ⟨rfl, hsigned⟩, rfl⟩ := h
      exact ⟨m, _, ⟨hm, rfl, rfl, by rw [hhook]; rfl, hsigned⟩, .inl rfl, .inl rfl,
        by rw [hhook]; rfl⟩
  | permanentDelegate =>
      simp only [bind_eq_ok, okOr_eq_ok, validateOwner_eq_ok, exists_const, Except.ok.injEq] at h
      obtain ⟨_, hdelegate, _, rfl, ⟨rfl, hsigned⟩, rfl⟩ := h
      exact ⟨m, _, ⟨hm, rfl, rfl, rfl, hsigned⟩, .inl rfl, .inr hdelegate, rfl⟩

theorem updateTransferHook_ok {newProgram : Option Pubkey}
    (h : updateTransferHook L signers k authority newProgram = .ok L') :
    ∃ m m', Readministered signers L L' k authority m m' := by
  simp only [updateTransferHook, bind_eq_ok, unpackMint_eq_ok, okOr_eq_ok, validateOwner_eq_ok,
    require_eq_ok, exists_const, Except.ok.injEq] at h
  obtain ⟨m, hm, hook, hhook, _, -, ⟨rfl, hsigned⟩, -, rfl⟩ := h
  exact ⟨m, _, hm, rfl, rfl, by rw [hhook]; rfl, hsigned⟩

end Administrative

/-! ## Any instruction -/

/-- The instructions that move tokens. -/
def Instruction.moves : Instruction → Bool
  | .mintTo .. | .burn .. | .transferChecked .. | .transfer .. => true
  | _ => false

theorem process_quiet {i : Instruction} (h : process L signers i = .ok L')
    (hi : i.moves = false) : Quiet L L' := by
  cases i with
  | createMint => exact createMint_quiet h
  | createTokenAccount => exact (createTokenAccount_ok h).1
  | approve =>
      obtain ⟨_, _, h⟩ := approve_ok h
      exact h.quiet
  | revoke =>
      obtain ⟨_, _, h⟩ := revoke_ok h
      exact h.quiet
  | closeAccount => exact closeAccount_quiet h
  | setAccountAuthority =>
      obtain ⟨_, _, h⟩ := setAccountAuthority_ok h
      exact h.quiet
  | setMintAuthority =>
      obtain ⟨_, _, h, -⟩ := setMintAuthority_ok h
      exact h.quiet
  | updateTransferHook =>
      obtain ⟨_, _, h⟩ := updateTransferHook_ok h
      exact h.quiet
  | setFrozen =>
      obtain ⟨_, _, h⟩ := setFrozen_ok h
      exact h.quiet
  | mintTo => simp [Instruction.moves] at hi
  | burn => simp [Instruction.moves] at hi
  | transferChecked => simp [Instruction.moves] at hi
  | transfer => simp [Instruction.moves] at hi

section Moves

variable {source destination authority mintKey : Pubkey} {amount : ℕ}

/-- A transfer without a mint moves nothing between accounts with the flag. -/
theorem transfer_ok (h : transfer L signers source destination authority amount = .ok L') :
    (source = destination ∧ L' = L) ∨
      ∃ a a' b : TokenAccount, source ≠ destination ∧ L.accounts source = account a ∧
        L.accounts destination = account b ∧ a.mint = b.mint ∧ a.transferring = none ∧
          amount ≤ a.amount ∧ Debit signers none authority a a' ∧
            L' = (L.put source (debited a a' amount)).put destination (credited b amount) := by
  simp only [transfer, bind_eq_ok, unpackAccount_eq_ok, require_eq_ok, exists_const] at h
  obtain ⟨a, ha, -, hle, hflag, a', hdebit, h⟩ := h
  have hdebit' := authorizeDebit_ok hdebit
  split at h
  case isTrue hself => exact .inl ⟨hself, (Except.ok.inj h).symm⟩
  case isFalse hne =>
    simp only [bind_eq_ok, unpackAccount_eq_ok, require_eq_ok, okOr_eq_ok, checkedAdd_eq_some,
      exists_const, Except.ok.injEq] at h
    obtain ⟨b, hb, -, hmint, _, ⟨-, rfl⟩, rfl⟩ := h
    exact .inr ⟨a, a', b, hne, ha, hb, hmint, hflag, hle, hdebit', rfl⟩

/-- A transfer without a hook moves balances of the mint of the two accounts. -/
theorem balance_unhooked {a a' b : TokenAccount} {permanentDelegate : Option Pubkey}
    (ha : L.accounts source = account a) (hb : L.accounts destination = account b)
    (hamint : a.mint = mintKey) (hbmint : b.mint = mintKey)
    (hdebit : Debit signers permanentDelegate authority a a') :
    balance ((L.put source (debited a a' amount)).put destination (credited b amount)) T =
      Function.update (Function.update (balance L T) source
        (balance L T source - if T = mintKey then amount else 0)) destination
        (balance L T destination + if T = mintKey then amount else 0) := by
  have hdebited : (debited a a' amount).mint = mintKey := hdebit.mint.trans hamint
  exact balance_move ha hb hamint hbmint hdebited hbmint rfl rfl

/-- Writing two token accounts, as a transfer without a hook does. -/
theorem frame_put_pair {a a' b b' : TokenAccount} (hne : source ≠ destination)
    (ha : L.accounts source = account a) (hb : L.accounts destination = account b) :
    Frame [.tokenAccount] L ((L.put source a').put destination b') := by
  have hfirst : Frame [.tokenAccount] L (L.put source a') := .put ha (by decide)
  exact hfirst.trans (.put (a := b) (by rw [put_accounts_of_ne _ hne.symm, hb]) (by decide))

theorem frame_mintTo {decimals : Option ℕ}
    (h : mintTo L signers mintKey destination authority amount decimals = .ok L') :
    Frame [.mint, .tokenAccount] L L' := by
  obtain ⟨a, m, ha, hm, -, -, -, rfl⟩ := mintTo_ok h
  have hfirst : Frame [.mint, .tokenAccount] L
      (L.put destination { a with amount := a.amount + amount }) := .put ha (by decide)
  refine hfirst.trans (.put (a := m) ?_ (by decide))
  rw [put_accounts_of_ne _ (account_ne_mint ha hm).symm, hm]

theorem frame_burn {decimals : Option ℕ}
    (h : burn L signers source mintKey authority amount decimals = .ok L') :
    Frame [.mint, .tokenAccount] L L' := by
  obtain ⟨a, a', m, ha, hm, -, -, -, -, rfl⟩ := burn_ok h
  have hfirst : Frame [.mint, .tokenAccount] L
      (L.put source { a' with amount := a.amount - amount }) := .put ha (by decide)
  refine hfirst.trans (.put (a := m) ?_ (by decide))
  rw [put_accounts_of_ne _ (account_ne_mint ha hm).symm, hm]

theorem flagsDown_put_mint {m m' : Mint} (h : L.accounts k = account m) (hdown : FlagsDown L) :
    FlagsDown (L.put k m') :=
  hdown.of_frame (S := [.mint]) (.put h (by decide)) (by decide)

end Moves

theorem process_frame {i : Instruction} (h : process L signers i = .ok L') :
    Frame (.mint :: .tokenAccount :: hookKinds) L L' := by
  cases hi : i.moves with
  | false => exact (process_quiet h hi).frame.mono (by decide)
  | true =>
      cases i with
      | mintTo => exact (frame_mintTo h).mono (by decide)
      | burn => exact (frame_burn h).mono (by decide)
      | transferChecked => exact (frame_transferChecked h).mono (by decide)
      | transfer =>
          rcases transfer_ok h with ⟨-, rfl⟩ | ⟨a, a', b, hne, ha, hb, -, -, -, -, rfl⟩
          · exact .refl _ _
          · exact (frame_put_pair hne ha hb).mono (by decide)
      | _ => simp [Instruction.moves] at hi

theorem process_flags {i : Instruction} (h : process L signers i = .ok L')
    (hdown : FlagsDown L) : FlagsDown L' := by
  cases hi : i.moves with
  | false => exact (process_quiet h hi).flags hdown
  | true =>
      cases i with
      | mintTo =>
          obtain ⟨a, m, ha, hm, -, -, -, rfl⟩ := mintTo_ok h
          refine flagsDown_put_mint (m := m) ?_ (hdown.put (hdown _ a ha))
          rw [put_accounts_of_ne _ (account_ne_mint ha hm).symm, hm]
      | burn =>
          obtain ⟨a, a', m, ha, hm, -, -, -, hdebit, rfl⟩ := burn_ok h
          have hflag : a'.transferring = a.transferring := by
            rcases hdebit with ⟨-, rfl⟩ | hdebit
            · rfl
            · exact hdebit.transferring
          refine flagsDown_put_mint (m := m) ?_ (hdown.put ?_)
          · rw [put_accounts_of_ne _ (account_ne_mint ha hm).symm, hm]
          · exact hflag ▸ hdown _ a ha
      | transferChecked =>
          rcases transferChecked_ok h with ⟨-, rfl⟩ |
            ⟨m, a, a', b, hne, ha, hb, -, -, -, -, hdebit, -, rfl⟩ | ⟨_, _, _, _, _, _, hhooked⟩
          · exact hdown
          · refine (hdown.put ?_).put (hdown _ b hb)
            exact hdebit.transferring ▸ hdown _ a ha
          · exact hhooked.flagsDown hdown
      | transfer =>
          rcases transfer_ok h with ⟨-, rfl⟩ | ⟨a, a', b, hne, ha, hb, -, -, -, hdebit, rfl⟩
          · exact hdown
          · refine (hdown.put ?_).put (hdown _ b hb)
            exact hdebit.transferring ▸ hdown _ a ha
      | _ => simp [Instruction.moves] at hi

end Fracks.Token2022
