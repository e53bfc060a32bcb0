import Fracks.Token2022

/-!
# Balances and supply

The balances of a mint as a table over all addresses, its supply, and what each
instruction of Token-2022 does to them.
-/

namespace Fracks

open Checked AccountType Ledger

/-- The balance of mint `T` in the token account at `k`. -/
def balance (L : Ledger) (T k : Pubkey) : ℕ :=
  match L.view TokenAccount k with
  | some a => if a.mint = T then a.amount else 0
  | none => 0

/-- The supply recorded in the mint `T`. -/
def supply (L : Ledger) (T : Pubkey) : ℕ :=
  match L.view Mint T with
  | some m => m.supply
  | none => 0

section Views

variable {L L' : Ledger} {T k : Pubkey} {S : List AccountKind}

theorem balance_of_account {a : TokenAccount} (h : L.accounts k = account a) :
    balance L T k = if a.mint = T then a.amount else 0 := by
  simp [balance, view_eq_some.2 h]

theorem supply_of_account {m : Mint} (h : L.accounts T = account m) : supply L T = m.supply := by
  simp [supply, view_eq_some.2 h]

theorem balance_frame (h : Frame S L L') (hS : .tokenAccount ∉ S) : balance L' = balance L := by
  funext T k
  simp only [balance, h.view_eq (α := TokenAccount) hS]

theorem supply_frame (h : Frame S L L') (hS : .mint ∉ S) : supply L' = supply L := by
  funext T
  simp only [supply, h.view_eq (α := Mint) hS]

/-- Writing a token account writes one entry of the balances. -/
theorem balance_put (a : TokenAccount) :
    balance (L.put k a) T =
      Function.update (balance L T) k (if a.mint = T then a.amount else 0) := by
  funext x
  by_cases hx : x = k
  · subst hx
    rw [Function.update_self, balance_of_account (put_accounts_self a)]
  · rw [Function.update_of_ne hx]
    simp only [balance, view_put_of_ne a hx]

theorem balance_put_mint {m m' : Mint} (h : L.accounts k = account m) :
    balance (L.put k m') = balance L :=
  balance_frame (S := [.mint]) (.put h (by decide)) (by decide)

theorem supply_put_account {a a' : TokenAccount} (h : L.accounts k = account a) :
    supply (L.put k a') = supply L :=
  supply_frame (S := [.tokenAccount]) (.put h (by decide)) (by decide)

theorem supply_put_mint (m : Mint) :
    supply (L.put k m) T = if T = k then m.supply else supply L T := by
  by_cases hT : T = k
  · subst hT
    rw [if_pos rfl, supply_of_account (put_accounts_self m)]
  · rw [if_neg hT]
    simp only [supply, view_put_of_ne m hT]

theorem account_ne_mint {a : TokenAccount} {m : Mint} {x : Pubkey} (ha : L.accounts k = account a)
    (hm : L.accounts x = account m) : k ≠ x := by
  rintro rfl
  rw [ha] at hm
  have hkind := congrArg Account.kind hm
  simp [kind] at hkind

end Views

namespace Token2022

variable {L L' : Ledger} {signers : List Pubkey}
  {source destination mintKey authority T k payer : Pubkey} {amount : ℕ}

@[simp] theorem unpackAccount_eq_ok {a : TokenAccount} :
    unpackAccount L k = .ok a ↔ L.accounts k = account a := by
  simp [unpackAccount, view_eq_some]

@[simp] theorem unpackMint_eq_ok {m : Mint} :
    unpackMint L k = .ok m ↔ L.accounts k = account m := by
  simp [unpackMint, view_eq_some]

@[simp] theorem validateOwner_eq_ok {expected : Pubkey} {u : Unit} :
    validateOwner signers expected authority = .ok u ↔
      expected = authority ∧ authority ∈ signers := by
  simp [validateOwner]

@[simp] theorem checkDecimals_eq_ok {m : Mint} {expected : Option ℕ} {u : Unit} :
    checkDecimals m expected = .ok u ↔ ∀ decimals ∈ expected, m.decimals = decimals := by
  simp [checkDecimals]

/-- Who may debit an account, and what stays of it. -/
structure Debit (signers : List Pubkey) (permanentDelegate : Option Pubkey) (authority : Pubkey)
    (a a' : TokenAccount) : Prop where
  mint : a'.mint = a.mint
  owner : a'.owner = a.owner
  amount : a'.amount = a.amount
  transferring : a'.transferring = a.transferring
  isFrozen : a'.isFrozen = a.isFrozen
  signed : authority ∈ signers
  authorized : permanentDelegate = some authority ∨ a.delegate = some authority ∨
    a.owner = authority

theorem authorizeDebit_ok {permanentDelegate : Option Pubkey} {a a' : TokenAccount}
    {selfTransfer : Bool}
    (h : authorizeDebit signers permanentDelegate a authority amount selfTransfer = .ok a') :
    Debit signers permanentDelegate authority a a' := by
  unfold authorizeDebit at h
  split at h
  case isTrue hpermanent =>
    simp only [bind_eq_ok, validateOwner_eq_ok, exists_const, Except.ok.injEq] at h
    obtain ⟨⟨-, hsigned⟩, rfl⟩ := h
    exact ⟨rfl, rfl, rfl, rfl, rfl, hsigned, .inl hpermanent⟩
  case isFalse =>
    split at h
    case isTrue hdelegate =>
      simp only [bind_eq_ok, validateOwner_eq_ok, require_eq_ok, exists_const] at h
      obtain ⟨⟨-, hsigned⟩, -, h⟩ := h
      split at h
      · obtain rfl := Except.ok.inj h
        exact ⟨rfl, rfl, rfl, rfl, rfl, hsigned, .inr (.inl hdelegate)⟩
      · obtain rfl := Except.ok.inj h
        exact ⟨rfl, rfl, rfl, rfl, rfl, hsigned, .inr (.inl hdelegate)⟩
    case isFalse =>
      simp only [bind_eq_ok, validateOwner_eq_ok, exists_const, Except.ok.injEq] at h
      obtain ⟨⟨howner, hsigned⟩, rfl⟩ := h
      exact ⟨rfl, rfl, rfl, rfl, rfl, hsigned, .inr (.inr howner)⟩

/-! ## Minting and burning -/

theorem mintTo_ok {decimals : Option ℕ}
    (h : mintTo L signers mintKey destination authority amount decimals = .ok L') :
    ∃ (a : TokenAccount) (m : Mint), L.accounts destination = account a ∧
      L.accounts mintKey = account m ∧ a.mint = mintKey ∧ m.mintAuthority = some authority ∧
        authority ∈ signers ∧
          L' = (L.put destination { a with amount := a.amount + amount }).put mintKey
            { m with supply := m.supply + amount } := by
  simp only [mintTo, bind_eq_ok, unpackAccount_eq_ok, unpackMint_eq_ok, require_eq_ok,
    checkDecimals_eq_ok, okOr_eq_ok, validateOwner_eq_ok, checkedAdd_eq_some, exists_const,
    Except.ok.injEq] at h
  obtain ⟨a, ha, -, hmint, m, hm, -, _, hcurrent, ⟨rfl, hsigned⟩, _, ⟨-, rfl⟩, _, ⟨-, rfl⟩,
    rfl⟩ := h
  exact ⟨a, m, ha, hm, hmint, hcurrent, hsigned, rfl⟩

theorem burn_ok {decimals : Option ℕ}
    (h : burn L signers source mintKey authority amount decimals = .ok L') :
    ∃ (a a' : TokenAccount) (m : Mint), L.accounts source = account a ∧
      L.accounts mintKey = account m ∧ a.mint = mintKey ∧ amount ≤ a.amount ∧
        amount ≤ m.supply ∧
          ((ownedBySystemOrIncinerator a ∧ a' = a) ∨
            Debit signers m.permanentDelegate.join authority a a') ∧
            L' = (L.put source { a' with amount := a.amount - amount }).put mintKey
              { m with supply := m.supply - amount } := by
  simp only [burn, bind_eq_ok, unpackAccount_eq_ok, unpackMint_eq_ok, require_eq_ok,
    checkDecimals_eq_ok, okOr_eq_ok, checkedSub_eq_some, exists_const, Except.ok.injEq] at h
  obtain ⟨a, ha, m, hm, -, hle, hmint, -, a', hauth, _, ⟨hsupply, rfl⟩, rfl⟩ := h
  refine ⟨a, a', m, ha, hm, hmint, hle, hsupply, ?_, rfl⟩
  unfold authorizeBurn at hauth
  split at hauth
  case isTrue hsystem => exact .inl ⟨hsystem, (Except.ok.inj hauth).symm⟩
  case isFalse => exact .inr (authorizeDebit_ok hauth)

/-- Minting moves one balance and the supply by the same amount. -/
theorem mintTo_books {decimals : Option ℕ}
    (h : mintTo L signers mintKey destination authority amount decimals = .ok L') (T : Pubkey) :
    balance L' T = Function.update (balance L T) destination
        (balance L T destination + if T = mintKey then amount else 0) ∧
      supply L' T = supply L T + if T = mintKey then amount else 0 := by
  obtain ⟨a, m, ha, hm, hmint, -, -, rfl⟩ := mintTo_ok h
  have hne := account_ne_mint ha hm
  have hm' : (L.put destination { a with amount := a.amount + amount }).accounts mintKey =
      account m := by
    rw [put_accounts_of_ne _ hne.symm, hm]
  constructor
  · rw [balance_put_mint hm', balance_put, balance_of_account ha, hmint]
    congr 1
    by_cases hT : T = mintKey
    · simp [hT]
    · simp [hT, Ne.symm hT]
  · rw [supply_put_mint, supply_put_account ha]
    by_cases hT : T = mintKey
    · subst hT
      simp [supply_of_account hm]
    · simp [hT]

/-- Burning moves one balance and the supply by the same amount. -/
theorem burn_books {decimals : Option ℕ}
    (h : burn L signers source mintKey authority amount decimals = .ok L') (T : Pubkey) :
    (if T = mintKey then amount else 0) ≤ balance L T source ∧
      (if T = mintKey then amount else 0) ≤ supply L T ∧
        balance L' T = Function.update (balance L T) source
          (balance L T source - if T = mintKey then amount else 0) ∧
          supply L' T = supply L T - if T = mintKey then amount else 0 := by
  obtain ⟨a, a', m, ha, hm, hmint, hle, hsupply, hdebit, rfl⟩ := burn_ok h
  have hne := account_ne_mint ha hm
  have hmint' : a'.mint = mintKey := by
    rcases hdebit with ⟨-, rfl⟩ | hdebit
    · exact hmint
    · exact hdebit.mint.trans hmint
  have hm' : (L.put source { a' with amount := a.amount - amount }).accounts mintKey =
      account m := by
    rw [put_accounts_of_ne _ hne.symm, hm]
  rw [balance_put_mint hm', balance_put, balance_of_account ha, supply_put_mint,
    supply_put_account ha, hmint, hmint']
  by_cases hT : T = mintKey
  · subst hT
    simp [supply_of_account hm, hle, hsupply]
  · simp [hT, Ne.symm hT]

/-! ## Transfers -/

/-- The flags around a hook that leaves token accounts alone: the hook sees the
moved balances under raised flags, and afterwards the flags are down again. -/
theorem runTransferHook_ok {invokeHook : Ledger → HookCall → Result Ledger}
    {a b : TokenAccount} {call : HookCall} {S : List AccountKind}
    (hS : AccountKind.tokenAccount ∉ S)
    (hframe : ∀ L₁ L₂, invokeHook L₁ call = .ok L₂ → Frame S L₁ L₂)
    (hne : call.source ≠ call.destination)
    (h : runTransferHook invokeHook L a b call = .ok L') :
    ∃ L₂, invokeHook ((L.put call.source (setTransferring true a)).put call.destination
        (setTransferring true b)) call = .ok L₂ ∧
      L₂.accounts call.source = account (setTransferring true a) ∧
        L₂.accounts call.destination = account (setTransferring true b) ∧
          L' = (L₂.put call.source (setTransferring false a)).put call.destination
            (setTransferring false b) := by
  simp only [runTransferHook, unsetTransferring, bind_eq_ok, require_eq_ok, exists_const,
    unpackAccount_eq_ok, Except.ok.injEq] at h
  obtain ⟨-, -, L₂, hhook, L₃, ⟨a₂, ha₂, rfl⟩, b₂, hb₂, rfl⟩ := h
  have hkind : kind TokenAccount ∉ S := hS
  have hsource := (hframe _ _ hhook).accounts_eq hkind (k := call.source)
    (a := setTransferring true a) (by rw [put_accounts_of_ne _ hne, put_accounts_self])
  have hdestination := (hframe _ _ hhook).accounts_eq hkind (k := call.destination)
    (a := setTransferring true b) (put_accounts_self _)
  rw [put_accounts_of_ne _ hne.symm] at hb₂
  obtain rfl := account_inj.1 (hsource.symm.trans ha₂)
  obtain rfl := account_inj.1 (hdestination.symm.trans hb₂)
  refine ⟨L₂, hhook, hsource, hdestination, ?_⟩
  simp only [setTransferring, Option.map_map]
  rfl

end Token2022

end Fracks
