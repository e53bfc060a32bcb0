import Fracks.Deployment

/-!
# Freezes and the accounts a caller passes

The freeze records of a wallet live at addresses derived from the token and the
wallet, but the instructions look at whatever accounts the caller passes for
them.  A forbidden transfer or purchase is refused exactly when those accounts
are refused or something else is wrong; the derived addresses are always refused.
-/

namespace Fracks.Token

open Checked AccountType Ledger

/-! ## What the ledger says -/

/-- The wallet has a freeze record for the token. -/
def WalletFrozen (L : Ledger) (tokenMint wallet : Pubkey) : Prop :=
  ∃ r : FrozenWallet, L.accounts (frozenAddress tokenMint wallet) = account r

/-- `n` tokens of the wallet are frozen. -/
def PartiallyFrozen (L : Ledger) (tokenMint wallet : Pubkey) (n : ℕ) : Prop :=
  ∃ r : PartialFreeze, L.accounts (partialFreezeAddress tokenMint wallet) = account r ∧
    r.frozenAmount = n

/-- The freezes of the two wallets forbid the move of `amount`. -/
def FreezesForbid (L : Ledger) (tokenMint source destination : Pubkey)
    (amount fromBalance : ℕ) : Prop :=
  WalletFrozen L tokenMint source ∨ WalletFrozen L tokenMint destination ∨
    ∃ n, PartiallyFrozen L tokenMint source n ∧ fromBalance - n < amount

def TransferForbidden (L : Ledger) (accts : TransferEvaluation) (amount fromBalance : ℕ) : Prop :=
  ∃ ts : TokenState, L.accounts accts.tokenState = account ts ∧
    FreezesForbid L ts.tokenMint accts.fromWallet accts.toWallet amount fromBalance

def PurchaseForbidden (L : Ledger) (purchase : PurchaseAccounts) : Prop :=
  ∃ ts : TokenState, L.accounts purchase.tokenState = account ts ∧
    WalletFrozen L ts.tokenMint purchase.buyer

/-! ## What the passed accounts say -/

/-- An account that stands for a wallet without freeze. -/
def ReadsUnfrozen (L : Ledger) (k : Pubkey) : Prop :=
  k = .default ∨ (L.accounts k).data = .empty ∨ (L.accounts k).owner ≠ controllerProgram

section Gate

variable [Borsh]

/-- An account that stands for `n` frozen tokens of the wallet. -/
def ReadsPartial (L : Ledger) (k tokenMint wallet : Pubkey) (n : ℕ) : Prop :=
  if k = .default ∨ (L.accounts k).data = .empty ∨ (L.accounts k).owner = .default then n = 0
  else ∃ r : PartialFreeze, Borsh.decodeView PartialFreeze (L.accounts k).data = some r ∧
    r.wallet = wallet ∧ r.tokenMint = tokenMint ∧ r.frozenAmount = n

/-- The freeze accounts of a transfer are refused: one of the two stands for a
frozen wallet, or what is left of the balance is not enough. -/
def TransferGateRefuses (L : Ledger) (accts : TransferEvaluation) (amount fromBalance : ℕ) :
    Prop :=
  ∃ ts : TokenState, L.accounts accts.tokenState = account ts ∧
    (¬ ReadsUnfrozen L accts.fromFrozen ∨ ¬ ReadsUnfrozen L accts.toFrozen ∨
      ∀ n, ReadsPartial L accts.fromPartialFreeze ts.tokenMint accts.fromWallet n →
        fromBalance - n < amount)

/-- Everything about a transfer but its freezes is in order. -/
def TransferInOrder (L : Ledger) (signers : List Pubkey) (accts : TransferEvaluation)
    (amount fromBalance toBalance : ℕ) : Prop :=
  ∃ L' ts source destination fromCountry toCountry, Approved L L' signers accts amount
    fromBalance toBalance ts source destination fromCountry toCountry

/-- Everything about a purchase but the freeze of the buyer is in order. -/
def PurchaseInOrder (L : Ledger) (signers : List Pubkey) (purchase : PurchaseAccounts)
    (accts : ReceiverAccounts) (amount toAfter : ℕ) : Prop :=
  ∃ L' ts terms due country L₁, Purchased L L' signers purchase accts amount toAfter ts terms due
    country L₁

variable {L L' : Ledger} {signers : List Pubkey}

@[simp] theorem ensureWalletNotFrozen_eq_ok {k wallet tokenMint : Pubkey} {u : Unit} :
    ensureWalletNotFrozen L k wallet tokenMint = .ok u ↔ ReadsUnfrozen L k := by
  unfold ensureWalletNotFrozen ReadsUnfrozen
  split
  case isTrue h => simp [h]
  case isFalse h => simp [h]

@[simp] theorem readPartialFreezeAmount_eq_ok {k wallet tokenMint : Pubkey} {n : ℕ} :
    readPartialFreezeAmount L k wallet tokenMint = .ok n ↔
      ReadsPartial L k tokenMint wallet n := by
  unfold readPartialFreezeAmount ReadsPartial
  split
  case isTrue => simp [eq_comm]
  case isFalse =>
    simp only [bind_eq_ok, deserializeLocal, okOr_eq_ok, require_eq_ok, exists_const,
      Except.ok.injEq, and_assoc]

theorem freezesRead_iff {ts : TokenState} {accts : TransferEvaluation} {n : ℕ} :
    FreezesRead L ts accts n ↔ ReadsUnfrozen L accts.fromFrozen ∧ ReadsUnfrozen L accts.toFrozen ∧
      ReadsPartial L accts.fromPartialFreeze ts.tokenMint accts.fromWallet n := by
  constructor
  · rintro ⟨hsource, hdestination, hheld⟩
    exact ⟨ensureWalletNotFrozen_eq_ok.1 hsource, ensureWalletNotFrozen_eq_ok.1 hdestination,
      readPartialFreezeAmount_eq_ok.1 hheld⟩
  · rintro ⟨hsource, hdestination, hheld⟩
    exact ⟨ensureWalletNotFrozen_eq_ok.2 hsource, ensureWalletNotFrozen_eq_ok.2 hdestination,
      readPartialFreezeAmount_eq_ok.2 hheld⟩

/-! ## The derived addresses -/

omit [Borsh] in
theorem not_readsUnfrozen_of_frozen {tokenMint wallet : Pubkey}
    (h : WalletFrozen L tokenMint wallet) :
    ¬ ReadsUnfrozen L (frozenAddress tokenMint wallet) := by
  obtain ⟨r, hr⟩ := h
  rintro (hkey | hdata | howner)
  · simp [frozenAddress, Pubkey.findProgramAddress, Pubkey.addSeed, Pubkey.default] at hkey
  · rw [hr] at hdata
    simp [encode] at hdata
  · rw [hr] at howner
    exact howner rfl

/-- The canonical record is read for what it says. -/
theorem readsPartial_of_frozen {tokenMint wallet : Pubkey} {n m : ℕ}
    (h : PartiallyFrozen L tokenMint wallet n)
    (hread : ReadsPartial L (partialFreezeAddress tokenMint wallet) tokenMint wallet m) :
    m = n := by
  obtain ⟨r, hr, rfl⟩ := h
  unfold ReadsPartial at hread
  rw [if_neg] at hread
  · obtain ⟨r', hr', -, -, rfl⟩ := hread
    rw [hr, account_data, Borsh.decodeView_encode] at hr'
    rw [Option.some.inj hr']
  · rintro (hkey | hdata | howner)
    · simp [partialFreezeAddress, Pubkey.findProgramAddress, Pubkey.addSeed, Pubkey.default] at hkey
    · rw [hr] at hdata
      simp [encode] at hdata
    · rw [hr] at howner
      simp [kind, AccountKind.program, Pubkey.default] at howner

/-- The freeze accounts of a transfer are the derived addresses. -/
structure CanonicalFreezes (tokenMint : Pubkey) (accts : TransferEvaluation) : Prop where
  source : accts.fromFrozen = frozenAddress tokenMint accts.fromWallet
  destination : accts.toFrozen = frozenAddress tokenMint accts.toWallet
  partialFreeze : accts.fromPartialFreeze = partialFreezeAddress tokenMint accts.fromWallet

/-- With the derived addresses the gate admits no forbidden transfer. -/
theorem CanonicalFreezes.not_forbid {tokenMint : Pubkey} {accts : TransferEvaluation}
    {amount fromBalance n : ℕ} (h : CanonicalFreezes tokenMint accts)
    (hsource : ReadsUnfrozen L accts.fromFrozen) (hdestination : ReadsUnfrozen L accts.toFrozen)
    (hheld : ReadsPartial L accts.fromPartialFreeze tokenMint accts.fromWallet n)
    (hamount : amount ≤ fromBalance - n) :
    ¬ FreezesForbid L tokenMint accts.fromWallet accts.toWallet amount fromBalance := by
  rintro (hfrozen | hfrozen | ⟨m, hfrozen, hlt⟩)
  · exact not_readsUnfrozen_of_frozen hfrozen (h.source ▸ hsource)
  · exact not_readsUnfrozen_of_frozen hfrozen (h.destination ▸ hdestination)
  · obtain rfl := readsPartial_of_frozen hfrozen (h.partialFreeze ▸ hheld)
    omega

/-! ## Forbidden transfers and purchases -/

theorem transfer_refused_iff {accts : TransferEvaluation} {amount fromBalance toBalance : ℕ} :
    (∀ L', transfer L signers accts amount fromBalance toBalance ≠ .ok L') ↔
      TransferGateRefuses L accts amount fromBalance ∨
        ¬ TransferInOrder L signers accts amount fromBalance toBalance := by
  constructor
  · intro hrefused
    by_contra hpass
    push Not at hpass
    obtain ⟨hgate, L', ts, s, d, c, c', happroved⟩ := hpass
    refine hgate ⟨ts, happroved.tokenStateAt, ?_⟩
    by_contra hread
    push Not at hread
    obtain ⟨hsource, hdestination, n, hheld, hamount⟩ := hread
    exact hrefused L' (transfer_eq_ok.2 ⟨ts, s, d, c, c', happroved, n,
      freezesRead_iff.2 ⟨hsource, hdestination, hheld⟩, hamount⟩)
  · intro hrefused L' hok
    obtain ⟨ts, s, d, c, c', happroved, n, hfreezes, hamount⟩ := transfer_eq_ok.1 hok
    obtain ⟨hsource, hdestination, hheld⟩ := freezesRead_iff.1 hfreezes
    rcases hrefused with ⟨ts', hts', hgate⟩ | hrefused
    · obtain rfl := account_inj.1 (hts'.symm.trans happroved.tokenStateAt)
      rcases hgate with hgate | hgate | hgate
      · exact hgate hsource
      · exact hgate hdestination
      · have := hgate n hheld
        omega
    · exact hrefused ⟨L', ts, s, d, c, c', happroved⟩

theorem purchaseMint_refused_iff {purchase : PurchaseAccounts} {accts : ReceiverAccounts}
    {amount toAfter : ℕ} :
    (∀ L', purchaseMint L signers purchase accts amount toAfter ≠ .ok L') ↔
      ¬ ReadsUnfrozen L accts.toFrozen ∨
        ¬ PurchaseInOrder L signers purchase accts amount toAfter := by
  constructor
  · intro hrefused
    by_contra hpass
    push Not at hpass
    obtain ⟨hgate, L', ts, terms, due, country, L₁, hp⟩ := hpass
    exact hrefused L' (purchaseMint_eq_ok.2 ⟨ts, terms, due, country, L₁, hp,
      ensureWalletNotFrozen_eq_ok.2 hgate⟩)
  · intro hrefused L' hok
    obtain ⟨ts, terms, due, country, L₁, hp, hgate⟩ := purchaseMint_eq_ok.1 hok
    rcases hrefused with hrefused | hrefused
    · exact hrefused (ensureWalletNotFrozen_eq_ok.1 hgate)
    · exact hrefused ⟨L', ts, terms, due, country, L₁, hp⟩

/-- A forbidden transfer or purchase is refused exactly when the caller's own
freeze accounts stand for the freeze or another check fails. -/
theorem freezes_enforced_iff (L : Ledger) (signers : List Pubkey) (accts : TransferEvaluation)
    (amount fromBalance toBalance : ℕ) (purchase : PurchaseAccounts) (receiver : ReceiverAccounts)
    (purchased toAfter : ℕ) :
    ((TransferForbidden L accts amount fromBalance →
        ∀ L', transfer L signers accts amount fromBalance toBalance ≠ .ok L') ↔
      ¬ TransferForbidden L accts amount fromBalance ∨
        TransferGateRefuses L accts amount fromBalance ∨
          ¬ TransferInOrder L signers accts amount fromBalance toBalance) ∧
    ((PurchaseForbidden L purchase →
        ∀ L', purchaseMint L signers purchase receiver purchased toAfter ≠ .ok L') ↔
      ¬ PurchaseForbidden L purchase ∨ ¬ ReadsUnfrozen L receiver.toFrozen ∨
        ¬ PurchaseInOrder L signers purchase receiver purchased toAfter) := by
  rw [transfer_refused_iff, purchaseMint_refused_iff]
  exact ⟨imp_iff_not_or, imp_iff_not_or⟩

end Gate

/-! ## A frozen sender -/

def frozenSender : Holding := ⟨.address 10, .address 11, 10⟩

def freeReceiver : Holding := ⟨.address 20, .address 21, 0⟩

def frozenDeployment : Deployment where
  tokenMint := .address 0
  issuer := .address 1
  paused := false
  modules := []
  modulesPaused := false
  metas := TokenHook.baseMetas
  wallets := [(frozenSender.wallet, 276), (freeReceiver.wallet, 276)]
  holdings := [frozenSender, freeReceiver]

/-- The sender is frozen, and nine of its ten tokens are frozen as well. -/
def frozenLedger : Ledger :=
  frozenDeployment.ledger
    [(frozenAddress frozenDeployment.tokenMint frozenSender.wallet, account
      ({ wallet := frozenSender.wallet, tokenMint := frozenDeployment.tokenMint,
         frozenBy := frozenDeployment.issuer, frozenAt := 1 } : FrozenWallet)),
    (partialFreezeAddress frozenDeployment.tokenMint frozenSender.wallet, account
      ({ wallet := frozenSender.wallet, tokenMint := frozenDeployment.tokenMint,
         frozenAmount := 9, frozenBy := frozenDeployment.issuer } : PartialFreeze))]

/-- The sender passes the system program for its own freeze records. -/
def evasiveAccounts : TransferEvaluation :=
  frozenDeployment.transferAccounts frozenSender freeReceiver .default .default .default []

theorem frozen_sender_transfers :
    ¬ (TransferForbidden frozenLedger evasiveAccounts 3 10 →
      ∀ L', @transfer strictBorsh frozenLedger [frozenSender.wallet] evasiveAccounts 3 10 0 ≠
        .ok L') := by
  intro h
  obtain ⟨L', hL'⟩ : ∃ L', @transfer strictBorsh frozenLedger [frozenSender.wallet]
      evasiveAccounts 3 10 0 = .ok L' := ⟨_, rfl⟩
  exact h ⟨frozenDeployment.tokenStateRecord, rfl, .inl ⟨_, rfl⟩⟩ L' hL'

end Fracks.Token
