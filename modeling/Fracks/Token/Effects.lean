import Fracks.Token.Instructions

/-!
# What the controller's instructions do

The administrative instructions are given by their frames.  The others are a
fixed sequence of steps, and a structure lists what a successful one has
checked and the ledgers it has passed through: an approval, an issue of new
tokens, a redemption, and a transfer made by the controller itself.
-/

namespace Fracks.Token

open Checked AccountType Ledger TokenHook Token2022

variable {L L' : Ledger} {signers : List Pubkey}

/-! ## Guards -/

@[simp] theorem loadTokenState_eq_ok {k : Pubkey} {ts : TokenState} :
    loadTokenState L k = .ok ts ↔
      L.accounts k = account ts ∧ k = tokenStateAddress ts.tokenMint := by
  simp only [loadTokenState, bind_eq_ok, load_eq_ok, requireSeeds_eq_ok, exists_const,
    Except.ok.injEq]
  constructor
  · rintro ⟨ts', hts, hseeds, rfl⟩
    exact ⟨hts, hseeds⟩
  · rintro ⟨hts, hseeds⟩
    exact ⟨ts, hts, hseeds, rfl⟩

theorem OperatorAccounts.check_ok {accts : OperatorAccounts} {ts : TokenState}
    (h : accts.check L signers = .ok ts) :
    accts.authority ∈ signers ∧ L.accounts accts.tokenState = account ts ∧
      accts.tokenState = tokenStateAddress ts.tokenMint := by
  simp only [OperatorAccounts.check, bind_eq_ok, requireSigner_eq_ok, loadTokenState_eq_ok,
    exists_const, Except.ok.injEq] at h
  obtain ⟨hsigner, ts', ⟨hts, hseeds⟩, -, -, rfl⟩ := h
  exact ⟨hsigner, hts, hseeds⟩

theorem OwnerAccounts.check_ok {accts : OwnerAccounts} {r : TokenState × OwnerState}
    (h : accts.check L signers = .ok r) :
    L.accounts accts.tokenState = account r.1 ∧
      accts.tokenState = tokenStateAddress r.1.tokenMint ∧
        L.accounts accts.ownerState = account r.2 := by
  simp only [OwnerAccounts.check, bind_eq_ok, requireSigner_eq_ok, loadTokenState_eq_ok,
    load_eq_ok, requireSeeds_eq_ok, require_eq_ok, exists_const, Except.ok.injEq] at h
  obtain ⟨-, ts, ⟨hts, hseeds⟩, os, hos, -, -, -, rfl⟩ := h
  exact ⟨hts, hseeds, hos⟩

@[simp] theorem readTokenAccount_eq_ok {k : Pubkey} {a : TokenAccount} :
    readTokenAccount L k = .ok a ↔ L.accounts k = account a := by
  simp [readTokenAccount, view_eq_some]

@[simp] theorem validateTokenAccount_eq_ok {a : TokenAccount} {mint owner : Pubkey} {u : Unit} :
    validateTokenAccount a mint owner = .ok u ↔
      a.mint = mint ∧ a.owner = owner ∧ a.isFrozen = false := by
  simp [validateTokenAccount]

theorem validateTokenMintAccount_ok {mintKey : Pubkey} {ts : TokenState} {u : Unit}
    (h : validateTokenMintAccount L mintKey ts true = .ok u) :
    mintKey = ts.tokenMint ∧ ∃ m : Mint, L.accounts mintKey = account m ∧
      m.transferHook.bind TransferHook.programId = some hookProgram ∧
        m.mintAuthority = some (tokenStateAddress ts.tokenMint) := by
  simp only [validateTokenMintAccount, bind_eq_ok, require_eq_ok, okOr_eq_ok, view_eq_some,
    exists_const] at h
  obtain ⟨hkey, m, hm, -, -, hook, hhook, hprogram, -, hauthority⟩ := h
  exact ⟨hkey, m, hm, by rw [hhook]; exact hprogram, hauthority⟩

@[simp] theorem requireTokenProgram_eq_ok {k : Pubkey} {u : Unit} :
    requireTokenProgram k = .ok u ↔ k = tokenProgram := require_eq_ok

/-! ## Administration -/

theorem frame_initializeToken {owner tokenState ownerState : Pubkey} {args : InitializeTokenArgs}
    (h : initializeToken L signers owner tokenState ownerState args = .ok L') :
    Frame [.tokenState, .ownerState] L L' := by
  simp only [initializeToken, bind_eq_ok, requireSigner_eq_ok, exists_const] at h
  obtain ⟨-, -, -, L₁, hstate, howner⟩ := h
  exact (Frame.initRecord hstate (by decide)).trans (.initRecord howner (by decide))

theorem updateTokenState_ok {accts : OwnerAccounts} {f : TokenState → TokenState}
    (h : updateTokenState L signers accts f = .ok L') :
    ∃ ts : TokenState, L.accounts accts.tokenState = account ts ∧
      accts.tokenState = tokenStateAddress ts.tokenMint ∧ L' = L.put accts.tokenState (f ts) := by
  simp only [updateTokenState, bind_eq_ok, Except.ok.injEq] at h
  obtain ⟨r, hr, rfl⟩ := h
  obtain ⟨hts, hseeds, -⟩ := OwnerAccounts.check_ok hr
  exact ⟨r.1, hts, hseeds, rfl⟩

theorem frame_updateTokenState {accts : OwnerAccounts} {f : TokenState → TokenState}
    (h : updateTokenState L signers accts f = .ok L') : Frame [.tokenState] L L' := by
  obtain ⟨ts, hts, -, rfl⟩ := updateTokenState_ok h
  exact .put hts (by decide)

theorem initializeMintMetadata_ok {accts : OwnerAccounts} {mintKey program : Pubkey}
    {name symbol : String}
    (h : initializeMintMetadata L signers accts mintKey program name symbol = .ok L') :
    L' = L := by
  simp only [initializeMintMetadata, bind_eq_ok, Except.ok.injEq] at h
  obtain ⟨_, -, _, -, _, -, _, -, _, -, rfl⟩ := h
  rfl

theorem frame_transferOwnership {accts : OwnerAccounts} {newOwner : Pubkey}
    (h : transferOwnership L signers accts newOwner = .ok L') : Frame [.ownerState] L L' := by
  simp only [transferOwnership, bind_eq_ok, require_eq_ok, exists_const, Except.ok.injEq] at h
  obtain ⟨r, hr, -, rfl⟩ := h
  exact .put (OwnerAccounts.check_ok hr).2.2 (by decide)

theorem frame_addAgent {accts : OwnerAccounts} {agentRole agent : Pubkey}
    (h : addAgent L signers accts agentRole agent = .ok L') : Frame [.agentRole] L L' := by
  simp only [addAgent] at h
  exact .of_bind h fun _ h ↦ .initRecord h (by decide)

theorem frame_removeAgent {accts : OwnerAccounts} {agentRole : Pubkey}
    (h : removeAgent L signers accts agentRole = .ok L') : Frame [.agentRole] L L' := by
  simp only [removeAgent, bind_eq_ok, load_eq_ok, requireSeeds_eq_ok, exists_const,
    Except.ok.injEq] at h
  obtain ⟨r, -, role, hrole, -, rfl⟩ := h
  exact .close hrole (by decide)

/-! ## Freezes -/

theorem freezeWallet_ok {accts : OperatorAccounts} {wallet frozenWallet : Pubkey}
    (h : freezeWallet L signers accts wallet frozenWallet = .ok L') :
    ∃ ts : TokenState, L.accounts (tokenStateAddress ts.tokenMint) = account ts ∧
      accts.tokenState = tokenStateAddress ts.tokenMint ∧
        frozenWallet = frozenAddress ts.tokenMint wallet ∧
          ∀ x, x ≠ frozenWallet → L'.accounts x = L.accounts x := by
  simp only [freezeWallet, bind_eq_ok] at h
  obtain ⟨ts, hcheck, hinit⟩ := h
  obtain ⟨-, hts, hseeds⟩ := OperatorAccounts.check_ok hcheck
  obtain ⟨hkey, -, -, hother⟩ := initRecord_ok hinit
  exact ⟨ts, hseeds ▸ hts, hseeds, hkey, hother⟩

theorem frame_freezeWallet {accts : OperatorAccounts} {wallet frozenWallet : Pubkey}
    (h : freezeWallet L signers accts wallet frozenWallet = .ok L') :
    Frame [.frozenWallet] L L' := by
  simp only [freezeWallet] at h
  exact .of_bind h fun _ h ↦ .initRecord h (by decide)

theorem unfreezeWallet_ok {accts : OperatorAccounts} {frozenWallet : Pubkey}
    (h : unfreezeWallet L signers accts frozenWallet = .ok L') :
    ∃ r : FrozenWallet, L.accounts frozenWallet = account r ∧
      L' = L.close frozenWallet accts.authority := by
  simp only [unfreezeWallet, bind_eq_ok, load_eq_ok, requireSeeds_eq_ok, exists_const,
    Except.ok.injEq] at h
  obtain ⟨ts, -, r, hr, -, rfl⟩ := h
  exact ⟨r, hr, rfl⟩

theorem freezePartial_ok {accts : OperatorAccounts} {wallet partialFreeze : Pubkey} {amount : ℕ}
    (h : freezePartial L signers accts wallet partialFreeze amount = .ok L') :
    ∃ ts : TokenState, L.accounts (tokenStateAddress ts.tokenMint) = account ts ∧
      accts.tokenState = tokenStateAddress ts.tokenMint ∧
        partialFreeze = partialFreezeAddress ts.tokenMint wallet ∧
          (∀ x, x ≠ partialFreeze → L'.accounts x = L.accounts x) ∧
            Frame [.partialFreeze] L L' := by
  simp only [freezePartial, bind_eq_ok, require_eq_ok, okOr_eq_ok, exists_const,
    Except.ok.injEq] at h
  obtain ⟨ts, hcheck, -, ⟨L₁, old⟩, hinit, n, -, rfl⟩ := h
  obtain ⟨-, hts, hseeds⟩ := OperatorAccounts.check_ok hcheck
  obtain ⟨hkey, hother, -, hframe⟩ := initIfNeeded_ok hinit
  refine ⟨ts, hseeds ▸ hts, hseeds, hkey, fun x hx ↦ ?_, hframe _ (by decide) _⟩
  rw [put_accounts_of_ne _ hx, hother x hx]

/-- Unfreezing lowers the amount of a record that is there, or closes it. -/
theorem unfreezePartial_ok {accts : OperatorAccounts} {wallet partialFreeze : Pubkey}
    {amount : ℕ} (h : unfreezePartial L signers accts wallet partialFreeze amount = .ok L') :
    ∃ r : PartialFreeze, L.accounts partialFreeze = account r ∧
      (∀ x, x ≠ partialFreeze → L'.accounts x = L.accounts x) ∧
        (L'.accounts partialFreeze = .vacant ∨
          L'.accounts partialFreeze =
            account { r with frozenAmount := r.frozenAmount - amount }) := by
  simp only [unfreezePartial, bind_eq_ok, require_eq_ok, exists_const] at h
  obtain ⟨ts, -, hpos, ⟨L₁, old⟩, hinit, hle, h⟩ := h
  obtain ⟨-, hother, ⟨rfl, -, -⟩ | ⟨r, rfl, hr, hr₁⟩, -⟩ := initIfNeeded_ok hinit
  · simp [partialFreezeOrDefault] at hle
    omega
  · refine ⟨r, hr, ?_⟩
    split at h
    · obtain rfl := Except.ok.inj h
      refine ⟨fun x hx ↦ ?_, .inl ?_⟩
      · exact (setAccount_accounts_of_ne _ hx).trans (hother x hx)
      · simp [Ledger.close, setAccount]
    · obtain rfl := Except.ok.inj h
      refine ⟨fun x hx ↦ ?_, .inr (put_accounts_self _)⟩
      rw [put_accounts_of_ne _ hx, hother x hx]

theorem frame_unfreezeWallet {accts : OperatorAccounts} {frozenWallet : Pubkey}
    (h : unfreezeWallet L signers accts frozenWallet = .ok L') : Frame [.frozenWallet] L L' := by
  obtain ⟨r, hr, rfl⟩ := unfreezeWallet_ok h
  exact .close hr (by decide)

theorem frame_unfreezePartial {accts : OperatorAccounts} {wallet partialFreeze : Pubkey}
    {amount : ℕ} (h : unfreezePartial L signers accts wallet partialFreeze amount = .ok L') :
    Frame [.partialFreeze] L L' := by
  obtain ⟨r, hr, hother, hafter⟩ := unfreezePartial_ok h
  intro x hx
  by_cases hxk : x = partialFreeze
  · subst hxk
    refine ⟨.inr (by simp [hr, kind]), hafter.imp_right fun h ↦ by simp [h, kind]⟩
  · exact absurd (hother x hxk) hx

section Transfers

variable [Borsh]

/-! ## Approval of a transfer -/

/-- What the freeze accounts of a transfer are taken to say: both wallets are
not frozen and `n` tokens of the sender are. -/
structure FreezesRead (L : Ledger) (ts : TokenState) (accts : TransferEvaluation) (n : ℕ) :
    Prop where
  source : ensureWalletNotFrozen L accts.fromFrozen accts.fromWallet ts.tokenMint = .ok ()
  destination : ensureWalletNotFrozen L accts.toFrozen accts.toWallet ts.tokenMint = .ok ()
  partialAmount : readPartialFreezeAmount L accts.fromPartialFreeze accts.fromWallet ts.tokenMint =
    .ok n

/-- The call of `approve_transfer` for a transfer. -/
def approvalAccounts (accts : TransferEvaluation) : ApproveTransferAccounts where
  payer := accts.fromWallet
  controllerAuthority := accts.tokenState
  tokenState := accts.tokenState
  tokenMintAccount := accts.tokenMintAccount
  sourceTokenAccount := accts.sourceTokenAccount
  destinationTokenAccount := accts.destinationTokenAccount
  transferApproval := accts.transferApproval
  authoritySeed := accts.fromWallet

def approvalArgs (accts : TransferEvaluation)
    (amount fromBalance toBalance fromCountry toCountry : ℕ) : ApproveTransferArgs where
  sourceWallet := accts.fromWallet
  destinationWallet := accts.toWallet
  authority := accts.fromWallet
  amount := amount
  fromBalance := fromBalance
  toBalance := toBalance
  fromCountry := fromCountry
  toCountry := toCountry
  kind := transferApprovalKindTransfer

/-- The part of the evaluation of a transfer that is not about freezes. -/
structure Evaluated (L : Ledger) (ts : TokenState) (accts : TransferEvaluation)
    (amount toBalance fromCountry toCountry : ℕ) : Prop where
  notPaused : ts.paused = false
  sender : ∃ identity, verifyWalletAgainstIrp L ts accts.fromWallet accts.toRegistryAccounts
    accts.fromWalletIdentity accts.remaining = .ok identity ∧ identity.country = fromCountry
  receiver : ∃ identity, verifyWalletAgainstIrp L ts accts.toWallet accts.toRegistryAccounts
    accts.toWalletIdentity accts.remaining = .ok identity ∧ identity.country = toCountry
  complies : evaluateCompliance L ts accts.complianceState accts.remaining accts.fromWallet amount
    toBalance fromCountry toCountry = .ok ()

theorem evaluateTransferComponents_eq_ok {ts : TokenState} {accts : TransferEvaluation}
    {amount fromBalance toBalance : ℕ} {countries : ℕ × ℕ} :
    evaluateTransferComponents L ts accts amount fromBalance toBalance = .ok countries ↔
      (∃ n, FreezesRead L ts accts n ∧ amount ≤ fromBalance - n) ∧
        Evaluated L ts accts amount toBalance countries.1 countries.2 := by
  simp only [evaluateTransferComponents, bind_eq_ok, require_eq_ok, exists_const,
    Except.ok.injEq]
  constructor
  · rintro ⟨hpaused, _, hsource, _, hdestination, n, hheld, hamount, sender, hsender, receiver,
      hreceiver, _, hcomplies, rfl⟩
    exact ⟨⟨n, ⟨hsource, hdestination, hheld⟩, hamount⟩,
      ⟨hpaused, ⟨sender, hsender, rfl⟩, ⟨receiver, hreceiver, rfl⟩, hcomplies⟩⟩
  · obtain ⟨fromCountry, toCountry⟩ := countries
    rintro ⟨⟨n, hfreezes, hamount⟩,
      ⟨hpaused, ⟨sender, hsender, rfl⟩, ⟨receiver, hreceiver, rfl⟩, hcomplies⟩⟩
    exact ⟨hpaused, (), hfreezes.source, (), hfreezes.destination, n, hfreezes.partialAmount,
      hamount, sender, hsender, receiver, hreceiver, (), hcomplies, rfl⟩

/-- Everything a transfer checks and does apart from its freezes. -/
structure Approved (L L' : Ledger) (signers : List Pubkey) (accts : TransferEvaluation)
    (amount fromBalance toBalance : ℕ) (ts : TokenState) (source destination : TokenAccount)
    (fromCountry toCountry : ℕ) : Prop where
  signed : accts.fromWallet ∈ signers
  tokenStateAt : L.accounts accts.tokenState = account ts
  controller : accts.controllerProgram = controllerProgram
  hook : accts.hookProgram = .program .fracksTokenHook
  system : accts.systemProgram = .program .system
  mintValid : validateTokenMintAccount L accts.tokenMintAccount ts true = .ok ()
  sourceAt : L.accounts accts.sourceTokenAccount = account source
  destinationAt : L.accounts accts.destinationTokenAccount = account destination
  sourceAmount : source.amount = fromBalance
  destinationAmount : destination.amount = toBalance
  sourceValid : source.mint = ts.tokenMint ∧ source.owner = accts.fromWallet ∧
    source.isFrozen = false
  destinationValid : destination.mint = ts.tokenMint ∧ destination.owner = accts.toWallet ∧
    destination.isFrozen = false
  evaluated : Evaluated L ts accts amount toBalance fromCountry toCountry
  approves : approveTransfer L (withTokenState signers ts) (approvalAccounts accts)
    (approvalArgs accts amount fromBalance toBalance fromCountry toCountry) = .ok L'

/-- A transfer succeeds when the freeze accounts admit the amount and everything
else is in order. -/
theorem transfer_eq_ok {accts : TransferEvaluation} {amount fromBalance toBalance : ℕ} :
    transfer L signers accts amount fromBalance toBalance = .ok L' ↔
      ∃ ts source destination fromCountry toCountry,
        Approved L L' signers accts amount fromBalance toBalance ts source destination fromCountry
          toCountry ∧ ∃ n, FreezesRead L ts accts n ∧ amount ≤ fromBalance - n := by
  simp only [transfer, approveHookTransfer, bind_eq_ok, requireSigner_eq_ok, load_eq_ok,
    require_eq_ok, requireProgram_eq_ok, readTokenAccount_eq_ok, validateTokenAccount_eq_ok,
    evaluateTransferComponents_eq_ok, exists_const]
  constructor
  · rintro ⟨hsigned, ts, hts, hcontroller, hhook, hsystem, _, hmint, source, hsource, destination,
      hdestination, hfrom, hto, hsourceValid, hdestinationValid, ⟨fromCountry, toCountry⟩,
      ⟨hfreezes, hevaluated⟩, happrove⟩
    exact ⟨ts, source, destination, fromCountry, toCountry,
      { signed := hsigned, tokenStateAt := hts, controller := hcontroller, hook := hhook
        system := hsystem, mintValid := hmint, sourceAt := hsource
        destinationAt := hdestination, sourceAmount := hfrom, destinationAmount := hto
        sourceValid := hsourceValid, destinationValid := hdestinationValid
        evaluated := hevaluated, approves := happrove }, hfreezes⟩
  · rintro ⟨ts, source, destination, fromCountry, toCountry, h, hfreezes⟩
    exact ⟨h.signed, ts, h.tokenStateAt, h.controller, h.hook, h.system, (), h.mintValid, source,
      h.sourceAt, destination, h.destinationAt, h.sourceAmount, h.destinationAmount, h.sourceValid,
      h.destinationValid, ⟨fromCountry, toCountry⟩, ⟨hfreezes, h.evaluated⟩, h.approves⟩

/-! ## Issues of new tokens -/

/-- What an issue of tokens has checked and done, whichever instruction made it:
payment, post-hook, mint. -/
structure Issue (L L' : Ledger) (ts : TokenState) (accts : ReceiverAccounts)
    (amount country : ℕ) (d : TokenAccount) (L₁ L₂ : Ledger) : Prop where
  tokenStateAt : L.accounts (tokenStateAddress ts.tokenMint) = account ts
  mintKey : accts.tokenMintAccount = ts.tokenMint
  destinationAt : L.accounts accts.destinationTokenAccount = account d
  destinationMint : d.mint = ts.tokenMint
  receiver : ∃ identity, verifyWalletAgainstIrp L ts d.owner accts.toRegistryAccounts
    accts.walletIdentity accts.remaining = .ok identity ∧ identity.country = country
  complies : evaluateCompliance L ts accts.complianceState accts.remaining .default amount
    d.amount 0 country = .ok ()
  paid : Frame [.subscriptionEscrow] L L₁
  booked : invokeComplianceCreated L₁ accts.complianceProgram accts.complianceState
    accts.remaining amount (d.amount + amount) country = .ok L₂
  minted : ∃ signers, mintTo L₂ signers ts.tokenMint accts.destinationTokenAccount
    (tokenStateAddress ts.tokenMint) amount (some ts.decimals) = .ok L'

theorem checkReceiver_ok {ts : TokenState} {accts : ReceiverAccounts} {wallet : Pubkey}
    {amount toAfter country : ℕ}
    (h : checkReceiver L ts accts wallet amount toAfter = .ok country) :
    accts.tokenMintAccount = ts.tokenMint ∧
      (∃ identity, verifyWalletAgainstIrp L ts wallet accts.toRegistryAccounts accts.walletIdentity
        accts.remaining = .ok identity ∧ identity.country = country) ∧ ∃ d : TokenAccount,
      L.accounts accts.destinationTokenAccount = account d ∧ d.mint = ts.tokenMint ∧
        d.owner = wallet ∧ d.amount + amount = toAfter ∧
          evaluateCompliance L ts accts.complianceState accts.remaining .default amount d.amount 0
            country = .ok () := by
  simp only [checkReceiver, bind_eq_ok, require_eq_ok, readTokenAccount_eq_ok,
    validateTokenAccount_eq_ok, okOr_eq_ok, checkedAdd_eq_some, exists_const,
    Except.ok.injEq] at h
  obtain ⟨receiver, hreceiver, _, hmint, d, hd, ⟨hdmint, howner, -⟩, _, ⟨-, rfl⟩, hafter, _,
    hcomplies, rfl⟩ := h
  exact ⟨(validateTokenMintAccount_ok hmint).1, ⟨receiver, hreceiver, rfl⟩, d, hd, hdmint, howner,
    hafter, hcomplies⟩

omit [Borsh] in
theorem issueTokens_ok {tokenStateKey : Pubkey} {ts : TokenState} {accts : ReceiverAccounts}
    {amount toAfter country : ℕ}
    (h : issueTokens L signers tokenStateKey ts accts amount toAfter country = .ok L') :
    ∃ L₂, invokeComplianceCreated L accts.complianceProgram accts.complianceState accts.remaining
        amount toAfter country = .ok L₂ ∧
      ∃ signers, mintTo L₂ signers accts.tokenMintAccount accts.destinationTokenAccount
        tokenStateKey amount (some ts.decimals) = .ok L' := by
  simp only [issueTokens, invokeTokenMintToChecked, bind_eq_ok, requireTokenProgram_eq_ok,
    exists_const] at h
  obtain ⟨L₂, hcreated, -, hmint⟩ := h
  exact ⟨L₂, hcreated, _, hmint⟩

theorem issue_of_parts {ts : TokenState} {accts : ReceiverAccounts} {tokenStateKey wallet : Pubkey}
    {amount toAfter country : ℕ} {L₁ : Ledger}
    (hts : L.accounts tokenStateKey = account ts)
    (hseeds : tokenStateKey = tokenStateAddress ts.tokenMint)
    (hreceiver : checkReceiver L ts accts wallet amount toAfter = .ok country)
    (hpaid : Frame [.subscriptionEscrow] L L₁)
    (hissue : issueTokens L₁ signers tokenStateKey ts accts amount toAfter country = .ok L') :
    ∃ d L₂, Issue L L' ts accts amount country d L₁ L₂ := by
  obtain ⟨hmint, hverified, d, hd, hdmint, rfl, rfl, hcomplies⟩ := checkReceiver_ok hreceiver
  obtain ⟨L₂, hcreated, signers', hmintTo⟩ := issueTokens_ok hissue
  subst hseeds
  exact ⟨d, L₂,
    { tokenStateAt := hts, mintKey := hmint, destinationAt := hd, destinationMint := hdmint
      receiver := hverified, complies := hcomplies, paid := hpaid, booked := hcreated
      minted := ⟨signers', hmint ▸ hmintTo⟩ }⟩

theorem mint_ok {operator : OperatorAccounts} {accts : ReceiverAccounts} {wallet : Pubkey}
    {amount toAfter : ℕ} (h : mint L signers operator accts wallet amount toAfter = .ok L') :
    ∃ ts country d L₁ L₂, Issue L L' ts accts amount country d L₁ L₂ := by
  simp only [mint, bind_eq_ok, require_eq_ok, exists_const] at h
  obtain ⟨ts, hcheck, -, _, -, country, hreceiver, hissue⟩ := h
  obtain ⟨-, hts, hseeds⟩ := OperatorAccounts.check_ok hcheck
  obtain ⟨d, L₂, hissued⟩ := issue_of_parts hts hseeds hreceiver (.refl _ _) hissue
  exact ⟨ts, country, d, L, L₂, hissued⟩

/-- Everything a purchase checks and does apart from the freeze of the buyer. -/
structure Purchased (L L' : Ledger) (signers : List Pubkey) (purchase : PurchaseAccounts)
    (accts : ReceiverAccounts) (amount toAfter : ℕ) (ts : TokenState) (terms : OfferingTerms)
    (due country : ℕ) (L₁ : Ledger) : Prop where
  signed : purchase.buyer ∈ signers
  tokenStateAt : L.accounts purchase.tokenState = account ts
  seeds : purchase.tokenState = tokenStateAddress ts.tokenMint
  system : purchase.systemProgram = .program .system
  positive : 0 < amount
  notPaused : ts.paused = false
  offering : checkOffering L ts purchase.offeringTerms purchase.issuer = .ok terms
  price : lamportsDue L ts terms purchase.buyer amount = .ok due
  receiver : checkReceiver L ts accts purchase.buyer amount toAfter = .ok country
  payment : L.systemTransfer purchase.buyer purchase.issuer due = .ok L₁
  issue : issueTokens L₁ signers purchase.tokenState ts accts amount toAfter country = .ok L'

theorem purchaseMint_eq_ok {purchase : PurchaseAccounts} {accts : ReceiverAccounts}
    {amount toAfter : ℕ} :
    purchaseMint L signers purchase accts amount toAfter = .ok L' ↔
      ∃ ts terms due country L₁,
        Purchased L L' signers purchase accts amount toAfter ts terms due country L₁ ∧
          ensureWalletNotFrozen L accts.toFrozen purchase.buyer ts.tokenMint = .ok () := by
  simp only [purchaseMint, bind_eq_ok, requireSigner_eq_ok, loadTokenState_eq_ok,
    requireProgram_eq_ok, require_eq_ok, exists_const]
  constructor
  · rintro ⟨hsigned, ts, ⟨hts, hseeds⟩, hsystem, hpos, hpaused, _, hfrozen, terms, hterms, due,
      hdue, country, hreceiver, L₁, hpay, hissue⟩
    exact ⟨ts, terms, due, country, L₁,
      { signed := hsigned, tokenStateAt := hts, seeds := hseeds, system := hsystem
        positive := hpos, notPaused := hpaused, offering := hterms, price := hdue
        receiver := hreceiver, payment := hpay, issue := hissue }, hfrozen⟩
  · rintro ⟨ts, terms, due, country, L₁, h, hfrozen⟩
    exact ⟨h.signed, ts, ⟨h.tokenStateAt, h.seeds⟩, h.system, h.positive, h.notPaused, (),
      hfrozen, terms, h.offering, due, h.price, country, h.receiver, L₁, h.payment, h.issue⟩

theorem purchaseMint_ok {purchase : PurchaseAccounts} {accts : ReceiverAccounts}
    {amount toAfter : ℕ} (h : purchaseMint L signers purchase accts amount toAfter = .ok L') :
    ∃ ts country d L₁ L₂, Issue L L' ts accts amount country d L₁ L₂ := by
  obtain ⟨ts, terms, due, country, L₁, hp, -⟩ := purchaseMint_eq_ok.1 h
  obtain ⟨d, L₂, hissued⟩ := issue_of_parts hp.tokenStateAt hp.seeds hp.receiver
    (.of_accounts_eq (systemTransfer_ok hp.payment).1) hp.issue
  exact ⟨ts, country, d, L₁, L₂, hissued⟩

theorem frame_depositSubscription {accts : SubscriptionAccounts} {amount : ℕ}
    (h : depositSubscription L signers accts amount = .ok L') :
    Frame [.subscriptionEscrow] L L' := by
  simp only [depositSubscription, bind_eq_ok, requireSigner_eq_ok, exists_const] at h
  obtain ⟨-, ts, -, _, -, L₁, hcreate, _, -, _, -, _, -, terms, -, due, -, hpay⟩ := h
  refine (Frame.create hcreate ?_).trans (.of_accounts_eq (systemTransfer_ok hpay).1)
  decide

omit [Borsh] in
theorem releaseEscrow_ok {escrow issuer : Pubkey} {paid : ℕ}
    (h : releaseEscrow L escrow issuer paid = .ok L') : L'.accounts = L.accounts := by
  simp only [releaseEscrow, bind_eq_ok, Except.ok.injEq] at h
  obtain ⟨left, -, rfl⟩ := h
  rfl

theorem settleSubscriptionMint_ok {operator : OperatorAccounts} {settle : SettleAccounts}
    {accts : ReceiverAccounts} {toAfter : ℕ}
    (h : settleSubscriptionMint L signers operator settle accts toAfter = .ok L') :
    ∃ ts amount country d L₁ L₂, Issue L L' ts accts amount country d L₁ L₂ := by
  simp only [settleSubscriptionMint, bind_eq_ok, load_eq_ok, requireSeeds_eq_ok,
    require_eq_ok, exists_const] at h
  obtain ⟨ts, hcheck, escrow, hescrow, -, -, -, -, -, -, _, -, country, hreceiver, L₀, hrelease,
    hissue⟩ := h
  obtain ⟨-, hts, hseeds⟩ := OperatorAccounts.check_ok hcheck
  have haccounts := releaseEscrow_ok hrelease
  have hreleased : Frame [.subscriptionEscrow] L₀
      (L₀.put settle.subscriptionEscrow { escrow with settled := true }) :=
    .put (haccounts ▸ hescrow) (by decide)
  obtain ⟨d, L₂, hissued⟩ := issue_of_parts hts hseeds hreceiver
    ((Frame.of_accounts_eq haccounts).trans hreleased) hissue
  exact ⟨ts, escrow.amount, country, d, _, L₂, hissued⟩

/-! ## Redemptions -/

/-- What a burn has checked and done: post-hook, then burn.  Nothing is known
of the compliance state it was given. -/
structure Redemption (L L' : Ledger) (ts : TokenState) (accts : BurnAccounts)
    (amount country : ℕ) (s : TokenAccount) (L₁ : Ledger) : Prop where
  tokenStateAt : L.accounts (tokenStateAddress ts.tokenMint) = account ts
  mintKey : accts.tokenMintAccount = ts.tokenMint
  sourceAt : L.accounts accts.sourceTokenAccount = account s
  sourceMint : s.mint = ts.tokenMint
  enough : amount ≤ s.amount
  booked : invokeComplianceDestroyed L accts.complianceProgram accts.complianceState
    accts.remaining amount (s.amount - amount) country = .ok L₁
  burned : ∃ signers, Token2022.burn L₁ signers accts.sourceTokenAccount ts.tokenMint
    (tokenStateAddress ts.tokenMint) amount (some ts.decimals) = .ok L'

/-- A burn, with the wallet whose identity gives the country. -/
theorem burn_parts {operator : OperatorAccounts} {accts : BurnAccounts} {wallet : Pubkey}
    {amount fromAfter : ℕ}
    (h : Token.burn L signers operator accts wallet amount fromAfter = .ok L') :
    ∃ ts country s L₁, (operator.authority ∈ signers ∧
      operator.tokenState = tokenStateAddress ts.tokenMint ∧
        Redemption L L' ts accts amount country s L₁) ∧ s.owner = wallet ∧
          s.amount - amount = fromAfter ∧
            ∃ sender, requireWalletIdentity L accts.fromWalletIdentity wallet accts.irsState =
              .ok sender ∧ sender.country = country := by
  simp only [Token.burn, invokeTokenBurnChecked, bind_eq_ok, require_eq_ok,
    readTokenAccount_eq_ok, validateTokenAccount_eq_ok, okOr_eq_ok, checkedSub_eq_some,
    requireTokenProgram_eq_ok, exists_const] at h
  obtain ⟨ts, hcheck, -, sender, hsender, _, hmint, s, hs, ⟨hsmint, howner, -⟩, _, ⟨hle, rfl⟩, rfl,
    L₁, hbooked, -, hburn⟩ := h
  obtain ⟨hsigned, hts, hseeds⟩ := OperatorAccounts.check_ok hcheck
  obtain ⟨hkey, -⟩ := validateTokenMintAccount_ok hmint
  rw [hseeds] at hts hburn
  rw [hkey] at hburn
  refine ⟨ts, sender.country, s, L₁, ⟨hsigned, hseeds, ?_⟩, howner, rfl, sender, hsender, rfl⟩
  exact
    { tokenStateAt := hts, mintKey := hkey, sourceAt := hs, sourceMint := hsmint, enough := hle
      booked := hbooked, burned := ⟨_, hburn⟩ }

theorem burn_ok {operator : OperatorAccounts} {accts : BurnAccounts} {wallet : Pubkey}
    {amount fromAfter : ℕ}
    (h : Token.burn L signers operator accts wallet amount fromAfter = .ok L') :
    ∃ ts country s L₁, operator.authority ∈ signers ∧
      operator.tokenState = tokenStateAddress ts.tokenMint ∧
        Redemption L L' ts accts amount country s L₁ := by
  obtain ⟨ts, country, s, L₁, hredeemed, -⟩ := burn_parts h
  exact ⟨ts, country, s, L₁, hredeemed⟩

/-! ## Transfers by the controller -/

/-- What a forced transfer or a recovery has checked and done: an approval for
the controller, the transfer it is for, and the release of a partial freeze. -/
structure ControllerTransfer (L L' : Ledger) (ts : TokenState)
    (accts : ControllerTransferAccounts) (source destination : Pubkey) (amount : ℕ)
    (s d : TokenAccount) (L₁ L₂ : Ledger) : Prop where
  tokenStateAt : L.accounts (tokenStateAddress ts.tokenMint) = account ts
  mintKey : accts.tokenMintAccount = ts.tokenMint
  sourceAt : L.accounts accts.sourceTokenAccount = account s
  destinationAt : L.accounts accts.destinationTokenAccount = account d
  sourceMint : s.mint = ts.tokenMint
  destinationMint : d.mint = ts.tokenMint
  approved : ∃ signers approveAccts args, approveAccts.tokenState = tokenStateAddress ts.tokenMint ∧
    approveAccts.sourceTokenAccount = accts.sourceTokenAccount ∧
      approveAccts.destinationTokenAccount = accts.destinationTokenAccount ∧
        args.kind ≠ transferApprovalKindTransfer ∧
          approveTransfer L signers approveAccts args = .ok L₁
  moved : ∃ signers additional, transferChecked invokeHook L₁ signers accts.sourceTokenAccount
    ts.tokenMint accts.destinationTokenAccount (tokenStateAddress ts.tokenMint) additional amount
      ts.decimals = .ok L₂
  released : Frame [.partialFreeze] L₂ L'

theorem approveAndTransfer_ok {operator : OperatorAccounts} {ts : TokenState}
    {accts : ControllerTransferAccounts} {source destination : Pubkey}
    {amount fromBalance toBalance fromCountry toCountry kind : ℕ}
    (h : approveAndTransfer L signers operator ts accts source destination amount fromBalance
      toBalance fromCountry toCountry kind = .ok L') :
    ∃ L₁, (∃ signers approveAccts args, approveAccts.tokenState = operator.tokenState ∧
        approveAccts.sourceTokenAccount = accts.sourceTokenAccount ∧
          approveAccts.destinationTokenAccount = accts.destinationTokenAccount ∧
            args.kind = kind ∧ approveTransfer L signers approveAccts args = .ok L₁) ∧
      ∃ signers additional, transferChecked invokeHook L₁ signers accts.sourceTokenAccount
        accts.tokenMintAccount accts.destinationTokenAccount operator.tokenState additional amount
          ts.decimals = .ok L' := by
  simp only [approveAndTransfer, approveHookTransfer, invokeTokenTransferChecked, bind_eq_ok,
    requireTokenProgram_eq_ok, exists_const] at h
  obtain ⟨L₁, happrove, hookAccounts, -, -, htransfer⟩ := h
  exact ⟨L₁, ⟨_, _, _, rfl, rfl, rfl, rfl, happrove⟩, _, _, htransfer⟩

theorem forcedTransfer_ok {operator : OperatorAccounts} {fromPartialFreeze : Pubkey}
    {accts : ControllerTransferAccounts} {source destination : Pubkey}
    {amount fromBalance toBalance : ℕ}
    (h : forcedTransfer L signers operator fromPartialFreeze accts source destination amount
      fromBalance toBalance = .ok L') :
    ∃ ts s d L₁ L₂, ControllerTransfer L L' ts accts source destination amount s d L₁ L₂ ∧
      ∃ fromCountry toCountry, evaluateCompliance L ts accts.complianceState accts.remaining
        source amount toBalance fromCountry toCountry = .ok () := by
  simp only [forcedTransfer, bind_eq_ok, load_eq_ok, requireSeeds_eq_ok, require_eq_ok,
    readTokenAccount_eq_ok, validateTokenAccount_eq_ok, exists_const, Except.ok.injEq] at h
  obtain ⟨ts, hcheck, record, hrecord, -, _, -, -, _, -, sender, -, receiver, -, _, hmint, s, hs,
    d, hd, -, -, ⟨hsmint, -, -⟩, ⟨hdmint, -, -⟩, _, hcomplies, L₂, happrove, rfl⟩ := h
  obtain ⟨-, hts, hseeds⟩ := OperatorAccounts.check_ok hcheck
  obtain ⟨hkey, -⟩ := validateTokenMintAccount_ok hmint
  obtain ⟨L₁, ⟨_, approveAccts, args, hstate, hsource, hdestination, hkind, happroved⟩, _, _,
    htransfer⟩ := approveAndTransfer_ok happrove
  rw [hseeds] at hstate htransfer hts
  rw [hkey] at htransfer
  -- neither the approval nor the transfer touches the partial freeze
  have hframe : Frame (.tokenAccount :: hookKinds) L L₂ :=
    (approveTransfer_frame happroved (by decide)).trans (frame_transferChecked htransfer)
  refine ⟨ts, s, d, L₁, L₂, ?_, _, _, hcomplies⟩
  exact
    { tokenStateAt := hts, mintKey := hkey, sourceAt := hs, destinationAt := hd
      sourceMint := hsmint, destinationMint := hdmint
      approved := ⟨_, approveAccts, args, hstate, hsource, hdestination, hkind ▸ by decide,
        happroved⟩
      moved := ⟨_, _, htransfer⟩
      released := .put (hframe.accounts_eq (by decide) hrecord) (by decide) }

theorem recovery_ok {operator : OperatorAccounts} {irsProgram : Pubkey}
    {accts : ControllerTransferAccounts} {lostWallet newWallet : Pubkey} {amount : ℕ}
    (h : recovery L signers operator irsProgram accts lostWallet newWallet amount = .ok L') :
    ∃ ts s d L₁, ControllerTransfer L L' ts accts lostWallet newWallet amount s d L₁ L' := by
  simp only [recovery, bind_eq_ok, require_eq_ok, requireProgram_eq_ok,
    readTokenAccount_eq_ok, validateTokenAccount_eq_ok, exists_const] at h
  obtain ⟨ts, hcheck, -, _, -, -, -, _, -, receiver, -, lost, -, _, hmint, s, hs, d, hd,
    ⟨hsmint, -, -⟩, ⟨hdmint, -, -⟩, -, happrove⟩ := h
  obtain ⟨-, hts, hseeds⟩ := OperatorAccounts.check_ok hcheck
  obtain ⟨hkey, -⟩ := validateTokenMintAccount_ok hmint
  obtain ⟨L₁, ⟨_, approveAccts, args, hstate, hsource, hdestination, hkind, happroved⟩, _, _,
    htransfer⟩ := approveAndTransfer_ok happrove
  rw [hseeds] at hstate htransfer hts
  rw [hkey] at htransfer
  refine ⟨ts, s, d, L₁, ?_⟩
  exact
    { tokenStateAt := hts, mintKey := hkey, sourceAt := hs, destinationAt := hd
      sourceMint := hsmint, destinationMint := hdmint
      approved := ⟨_, approveAccts, args, hstate, hsource, hdestination, hkind ▸ by decide,
        happroved⟩
      moved := ⟨_, _, htransfer⟩
      released := .refl _ _ }

/-- The accounts of the calls that finalize a recovery. -/
def identityAccounts (operator : OperatorAccounts) (accts : FinalizeAccounts)
    (walletIdentity : Pubkey) : Irs.IdentityAccounts :=
  { authority := operator.authority, irsState := accts.irsState
    registryState := accts.irpState, walletIdentity }

/-- A recovery is finalized by three calls: the new wallet gets the FID and the
country of the lost one, and the identity of the lost wallet is removed. -/
structure FinalizeCalls (L L' : Ledger) (signers : List Pubkey) (operator : OperatorAccounts)
    (accts : FinalizeAccounts) (lost : WalletIdentity) (L₁ L₂ : Ledger) : Prop where
  identity : Irs.updateIdentity L signers (identityAccounts operator accts
    accts.newWalletIdentity) lost.fid = .ok L₁
  country : Irs.updateCountry L₁ signers (identityAccounts operator accts
    accts.newWalletIdentity) lost.country = .ok L₂
  removed : Irs.removeIdentity L₂ signers (identityAccounts operator accts
    accts.lostWalletIdentity) = .ok L'

theorem finalizeRecovery_ok {operator : OperatorAccounts} {accts : FinalizeAccounts}
    {lostWallet newWallet : Pubkey} {amount : ℕ}
    (h : finalizeRecovery L signers operator accts lostWallet newWallet amount = .ok L') :
    ∃ (approval : TransferApproval) (lost : WalletIdentity) (L₁ L₂ : Ledger),
      L.accounts accts.transferApproval = account approval ∧
      (approval.kind = TokenHook.transferApprovalKindRecovery ∧ approval.consumed = true ∧
        approval.finalized = false) ∧
      accts.transferApproval = TokenHook.approvalAddress approval.sourceTokenAccount
        approval.destinationTokenAccount operator.tokenState ∧
      approval.sourceWallet = lostWallet ∧ approval.destinationWallet = newWallet ∧
      approval.amount = amount ∧
      requireWalletIdentity L accts.lostWalletIdentity lostWallet accts.irsState = .ok lost ∧
      FinalizeCalls L L' signers operator accts lost L₁ L₂ := by
  simp only [finalizeRecovery, bind_eq_ok, load_eq_ok, requireProgram_eq_ok, require_eq_ok,
    exists_const] at h
  obtain ⟨ts, -, approval, happroval, -, hkind, haddress, hsource, hdestination, hamount, lost,
    hlost, L₁, hupdate, L₂, hcountry, hremove⟩ := h
  exact ⟨approval, lost, L₁, L₂, happroval, hkind, haddress, hsource, hdestination, hamount, hlost,
    hupdate, hcountry, hremove⟩

theorem frame_finalizeRecovery {operator : OperatorAccounts} {accts : FinalizeAccounts}
    {lostWallet newWallet : Pubkey} {amount : ℕ}
    (h : finalizeRecovery L signers operator accts lostWallet newWallet amount = .ok L') :
    Frame Irs.identityKinds L L' := by
  obtain ⟨_, _, _, _, -, -, -, -, -, -, -, hcalls⟩ := finalizeRecovery_ok h
  exact ((Irs.frame_updateIdentity hcalls.identity).trans
    (Irs.frame_updateCountry hcalls.country)).trans (Irs.frame_removeIdentity hcalls.removed)

end Transfers

end Fracks.Token
