import Fracks.Token.Effects

/-!
# Approvals by the controller

A forced transfer and a recovery write an approval under the address of the
token state and make the transfer it is for in the same instruction.  Here the
approval they write is given in full, with what was checked before it.
-/

namespace Fracks.Token

open Checked AccountType Ledger TokenHook Token2022

variable {L L' : Ledger} {signers : List Pubkey}

/-- The call of `approve_transfer` for a transfer by the controller. -/
def controllerApprovalAccounts (operator : OperatorAccounts) (accts : ControllerTransferAccounts) :
    ApproveTransferAccounts where
  payer := operator.authority
  controllerAuthority := operator.tokenState
  tokenState := operator.tokenState
  tokenMintAccount := accts.tokenMintAccount
  sourceTokenAccount := accts.sourceTokenAccount
  destinationTokenAccount := accts.destinationTokenAccount
  transferApproval := accts.transferApproval
  authoritySeed := operator.tokenState

/-- A transfer by the controller up to the moved balances: the two token
accounts, the approval with its arguments, and the transfer. -/
structure ControllerApproved (L L₁ L₂ : Ledger) (signers : List Pubkey)
    (operator : OperatorAccounts) (accts : ControllerTransferAccounts) (ts : TokenState)
    (s d : TokenAccount) (args : ApproveTransferArgs) : Prop where
  checked : operator.check L signers = .ok ts
  tokenStateAt : L.accounts operator.tokenState = account ts
  tokenStateKey : operator.tokenState = tokenStateAddress ts.tokenMint
  sourceAt : L.accounts accts.sourceTokenAccount = account s
  destinationAt : L.accounts accts.destinationTokenAccount = account d
  sourceMint : s.mint = ts.tokenMint
  destinationMint : d.mint = ts.tokenMint
  sourceOwner : s.owner = args.sourceWallet
  destinationOwner : d.owner = args.destinationWallet
  fromBalance : s.amount = args.fromBalance
  toBalance : d.amount = args.toBalance
  authority : args.authority = operator.tokenState
  approves : approveTransfer L (withTokenState signers ts)
    (controllerApprovalAccounts operator accts) args = .ok L₁
  transfers : ∃ signers additional, transferChecked invokeHook L₁ signers accts.sourceTokenAccount
    ts.tokenMint accts.destinationTokenAccount operator.tokenState additional args.amount
      ts.decimals = .ok L₂

/-- The source account holds what is moved. -/
theorem ControllerApproved.enough {L₁ L₂ : Ledger} {operator : OperatorAccounts}
    {accts : ControllerTransferAccounts} {ts : TokenState} {s d : TokenAccount}
    {args : ApproveTransferArgs}
    (h : ControllerApproved L L₁ L₂ signers operator accts ts s d args) :
    args.amount ≤ s.amount := by
  obtain ⟨_, _, htransfer⟩ := h.transfers
  have hsource : L₁.accounts accts.sourceTokenAccount = account s :=
    (approveTransfer_frame h.approves (List.Subset.refl _)).accounts_eq (by decide) h.sourceAt
  simp only [transferChecked, bind_eq_ok, unpackAccount_eq_ok, require_eq_ok,
    exists_const] at htransfer
  obtain ⟨a, ha, -, hle, -⟩ := htransfer
  rwa [account_inj.1 (hsource.symm.trans ha)]

section Approve

variable [Borsh] {operator : OperatorAccounts} {accts : ControllerTransferAccounts}
  {ts : TokenState} {source destination : Pubkey}
  {amount fromBalance toBalance fromCountry toCountry kind : ℕ}

/-- The arguments that a transfer by the controller gives to its approval. -/
def controllerArgs (operator : OperatorAccounts) (source destination : Pubkey)
    (amount fromBalance toBalance fromCountry toCountry kind : ℕ) : ApproveTransferArgs where
  sourceWallet := source
  destinationWallet := destination
  authority := operator.tokenState
  amount := amount
  fromBalance := fromBalance
  toBalance := toBalance
  fromCountry := fromCountry
  toCountry := toCountry
  kind := kind

theorem approveAndTransfer_parts
    (h : approveAndTransfer L signers operator ts accts source destination amount fromBalance
      toBalance fromCountry toCountry kind = .ok L') :
    ∃ L₁, approveTransfer L (withTokenState signers ts) (controllerApprovalAccounts operator accts)
        (controllerArgs operator source destination amount fromBalance toBalance fromCountry
          toCountry kind) = .ok L₁ ∧
      ∃ signers additional, transferChecked invokeHook L₁ signers accts.sourceTokenAccount
        accts.tokenMintAccount accts.destinationTokenAccount operator.tokenState additional amount
          ts.decimals = .ok L' := by
  simp only [approveAndTransfer, approveHookTransfer, invokeTokenTransferChecked, bind_eq_ok,
    requireTokenProgram_eq_ok, exists_const] at h
  obtain ⟨L₁, happrove, hookAccounts, -, -, htransfer⟩ := h
  exact ⟨L₁, happrove, _, _, htransfer⟩

/-- A forced transfer: both wallets and the compliance check come before the
approval, the release of a partial freeze after the transfer. -/
theorem forcedTransfer_approved {fromPartialFreeze : Pubkey}
    (h : forcedTransfer L signers operator fromPartialFreeze accts source destination amount
      fromBalance toBalance = .ok L') :
    ∃ ts s d fromCountry toCountry L₁ L₂,
      ControllerApproved L L₁ L₂ signers operator accts ts s d
        (controllerArgs operator source destination amount fromBalance toBalance fromCountry
          toCountry transferApprovalKindForced) ∧
      (∃ sender, requireWalletIdentity L accts.fromWalletIdentity source accts.irsState =
        .ok sender ∧ sender.country = fromCountry) ∧
      (∃ receiver, verifyWalletAgainstIrp L ts destination accts.toRegistryAccounts
        accts.toWalletIdentity accts.remaining = .ok receiver ∧ receiver.country = toCountry) ∧
      evaluateCompliance L ts accts.complianceState accts.remaining source amount toBalance
        fromCountry toCountry = .ok () ∧
      ∃ record : PartialFreeze, L₂.accounts fromPartialFreeze = account record ∧
        ∃ record' : PartialFreeze, record'.frozenAmount ≤ record.frozenAmount ∧
          L' = L₂.put fromPartialFreeze record' := by
  simp only [forcedTransfer, bind_eq_ok, load_eq_ok, requireSeeds_eq_ok, require_eq_ok,
    readTokenAccount_eq_ok, validateTokenAccount_eq_ok, exists_const, Except.ok.injEq] at h
  obtain ⟨ts, hcheck, record, hrecord, -, _, -, -, _, -, sender, hsender, receiver, hreceiver, _,
    hmint, s, hs, d, hd, hfrom, hto, ⟨hsmint, hsowner, -⟩, ⟨hdmint, hdowner, -⟩, _, hcomplies, L₂,
    happrove, rfl⟩ := h
  obtain ⟨-, hts, hseeds⟩ := OperatorAccounts.check_ok hcheck
  obtain ⟨hkey, -⟩ := validateTokenMintAccount_ok hmint
  obtain ⟨L₁, happroved, hmoved⟩ := approveAndTransfer_parts happrove
  have hrecord₂ : L₂.accounts fromPartialFreeze = account record := by
    obtain ⟨_, _, htransfer⟩ := hmoved
    have hframe : Frame (.tokenAccount :: hookKinds) L L₂ :=
      (approveTransfer_frame happroved (by decide)).trans (frame_transferChecked htransfer)
    exact hframe.accounts_eq (by decide) hrecord
  rw [hkey] at hmoved
  exact ⟨ts, s, d, sender.country, receiver.country, L₁, L₂,
    { checked := hcheck, tokenStateAt := hts, tokenStateKey := hseeds, sourceAt := hs
      destinationAt := hd, sourceMint := hsmint, destinationMint := hdmint, sourceOwner := hsowner
      destinationOwner := hdowner, fromBalance := hfrom, toBalance := hto, authority := rfl
      approves := happroved, transfers := hmoved },
    ⟨sender, hsender, rfl⟩, ⟨receiver, hreceiver, rfl⟩, hcomplies, record, hrecord₂, _,
    saturatingSub_le _ _, rfl⟩

/-- A recovery: both wallets come before the approval, and no compliance check. -/
theorem recovery_approved {irsProgram lostWallet newWallet : Pubkey}
    (h : recovery L signers operator irsProgram accts lostWallet newWallet amount = .ok L') :
    ∃ ts s d fromCountry toCountry L₁,
      ControllerApproved L L₁ L' signers operator accts ts s d
        (controllerArgs operator lostWallet newWallet amount s.amount d.amount fromCountry toCountry
          transferApprovalKindRecovery) ∧
      lostWallet ≠ newWallet ∧ amount ≤ s.amount ∧
      (∃ lost, requireWalletIdentity L accts.fromWalletIdentity lostWallet accts.irsState =
        .ok lost ∧ lost.country = fromCountry) ∧
      ∃ receiver, verifyWalletAgainstIrp L ts newWallet accts.toRegistryAccounts
        accts.toWalletIdentity accts.remaining = .ok receiver ∧ receiver.country = toCountry := by
  simp only [recovery, bind_eq_ok, requireProgram_eq_ok, require_eq_ok, readTokenAccount_eq_ok,
    validateTokenAccount_eq_ok, exists_const] at h
  obtain ⟨ts, hcheck, -, _, -, -, hne, _, -, receiver, hreceiver, lost, hlost, _, hmint, s, hs, d,
    hd, ⟨hsmint, hsowner, -⟩, ⟨hdmint, hdowner, -⟩, hle, happrove⟩ := h
  obtain ⟨-, hts, hseeds⟩ := OperatorAccounts.check_ok hcheck
  obtain ⟨hkey, -⟩ := validateTokenMintAccount_ok hmint
  obtain ⟨L₁, happroved, hmoved⟩ := approveAndTransfer_parts happrove
  rw [hkey] at hmoved
  exact ⟨ts, s, d, lost.country, receiver.country, L₁,
    { checked := hcheck, tokenStateAt := hts, tokenStateKey := hseeds, sourceAt := hs
      destinationAt := hd, sourceMint := hsmint, destinationMint := hdmint, sourceOwner := hsowner
      destinationOwner := hdowner, fromBalance := rfl, toBalance := rfl, authority := rfl
      approves := happroved, transfers := hmoved }, hne, hle, ⟨lost, hlost, rfl⟩, receiver,
    hreceiver, rfl⟩

end Approve

end Fracks.Token
