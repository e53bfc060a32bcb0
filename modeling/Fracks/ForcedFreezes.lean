import Fracks.ControlsAtExecution
import Fracks.Tables

/-!
# Freezes under a forced transfer

A forced transfer takes its amount off a partial freeze that the caller passes.  The
record must be one of the token, but nothing ties its wallet to the source of the
transfer, so that the freeze of any other wallet can be lifted by it.
-/

namespace Fracks

open Checked AccountType Ledger TokenHook

/-- Of all partial freezes only the one of the wallet for the token may change, and it
does not grow. -/
structure FreezesFramed (tokenMint wallet : Pubkey) (L L' : Ledger) : Prop where
  own : ∀ r, L.view PartialFreeze (Token.partialFreezeAddress tokenMint wallet) = some r →
    ∃ r', L'.view PartialFreeze (Token.partialFreezeAddress tokenMint wallet) = some r' ∧
      r'.frozenAmount ≤ r.frozenAmount
  unfrozen : L.view PartialFreeze (Token.partialFreezeAddress tokenMint wallet) = none →
    L'.view PartialFreeze (Token.partialFreezeAddress tokenMint wallet) = none
  others : ∀ k, k ≠ Token.partialFreezeAddress tokenMint wallet →
    L'.view PartialFreeze k = L.view PartialFreeze k

section ForcedTransfer

variable [Borsh] {L L' : Ledger} {signers : List Pubkey} {operator : Token.OperatorAccounts}
  {fromPartialFreeze source destination : Pubkey} {accts : Token.ControllerTransferAccounts}
  {amount fromBalance toBalance : ℕ} {ts : TokenState} {record : PartialFreeze}

/-- The record that is passed is one of the token, and the transfer writes no other. -/
theorem forcedTransfer_freezes
    (h : Token.forcedTransfer L signers operator fromPartialFreeze accts source destination amount
      fromBalance toBalance = .ok L')
    (hts : L.accounts operator.tokenState = account ts)
    (hrecord : L.accounts fromPartialFreeze = account record) :
    fromPartialFreeze = Token.partialFreezeAddress ts.tokenMint record.wallet ∧
      L'.view PartialFreeze = Function.update (L.view PartialFreeze) fromPartialFreeze
        (some { record with frozenAmount := record.frozenAmount - amount }) := by
  simp only [Token.forcedTransfer, bind_eq_ok, load_eq_ok, requireSeeds_eq_ok, require_eq_ok,
    exists_const, Except.ok.injEq] at h
  obtain ⟨ts', hcheck, record', hrecord', hseeds, _, -, -, _, -, _, -, _, -, _, -, _, -, _, -, -, -,
    _, -, _, -, _, -, L₂, happrove, rfl⟩ := h
  obtain ⟨-, hts', -⟩ := Token.OperatorAccounts.check_ok hcheck
  obtain rfl := account_inj.1 (hts.symm.trans hts')
  obtain rfl := account_inj.1 (hrecord.symm.trans hrecord')
  obtain ⟨L₁, happroved, _, _, htransfer⟩ := Token.approveAndTransfer_parts happrove
  have hframe : Frame (.tokenAccount :: hookKinds) L L₂ :=
    (approveTransfer_frame happroved (by decide)).trans (Token2022.frame_transferChecked htransfer)
  refine ⟨hseeds, ?_⟩
  rw [view_put, hframe.table_eq (by decide)]
  rfl

/-- The freezes of the others are kept exactly if the record is the one of the source
or nothing comes off it. -/
theorem forced_transfer_freezes_iff
    (h : Token.forcedTransfer L signers operator fromPartialFreeze accts source destination amount
      fromBalance toBalance = .ok L')
    (hts : L.accounts operator.tokenState = account ts)
    (hrecord : L.accounts fromPartialFreeze = account record) :
    FreezesFramed ts.tokenMint source L L' ↔
      record.wallet = source ∨ record.frozenAmount = 0 ∨ amount = 0 := by
  obtain ⟨hkey, hview⟩ := forcedTransfer_freezes h hts hrecord
  have hbefore : L.view PartialFreeze fromPartialFreeze = some record := view_eq_some.2 hrecord
  constructor
  · intro hframed
    by_contra hlifted
    have hne : fromPartialFreeze ≠ Token.partialFreezeAddress ts.tokenMint source := by
      rw [hkey]
      intro hsame
      exact hlifted (.inl (partialFreezeAddress_inj.1 hsame).2)
    have hkept := hframed.others fromPartialFreeze hne
    rw [hview, Function.update_self, hbefore] at hkept
    have hamount := congrArg PartialFreeze.frozenAmount (Option.some.inj hkept)
    simp only at hamount
    omega
  · rintro (hown | hnothing)
    · rw [hown] at hkey
      subst hkey
      refine ⟨fun r hr ↦ ?_, fun hnone ↦ ?_, fun k hk ↦ ?_⟩
      · rw [hbefore, Option.some.injEq] at hr
        subst hr
        refine ⟨_, by rw [hview, Function.update_self], ?_⟩
        exact Nat.sub_le _ _
      · rw [hbefore] at hnone
        cases hnone
      · rw [hview, Function.update_of_ne hk]
    · have hsame : record.frozenAmount - amount = record.frozenAmount := by omega
      have hkept : L'.view PartialFreeze = L.view PartialFreeze := by
        rw [hview, hsame, ← hbefore, Function.update_eq_self]
      refine ⟨fun r hr ↦ ⟨r, ?_, le_rfl⟩, fun hnone ↦ ?_, fun k _ ↦ ?_⟩
      · rw [hkept, hr]
      · rw [hkept, hnone]
      · rw [hkept]

end ForcedTransfer

/-! ## The freeze of a bystander -/

def seizedHolding : Holding := ⟨.address 10, .address 11, 10⟩

def receivingHolding : Holding := ⟨.address 20, .address 21, 0⟩

def bystander : Pubkey := .address 31

def freezeDeployment : Deployment where
  tokenMint := .address 0
  issuer := .address 1
  paused := false
  modules := []
  modulesPaused := false
  metas := TokenHook.baseMetas
  wallets := [(seizedHolding.wallet, 276), (receivingHolding.wallet, 276)]
  holdings := [seizedHolding, receivingHolding]

def freezeRecord (wallet : Pubkey) (frozenAmount : ℕ) : PartialFreeze where
  wallet := wallet
  tokenMint := freezeDeployment.tokenMint
  frozenAmount := frozenAmount
  frozenBy := freezeDeployment.issuer

/-- The source and a bystander have five frozen tokens each. -/
def freezeLedger : Ledger := freezeDeployment.ledger
  [(Token.partialFreezeAddress freezeDeployment.tokenMint seizedHolding.wallet,
      account (freezeRecord seizedHolding.wallet 5)),
    (Token.partialFreezeAddress freezeDeployment.tokenMint bystander,
      account (freezeRecord bystander 5))]

/-- A forced transfer of four tokens, with the freeze of `wallet`. -/
def seize [Borsh] (wallet : Pubkey) : Result Ledger :=
  Token.forcedTransfer freezeLedger [freezeDeployment.issuer] freezeDeployment.operator
    (Token.partialFreezeAddress freezeDeployment.tokenMint wallet)
    (freezeDeployment.controllerAccounts seizedHolding receivingHolding []) seizedHolding.wallet
    receivingHolding.wallet 4 10 0

theorem bystander_freeze_lifted : ∃ L', @seize strictBorsh bystander = .ok L' ∧
    ¬ FreezesFramed freezeDeployment.tokenMint seizedHolding.wallet freezeLedger L' := by
  obtain ⟨L', h, hbefore, hafter⟩ : ∃ L', @seize strictBorsh bystander = .ok L' ∧
      freezeLedger.view PartialFreeze
          (Token.partialFreezeAddress freezeDeployment.tokenMint bystander) =
        some (freezeRecord bystander 5) ∧
      L'.view PartialFreeze (Token.partialFreezeAddress freezeDeployment.tokenMint bystander) =
        some (freezeRecord bystander 1) :=
    ⟨_, rfl, rfl, rfl⟩
  refine ⟨L', h, fun hframed ↦ ?_⟩
  have hkept := hframed.others
    (Token.partialFreezeAddress freezeDeployment.tokenMint bystander) (by decide)
  rw [hbefore, hafter] at hkept
  exact absurd (congrArg PartialFreeze.frozenAmount (Option.some.inj hkept)) (by decide)

theorem own_freeze_released : ∃ L', @seize strictBorsh seizedHolding.wallet = .ok L' ∧
    FreezesFramed freezeDeployment.tokenMint seizedHolding.wallet freezeLedger L' := by
  obtain ⟨L', h⟩ : ∃ L', @seize strictBorsh seizedHolding.wallet = .ok L' := ⟨_, rfl⟩
  have hstate : freezeLedger.accounts freezeDeployment.tokenState =
    account freezeDeployment.tokenStateRecord := rfl
  have hrecord : freezeLedger.accounts
      (Token.partialFreezeAddress freezeDeployment.tokenMint seizedHolding.wallet) =
    account (freezeRecord seizedHolding.wallet 5) := rfl
  exact ⟨L', h, (@forced_transfer_freezes_iff strictBorsh _ _ _ _ _ _ _ _ _ _ _ _ _ h hstate
    hrecord).2 (.inl rfl)⟩

end Fracks
