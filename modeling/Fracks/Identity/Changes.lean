import Fracks.Identity.RegisteredCount

/-!
# Changes of the registered identities

An instruction of the identity storage adds one identity, rewrites one or
removes one.  An identity stays with its wallet and storage until an instruction
removes it, and its country is always one that can be registered.
-/

namespace Fracks.Irs

open Checked AccountType Ledger Runs

def ValidCountry (country : ℕ) : Prop := countryMin ≤ country ∧ country ≤ countryMax

/-- The instruction closes the identity at `k`. -/
def Instruction.Removes (k : Pubkey) : Instruction → Prop
  | .removeIdentity accts => accts.walletIdentity = k
  | .removeOwnIdentity _ _ walletIdentity => walletIdentity = k
  | _ => False

def Instruction.Deactivates (k : Pubkey) : Instruction → Prop
  | .setIdentityActivation _ _ walletIdentity active => walletIdentity = k ∧ active = false
  | _ => False

/-- The identity is rewritten for the same wallet and storage. -/
structure Rewrites (old new : WalletIdentity) : Prop where
  wallet : new.wallet = old.wallet
  irs : new.irs = old.irs
  country : new.country = old.country ∨ ValidCountry new.country

/-- What an instruction of the storage does to the identities. -/
inductive Changes (L L' : Ledger) (i : Instruction) : Prop
  | kept : L'.view WalletIdentity = L.view WalletIdentity → Changes L L' i
  | added (k : Pubkey) (identity : WalletIdentity) : L.view WalletIdentity k = none →
      ValidCountry identity.country →
        L'.view WalletIdentity = Function.update (L.view WalletIdentity) k (some identity) →
          Changes L L' i
  | written (k : Pubkey) (old new : WalletIdentity) : L.view WalletIdentity k = some old →
      Rewrites old new → (old.isActive = true → ¬ i.Deactivates k → new.isActive = true) →
        L'.view WalletIdentity = Function.update (L.view WalletIdentity) k (some new) →
          Changes L L' i
  | removed (k : Pubkey) : i.Removes k →
      L'.view WalletIdentity = Function.update (L.view WalletIdentity) k none → Changes L L' i

section Process

variable [Borsh] {L L' : Ledger} {signers : List Pubkey}

theorem updateCountry_valid {accts : IdentityAccounts} {newCountry : ℕ}
    (h : updateCountry L signers accts newCountry = .ok L') : ValidCountry newCountry := by
  simp only [updateCountry, validateCountry, bind_eq_ok, require_eq_ok, exists_const] at h
  obtain ⟨_, -, hcountry, -⟩ := h
  exact hcountry

theorem registerIdentity_valid {accts : IdentityAccounts} {fidAccount wallet fid : Pubkey}
    {country : ℕ} (h : registerIdentity L signers accts fidAccount wallet fid country = .ok L') :
    ValidCountry country := by
  simp only [registerIdentity, validateCountry, bind_eq_ok, require_eq_ok, exists_const] at h
  obtain ⟨_, -, _, -, _, -, _, -, _, -, hcountry, -⟩ := h
  exact hcountry

theorem process_changes {i : Instruction} (h : process L signers i = .ok L') (hL : Enrolled L) :
    Changes L L' i := by
  cases i with
  | initializeIrs owner irsState authoritySeed =>
      simp only [process, initializeIrs, bind_eq_ok] at h
      obtain ⟨_, -, hinit⟩ := h
      have hframe : Frame [.identityRegistryStorageState] L L' := .initRecord hinit (by decide)
      exact .kept (hframe.table_eq (by decide))
  | bindRegistry =>
      obtain ⟨old, new, hold, -, rfl⟩ := updateIrsOwnerState_ok h
      exact .kept (view_overwrite hold (by decide))
  | unbindRegistry =>
      obtain ⟨old, new, hold, -, rfl⟩ := updateIrsOwnerState_ok h
      exact .kept (view_overwrite hold (by decide))
  | transferOwnership =>
      obtain ⟨old, new, hold, -, rfl⟩ := updateIrsOwnerState_ok h
      exact .kept (view_overwrite hold (by decide))
  | registerIdentity accts fidAccount wallet fid country =>
      obtain ⟨state, record, identity, -, -, -, -, -, -, -, hnone, ⟨-, -, hcountry, -⟩, -,
        hidentities⟩ := registerIdentity_ok (fun k a ha ↦ (hL.identities k a ha).2) h
      exact .added _ identity hnone (hcountry ▸ registerIdentity_valid h) hidentities
  | submitOnboardingApplication =>
      exact .kept ((frame_submitOnboardingApplication h).table_eq (by decide))
  | reviewOnboardingApplication =>
      exact .kept ((frame_reviewOnboardingApplication h).table_eq (by decide))
  | cancelOnboardingApplication =>
      exact .kept ((frame_cancelOnboardingApplication h).table_eq (by decide))
  | setIdentityActivation owner irsState walletIdentity active =>
      obtain ⟨old, hold, hwritten⟩ := setIdentityActivation_ok h
      have hrewrites : Rewrites old
          { old with isActive := active, activatedBy := owner, activatedAt := L.now } :=
        ⟨rfl, rfl, .inl rfl⟩
      refine .written _ old _ (view_eq_some.2 hold) hrewrites (fun _ hkept ↦ ?_)
        hwritten.identities
      simpa [Instruction.Deactivates] using hkept
  | updateIdentity accts newFid =>
      obtain ⟨old, hold, hwritten⟩ := updateIdentity_ok h
      have hrewrites : Rewrites old { old with fid := newFid } := ⟨rfl, rfl, .inl rfl⟩
      exact .written _ old _ (view_eq_some.2 hold) hrewrites (fun hactive _ ↦ hactive)
        hwritten.identities
  | updateCountry accts newCountry =>
      obtain ⟨old, hold, hwritten⟩ := updateCountry_ok h
      have hrewrites : Rewrites old { old with country := newCountry } :=
        ⟨rfl, rfl, .inr (updateCountry_valid h)⟩
      exact .written _ old _ (view_eq_some.2 hold) hrewrites (fun hactive _ ↦ hactive)
        hwritten.identities
  | removeIdentity => exact .removed _ rfl (removeIdentity_ok h).identities
  | removeOwnIdentity => exact .removed _ rfl (removeOwnIdentity_ok h).identities

end Process

/-! ## What follows from a change -/

/-- The countries of all identities can be registered. -/
def CountriesValid (L : Ledger) : Prop :=
  Everywhere (fun _ identity ↦ ValidCountry identity.country) (L.view WalletIdentity)

/-- The identity at `k` is that of the wallet in the storage. -/
structure IdentityOf (L : Ledger) (k irs wallet : Pubkey) (identity : WalletIdentity) : Prop where
  loaded : L.view WalletIdentity k = some identity
  wallet : identity.wallet = wallet
  irs : identity.irs = irs

variable {L L' : Ledger} {i : Instruction} {k irs wallet : Pubkey}

theorem Changes.countries (h : Changes L L' i) (hL : CountriesValid L) : CountriesValid L' := by
  unfold CountriesValid
  cases h with
  | kept hview => rwa [hview]
  | added k identity _ hcountry hview =>
      rw [hview]
      exact hL.update fun a ha ↦ Option.some.inj ha ▸ hcountry
  | written k old new hold hrewrites _ hview =>
      rw [hview]
      refine hL.update fun a ha ↦ ?_
      obtain rfl := Option.some.inj ha
      rcases hrewrites.country with hsame | hvalid
      · rw [hsame]
        exact hL k old hold
      · exact hvalid
  | removed k _ hview =>
      rw [hview]
      exact hL.update (by simp)

/-- An identity that is not removed stays that of its wallet, and active unless it
is deactivated. -/
theorem Changes.identityOf {identity : WalletIdentity} (h : Changes L L' i)
    (hL : IdentityOf L k irs wallet identity) (hk : ¬ i.Removes k) :
    ∃ identity', IdentityOf L' k irs wallet identity' ∧
      (identity.isActive = true → ¬ i.Deactivates k → identity'.isActive = true) := by
  cases h with
  | kept hview =>
      exact ⟨identity, ⟨hview ▸ hL.loaded, hL.wallet, hL.irs⟩, fun hactive _ ↦ hactive⟩
  | added k' identity' hnone _ hview =>
      have hne : k ≠ k' := view_ne hL.loaded hnone
      refine ⟨identity, ⟨?_, hL.wallet, hL.irs⟩, fun hactive _ ↦ hactive⟩
      rw [hview, Function.update_of_ne hne, hL.loaded]
  | written k' old new hold hrewrites hactive hview =>
      by_cases hkk : k = k'
      · subst hkk
        obtain rfl := Option.some.inj (hL.loaded.symm.trans hold)
        refine ⟨new, ⟨?_, hrewrites.wallet.trans hL.wallet, hrewrites.irs.trans hL.irs⟩, hactive⟩
        rw [hview, Function.update_self]
      · refine ⟨identity, ⟨?_, hL.wallet, hL.irs⟩, fun hactive _ ↦ hactive⟩
        rw [hview, Function.update_of_ne hkk, hL.loaded]
  | removed k' hremoves hview =>
      have hne : k ≠ k' := by
        rintro rfl
        exact hk hremoves
      refine ⟨identity, ⟨?_, hL.wallet, hL.irs⟩, fun hactive _ ↦ hactive⟩
      rw [hview, Function.update_of_ne hne, hL.loaded]

end Fracks.Irs

namespace Fracks.Platform

open Checked AccountType Ledger Runs

/-! ## Steps of the platform -/

/-- The instruction closes the identity at `k`, by itself or to finalize a recovery. -/
inductive Removes (k : Pubkey) : Instruction → Prop
  | irs (i : Irs.Instruction) : i.Removes k → Removes k (.irs i)
  | finalized (i : Fracks.Instruction) (operator : Token.OperatorAccounts)
      (accts : Token.FinalizeAccounts) (lostWallet newWallet : Pubkey) (amount : ℕ) :
      i.core = .token (.finalizeRecovery operator accts lostWallet newWallet amount) →
        accts.lostWalletIdentity = k → Removes k (.core i)

def Deactivates (k : Pubkey) : Instruction → Prop
  | .irs i => i.Deactivates k
  | _ => False

/-- The instruction of the step, if it is one, satisfies `P`. -/
def Label.Meets (P : Instruction → Prop) : Label → Prop
  | .instruction _ i => P i
  | .environment => True

/-- The identities are in order: at their addresses, counted, and in countries
that can be registered. -/
structure InOrder (L : Ledger) : Prop where
  enrolled : Irs.Enrolled L
  counted : (Irs.roster L).Sound
  countries : Irs.CountriesValid L

section Steps

variable [Borsh] {L L' : Ledger} {signers : List Pubkey} {l : Label} {k irs wallet : Pubkey}

/-- The identities stay, or one or three instructions of the storage have changed
them. -/
inductive Changed (L L' : Ledger) : Label → Prop
  | kept (l : Label) : L'.view WalletIdentity = L.view WalletIdentity → Changed L L' l
  | irs (signers : List Pubkey) (i : Irs.Instruction) : Irs.Changes L L' i →
      Changed L L' (.instruction signers (.irs i))
  | finalized (signers : List Pubkey) (i : Fracks.Instruction) (operator : Token.OperatorAccounts)
      (accts : Token.FinalizeAccounts) (lostWallet newWallet : Pubkey) (amount : ℕ)
      (fid : Pubkey) (country : ℕ) (L₁ L₂ : Ledger) :
      i.core = .token (.finalizeRecovery operator accts lostWallet newWallet amount) →
        Irs.Changes L L₁ (.updateIdentity (Token.identityAccounts operator accts
          accts.newWalletIdentity) fid) →
        Irs.Changes L₁ L₂ (.updateCountry (Token.identityAccounts operator accts
          accts.newWalletIdentity) country) →
        Irs.Changes L₂ L' (.removeIdentity (Token.identityAccounts operator accts
          accts.lostWalletIdentity)) → Changed L L' (.instruction signers (.core i))

theorem Step.changed (h : Step L l L') (hL : Irs.Enrolled L) : Changed L L' l := by
  cases h with
  | instruction signers i hexternal h =>
      cases i with
      | core i =>
          by_cases hi : i.Finalizes
          · obtain ⟨operator, accts, lostWallet, newWallet, amount, hcore⟩ := hi
            have hrun := process_core h
            rw [hcore] at hrun
            obtain ⟨_, lost, L₁, L₂, -, -, -, -, -, -, -, hcalls⟩ := Token.finalizeRecovery_ok hrun
            obtain ⟨hL₁, -⟩ := Irs.process_moves (i := .updateIdentity _ _) hcalls.identity hL
            obtain ⟨hL₂, -⟩ := Irs.process_moves (i := .updateCountry _ _) hcalls.country hL₁
            exact .finalized _ _ _ _ _ _ _ _ _ _ _ hcore
              (Irs.process_changes (i := .updateIdentity _ _) hcalls.identity hL)
              (Irs.process_changes (i := .updateCountry _ _) hcalls.country hL₁)
              (Irs.process_changes (i := .removeIdentity _) hcalls.removed hL₂)
          · exact .kept _ ((frame_core_of_not_finalizes hi h).table_eq (by decide))
      | fid i => exact .kept _ ((Fid.frame h).table_eq (by decide))
      | irs i => exact .irs _ _ (Irs.process_changes h hL)
      | irp i => exact .kept _ ((Irp.frame h).table_eq (by decide))
  | environment h => exact .kept _ (h.table_eq (by decide))

theorem InOrder.step (hL : InOrder L) (h : Step L l L') : InOrder L' := by
  obtain ⟨henrolled, moves, hmoves⟩ := hL.enrolled.step h
  refine ⟨henrolled, Roster.sound_of_run hmoves hL.counted, ?_⟩
  cases h.changed hL.enrolled with
  | kept _ hview =>
      unfold Irs.CountriesValid
      rw [hview]
      exact hL.countries
  | irs signers i hchanges => exact hchanges.countries hL.countries
  | finalized _ _ _ _ _ _ _ _ _ _ _ _ hfirst hsecond hthird =>
      exact hthird.countries (hsecond.countries (hfirst.countries hL.countries))

omit [Borsh] in
theorem Changed.identityOf {identity : WalletIdentity} (h : Changed L L' l)
    (hL : Irs.IdentityOf L k irs wallet identity) (hk : l.Meets fun i ↦ ¬ Removes k i) :
    ∃ identity', Irs.IdentityOf L' k irs wallet identity' ∧
      (identity.isActive = true → (l.Meets fun i ↦ ¬ Deactivates k i) →
        identity'.isActive = true) := by
  cases h with
  | kept _ hview =>
      exact ⟨identity, ⟨hview ▸ hL.loaded, hL.wallet, hL.irs⟩, fun hactive _ ↦ hactive⟩
  | irs signers i hchanges => exact hchanges.identityOf hL fun hi ↦ hk (.irs i hi)
  | finalized _ i operator accts lostWallet newWallet amount _ _ L₁ L₂ hcore hfirst hsecond
      hthird =>
      obtain ⟨identity₁, hL₁, hactive₁⟩ := hfirst.identityOf hL not_false
      obtain ⟨identity₂, hL₂, hactive₂⟩ := hsecond.identityOf hL₁ not_false
      obtain ⟨identity', hL', hactive⟩ := hthird.identityOf hL₂
        fun hi ↦ hk (.finalized i operator accts lostWallet newWallet amount hcore hi)
      exact ⟨identity', hL', fun h _ ↦ hactive (hactive₂ (hactive₁ h not_false) not_false)
        not_false⟩

end Steps

end Fracks.Platform
