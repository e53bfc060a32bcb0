import Fracks.Routes

/-!
# Modules bound to a token

The compliance state of a token keeps its mint, and its list of modules stays
free of repetitions.  A module stays bound unless the owner unbinds it, and the
pause flag stays unless the owner sets it.
-/

namespace Fracks

open Checked AccountType Ledger Compliance

/-- The module `M` is bound to the compliance state of `T`. -/
structure BoundAt (T M : Pubkey) (L : Ledger) (state : ComplianceState) : Prop where
  loaded : L.accounts (complianceAddress T) = account state
  home : state.tokenMint = T
  nodup : state.modules.Nodup
  bound : M ∈ state.modules

/-- The module record `m` at `M` is at its address, and its hook authority is the
compliance state of `T`. -/
abbrev Served {α : Type} [AccountType α] [HookedModule α] (T M : Pubkey) (m : α) : Prop :=
  HookedModule.hookAuthority m = complianceAddress T ∧
    M = HookedModule.moduleAddress α (HookedModule.tokenMint m)

/-- The module `M` is not unbound from the compliance state of `T`. -/
def KeepsBinding (T M : Pubkey) : Instruction → Prop
  | .compliance (.unbindModule _ C M') => C = complianceAddress T → M' ≠ M
  | _ => True

/-- The pause flag of the compliance state of `T` is set. -/
def Instruction.Pauses (T : Pubkey) : Instruction → Prop
  | .compliance (.setModulesPaused _ C _) => C = complianceAddress T
  | _ => False

variable {L L' : Ledger} {T M : Pubkey} {signers : List Pubkey} {state : ComplianceState}
  {S : List AccountKind}

theorem BoundAt.of_frame (h : BoundAt T M L state) (hframe : Frame S L L')
    (hS : AccountKind.complianceState ∉ S) : BoundAt T M L' state :=
  ⟨hframe.accounts_eq hS h.loaded, h.home, h.nodup, h.bound⟩

/-- What an instruction of the compliance program does to the state. -/
structure Rebound (T M : Pubkey) (i : Instruction) (L' : Ledger) (state state' : ComplianceState) :
    Prop where
  bound : BoundAt T M L' state'
  paused : ¬ i.Pauses T → state'.modulesPaused = state.modulesPaused

theorem Rebound.of_frame {i : Instruction} (h : BoundAt T M L state) (hframe : Frame S L L')
    (hS : AccountKind.complianceState ∉ S) : Rebound T M i L' state state :=
  ⟨h.of_frame hframe hS, fun _ ↦ rfl⟩

/-- An update by the owner of a compliance state. -/
theorem updateComplianceOwner_rebound {i : Instruction} {owner C : Pubkey}
    {f : ComplianceState → Result ComplianceState}
    (h : updateComplianceOwner L signers owner C f = .ok L')
    (hf : C = complianceAddress T → ∀ s s', f s = .ok s' → s.modules.Nodup → M ∈ s.modules →
      s'.tokenMint = s.tokenMint ∧ s'.modules.Nodup ∧ M ∈ s'.modules ∧
        (¬ i.Pauses T → s'.modulesPaused = s.modulesPaused))
    (hb : BoundAt T M L state) : ∃ state', Rebound T M i L' state state' := by
  simp only [updateComplianceOwner, bind_eq_ok, requireSigner_eq_ok, modify_eq_ok,
    requireSeeds_eq_ok, require_eq_ok, exists_const] at h
  obtain ⟨-, s, s', hs, ⟨-, -, hs'⟩, rfl⟩ := h
  by_cases hC : complianceAddress T = C
  · subst hC
    obtain rfl := account_inj.1 (hb.loaded.symm.trans hs)
    obtain ⟨hmint, hnodup, hbound, hpaused⟩ := hf rfl state s' hs' hb.nodup hb.bound
    exact ⟨s', ⟨⟨put_accounts_self _, hmint.trans hb.home, hnodup, hbound⟩, hpaused⟩⟩
  · have hloaded := (put_accounts_of_ne s' hC).trans hb.loaded
    exact ⟨state, ⟨⟨hloaded, hb.home, hb.nodup, hb.bound⟩, fun _ ↦ rfl⟩⟩

theorem ComplianceInstruction.rebound {j : ComplianceInstruction}
    (h : j.process L signers = .ok L') (hkeeps : KeepsBinding T M (.compliance j))
    (hb : BoundAt T M L state) : ∃ state', Rebound T M (.compliance j) L' state state' := by
  cases j with
  | initializeCompliance owner C tokenMint =>
      obtain ⟨-, -, hinit⟩ := bind_eq_ok.1 h
      obtain ⟨-, hvacant, -, hother⟩ := initRecord_ok hinit
      have hne : complianceAddress T ≠ C := by
        rintro rfl
        exact account_ne_vacant state (hb.loaded.symm.trans hvacant)
      have hloaded := (hother _ hne).trans hb.loaded
      exact ⟨state, ⟨⟨hloaded, hb.home, hb.nodup, hb.bound⟩, fun _ ↦ rfl⟩⟩
  | bindModule owner C M' =>
      refine updateComplianceOwner_rebound h (fun _ s s' hs hnodup hbound ↦ ?_) hb
      simp only [bind_eq_ok, require_eq_ok, exists_const, Except.ok.injEq] at hs
      obtain ⟨-, hnew, rfl⟩ := hs
      have happend : (s.modules ++ [M']).Nodup :=
        List.nodup_append.2 ⟨hnodup, List.nodup_singleton M', fun a ha b hb ↦ by
          rw [List.mem_singleton] at hb
          rintro rfl
          exact hnew (hb ▸ ha)⟩
      exact ⟨rfl, happend, List.mem_append_left _ hbound, fun _ ↦ rfl⟩
  | unbindModule owner C M' =>
      refine updateComplianceOwner_rebound h (fun hC s s' hs hnodup hbound ↦ ?_) hb
      simp only [bind_eq_ok, require_eq_ok, exists_const, Except.ok.injEq] at hs
      obtain ⟨-, rfl⟩ := hs
      have hne : M ≠ M' := fun heq ↦ hkeeps hC heq.symm
      exact ⟨rfl, hnodup.erase _, (List.mem_erase_of_ne hne).2 hbound, fun _ ↦ rfl⟩
  | setModulesPaused owner C paused =>
      refine updateComplianceOwner_rebound h (fun hC s s' hs hnodup hbound ↦ ?_) hb
      obtain rfl := Except.ok.inj hs
      exact ⟨rfl, hnodup, hbound, fun hpauses ↦ absurd hC hpauses⟩
  | transferOwnership owner C newOwner =>
      refine updateComplianceOwner_rebound h (fun _ s s' hs hnodup hbound ↦ ?_) hb
      simp only [bind_eq_ok, require_eq_ok, exists_const, Except.ok.injEq] at hs
      obtain ⟨-, rfl⟩ := hs
      exact ⟨rfl, hnodup, hbound, fun _ ↦ rfl⟩
  | canTransfer | transferred | created | destroyed =>
      exact ⟨state, .of_frame hb (ComplianceInstruction.frame h)
        (by simp [ComplianceInstruction.kinds, PostHook.kinds])⟩

/-- Every instruction keeps the binding of a module that it does not unbind, and
the pause flag that it does not set. -/
theorem process_rebound [Borsh] {i : Instruction} (h : process L signers i = .ok L')
    (hkeeps : KeepsBinding T M i.core) (hb : BoundAt T M L state) :
    ∃ state', Rebound T M i.core L' state state' := by
  induction i with
  | token j =>
      have hframe := TokenInstruction.frame h
      exact ⟨state, .of_frame hb hframe (by
        cases j <;> simp [TokenInstruction.kinds, TokenHook.hookKinds, Irs.identityKinds])⟩
  | hook j =>
      have hframe := HookInstruction.frame h
      exact ⟨state, .of_frame hb hframe (by
        cases j <;> simp [HookInstruction.kinds, TokenHook.hookKinds])⟩
  | compliance j => exact ComplianceInstruction.rebound h hkeeps hb
  | module j =>
      have hframe := ModuleInstruction.frame h
      exact ⟨state, .of_frame hb hframe (by cases j <;> simp [ModuleInstruction.kinds])⟩
  | token2022 j => exact ⟨state, .of_frame hb (Token2022.process_frame h) (by decide)⟩
  | createTokenMint => exact ⟨state, .of_frame hb (Factory.frame_createTokenMint h) (by decide)⟩
  | callModuleFunction owner complianceState inner ih =>
      obtain ⟨_, -, hinner⟩ := bind_eq_ok.1 h
      exact ih hinner hkeeps

end Fracks
