import Fracks.ComplianceEffects

/-!
# The counter of a bound module

A module that is bound once is called once by every post-hook.  The other
modules leave its account alone, so that the whole post-hook does to its counter
what the one call does.
-/

namespace Fracks.Compliance

open Checked AccountType Ledger HookedModule

variable {L L' : Ledger} {C M source : Pubkey} {remaining : List Pubkey} {hook : PostHook}
  {amount fromAfter toAfter fromCountry toCountry : ℕ} {state : ComplianceState}

/-- The records that hold the counter of their own module. -/
def OwnCounter (α : Type) [AccountType α] : Prop :=
  ∀ (k : Pubkey) (a : α), (account a).counterModule k = some k

theorem ownCounter_supplyCap : OwnCounter SupplyCapModule := fun _ _ ↦ rfl

theorem ownCounter_maxInvestors : OwnCounter MaxInvestorsModule := fun _ _ ↦ rfl

/-- The call of another module leaves a record with its own counter alone. -/
theorem Iteration.view_of_ne {α : Type} [AccountType α] (hα : OwnCounter α) {M' : Pubkey}
    (h : Iteration hook C M' L L') (hne : M' ≠ M) : L'.view α M = L.view α M := by
  by_cases hsame : L'.accounts M = L.accounts M
  · exact view_congr hsame
  · obtain ⟨M₁, hM₁, hM', -⟩ := h.change.changes M hsame
    have hother : ∀ a : Account, a.counterModule M = some M' → ∀ m : α, a ≠ account m := by
      rintro _ hcounter m rfl
      exact hne (Option.some.inj (hcounter.symm.trans (hα M m)))
    rw [hM'] at hM₁
    have hbefore : L.view α M = none := by
      rw [Option.eq_none_iff_forall_ne_some]
      intro m hm
      exact hother _ hM₁ m (view_eq_some.1 hm)
    have hafter : L'.view α M = none := by
      rw [Option.eq_none_iff_forall_ne_some]
      intro m hm
      exact hother _ ((h.change.same M).counterModule.trans hM₁) m (view_eq_some.1 hm)
    rw [hbefore, hafter]

/-- What one call does to the record of a module, the whole loop does. -/
theorem foldlM_bound {α : Type} [AccountType α] (hα : OwnCounter α)
    {f : Ledger → Pubkey → Result Ledger} {modules : List Pubkey} {R : α → α → Prop} {m : α}
    (hf : ∀ M L L', f L M = .ok L' → Iteration hook C M L L')
    (hhit : ∀ L L' m, L.accounts M = account m → f L M = .ok L' →
      ∃ m', L'.accounts M = account m' ∧ R m m')
    (hnodup : modules.Nodup) (hbound : M ∈ modules) (hM : L.accounts M = account m)
    (h : modules.foldlM f L = .ok L') : ∃ m', L'.accounts M = account m' ∧ R m m' := by
  have honce := Fold.foldlM_once (g := fun L ↦ L.view α M)
    (R := fun v v' ↦ ∀ m, v = some m → ∃ m', v' = some m' ∧ R m m') hnodup hbound
    (fun M' _ hne L L' hstep ↦ (hf M' L L' hstep).view_of_ne hα hne)
    (fun L L' hstep m hm ↦ ?_) h m (view_eq_some.2 hM)
  · obtain ⟨m', hm', hR⟩ := honce
    exact ⟨m', view_eq_some.1 hm', hR⟩
  · obtain ⟨m', hm', hR⟩ := hhit L L' m (view_eq_some.1 hm) hstep
    exact ⟨m', view_eq_some.2 hm', hR⟩

/-! ## The supply cap -/

section SupplyCap

variable {m : SupplyCapModule}

theorem created_supplyCap (h : created L C remaining amount toAfter toCountry = .ok L')
    (hstate : L.accounts C = account state) (hactive : state.modulesPaused = false)
    (hnodup : state.modules.Nodup) (hbound : M ∈ state.modules) (hM : L.accounts M = account m) :
    L'.accounts M = account { m with totalSupply := m.totalSupply + amount } ∧
      m.totalSupply + amount ≤ m.maxSupply := by
  obtain ⟨state', hstate', -, hloop⟩ := created_eq_ok.1 h
  obtain rfl := account_inj.1 (hstate.symm.trans hstate')
  rcases hloop with ⟨hpaused, -⟩ | ⟨-, hloop⟩
  · simp [hactive] at hpaused
  · have hresult := foldlM_bound ownCounter_supplyCap
      (R := fun m m' ↦ m' = { m with totalSupply := m.totalSupply + amount } ∧
        m.totalSupply + amount ≤ m.maxSupply)
      (fun _ _ _ ↦ moduleCreated_iteration) (fun L L' m hm hstep ↦ ?_) hnodup hbound hM hloop
    · obtain ⟨m', hM', rfl, hcap⟩ := hresult
      exact ⟨hM', hcap⟩
    · obtain ⟨-, -, hcreated⟩ := (moduleCreated_supplyCap hm).1 hstep
      obtain ⟨-, m₁, hm₁, -, -, -, hcap, rfl⟩ := ModSupplyCap.created_eq_ok.1 hcreated
      obtain rfl := account_inj.1 (hm.symm.trans hm₁)
      exact ⟨_, put_accounts_self _, rfl, hcap⟩

theorem destroyed_supplyCap (h : destroyed L C remaining amount fromAfter fromCountry = .ok L')
    (hstate : L.accounts C = account state) (hnodup : state.modules.Nodup)
    (hbound : M ∈ state.modules) (hM : L.accounts M = account m) :
    L'.accounts M = account { m with totalSupply := m.totalSupply - amount } ∧
      amount ≤ m.totalSupply := by
  obtain ⟨state', hstate', -, hloop⟩ := destroyed_eq_ok.1 h
  obtain rfl := account_inj.1 (hstate.symm.trans hstate')
  have hresult := foldlM_bound ownCounter_supplyCap
    (R := fun m m' ↦ m' = { m with totalSupply := m.totalSupply - amount } ∧
      amount ≤ m.totalSupply)
    (fun _ _ _ ↦ moduleDestroyed_iteration) (fun L L' m hm hstep ↦ ?_) hnodup hbound hM hloop
  · obtain ⟨m', hM', rfl, hle⟩ := hresult
    exact ⟨hM', hle⟩
  · obtain ⟨-, -, hdestroyed⟩ := (moduleDestroyed_supplyCap hm).1 hstep
    obtain ⟨-, m₁, hm₁, -, -, hle, rfl⟩ := ModSupplyCap.destroyed_eq_ok.1 hdestroyed
    obtain rfl := account_inj.1 (hm.symm.trans hm₁)
    exact ⟨_, put_accounts_self _, rfl, hle⟩

end SupplyCap

/-! ## The count of holders -/

section MaxInvestors

variable {m : MaxInvestorsModule}

theorem created_maxInvestors (h : created L C remaining amount toAfter toCountry = .ok L')
    (hstate : L.accounts C = account state) (hactive : state.modulesPaused = false)
    (hnodup : state.modules.Nodup) (hbound : M ∈ state.modules) (hM : L.accounts M = account m) :
    L'.accounts M = account { m with
      holderCount := m.holderCount + (if receiverEnters amount toAfter then 1 else 0) } := by
  obtain ⟨state', hstate', -, hloop⟩ := created_eq_ok.1 h
  obtain rfl := account_inj.1 (hstate.symm.trans hstate')
  rcases hloop with ⟨hpaused, -⟩ | ⟨-, hloop⟩
  · simp [hactive] at hpaused
  · have hresult := foldlM_bound ownCounter_maxInvestors
      (R := fun m m' ↦ m' = { m with
        holderCount := m.holderCount + (if receiverEnters amount toAfter then 1 else 0) })
      (fun _ _ _ ↦ moduleCreated_iteration) (fun L L' m hm hstep ↦ ?_) hnodup hbound hM hloop
    · obtain ⟨m', hM', rfl⟩ := hresult
      exact hM'
    · obtain ⟨-, -, hcreated⟩ := (moduleCreated_maxInvestors hm).1 hstep
      obtain ⟨-, m₁, hm₁, -, -, rfl⟩ := ModMaxInvestors.created_ok hcreated
      obtain rfl := account_inj.1 (hm.symm.trans hm₁)
      exact ⟨_, put_accounts_self _, rfl⟩

theorem destroyed_maxInvestors (h : destroyed L C remaining amount fromAfter fromCountry = .ok L')
    (hstate : L.accounts C = account state) (hnodup : state.modules.Nodup)
    (hbound : M ∈ state.modules) (hM : L.accounts M = account m) :
    ∃ n, L'.accounts M = account { m with holderCount := n } ∧
      n + (if senderExits amount fromAfter then 1 else 0) = m.holderCount := by
  obtain ⟨state', hstate', -, hloop⟩ := destroyed_eq_ok.1 h
  obtain rfl := account_inj.1 (hstate.symm.trans hstate')
  have hresult := foldlM_bound ownCounter_maxInvestors
    (R := fun m m' ↦ ∃ n, m' = { m with holderCount := n } ∧
      n + (if senderExits amount fromAfter then 1 else 0) = m.holderCount)
    (fun _ _ _ ↦ moduleDestroyed_iteration) (fun L L' m hm hstep ↦ ?_) hnodup hbound hM hloop
  · obtain ⟨m', hM', n, rfl, hn⟩ := hresult
    exact ⟨n, hM', hn⟩
  · obtain ⟨-, -, hdestroyed⟩ := (moduleDestroyed_maxInvestors hm).1 hstep
    obtain ⟨-, m₁, n, hm₁, -, -, hn, rfl⟩ := ModMaxInvestors.destroyed_eq_ok.1 hdestroyed
    obtain rfl := account_inj.1 (hm.symm.trans hm₁)
    exact ⟨_, put_accounts_self _, n, rfl, hn.symm⟩

theorem transferred_maxInvestors
    (h : transferred L C remaining source amount fromAfter toAfter fromCountry toCountry = .ok L')
    (hstate : L.accounts C = account state) (hnodup : state.modules.Nodup)
    (hbound : M ∈ state.modules) (hM : L.accounts M = account m) :
    ∃ n, L'.accounts M = account { m with holderCount := n } ∧
      n + (if senderExits amount fromAfter then 1 else 0) =
        m.holderCount + (if receiverEnters amount toAfter then 1 else 0) := by
  obtain ⟨state', hstate', -, hloop⟩ := transferred_eq_ok.1 h
  obtain rfl := account_inj.1 (hstate.symm.trans hstate')
  have hresult := foldlM_bound ownCounter_maxInvestors
    (R := fun m m' ↦ ∃ n, m' = { m with holderCount := n } ∧
      n + (if senderExits amount fromAfter then 1 else 0) =
        m.holderCount + (if receiverEnters amount toAfter then 1 else 0))
    (fun _ _ _ ↦ moduleTransferred_iteration) (fun L L' m hm hstep ↦ ?_) hnodup hbound hM hloop
  · obtain ⟨m', hM', n, rfl, hn⟩ := hresult
    exact ⟨n, hM', hn⟩
  · obtain ⟨-, -, htransferred⟩ := (moduleTransferred_maxInvestors hm).1 hstep
    obtain ⟨-, m₁, n, hm₁, -, -, hn, rfl⟩ := ModMaxInvestors.transferred_ok htransferred
    obtain rfl := account_inj.1 (hm.symm.trans hm₁)
    exact ⟨_, put_accounts_self _, n, rfl, hn⟩

end MaxInvestors

end Fracks.Compliance
