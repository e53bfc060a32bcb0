import Fracks.Bookings
import Fracks.BoundModules

/-!
# Counters under booked movements

A booked movement does to the counter of a bound module what its one post-hook
does, with the amount of the movement and the balances after it.
-/

namespace Fracks

open Checked AccountType Ledger

variable {L L' : Ledger} {T C M k s d : Pubkey} {n : ℕ} {state : ComplianceState}
  {m : SupplyCapModule} {c : MaxInvestorsModule}

/-- The amount of a movement. -/
def Movement.amount : Movement → ℕ
  | .minted _ n | .burned _ n | .moved _ _ n => n

/-- A movement that leaves the books alone is one of nothing. -/
theorem Movement.Applies.amount_eq_zero {v : Movement} (h : v.Applies T L L')
    (hbooks : SameBooks L L') : v.amount = 0 := by
  cases v with
  | minted k n =>
      obtain ⟨-, hsupply⟩ := h
      rw [hbooks.supply] at hsupply
      simp only [Movement.amount]
      omega
  | burned k n =>
      obtain ⟨-, hle, -, hsupply⟩ := h
      rw [hbooks.supply] at hsupply
      simp only [Movement.amount]
      omega
  | moved s d n =>
      obtain ⟨hne, hle, hbalance, -⟩ := h
      have hsource := congrFun hbalance s
      rw [hbooks.balance, Tally.credit_of_ne hne.symm, Tally.debit, Function.update_self] at hsource
      simp only [Movement.amount]
      omega

/-! ## The supply cap -/

theorem Booked.minted_supplyCap (h : Booked T C (.minted k n) L L')
    (hstate : L.accounts C = account state) (hactive : state.modulesPaused = false)
    (hnodup : state.modules.Nodup) (hbound : M ∈ state.modules) (hM : L.accounts M = account m) :
    L'.accounts M = account { m with totalSupply := m.totalSupply + n } ∧
      m.totalSupply + n ≤ m.maxSupply := by
  obtain ⟨L₁, L₂, hbefore, ⟨_, _, hcreated⟩, hafter⟩ := h.posted
  obtain ⟨hM₂, hcap⟩ := Compliance.created_supplyCap hcreated
    (hbefore.accounts_eq (by decide) hstate) hactive hnodup hbound
    (hbefore.accounts_eq (by decide) hM)
  exact ⟨hafter.accounts_eq (by decide) hM₂, hcap⟩

theorem Booked.burned_supplyCap (h : Booked T C (.burned k n) L L')
    (hstate : L.accounts C = account state) (hnodup : state.modules.Nodup)
    (hbound : M ∈ state.modules) (hM : L.accounts M = account m) :
    L'.accounts M = account { m with totalSupply := m.totalSupply - n } ∧ n ≤ m.totalSupply := by
  obtain ⟨L₁, L₂, hbefore, ⟨_, _, hdestroyed⟩, hafter⟩ := h.posted
  obtain ⟨hM₂, hle⟩ := Compliance.destroyed_supplyCap hdestroyed
    (hbefore.accounts_eq (by decide) hstate) hnodup hbound (hbefore.accounts_eq (by decide) hM)
  exact ⟨hafter.accounts_eq (by decide) hM₂, hle⟩

theorem Booked.moved_supplyCap (h : Booked T C (.moved s d n) L L')
    (hM : L.accounts M = account m) : L'.accounts M = account m := by
  obtain ⟨L₁, L₂, hbefore, ⟨_, _, _, _, htransferred⟩, hafter⟩ := h.posted
  obtain ⟨_, hstep⟩ := Compliance.transferred_step htransferred
  have hM₁ := hbefore.accounts_eq (by decide) hM
  exact hafter.accounts_eq (by decide) (hstep.frame.accounts_eq (by decide) hM₁)

/-- A movement of nothing leaves the supply cap alone. -/
theorem Booked.supplyCap_of_zero {v : Movement} (h : Booked T C v L L') (hv : v.amount = 0)
    (hstate : L.accounts C = account state) (hactive : state.modulesPaused = false)
    (hnodup : state.modules.Nodup) (hbound : M ∈ state.modules) (hM : L.accounts M = account m) :
    L'.accounts M = account m := by
  cases v with
  | minted k n =>
      obtain rfl : n = 0 := hv
      exact (h.minted_supplyCap hstate hactive hnodup hbound hM).1
  | burned k n =>
      obtain rfl : n = 0 := hv
      exact (h.burned_supplyCap hstate hnodup hbound hM).1
  | moved s d n => exact h.moved_supplyCap hM

/-! ## The count of holders -/

theorem Booked.minted_maxInvestors (h : Booked T C (.minted k n) L L')
    (hstate : L.accounts C = account state) (hactive : state.modulesPaused = false)
    (hnodup : state.modules.Nodup) (hbound : M ∈ state.modules) (hM : L.accounts M = account c) :
    L'.accounts M = account { c with
      holderCount := c.holderCount + (if receiverEnters n (balance L T k + n) then 1 else 0) } := by
  obtain ⟨L₁, L₂, hbefore, ⟨_, _, hcreated⟩, hafter⟩ := h.posted
  have hM₂ := Compliance.created_maxInvestors hcreated
    (hbefore.accounts_eq (by decide) hstate) hactive hnodup hbound
    (hbefore.accounts_eq (by decide) hM)
  exact hafter.accounts_eq (by decide) hM₂

theorem Booked.burned_maxInvestors (h : Booked T C (.burned k n) L L')
    (hstate : L.accounts C = account state) (hnodup : state.modules.Nodup)
    (hbound : M ∈ state.modules) (hM : L.accounts M = account c) :
    ∃ count, L'.accounts M = account { c with holderCount := count } ∧
      count + (if senderExits n (balance L T k - n) then 1 else 0) = c.holderCount := by
  obtain ⟨L₁, L₂, hbefore, ⟨_, _, hdestroyed⟩, hafter⟩ := h.posted
  obtain ⟨count, hM₂, hcount⟩ := Compliance.destroyed_maxInvestors hdestroyed
    (hbefore.accounts_eq (by decide) hstate) hnodup hbound (hbefore.accounts_eq (by decide) hM)
  exact ⟨count, hafter.accounts_eq (by decide) hM₂, hcount⟩

theorem Booked.moved_maxInvestors (h : Booked T C (.moved s d n) L L')
    (hstate : L.accounts C = account state) (hnodup : state.modules.Nodup)
    (hbound : M ∈ state.modules) (hM : L.accounts M = account c) :
    ∃ count, L'.accounts M = account { c with holderCount := count } ∧
      count + (if senderExits n (balance L T s - n) then 1 else 0) =
        c.holderCount + (if receiverEnters n (balance L T d + n) then 1 else 0) := by
  obtain ⟨L₁, L₂, hbefore, ⟨_, _, _, _, htransferred⟩, hafter⟩ := h.posted
  obtain ⟨count, hM₂, hcount⟩ := Compliance.transferred_maxInvestors htransferred
    (hbefore.accounts_eq (by decide) hstate) hnodup hbound (hbefore.accounts_eq (by decide) hM)
  exact ⟨count, hafter.accounts_eq (by decide) hM₂, hcount⟩

/-- While the modules are paused a mint is booked without its modules. -/
theorem Booked.minted_paused {α : Type} [AccountType α] {a : α} (h : Booked T C (.minted k n) L L')
    (hstate : L.accounts C = account state) (hpaused : state.modulesPaused = true)
    (hα : kind α ∉ movementKinds) (hM : L.accounts M = account a) : L'.accounts M = account a := by
  obtain ⟨L₁, L₂, hbefore, ⟨_, _, hcreated⟩, hafter⟩ := h.posted
  obtain ⟨state', hstate', -, hloop⟩ := Compliance.created_eq_ok.1 hcreated
  obtain rfl := account_inj.1 ((hbefore.accounts_eq (by decide) hstate).symm.trans hstate')
  rcases hloop with ⟨-, rfl⟩ | ⟨hactive, -⟩
  · exact hafter.accounts_eq hα (hbefore.accounts_eq hα hM)
  · simp [hactive] at hpaused

/-- The compliance state itself is not touched by a movement. -/
theorem Booked.state_eq {v : Movement} (h : Booked T C v L L') {x : Pubkey} {y : ComplianceState}
    (hx : L.accounts x = account y) : L'.accounts x = account y := by
  obtain ⟨L₁, L₂, hbefore, hposted, hafter⟩ := h.posted
  have hx₁ := hbefore.accounts_eq (by decide) hx
  refine hafter.accounts_eq (by decide) ?_
  cases v with
  | minted =>
      obtain ⟨_, _, hcreated⟩ := hposted
      obtain ⟨_, hstep⟩ := Compliance.created_step hcreated
      exact hstep.frame.accounts_eq (by decide) hx₁
  | burned =>
      obtain ⟨_, _, hdestroyed⟩ := hposted
      obtain ⟨_, hstep⟩ := Compliance.destroyed_step hdestroyed
      exact hstep.frame.accounts_eq (by decide) hx₁
  | moved =>
      obtain ⟨_, _, _, _, htransferred⟩ := hposted
      obtain ⟨_, hstep⟩ := Compliance.transferred_step htransferred
      exact hstep.frame.accounts_eq (by decide) hx₁

end Fracks
