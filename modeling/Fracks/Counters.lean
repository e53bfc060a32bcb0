import Fracks.Modules.Hooked

/-!
# Counters and the modules that answer for them

A counter is kept in the account of its module or in a support account that
names the module.  Who may move it is read off the module: its owner and its
hook authority.  A change of counters is an update that touches only counters
and leaves this assignment as it was.
-/

namespace Fracks

open Checked AccountType Ledger

/-- The hook authority stored in a module with counters. -/
def AccountData.hookAuthority : AccountData → Option Pubkey
  | .maxInvestorsModule m => some m.hookAuthority
  | .supplyCapModule m => some m.hookAuthority
  | .investorCountryCapModule m => some m.hookAuthority
  | .dailyTransferLimitModule m => some m.hookAuthority
  | _ => none

/-- The owner stored in a module with counters. -/
def AccountData.moduleOwner : AccountData → Option Pubkey
  | .maxInvestorsModule m => some m.owner
  | .supplyCapModule m => some m.owner
  | .investorCountryCapModule m => some m.owner
  | .dailyTransferLimitModule m => some m.owner
  | _ => none

/-- The module whose counter the account at `k` holds. -/
def Account.counterModule (k : Pubkey) (a : Account) : Option Pubkey :=
  if a.kind = .foreign then none
  else
    match a.data with
    | .maxInvestorsModule _ => some k
    | .supplyCapModule _ => some k
    | .countryInvestorCount count => some count.module
    | .dailyWalletUsage usage => some usage.module
    | _ => none

/-- The kinds of accounts that hold counters. -/
def counterKinds : List AccountKind :=
  [.maxInvestorsModule, .supplyCapModule, .countryInvestorCount, .dailyWalletUsage]

/-- Two accounts of the same kind that name the same module, owner and hook
authority. -/
structure SameModule (k : Pubkey) (a a' : Account) : Prop where
  kind : a'.kind = a.kind
  counterModule : a'.counterModule k = a.counterModule k
  hookAuthority : a'.data.hookAuthority = a.data.hookAuthority
  moduleOwner : a'.data.moduleOwner = a.data.moduleOwner

theorem SameModule.refl (k : Pubkey) (a : Account) : SameModule k a a := ⟨rfl, rfl, rfl, rfl⟩

theorem SameModule.trans {k : Pubkey} {a b c : Account} (h : SameModule k a b)
    (h' : SameModule k b c) : SameModule k a c :=
  ⟨h'.1.trans h.1, h'.2.trans h.2, h'.3.trans h.3, h'.4.trans h.4⟩

/-- Only counters that satisfy `P` change; `P` is about the key and the module
that answers for it. -/
structure CounterChange (P : Pubkey → Pubkey → Prop) (L L' : Ledger) : Prop where
  changes : ∀ k, L'.accounts k ≠ L.accounts k →
    ∃ M, (L.accounts k).counterModule k = some M ∧ P k M
  same : ∀ k, SameModule k (L.accounts k) (L'.accounts k)

namespace CounterChange

variable {P Q : Pubkey → Pubkey → Prop} {L L' L'' : Ledger} {k : Pubkey}

theorem refl (P : Pubkey → Pubkey → Prop) (L : Ledger) : CounterChange P L L :=
  ⟨fun _ h ↦ absurd rfl h, fun k ↦ .refl k _⟩

theorem trans (h : CounterChange P L L') (h' : CounterChange P L' L'') :
    CounterChange P L L'' := by
  refine ⟨fun k hk ↦ ?_, fun k ↦ (h.same k).trans (h'.same k)⟩
  by_cases hfirst : L'.accounts k = L.accounts k
  · have hsecond : L''.accounts k ≠ L'.accounts k := fun heq ↦ hk (heq.trans hfirst)
    obtain ⟨M, hM, hP⟩ := h'.changes k hsecond
    exact ⟨M, (h.same k).counterModule ▸ hM, hP⟩
  · exact h.changes k hfirst

theorem mono (h : CounterChange P L L') (hPQ : ∀ k M, P k M → Q k M) : CounterChange Q L L' :=
  ⟨fun k hk ↦ (h.changes k hk).imp fun M hM ↦ ⟨hM.1, hPQ k M hM.2⟩, h.same⟩

/-- Overwriting a counter by one of the same module. -/
theorem put {α : Type} [AccountType α] {a a' : α} {M : Pubkey} (h : L.accounts k = account a)
    (hM : (account a).counterModule k = some M) (hP : P k M)
    (hsame : SameModule k (account a) (account a')) : CounterChange P L (L.put k a') := by
  refine ⟨fun x hx ↦ ?_, fun x ↦ ?_⟩
  · by_cases hxk : x = k
    · subst hxk
      exact ⟨M, h ▸ hM, hP⟩
    · exact absurd (put_accounts_of_ne a' hxk) hx
  · by_cases hxk : x = k
    · subst hxk
      rw [h, put_accounts_self]
      exact hsame
    · rw [put_accounts_of_ne a' hxk]
      exact .refl x _

/-- The account of every counter has one of the counter kinds. -/
theorem counterModule_kind {a : Account} {M : Pubkey} (h : a.counterModule k = some M) :
    a.kind ∈ counterKinds := by
  unfold Account.counterModule at h
  split at h
  case isTrue => simp at h
  case isFalse hforeign =>
    have hkind : a.kind = a.data.kind := by
      unfold Account.kind at hforeign ⊢
      split <;> simp_all
    rw [hkind]
    split at h <;> simp_all [AccountData.kind, counterKinds]

end CounterChange

end Fracks
