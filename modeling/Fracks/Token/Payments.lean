import Fracks.Lib.Ceil
import Fracks.Token.Checks

/-!
# Payments

The price of an amount in lamports: the exact amounts, prices and decimals that have one, and
how the payments of parts compare with the payment of the whole.
-/

namespace Fracks.Token

open Checked Ceil

/-- The price of an amount, rounded up to lamports. -/
def price (amount pricePerToken tokenDecimals : ℕ) : ℕ :=
  share (amount * pricePerToken) (10 ^ tokenDecimals)

variable {amount pricePerToken tokenDecimals payment : ℕ}

/-- A power of ten is a 128-bit word up to the 38th. -/
theorem pow_ten_le_iff : 10 ^ tokenDecimals ≤ u128Max ↔ tokenDecimals ≤ 38 := by
  have hlast : 10 ^ 38 ≤ u128Max := by decide
  have hnext : u128Max < 10 ^ 39 := by decide
  constructor
  · intro h
    by_contra hlarge
    have hle : 10 ^ 39 ≤ 10 ^ tokenDecimals := Nat.pow_le_pow_right (by decide) (by omega)
    omega
  · intro h
    exact (Nat.pow_le_pow_right (by decide) h).trans hlast

theorem calculateSolPayment_eq_ok :
    calculateSolPayment amount pricePerToken tokenDecimals = .ok payment ↔
      payment = price amount pricePerToken tokenDecimals ∧ 0 < pricePerToken ∧
        tokenDecimals ≤ 38 ∧ amount * pricePerToken + (10 ^ tokenDecimals - 1) ≤ u128Max ∧
          payment ≤ u64Max := by
  have hscale : 0 < 10 ^ tokenDecimals := Nat.pow_pos (by decide)
  simp only [calculateSolPayment, bind_eq_ok, require_eq_ok, okOr_eq_ok, checkedU128_eq_some,
    exists_const, Except.ok.injEq, price]
  constructor
  · rintro ⟨hprice, _, ⟨hdecimals, rfl⟩, _, ⟨-, rfl⟩, _, ⟨hsum, rfl⟩, hfits, rfl⟩
    exact ⟨div_eq_share hscale, hprice, pow_ten_le_iff.1 hdecimals, hsum, hfits⟩
  · rintro ⟨hpayment, hprice, hdecimals, hsum, hfits⟩
    rw [← div_eq_share hscale] at hpayment
    have hproduct : amount * pricePerToken ≤ u128Max := by omega
    exact ⟨hprice, _, ⟨pow_ten_le_iff.2 hdecimals, rfl⟩, _, ⟨hproduct, rfl⟩, _, ⟨hsum, rfl⟩,
      hpayment ▸ hfits, hpayment.symm⟩

/-- The exact amounts, prices and decimals that have a price, and the price they have; parts cost
no less than the whole, less costs no more, and no payment is below what is sold. -/
theorem calculateSolPayment_rounds_up (pricePerToken tokenDecimals : ℕ) :
    (∀ amount payment, calculateSolPayment amount pricePerToken tokenDecimals = .ok payment ↔
      payment = ⌈(amount * pricePerToken : ℚ) / 10 ^ tokenDecimals⌉₊ ∧ 0 < pricePerToken ∧
        tokenDecimals ≤ 38 ∧ amount * pricePerToken + 10 ^ tokenDecimals - 1 ≤ u128Max ∧
          payment ≤ u64Max) ∧
      (∀ a b p q r, calculateSolPayment a pricePerToken tokenDecimals = .ok p →
        calculateSolPayment b pricePerToken tokenDecimals = .ok q →
          calculateSolPayment (a + b) pricePerToken tokenDecimals = .ok r → r ≤ p + q) ∧
        (∀ a b q, a ≤ b → calculateSolPayment b pricePerToken tokenDecimals = .ok q →
          ∃ p, calculateSolPayment a pricePerToken tokenDecimals = .ok p ∧ p ≤ q) ∧
          ∀ amount payment, calculateSolPayment amount pricePerToken tokenDecimals = .ok payment →
            amount * pricePerToken ≤ payment * 10 ^ tokenDecimals := by
  have hscale : 0 < 10 ^ tokenDecimals := Nat.pow_pos (by decide)
  refine ⟨?_, ?_, ?_, ?_⟩
  · intro amount payment
    have hprice : price amount pricePerToken tokenDecimals =
        ⌈(amount * pricePerToken : ℚ) / 10 ^ tokenDecimals⌉₊ := by
      rw [price, share]
      push_cast
      rfl
    have hsum : amount * pricePerToken + 10 ^ tokenDecimals - 1 =
        amount * pricePerToken + (10 ^ tokenDecimals - 1) := by omega
    rw [calculateSolPayment_eq_ok, hprice, hsum]
  · intro a b p q r hp hq hr
    have hp : p = price a pricePerToken tokenDecimals := (calculateSolPayment_eq_ok.1 hp).1
    have hq : q = price b pricePerToken tokenDecimals := (calculateSolPayment_eq_ok.1 hq).1
    have hr : r = price (a + b) pricePerToken tokenDecimals := (calculateSolPayment_eq_ok.1 hr).1
    calc
      r = share (a * pricePerToken + b * pricePerToken) (10 ^ tokenDecimals) := by
        rw [hr, price, Nat.add_mul]
      _ ≤ price a pricePerToken tokenDecimals + price b pricePerToken tokenDecimals :=
        share_add_le hscale _ _
      _ = p + q := by rw [hp, hq]
  · intro a b q hle hq
    obtain ⟨rfl, hprice, hdecimals, hsum, hfits⟩ := calculateSolPayment_eq_ok.1 hq
    have hproduct : a * pricePerToken ≤ b * pricePerToken := Nat.mul_le_mul_right _ hle
    have hshare : price a pricePerToken tokenDecimals ≤ price b pricePerToken tokenDecimals :=
      share_mono hscale hproduct
    have hok : calculateSolPayment a pricePerToken tokenDecimals =
        .ok (price a pricePerToken tokenDecimals) :=
      calculateSolPayment_eq_ok.2 ⟨rfl, hprice, hdecimals, by omega, by omega⟩
    exact ⟨_, hok, hshare⟩
  · intro amount payment h
    obtain ⟨rfl, -⟩ := calculateSolPayment_eq_ok.1 h
    exact le_share_mul hscale

end Fracks.Token
