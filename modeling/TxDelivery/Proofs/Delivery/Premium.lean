import Mathlib.Algebra.Order.Floor.Div
import Mathlib.Order.Bounds.Basic
import TxDelivery.Proofs.Delivery.Pricing

/-!
# The premium of a replacement

`TxDelivery.bumpPrice` computes on words and stops twice on its way, at the product and at the sum
that rounds up. On numbers without bounds it is **the raised price rounded up, and a hundredth of
the largest price where that is exceeded** (`TxDelivery.toNat_bumpPrice`).

The two stops make one. Rounding up is adding 99 before dividing by a hundred, so a sum that stops
leaves a hundredth of the largest price after the division, whether it was the product that stopped
before or only the sum; and a sum that does not stop leaves no more than that. So the minimum may be
taken behind the division, where only one number is left to be compared.

From the closed form there follow

* that the price grows with what is raised and with the percentage
  (`TxDelivery.bumpPrice_le_bumpPrice`);
* that it is the least that is high enough, where it does not stop
  (`TxDelivery.toNat_bumpPrice_le_iff`), which is the law of rounding up.

A price that stops may be below the one it was raised from. What is paid then is the market, which
is above it, so that even then a replacement pays more than what it replaces
(`TxDelivery.nextGasPrice_characterized`). Whoever wants a premium of so many percent cannot have it
at such prices, and the last case of the statement is restricted accordingly.
-/

namespace TxDelivery

variable {current current' market price : GasPrice} {percent percent' : UInt64}

/-- **The raised price in closed form.** -/
theorem toNat_bumpPrice (current : GasPrice) (percent : UInt64) :
    (bumpPrice current percent).toNat =
      min ((current.toNat * (100 + percent.toNat)) ⌈/⌉ 100) (GasPrice.maxNat / 100) := by
  have hmax : GasPrice.maxNat = 340282366920938463463374607431768211455 := rfl
  rw [bumpPrice, BitVec.toNat_ofNat, Nat.ceilDiv_eq_add_pred_div, hmax]
  -- A sum that stops leaves a hundredth of the largest price, whichever of the two has stopped.
  omega

/-- **The raised price grows** with the price and with the percentage. -/
theorem bumpPrice_le_bumpPrice (hcurrent : current ≤ current') (hpercent : percent ≤ percent') :
    bumpPrice current percent ≤ bumpPrice current' percent' := by
  have hproduct : current.toNat * (100 + percent.toNat) ≤ current'.toNat * (100 + percent'.toNat) :=
    Nat.mul_le_mul (BitVec.le_def.mp hcurrent)
      (Nat.add_le_add_left (UInt64.le_iff_toNat_le.mp hpercent) 100)
  rw [BitVec.le_def, toNat_bumpPrice, toNat_bumpPrice]
  refine min_le_min_right _ ?_
  simp only [Nat.ceilDiv_eq_add_pred_div]
  omega

/-- **Where the raised price does not stop it is the least that is high enough.** -/
theorem toNat_bumpPrice_le_iff
    (h : current.toNat * (100 + percent.toNat) ≤ 100 * (GasPrice.maxNat / 100)) (k : Nat) :
    (bumpPrice current percent).toNat ≤ k ↔ current.toNat * (100 + percent.toNat) ≤ 100 * k := by
  rw [toNat_bumpPrice, Nat.ceilDiv_eq_add_pred_div]
  omega

/-- **The price of a replacement**, in full.

* The raised price is rounded up, and stops at a hundredth of the largest price; it grows with what
  is raised and with the percentage.
* There is no replacement if the market is at or below the current price.
* Otherwise the larger of the market and the raised price is paid, unless a ceiling is below it;
  then the two are told.
* What is paid is above the current price, even where the raised price is not; it is at least the
  market and at most the ceiling. Where the raised price does not stop, it is the least such price
  that holds the premium. -/
theorem nextGasPrice_characterized (current market : GasPrice) (percent : UInt64)
    (limit : Option GasPrice) :
    (bumpPrice current percent).toNat =
        min ((current.toNat * (100 + percent.toNat)) ⌈/⌉ 100) (GasPrice.maxNat / 100) ∧
      (∀ current' percent', current ≤ current' → percent ≤ percent' →
        bumpPrice current percent ≤ bumpPrice current' percent') ∧
      (nextGasPrice current market percent limit = .ok none ↔ market ≤ current) ∧
      (current < market → ∃ price : GasPrice,
        price.toNat = max market.toNat (bumpPrice current percent).toNat ∧
        (∀ p, nextGasPrice current market percent limit = .ok (some p) ↔
          p = price ∧ ∀ l, limit = some l → price ≤ l) ∧
        ∀ err, nextGasPrice current market percent limit = .error err ↔
          ∃ l, limit = some l ∧ l < price ∧ err = .overPriceLimit l price) ∧
      ∀ price, nextGasPrice current market percent limit = .ok (some price) →
        current < price ∧ market ≤ price ∧ (∀ l, limit = some l → price ≤ l) ∧
        (current.toNat * (100 + percent.toNat) ≤ 100 * (GasPrice.maxNat / 100) →
          IsLeast {k | market.toNat ≤ k ∧ current.toNat * (100 + percent.toNat) ≤ 100 * k}
            price.toNat) := by
  refine ⟨toNat_bumpPrice current percent, fun _ _ => bumpPrice_le_bumpPrice,
    nextGasPrice_eq_none_iff, fun h => ?_, fun price hprice => ?_⟩
  · refine ⟨raisedPrice current market percent, toNat_raisedPrice, fun p => ?_, fun err => ?_⟩
    · rw [nextGasPrice_eq_some_iff, ← eq_raisedPrice_iff]
      constructor
      · rintro ⟨-, rfl, hlimit⟩
        exact ⟨rfl, hlimit⟩
      · rintro ⟨rfl, hlimit⟩
        exact ⟨h, rfl, hlimit⟩
    · simp only [nextGasPrice_eq_error_iff, ← eq_raisedPrice_iff]
      constructor
      · rintro ⟨-, l, _, hl, rfl, hlt, rfl⟩
        exact ⟨l, hl, hlt, rfl⟩
      · rintro ⟨l, hl, hlt, rfl⟩
        exact ⟨h, l, _, hl, rfl, hlt, rfl⟩
  · obtain ⟨hmarket, hmax, hlimit⟩ := nextGasPrice_eq_some_iff.mp hprice
    have hle : market.toNat ≤ price.toNat := hmax ▸ le_max_left _ _
    refine ⟨BitVec.lt_def.mpr (by omega), BitVec.le_def.mpr hle, hlimit, fun hstop => ?_⟩
    have hbump := toNat_bumpPrice_le_iff hstop
    refine ⟨⟨hle, (hbump _).mp (hmax ▸ le_max_right _ _)⟩, fun k hk => ?_⟩
    rw [hmax]
    exact max_le hk.1 ((hbump k).mpr hk.2)

/-- A price that stops (`-1` is the largest): the raised price is below the one it was raised from,
and the market is paid. -/
example : bumpPrice (-2) 10 < -2 ∧ nextGasPrice (-2) (-1) 10 none = .ok (some (-1)) := by decide

end TxDelivery
