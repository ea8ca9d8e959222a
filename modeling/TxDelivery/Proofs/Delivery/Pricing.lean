import TxDelivery.Delivery.Pricing

/-!
# The price of a replacement

What `TxDelivery.nextGasPrice` decides, on numbers: **the larger of the market and the raised
price**, if the market is above the current price and the ceiling is not passed. The function has
three kinds of results, and there is an equivalence for each of them:

* a replacement at a price (`TxDelivery.nextGasPrice_eq_some_iff`);
* no need of one (`TxDelivery.nextGasPrice_eq_none_iff`), which is the case exactly if the market
  has not risen above the current price;
* a price above the ceiling (`TxDelivery.nextGasPrice_eq_error_iff`), with both of them in the
  error.

The three conditions exclude each other and leave nothing out, so whoever reasons about a supervisor
splits on them and never on the code. They are said with natural numbers, in which the order of
prices is the order that arithmetic knows about.

The price is named before the ceiling is looked at (`TxDelivery.raisedPrice`), since it is told in
the error as well as paid in the replacement. Nothing here depends on how a price is raised: that is
a matter of `TxDelivery.bumpPrice`, which appears in these statements as it is.
-/

namespace TxDelivery

variable {current market price : GasPrice} {percent : UInt64} {limit : Option GasPrice}

/-- The price of a replacement, before the ceiling is looked at. -/
def raisedPrice (current market : GasPrice) (percent : UInt64) : GasPrice :=
  if market < bumpPrice current percent then bumpPrice current percent else market

theorem toNat_raisedPrice : (raisedPrice current market percent).toNat =
    max market.toNat (bumpPrice current percent).toNat := by
  rw [raisedPrice]
  split
  case isTrue h => exact (Nat.max_eq_right (Nat.le_of_lt (BitVec.lt_def.mp h))).symm
  case isFalse h =>
    have hle := Nat.le_of_not_lt fun hlt => h (BitVec.lt_def.mpr hlt)
    exact (Nat.max_eq_left hle).symm

theorem eq_raisedPrice_iff : price = raisedPrice current market percent ↔
    price.toNat = max market.toNat (bumpPrice current percent).toNat := by
  rw [← toNat_raisedPrice]
  exact BitVec.toNat_inj.symm

theorem nextGasPrice_of_le (h : market.toNat ≤ current.toNat) :
    nextGasPrice current market percent limit = .ok none :=
  if_pos (BitVec.le_def.mpr h)

/-- Above the current price the ceiling decides. -/
theorem nextGasPrice_of_lt (h : current.toNat < market.toNat) :
    nextGasPrice current market percent limit =
      match limit with
      | some limit =>
        if limit < raisedPrice current market percent then
          .error (.overPriceLimit limit (raisedPrice current market percent))
        else .ok (some (raisedPrice current market percent))
      | none => .ok (some (raisedPrice current market percent)) := by
  have hnot : ¬ market ≤ current := fun hle => Nat.not_le_of_lt h (BitVec.le_def.mp hle)
  rw [nextGasPrice, if_neg hnot]
  rfl

/-- **When a replacement is made**, and at which price. -/
theorem nextGasPrice_eq_some_iff :
    nextGasPrice current market percent limit = .ok (some price) ↔
      current.toNat < market.toNat ∧
        price.toNat = max market.toNat (bumpPrice current percent).toNat ∧
        ∀ l, limit = some l → price.toNat ≤ l.toNat := by
  rw [← eq_raisedPrice_iff]
  rcases Nat.lt_or_ge current.toNat market.toNat with h | h
  · rw [nextGasPrice_of_lt h]
    cases limit with
    | none => simp [h, eq_comm]
    | some l =>
      by_cases hl : l < raisedPrice current market percent
      · have hlt : l.toNat < (raisedPrice current market percent).toNat := BitVec.lt_def.mp hl
        simp only [if_pos hl, h, true_and, Option.some.injEq, forall_eq', reduceCtorEq, false_iff]
        rintro ⟨rfl, hle⟩
        omega
      · have hle : (raisedPrice current market percent).toNat ≤ l.toNat :=
          Nat.le_of_not_lt fun hlt => hl (BitVec.lt_def.mpr hlt)
        simp only [if_neg hl, h, true_and, Except.ok.injEq, Option.some.injEq, forall_eq']
        constructor
        · rintro rfl
          exact ⟨rfl, hle⟩
        · exact fun hp => hp.1.symm
  · rw [nextGasPrice_of_le h]
    simp [Nat.not_lt_of_le h]

/-- **When no replacement is needed.** -/
theorem nextGasPrice_eq_none_iff :
    nextGasPrice current market percent limit = .ok none ↔ market.toNat ≤ current.toNat := by
  refine ⟨fun h => Nat.le_of_not_lt fun hlt => ?_, nextGasPrice_of_le⟩
  rw [nextGasPrice_of_lt hlt] at h
  cases limit with
  | none => simp at h
  | some l =>
    simp only at h
    split at h <;> simp at h

/-- **When the ceiling is passed**, and what is said of it. -/
theorem nextGasPrice_eq_error_iff {err : DeliveryError} :
    nextGasPrice current market percent limit = .error err ↔
      current.toNat < market.toNat ∧ ∃ l price, limit = some l ∧
        price.toNat = max market.toNat (bumpPrice current percent).toNat ∧
        l.toNat < price.toNat ∧ err = .overPriceLimit l price := by
  simp only [← eq_raisedPrice_iff]
  rcases Nat.lt_or_ge current.toNat market.toNat with h | h
  · rw [nextGasPrice_of_lt h]
    cases limit with
    | none => simp
    | some l =>
      by_cases hl : l < raisedPrice current market percent
      · have hlt : l.toNat < (raisedPrice current market percent).toNat := BitVec.lt_def.mp hl
        simp only [if_pos hl, h, true_and, Except.error.injEq]
        constructor
        · rintro rfl
          exact ⟨l, _, rfl, rfl, hlt, rfl⟩
        · rintro ⟨_, _, hsome, rfl, -, rfl⟩
          rw [Option.some.inj hsome]
      · have hnot : ¬ l.toNat < (raisedPrice current market percent).toNat :=
          fun hlt => hl (BitVec.lt_def.mpr hlt)
        simp [if_neg hl, hnot]
  · rw [nextGasPrice_of_le h]
    simp [Nat.not_lt_of_le h]

end TxDelivery
