import OrderKeeper.Fee.Offer

/-!
# How a gas limit is scaled

What a multiplier makes of the gas that a simulation used (`Fee.scaled_iff`): the gas itself if the multiplier is one,
which need not go through a float; otherwise the product in floating point, rounded up, but no more than the largest limit.
-/

namespace OrderKeeper.Fee

/-- A gas limit is made of some gas and a multiplier. -/
inductive Scaled (gas : UInt64) (multiplier : Float) : UInt64 → Prop where
  | same : (multiplier == 1.0) = true → Scaled gas multiplier gas
  | roundedUp : (multiplier == 1.0) = false → ¬ 18446744073709551616.0 ≤ (gas.toFloat * multiplier).ceil →
      Scaled gas multiplier (gas.toFloat * multiplier).ceil.toUInt64
  /-- The product is above every limit. -/
  | largest {limit : UInt64} : (multiplier == 1.0) = false →
      18446744073709551616.0 ≤ (gas.toFloat * multiplier).ceil → limit.toNat = UInt64.size - 1 → Scaled gas multiplier limit

variable (gas : UInt64) (multiplier : Float)

theorem scaled_scaledGas : Scaled gas multiplier (scaledGas gas multiplier) := by
  unfold scaledGas
  cases hone : multiplier == 1.0 with
  | true =>
    rw [if_pos rfl]
    exact .same hone
  | false =>
    rw [if_neg Bool.false_ne_true]
    dsimp only
    split
    · rename_i hlarge
      exact .largest hone hlarge rfl
    · rename_i hsmall
      exact .roundedUp hone hsmall

/-- There is one such limit, the one that is computed. -/
theorem scaled_iff {limit : UInt64} : Scaled gas multiplier limit ↔ limit = scaledGas gas multiplier := by
  constructor
  · intro h
    unfold scaledGas
    cases h with
    | same hone => rw [if_pos hone]
    | roundedUp hone hsmall => simp [hone, hsmall]
    | largest hone hlarge hlimit =>
      have hmax : limit = UInt64.ofNat (UInt64.size - 1) := UInt64.toNat.inj hlimit
      simp [hone, hlarge, hmax]
  · rintro rfl
    exact scaled_scaledGas gas multiplier

end OrderKeeper.Fee
