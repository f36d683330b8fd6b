import OrderKeeper.Fault
import OrderKeeper.Json.Scalar

/-!
# Pricing overrides

What a caller may ask of the pricing, checked when the work item is built: a base-fee multiplier of at least
`minBaseFeeMultiplier`, and a gas-limit multiplier that is finite and not negative, where zero means the default.
-/

namespace OrderKeeper

/-- The smallest base-fee multiplier; anything lower risks a fee cap below the next block's base fee. -/
def minBaseFeeMultiplier : UInt64 := 2

/-- Overrides that have been checked. -/
structure FeeOverrides where
  baseFeeMultiplier? : Option UInt64
  gasLimitMultiplier? : Option Float

namespace FeeOverrides

/-- No overrides. -/
def none : FeeOverrides := ⟨Option.none, Option.none⟩

/-- A multiplier of a base fee that is too small. -/
def baseFeeFault (m : UInt64) : Fault :=
  .validation s!"basefee multiplier must be at least {minBaseFeeMultiplier.toNat}, got {m.toNat}"

/-- A multiplier of a gas limit that is no number of at least zero. -/
def gasLimitFault (m : Float) : Fault :=
  .validation s!"gas limit multiplier must be a non-negative number, got {Decimal.display m}"

/-- Whether a multiplier of a base fee is large enough. -/
def baseFeeAllowed (m : UInt64) : Bool := minBaseFeeMultiplier ≤ m

/-- Whether a multiplier of a gas limit is finite and not negative. -/
def gasLimitAllowed (m : Float) : Bool := m.isFinite && !(m < 0.0)

/-- Checks overrides, the base fee first. -/
def check (baseFee : Option UInt64) (gasLimit : Option Float) : Except Fault FeeOverrides :=
  match baseFee.filter (!baseFeeAllowed ·), gasLimit.filter (!gasLimitAllowed ·) with
  | some m, _ => .error (baseFeeFault m)
  | _, some m => .error (gasLimitFault m)
  | _, _ => .ok ⟨baseFee, gasLimit.filter (0.0 < ·)⟩

/-- Whether the caller asked for anything but the defaults. -/
def isAdaptive (o : FeeOverrides) : Bool := o.baseFeeMultiplier?.isSome || o.gasLimitMultiplier?.isSome

/-- The multiplier of the base fee. -/
def baseFeeMultiplier (o : FeeOverrides) : UInt64 := o.baseFeeMultiplier?.getD minBaseFeeMultiplier

/-- The multiplier of the gas limit. -/
def gasLimitMultiplier (o : FeeOverrides) : Float := o.gasLimitMultiplier?.getD 1.0

end FeeOverrides

/-- Overrides as a caller writes them. -/
structure FeeOverridesRequest where
  baseFeeMultiplier : Option UInt64
  gasLimitMultiplier : Option Float

namespace FeeOverridesRequest

open Json (Record)

/-- Reads overrides. -/
def record : Record FeeOverridesRequest :=
  FeeOverridesRequest.mk <$> Record.optional "basefeeMultiplier" Json.uint64
    <*> Record.optional "gasLimitMultiplier" Json.float

/-- The members of the JSON form. -/
def members (r : FeeOverridesRequest) : Members :=
  [("basefeeMultiplier", Json.option Json.ofUInt64 r.baseFeeMultiplier),
   ("gasLimitMultiplier", Json.option Json.real r.gasLimitMultiplier)]

/-- Checks the overrides. -/
def check (r : FeeOverridesRequest) : Except Fault FeeOverrides :=
  FeeOverrides.check r.baseFeeMultiplier r.gasLimitMultiplier

end FeeOverridesRequest

namespace FeeOverrides

/-- The members of the JSON form: the stored options. -/
def members (o : FeeOverrides) : Members :=
  FeeOverridesRequest.members ⟨o.baseFeeMultiplier?, o.gasLimitMultiplier?⟩

/-- Reads overrides and checks them. -/
def ofJson : Json.Decoder FeeOverrides := fun v => do
  match (← FeeOverridesRequest.record.decode v).check with
  | .ok o => .ok o
  | .error _ => .error .malformed

end FeeOverrides

end OrderKeeper
