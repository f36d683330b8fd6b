import OrderKeeper.Word
import OrderKeeper.Json.Scalar

/-!
# Offers

What a transaction offers to pay, and how the price rises from one broadcast to the next.

- Broadcast number `a` multiplies the fee cap by `1 + (a - 1) / 10`, in exact tenths and rounded up; from the second
  broadcast on the cap rises by at least one (`escalatedCap`).
- A gas limit is scaled in floating point and rounded up (`scaledGas`).
-/

namespace OrderKeeper

/-- What a transaction offers to pay. -/
structure Offer where
  /-- The tip; zero in a legacy offer. -/
  tip : Wei
  /-- The cap on the whole fee, or the gas price of a legacy offer. -/
  feeCap : Wei
  gasLimit : UInt64
  /-- The factor that led here from the previous cap. -/
  multiplier : Float
  /-- The number of the broadcast the offer was made for; zero before the first. -/
  attempt : UInt32
  /-- Whether the network has no base fee. -/
  legacy : Bool

namespace Fee

/-- The tip of the cheapest offer. -/
def minTip : Wei := 1

/-- The number of broadcasts before this one; broadcast zero counts as the first. -/
def raises (attempt : UInt32) : Nat := attempt.toNat - 1

/-- The factor of a broadcast. -/
def attemptMultiplier (attempt : UInt32) : Float := 1.0 + 0.1 * (UInt64.ofNat (raises attempt)).toFloat

/-- The fee cap of a broadcast, from the cap before it. -/
def escalatedCap (cap : Wei) (attempt : UInt32) : Wei :=
  let tenths := 10 + raises attempt
  let scaled := ((cap.satMul tenths).toNat + 9) / 10
  if 10 < tenths then Wei.saturate (max scaled (cap.satAdd 1).toNat) else Wei.saturate scaled

/-- A gas limit times a multiplier, rounded up; it stops at the largest limit. -/
def scaledGas (gas : UInt64) (multiplier : Float) : UInt64 :=
  if multiplier == 1.0 then gas
  else
    let scaled := (gas.toFloat * multiplier).ceil
    if scaled ≥ 18446744073709551616.0 then UInt64.ofNat (UInt64.size - 1) else scaled.toUInt64

end Fee

namespace Offer

open Json (Record)

/-- Reads an offer. -/
def record : Record Offer :=
  Offer.mk <$> Record.required "tip" Json.wei <*> Record.required "feeCap" Json.wei
    <*> Record.required "gasLimit" Json.uint64 <*> Record.required "multiplier" Json.float
    <*> Record.required "attempt" Json.uint32 <*> Record.required "legacy" Json.boolean

/-- The JSON form. -/
def toJson (o : Offer) : Json :=
  .obj [("tip", .nat o.tip.toNat), ("feeCap", .nat o.feeCap.toNat), ("gasLimit", .ofUInt64 o.gasLimit),
    ("multiplier", .real o.multiplier), ("attempt", .ofUInt32 o.attempt), ("legacy", .bool o.legacy)]

end Offer

end OrderKeeper
