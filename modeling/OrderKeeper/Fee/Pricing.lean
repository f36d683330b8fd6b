import OrderKeeper.Fee.Offer
import OrderKeeper.Fee.Overrides
import OrderKeeper.Fault.Wire
import OrderKeeper.Ledger.Call

/-!
# Pricing a transaction

One logical transaction is priced by a dialogue with the ledger, and priced anew for every broadcast. Each offer is
simulated once, at exactly the price it offers.

- `initial`: tip one, cap `1 + 2 * base fee`; needs a base fee.
- `adaptive`: the suggested tip, cap `tip + multiplier * base fee`; without a base fee the network's gas price.
- `escalate`: the previous cap raised for the next broadcast.
-/

namespace OrderKeeper

/-- Why no offer could be made. -/
inductive PricingFailure where
  /-- The network has no base fee. -/
  | noBaseFee (network : String)
  | feeData (inner : Fault)
  | gasEstimation (inner : Fault)
  deriving DecidableEq, Repr

namespace PricingFailure

/-- The wording of a failure. -/
def display : PricingFailure → String
  | noBaseFee network => "network " ++ network ++ " reports no base fee; use the simple handler"
  | feeData inner => "failed to read fee data: " ++ inner.display
  | gasEstimation inner => "gas estimation failed: " ++ inner.display

/-- The kind of a failure, by which its JSON form is tagged. -/
def kind : PricingFailure → String
  | noBaseFee _ => "BASE_FEE_UNAVAILABLE"
  | feeData _ => "FEE_DATA_UNAVAILABLE"
  | gasEstimation _ => "GAS_ESTIMATION_FAILED"

/-- The JSON form. -/
def toJson (e : PricingFailure) : Json :=
  .tagged "type" e.kind <|
    match e with
    | noBaseFee network => [("network", .str network)]
    | feeData inner | gasEstimation inner => [("inner_error", inner.toJson)]

open Json (Record)

/-- The kinds by their tags. -/
def alternatives : Json.Alternatives PricingFailure :=
  [("BASE_FEE_UNAVAILABLE", .record (noBaseFee <$> Record.required "network" Json.string)),
   ("FEE_DATA_UNAVAILABLE", .record (feeData <$> Record.required "inner_error" Fault.ofJson)),
   ("GAS_ESTIMATION_FAILED", .record (gasEstimation <$> Record.required "inner_error" Fault.ofJson))]

/-- Reads the JSON form. -/
def ofJson : Json.Decoder PricingFailure := Json.Alternatives.decode "type" alternatives

end PricingFailure

namespace Fee

/-- What is priced: a call on a network, and the factor of its gas limit. -/
structure Subject where
  network : String
  request : CallRequest
  gasMultiplier : Float

/-- A factor that is no positive finite number counts as one. -/
def Subject.withGasMultiplier (s : Subject) (m : Float) : Subject :=
  if m.isFinite && 0.0 < m then { s with gasMultiplier := m } else s

/-- The call at a price. -/
def Subject.at (s : Subject) (tip feeCap : Wei) (legacy : Bool) : CallRequest :=
  if legacy then { s.request with gasPrice? := some feeCap }
  else { s.request with feeCap? := some feeCap, tip? := some tip }

/-- Simulates the call at a price and makes the offer. -/
def Subject.offer (s : Subject) (tip feeCap : Wei) (legacy : Bool) (multiplier : Float) (attempt : UInt32) :
    LedgerDialogue (Except PricingFailure Offer) := do
  match ← Dialogue.question (LedgerCall.estimateGas (s.at tip feeCap legacy)) with
  | .error f => return .error (.gasEstimation f)
  | .ok gas => return .ok ⟨tip, feeCap, scaledGas gas s.gasMultiplier, multiplier, attempt, legacy⟩

/-- The cheapest offer that the next block can take. -/
def initial (s : Subject) : LedgerDialogue (Except PricingFailure Offer) := do
  match ← Dialogue.question LedgerCall.baseFee with
  | .error f => return .error (.feeData f)
  | .ok none => return .error (.noBaseFee s.network)
  | .ok (some (base : Wei)) => s.offer minTip (minTip.satAdd (base.satMul 2)) false 1.0 0

/-- An offer after the network's suggestions and the caller's overrides. -/
def adaptive (s : Subject) (overrides : FeeOverrides) : LedgerDialogue (Except PricingFailure Offer) := do
  match ← Dialogue.question LedgerCall.baseFee with
  | .error f => return .error (.feeData f)
  | .ok none =>
    match ← Dialogue.question LedgerCall.gasPrice with
    | .error f => return .error (.feeData f)
    | .ok (price : Wei) => s.offer 0 price true 1.0 0
  | .ok (some (base : Wei)) =>
    match ← Dialogue.question LedgerCall.priorityFee with
    | .error f => return .error (.feeData f)
    | .ok (tip : Wei) => s.offer tip (tip.satAdd (base.satMul overrides.baseFeeMultiplier.toNat)) false 1.0 0

/-- The offer of a broadcast, from the offer before it. -/
def escalate (s : Subject) (previous : Offer) (attempt : UInt32) : LedgerDialogue (Except PricingFailure Offer) :=
  let cap := escalatedCap previous.feeCap attempt
  let tip := if previous.tip.toNat ≤ cap.toNat then previous.tip else cap
  s.offer tip cap previous.legacy (attemptMultiplier attempt) attempt

end Fee

end OrderKeeper
