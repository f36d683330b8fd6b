import OrderKeeper.Fee.Overrides
import OrderKeeper.Mode
import OrderKeeper.Order.Basic

/-!
# Requests

Work items as a dispatcher writes them, before any check beyond the form of their members. The target and the pricing
overrides stand among the members of the request itself and are read after all others.
-/

namespace OrderKeeper

open Json (Record)

/-- Where an order is kept and who acts on it, as text. -/
structure TargetRequest where
  network : String
  contractAddress : String
  keeperAddress : String
  deriving DecidableEq, Repr

/-- What identifies an order. -/
structure OrderRequest where
  account : Address
  index : Option Word
  orderType : Option Word
  executeFee : Option Word
  deriving DecidableEq, Repr

/-- What a request says beside its target, its order and its pricing, when an order is to be executed. -/
structure Trade where
  tokenIn : Address
  tokenOut : Address
  remainingAmountIn : Word
  routes : List SwapRoute
  amountIn : Option Word
  amountOutMin : Word
  amountOutExpected : Word
  deriving DecidableEq, Repr

/-- A request to execute or to cancel an order; only an execution has a trade. -/
inductive WorkRequest where
  | execute (target : TargetRequest) (order : OrderRequest) (trade : Trade) (fees : FeeOverridesRequest)
      (mode : Option Mode)
  | cancel (target : TargetRequest) (order : OrderRequest) (fees : FeeOverridesRequest) (mode : Option Mode)

namespace TargetRequest

/-- Reads a target. -/
def record : Record TargetRequest :=
  TargetRequest.mk <$> Record.required "network" Json.string <*> Record.required "contractAddress" Json.string
    <*> Record.required "keeperAddress" Json.string

/-- The members of the JSON form. -/
def members (t : TargetRequest) : Members :=
  [("network", .str t.network), ("contractAddress", .str t.contractAddress),
   ("keeperAddress", .str t.keeperAddress)]

end TargetRequest

namespace OrderRequest

/-- Reads the identity of an order. -/
def record : Record OrderRequest :=
  OrderRequest.mk <$> Record.required "account" Json.address <*> Record.optional "index" Json.word
    <*> Record.optional "orderType" Json.word <*> Record.optional "executeFee" Json.word

/-- The members of the JSON form. -/
def members (o : OrderRequest) : Members :=
  [("account", .ofAddress o.account), ("index", Json.option Json.ofWord o.index),
   ("orderType", Json.option Json.ofWord o.orderType), ("executeFee", Json.option Json.ofWord o.executeFee)]

end OrderRequest

namespace SwapRoute

/-- Reads a route. -/
def record : Record SwapRoute :=
  SwapRoute.mk <$> Record.required "dexId" Json.uint8 <*> Record.required "tokenIn" Json.address
    <*> Record.required "tokenOut" Json.address <*> Record.required "amountIn" Json.word
    <*> Record.required "amountOutMin" Json.word <*> Record.default "extraData" Json.bytes []

/-- The members of the JSON form. -/
def members (r : SwapRoute) : Members :=
  [("dexId", .nat r.dexId.toNat), ("tokenIn", .ofAddress r.tokenIn), ("tokenOut", .ofAddress r.tokenOut),
   ("amountIn", .ofWord r.amountIn), ("amountOutMin", .ofWord r.amountOutMin), ("extraData", .ofBytes r.extraData)]

end SwapRoute

namespace WorkRequest

/-- The order of a request. -/
def orderMember : Record OrderRequest := Record.required "order" OrderRequest.record.decode

/-- The mode of a request. -/
def modeMember : Record (Option Mode) := Record.optional "mode" Mode.ofTaggedJson

/-- The members of an execution that are its own. -/
def executeRecord : Record (OrderRequest × Trade × Option Mode) :=
  (fun order tokenIn tokenOut remaining routes amountIn outMin outExpected mode =>
      (order, ⟨tokenIn, tokenOut, remaining, routes, amountIn, outMin, outExpected⟩, mode))
    <$> orderMember <*> Record.required "tokenIn" Json.address <*> Record.required "tokenOut" Json.address
    <*> Record.default "remainingAmountIn" Json.word 0
    <*> Record.default "routes" (Json.list SwapRoute.record.decode) []
    <*> Record.optional "amountIn" Json.word <*> Record.default "amountOutMin" Json.word 0
    <*> Record.default "amountOutExpected" Json.word 0 <*> modeMember

/-- The members of a cancellation that are its own. -/
def cancelRecord : Record (OrderRequest × Option Mode) := Prod.mk <$> orderMember <*> modeMember

/-- Reads an execution: its own members first, then its target, then its pricing. -/
def readExecute (ms : Members) : Except Json.Mismatch WorkRequest := do
  let (order, trade, mode) ← executeRecord.ofMembers ms
  let target ← TargetRequest.record.ofMembers ms
  let fees ← FeeOverridesRequest.record.ofMembers ms
  return .execute target order trade fees mode

/-- Reads a cancellation: its own members first, then its target, then its pricing. -/
def readCancel (ms : Members) : Except Json.Mismatch WorkRequest := do
  let (order, mode) ← cancelRecord.ofMembers ms
  let target ← TargetRequest.record.ofMembers ms
  let fees ← FeeOverridesRequest.record.ofMembers ms
  return .cancel target order fees mode

/-- The kinds of request by their tags. -/
def alternatives : Json.Alternatives WorkRequest :=
  [("execute", .members readExecute), ("cancel", .members readCancel)]

/-- Reads a request. -/
def ofJson : Json.Decoder WorkRequest := Json.Alternatives.decode "type" alternatives

/-- The JSON form. -/
def toJson : WorkRequest → Json
  | execute target order trade fees mode =>
    .tagged "type" "execute" (target.members ++
      [("order", .obj order.members), ("tokenIn", .ofAddress trade.tokenIn), ("tokenOut", .ofAddress trade.tokenOut),
       ("remainingAmountIn", .ofWord trade.remainingAmountIn),
       ("routes", .arr (trade.routes.map fun r => .obj r.members)),
       ("amountIn", Json.option Json.ofWord trade.amountIn), ("amountOutMin", .ofWord trade.amountOutMin),
       ("amountOutExpected", .ofWord trade.amountOutExpected)] ++
      fees.members ++ [("mode", Json.option Mode.toJson mode)])
  | cancel target order fees mode =>
    .tagged "type" "cancel" (target.members ++ [("order", .obj order.members)] ++ fees.members ++
      [("mode", Json.option Mode.toJson mode)])

end WorkRequest

end OrderKeeper
