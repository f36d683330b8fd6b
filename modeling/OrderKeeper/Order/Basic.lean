import OrderKeeper.Abi

/-!
# Orders

What is handed to the order book to execute or to cancel an order, and its call data.
-/

namespace OrderKeeper

/-- What identifies an order, and the fee for executing it. -/
structure Order where
  account : Address
  index : Word
  orderType : Word
  executeFee : Word
  deriving DecidableEq, Repr

/-- One swap on the way from the token given to the token taken. -/
structure SwapRoute where
  dexId : UInt8
  tokenIn : Address
  tokenOut : Address
  amountIn : Word
  amountOutMin : Word
  extraData : Bytes
  deriving DecidableEq, Repr

/-- The input of the order book. -/
structure Payload where
  order : Order
  isCancel : Bool
  tokenIn : Address
  tokenOut : Address
  remainingAmountIn : Word
  routes : List SwapRoute
  amountIn : Word
  amountOutMin : Word
  amountOutExpected : Word
  keeper : Address
  deriving DecidableEq, Repr

/-- What is done with an order. -/
inductive Action where
  | execute
  | cancel
  deriving DecidableEq, Repr

/-- The name of an action. -/
def Action.name : Action → String
  | execute => "execute"
  | cancel => "cancel"

/-- The order as call data. -/
def Order.toAbi (o : Order) : Abi.Value :=
  .tuple [.address o.account, .word o.index, .word o.orderType, .word o.executeFee]

/-- The route as call data. -/
def SwapRoute.toAbi (r : SwapRoute) : Abi.Value :=
  .tuple [.nat r.dexId.toNat, .address r.tokenIn, .address r.tokenOut, .word r.amountIn, .word r.amountOutMin,
    .bytes r.extraData]

namespace Payload

/-- A cancellation carries the identity of the order and no trade. -/
def cancel (order : Order) (keeper : Address) : Payload where
  order
  isCancel := true
  tokenIn := 0
  tokenOut := 0
  remainingAmountIn := 0
  routes := []
  amountIn := 0
  amountOutMin := 0
  amountOutExpected := 0
  keeper

/-- The parameter list of the payload. -/
def parameters (p : Payload) : List Abi.Value :=
  [p.order.toAbi, .bool p.isCancel, .address p.tokenIn, .address p.tokenOut, .word p.remainingAmountIn,
    .array (p.routes.map SwapRoute.toAbi), .word p.amountIn, .word p.amountOutMin, .word p.amountOutExpected,
    .address p.keeper]

/-- The encoded parameter list. -/
def encode (p : Payload) : Bytes := (Abi.Value.tuple p.parameters).encode

/-- The call that asks whether the order can be executed now. -/
def checkUpkeepCall (p : Payload) : Bytes := Abi.call "checkUpkeep(bytes)" [.bytes p.encode]

/-- The call that executes the order. -/
def performUpkeepCall (p : Payload) : Bytes := Abi.call "performUpkeep(bytes)" [.bytes p.encode]

end Payload

end OrderKeeper
