import OrderKeeper.Abi.Kind
import OrderKeeper.Order.Basic

/-!
# Reading orders from call data

The types of the parameters that the order book declares, and the payload that values of these types make up.
-/

namespace OrderKeeper

/-- The address in a word. -/
def Abi.Value.address? : Abi.Value → Option Address
  | .word w => some (BitVec.ofNat 160 w.toNat)
  | _ => none

/-- The types of what identifies an order. -/
def Order.kind : Abi.Kind := .tuple [.address, .uint 256, .uint 256, .uint 256]

/-- The order that a value writes. -/
def Order.ofAbi? : Abi.Value → Option Order
  | .tuple [account, .word index, .word orderType, .word executeFee] => do
    return ⟨← account.address?, index, orderType, executeFee⟩
  | _ => none

/-- The types of a swap. -/
def SwapRoute.kind : Abi.Kind := .tuple [.uint 8, .address, .address, .uint 256, .uint 256, .bytes]

/-- The swap that a value writes. -/
def SwapRoute.ofAbi? : Abi.Value → Option SwapRoute
  | .tuple [.word dexId, tokenIn, tokenOut, .word amountIn, .word amountOutMin, .bytes extraData] => do
    return ⟨UInt8.ofNat dexId.toNat, ← tokenIn.address?, ← tokenOut.address?, amountIn, amountOutMin, extraData⟩
  | _ => none

namespace Payload

/-- The types of the parameter list. -/
def kinds : List Abi.Kind :=
  [Order.kind, .bool, .address, .address, .uint 256, .array SwapRoute.kind, .uint 256, .uint 256, .uint 256, .address]

/-- The payload that the values of a parameter list make up. -/
def ofParameters? : List Abi.Value → Option Payload
  | [order, .word isCancel, tokenIn, tokenOut, .word remainingAmountIn, .array routes, .word amountIn,
      .word amountOutMin, .word amountOutExpected, keeper] => do
    return {
      order := ← Order.ofAbi? order
      isCancel := isCancel != 0
      tokenIn := ← tokenIn.address?
      tokenOut := ← tokenOut.address?
      remainingAmountIn
      routes := ← routes.mapM SwapRoute.ofAbi?
      amountIn
      amountOutMin
      amountOutExpected
      keeper := ← keeper.address? }
  | _ => none

/-- The payload that an encoded parameter list writes. -/
def decode? (data : Bytes) : Option Payload := (Abi.decode? kinds data).bind ofParameters?

/-- The payload that a call of a function hands over as its one argument, a byte string. -/
def ofCall? (signature : String) (data : Bytes) : Option Payload := do
  match ← Abi.arguments? signature [.bytes] data with
  | [.bytes bs] => decode? bs
  | _ => none

end Payload

end OrderKeeper
