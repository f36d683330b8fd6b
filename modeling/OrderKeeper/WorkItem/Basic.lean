import OrderKeeper.Submission.Error
import OrderKeeper.WorkItem.Request

/-!
# Work items

A request that has passed every check. The checks are made in a fixed order, and the first that fails gives the error:
network, contract, keeper, the amount of an execution, the identity of the order, pricing.
-/

namespace OrderKeeper

/-- Where an order is kept and who acts on it. -/
structure Target where
  network : String
  contract : Address
  keeper : Address
  deriving DecidableEq, Repr

/-- A work item that is ready to be carried out. -/
structure WorkItem where
  action : Action
  target : Target
  payload : Payload
  feeOverrides : FeeOverrides
  mode : Option Mode

namespace WorkItem

/-- How often an action is attempted again. -/
def maxRetriesOf : Action → UInt32
  | .execute => 0
  | .cancel => 5

/-- How often the work item is attempted again. -/
def maxRetries (w : WorkItem) : UInt32 := maxRetriesOf w.action

/-- A value that must be given. -/
def given {α : Type} (what : String) : Option α → Except KeeperError α
  | some a => .ok a
  | none => .error (.validation (what ++ " is required"))

/-- An address that must be given and well formed. -/
def checkAddress (what text : String) : Except KeeperError Address :=
  if text.isEmpty then .error (.validation (what ++ " is required"))
  else
    match Json.addressOfText? text with
    | some a => .ok a
    | none => .error (.validation (what ++ " " ++ text ++ " is not a valid address"))

/-- Checks a target. -/
def checkTarget (r : TargetRequest) : Except KeeperError Target :=
  if r.network.isEmpty then .error (.validation "network is required")
  else do
    let contract ← checkAddress "contract address" r.contractAddress
    let keeper ← checkAddress "keeper address" r.keeperAddress
    return ⟨r.network, contract, keeper⟩

/-- Checks the identity of an order; `fee` stands for a fee that is not given. -/
def checkOrder (r : OrderRequest) (fee : Option Word) : Except KeeperError Order :=
  if r.account = 0 then .error (.validation "order account is required")
  else do
    let index ← given "order index" r.index
    let orderType ← given "order type" r.orderType
    let executeFee ← given "order execute fee" (r.executeFee.or fee)
    return ⟨r.account, index, orderType, executeFee⟩

/-- Checks the pricing. -/
def checkFees (r : FeeOverridesRequest) : Except KeeperError FeeOverrides :=
  match r.check with
  | .ok o => .ok o
  | .error f => .error (.validation f.display)

/-- Checks a request. -/
def ofRequest : WorkRequest → Except KeeperError WorkItem
  | .execute target order trade fees mode => do
    let target ← checkTarget target
    let amountIn ← given "amount in" trade.amountIn
    let order ← checkOrder order none
    let feeOverrides ← checkFees fees
    return {
      action := .execute
      target
      payload := {
        order
        isCancel := false
        tokenIn := trade.tokenIn
        tokenOut := trade.tokenOut
        remainingAmountIn := trade.remainingAmountIn
        routes := trade.routes
        amountIn
        amountOutMin := trade.amountOutMin
        amountOutExpected := trade.amountOutExpected
        keeper := target.keeper }
      feeOverrides
      mode }
  | .cancel target order fees mode => do
    let target ← checkTarget target
    let order ← checkOrder order (some 0)
    let feeOverrides ← checkFees fees
    return {
      action := .cancel
      target
      payload := Payload.cancel order target.keeper
      feeOverrides
      mode }

end WorkItem

end OrderKeeper
