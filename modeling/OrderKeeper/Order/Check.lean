import OrderKeeper.Ledger.Call
import OrderKeeper.Order.Basic
import OrderKeeper.Order.Upkeep

/-!
# Asking whether an order can be executed

The question is a read-only call that is made as the keeper, since the contract may answer by who asks.
-/

namespace OrderKeeper.Upkeep

/-- The call that asks. -/
def request (contract keeper : Address) (payload : Payload) : CallRequest where
  from? := some keeper
  to? := some contract
  input? := some payload.checkUpkeepCall

/-- What the answer to the call says. -/
def judge (contract : Address) (chainId : UInt64) : Except Fault Bytes → Except Fault Bool
  | .error f => .error (ofCallFault contract f)
  | .ok data => decode contract chainId data

/-- Whether the order can be executed now. -/
def check (chainId : UInt64) (contract keeper : Address) (payload : Payload) : LedgerDialogue (Except Fault Bool) := do
  return judge contract chainId (← Dialogue.question (LedgerCall.call (request contract keeper payload)))

end OrderKeeper.Upkeep
