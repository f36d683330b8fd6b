import OrderKeeper.Dialogue
import OrderKeeper.Fault
import OrderKeeper.Ledger.Transaction

/-!
# Calls on a ledger

The requests that a submission makes of a chain's node and of its signer, and their answers.
-/

namespace OrderKeeper

/-- A call that has not become a transaction: only the fields that are set are sent. -/
structure CallRequest where
  from? : Option Address := none
  to? : Option Address := none
  gas? : Option UInt64 := none
  nonce? : Option UInt64 := none
  chainId? : Option UInt64 := none
  feeCap? : Option Wei := none
  tip? : Option Wei := none
  gasPrice? : Option Wei := none
  value? : Option Word := none
  input? : Option Bytes := none
  deriving DecidableEq, Repr

/-- A chain's record of the outcome of a transaction. -/
structure Receipt where
  transactionHash : Hash
  blockNumber : Option UInt64
  /-- Whether the transaction succeeded. -/
  status : Bool
  gasUsed : UInt64
  deriving DecidableEq, Repr

/-- Whether the receipt stands in a block; block zero does not count. -/
def Receipt.isIncluded (r : Receipt) : Bool := r.blockNumber.any (0 < ·)

/-- A request to a chain's node. -/
inductive LedgerCall where
  | pendingNonce (account : Address)
  | baseFee
  | priorityFee
  | gasPrice
  | estimateGas (request : CallRequest)
  | call (request : CallRequest)
  | send (transaction : SignedTransaction)
  | receipt (hash : Hash)
  deriving DecidableEq, Repr

/-- What a successful request answers. -/
abbrev LedgerCall.Answer : LedgerCall → Type
  | pendingNonce _ => UInt64
  | baseFee => Option Wei
  | priorityFee => Wei
  | gasPrice => Wei
  | estimateGas _ => UInt64
  | call _ => Bytes
  | send _ => Hash
  | receipt _ => Option Receipt

/-- A dialogue with a chain's node, where any request may fail. -/
abbrev LedgerDialogue (α : Type) := Dialogue LedgerCall (fun c => Except Fault c.Answer) Empty α

/-- A chain as a submission sees it. -/
structure ChainInfo where
  network : String
  chainId : UInt64
  deriving DecidableEq, Repr

end OrderKeeper
