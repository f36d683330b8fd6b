import OrderKeeper.Fee.Pricing
import OrderKeeper.Receipt.Basic

/-!
# Why a work item was not carried out

Every ending of a submission without success, with its wording. `isRetryable` says which endings are worth another
attempt: cancellation, a nonce or a receipt that could not be read, a broadcast that was never seen, and any fault that
lay in the transport alone.
-/

namespace OrderKeeper

/-- Why a work item was not carried out. Where a fault of a lower layer is the cause, `message` words it. -/
inductive KeeperError where
  | validation (message : String)
  | chainService (network : String) (message : String)
  | contractNotDeployed (contract : Address) (chainId : UInt64)
  | upkeepCheckFailed (contract : Address) (message : String) (inner : Fault)
  | nonceLeaseFailed (keeper : Address) (message : String) (inner : Fault)
  | dynamicFeesUnsupported (network : String)
  | feeDataUnavailable (message : String) (inner : Fault)
  | gasEstimationFailed (contract : Address) (message : String) (inner : Fault)
  | signingFailed (message : String) (inner : Fault)
  | sendFailed (attempt : UInt32) (message : String) (inner : Fault)
  | reverted (contract : Address) (transactionHash : Hash) (blockNumber : Option UInt64)
  | budgetExhausted (contract : Address) (attempts : UInt32) (lastTransactionHash : Option Hash)
  | notFound (contract : Address) (transactionHash : Hash)
  | receiptQueryFailed (transactionHash : Hash) (message : String) (inner : Fault)
  | cancelled (stage : String) (transactionHash : Option Hash)
  | internal (message : String)
  deriving DecidableEq, Repr

namespace KeeperError

/-- The wording of an ending. -/
def display : KeeperError → String
  | validation m => "Invalid work item: " ++ m
  | chainService network m => "Chain service error for network " ++ network ++ ": " ++ m
  | contractNotDeployed a _ => "Contract not deployed at " ++ a.display
  | upkeepCheckFailed a m _ => "Upkeep check on " ++ a.display ++ " failed: " ++ m
  | nonceLeaseFailed a m _ => "Failed to lease a nonce for " ++ a.display ++ ": " ++ m
  | dynamicFeesUnsupported network =>
    "Network " ++ network ++ " does not support EIP-1559 fees, use the simple handler"
  | feeDataUnavailable m _ => "Fee data unavailable: " ++ m
  | gasEstimationFailed a m _ => "Gas estimation for " ++ a.display ++ " failed: " ++ m
  | signingFailed m _ => "Transaction signing failed: " ++ m
  | sendFailed attempt m _ => "Broadcast " ++ toString attempt.toNat ++ " failed: " ++ m
  | reverted a h _ => "Transaction " ++ h.display ++ " to " ++ a.display ++ " failed on chain"
  | budgetExhausted a attempts _ =>
    "Transaction to " ++ a.display ++ " not mined after " ++ toString attempts.toNat ++ " fee escalations"
  | notFound a h => "Transaction " ++ h.display ++ " to " ++ a.display ++ " never appeared on chain"
  | receiptQueryFailed _ m _ => "Receipt lookup failed: " ++ m
  | cancelled stage _ => "Cancelled while " ++ stage
  | internal m => "Internal error: " ++ m

/-- Whether another attempt is worth while. -/
def isRetryable : KeeperError → Bool
  | nonceLeaseFailed .. | receiptQueryFailed .. | notFound .. | cancelled .. => true
  | upkeepCheckFailed _ _ inner | feeDataUnavailable _ inner | gasEstimationFailed _ _ inner
  | sendFailed _ _ inner => inner.isTransient
  | validation .. | chainService .. | contractNotDeployed .. | dynamicFeesUnsupported .. | signingFailed ..
  | reverted .. | budgetExhausted .. | internal .. => false

/-- A network that is not known, or whose client cannot be made. -/
def ofChainFault (network : String) (f : Fault) : KeeperError := .chainService network f.display

/-- A failed upkeep check; an answer without data means that no contract is there. -/
def ofUpkeepFault (contract : Address) : Fault → KeeperError
  | .contract _ chainId _ (.noData _) => .contractNotDeployed contract chainId
  | f => .upkeepCheckFailed contract f.display f

/-- A failed lease. -/
def ofLeaseFault (keeper : Address) (f : Fault) : KeeperError := .nonceLeaseFailed keeper f.display f

/-- A failed pricing. -/
def ofPricingFailure (contract : Address) : PricingFailure → KeeperError
  | .noBaseFee network => .dynamicFeesUnsupported network
  | .feeData f => .feeDataUnavailable f.display f
  | .gasEstimation f => .gasEstimationFailed contract f.display f

/-- A failed signature. -/
def ofSigningFault (f : Fault) : KeeperError := .signingFailed f.display f

/-- A refused broadcast. -/
def ofSendFault (attempt : UInt32) (f : Fault) : KeeperError := .sendFailed attempt f.display f

/-- A wait for a receipt that ended without success. -/
def ofWaitFailure (contract : Address) : WaitFailure → KeeperError
  | .cancelled h => .cancelled "waiting for receipt" h
  | .reverted h block _ => .reverted contract h block
  | .queryFailed h f => .receiptQueryFailed h f.display f
  | .notFound h _ => .notFound contract h
  | .budgetExhausted attempts h => .budgetExhausted contract attempts h

end KeeperError

end OrderKeeper
