import OrderKeeper.Submission.Error

/-!
# Endings in JSON

An ending without success is an object whose member `errorCode` names its kind.
-/

namespace OrderKeeper.KeeperError

open Json (Record)

/-- The kind of an ending, by which its JSON form is tagged. -/
def kind : KeeperError → String
  | validation .. => "VALIDATION_ERROR"
  | chainService .. => "CHAIN_SERVICE_ERROR"
  | contractNotDeployed .. => "CONTRACT_NOT_DEPLOYED"
  | upkeepCheckFailed .. => "UPKEEP_CHECK_FAILED"
  | nonceLeaseFailed .. => "NONCE_LEASE_FAILED"
  | dynamicFeesUnsupported .. => "EIP1559_UNSUPPORTED"
  | feeDataUnavailable .. => "FEE_DATA_UNAVAILABLE"
  | gasEstimationFailed .. => "GAS_ESTIMATION_FAILED"
  | signingFailed .. => "SIGNING_ERROR"
  | sendFailed .. => "TRANSACTION_SEND_ERROR"
  | reverted .. => "TRANSACTION_REVERTED"
  | budgetExhausted .. => "ESCALATION_BUDGET_EXHAUSTED"
  | notFound .. => "TRANSACTION_NOT_FOUND"
  | receiptQueryFailed .. => "RECEIPT_QUERY_FAILED"
  | cancelled .. => "CANCELLED"
  | internal .. => "INTERNAL_ERROR"

/-- The JSON form. -/
def toJson (e : KeeperError) : Json :=
  .tagged "errorCode" e.kind <|
    match e with
    | validation m | internal m => [("message", .str m)]
    | chainService network m => [("network", .str network), ("message", .str m)]
    | contractNotDeployed a chainId => [("contractAddress", .ofAddress a), ("chainId", .ofUInt64 chainId)]
    | upkeepCheckFailed a m inner | gasEstimationFailed a m inner =>
      [("contractAddress", .ofAddress a), ("message", .str m), ("innerError", inner.toJson)]
    | nonceLeaseFailed a m inner =>
      [("keeper", .ofAddress a), ("message", .str m), ("inner_error", inner.toJson)]
    | dynamicFeesUnsupported network => [("network", .str network)]
    | feeDataUnavailable m inner | signingFailed m inner => [("message", .str m), ("innerError", inner.toJson)]
    | sendFailed attempt m inner =>
      [("attempt", .ofUInt32 attempt), ("message", .str m), ("innerError", inner.toJson)]
    | reverted a h block =>
      [("contractAddress", .ofAddress a), ("transactionHash", .ofHash h),
       ("blockNumber", Json.option Json.ofUInt64 block)]
    | budgetExhausted a attempts h =>
      [("contractAddress", .ofAddress a), ("attempts", .ofUInt32 attempts),
       ("lastTransactionHash", Json.option Json.ofHash h)]
    | notFound a h => [("contractAddress", .ofAddress a), ("transactionHash", .ofHash h)]
    | receiptQueryFailed h m inner =>
      [("transactionHash", .ofHash h), ("message", .str m), ("innerError", inner.toJson)]
    | cancelled stage h => [("stage", .str stage), ("transactionHash", Json.option Json.ofHash h)]

/-- The members that several kinds share. -/
def contract : Record Address := Record.required "contractAddress" Json.address

/-- The wording of a cause. -/
def message : Record String := Record.required "message" Json.string

/-- The cause. -/
def inner : Record Fault := Record.required "innerError" Fault.ofJson

/-- The hash of a transaction. -/
def transactionHash : Record Hash := Record.required "transactionHash" Json.hash

/-- The kinds by their tags. -/
def alternatives : Json.Alternatives KeeperError :=
  [("VALIDATION_ERROR", .record (validation <$> message)),
   ("CHAIN_SERVICE_ERROR", .record (chainService <$> Record.required "network" Json.string <*> message)),
   ("CONTRACT_NOT_DEPLOYED", .record (contractNotDeployed <$> contract <*> Record.required "chainId" Json.uint64)),
   ("UPKEEP_CHECK_FAILED", .record (upkeepCheckFailed <$> contract <*> message <*> inner)),
   ("NONCE_LEASE_FAILED", .record (nonceLeaseFailed <$> Record.required "keeper" Json.address <*> message
      <*> Record.required "inner_error" Fault.ofJson)),
   ("EIP1559_UNSUPPORTED", .record (dynamicFeesUnsupported <$> Record.required "network" Json.string)),
   ("FEE_DATA_UNAVAILABLE", .record (feeDataUnavailable <$> message <*> inner)),
   ("GAS_ESTIMATION_FAILED", .record (gasEstimationFailed <$> contract <*> message <*> inner)),
   ("SIGNING_ERROR", .record (signingFailed <$> message <*> inner)),
   ("TRANSACTION_SEND_ERROR", .record (sendFailed <$> Record.required "attempt" Json.uint32 <*> message <*> inner)),
   ("TRANSACTION_REVERTED", .record (reverted <$> contract <*> transactionHash
      <*> Record.optional "blockNumber" Json.uint64)),
   ("ESCALATION_BUDGET_EXHAUSTED", .record (budgetExhausted <$> contract <*> Record.required "attempts" Json.uint32
      <*> Record.optional "lastTransactionHash" Json.hash)),
   ("TRANSACTION_NOT_FOUND", .record (notFound <$> contract <*> transactionHash)),
   ("RECEIPT_QUERY_FAILED", .record (receiptQueryFailed <$> transactionHash <*> message <*> inner)),
   ("CANCELLED", .record (cancelled <$> Record.required "stage" Json.string
      <*> Record.optional "transactionHash" Json.hash)),
   ("INTERNAL_ERROR", .record (internal <$> message))]

/-- Reads the JSON form. -/
def ofJson : Json.Decoder KeeperError := Json.Alternatives.decode "errorCode" alternatives

end OrderKeeper.KeeperError
