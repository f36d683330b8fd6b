import OrderKeeper.Fault
import OrderKeeper.Json.Scalar

/-!
# Faults in JSON

Every fault is an object whose member `type` names its kind; the members of an error object that a node answered stand
beside the tag.
-/

namespace OrderKeeper

open Json (Record)

namespace ErrorResponse

/-- The members of an error object. -/
def members (r : ErrorResponse) : Members :=
  [("code", .int r.code.toInt), ("message", .str r.message), ("data", Json.option .str r.data)]

/-- Reads an error object. -/
def record : Record ErrorResponse :=
  ErrorResponse.mk <$> Record.required "code" Json.int64 <*> Record.required "message" Json.string
    <*> Record.optional "data" Json.string

end ErrorResponse

namespace RpcFault

/-- The JSON form. -/
def toJson : RpcFault → Json
  | errorResponse r => .tagged "type" "ERROR_RESP" r.members
  | nullResponse => .tagged "type" "NULL_RESP" []
  | unsupportedFeature m => .tagged "type" "UNSUPPORTED_FEATURE" [("message", .str m)]
  | localUsage m => .tagged "type" "INTERNAL_ERROR" [("message", .str m)]
  | unwritableRequest m => .tagged "type" "SER_ERROR" [("message", .str m)]
  | unreadableResponse m text => .tagged "type" "DESER_ERROR" [("message", .str m), ("text", .str text)]
  | httpStatus status body =>
    .tagged "type" "TRANSPORT_HTTP_ERROR" [("status", .nat status.toNat), ("body", .str body)]
  | transport m => .tagged "type" "OTHER_TRANSPORT_ERROR" [("message", .str m)]

/-- The kinds by their tags. -/
def alternatives : Json.Alternatives RpcFault :=
  [("ERROR_RESP", .record (errorResponse <$> ErrorResponse.record)),
   ("NULL_RESP", .unit nullResponse),
   ("UNSUPPORTED_FEATURE", .record (unsupportedFeature <$> Record.required "message" Json.string)),
   ("INTERNAL_ERROR", .record (localUsage <$> Record.required "message" Json.string)),
   ("SER_ERROR", .record (unwritableRequest <$> Record.required "message" Json.string)),
   ("DESER_ERROR", .record (unreadableResponse <$> Record.required "message" Json.string
      <*> Record.required "text" Json.string)),
   ("TRANSPORT_HTTP_ERROR", .record (httpStatus <$> Record.required "status" Json.uint16
      <*> Record.required "body" Json.string)),
   ("OTHER_TRANSPORT_ERROR", .record (transport <$> Record.required "message" Json.string))]

/-- Reads the JSON form. -/
def ofJson : Json.Decoder RpcFault := Json.Alternatives.decode "type" alternatives

end RpcFault

namespace ContractFault

/-- The JSON form. -/
def toJson : ContractFault → Json
  | noData function => .tagged "type" "ZERO_DATA" [("function", .str function)]
  | undecodable m => .tagged "type" "ABI_ERROR" [("message", .str m)]
  | reverted m => .tagged "type" "REVERTED" [("message", .str m)]

/-- The kinds by their tags. -/
def alternatives : Json.Alternatives ContractFault :=
  [("ZERO_DATA", .record (noData <$> Record.required "function" Json.string)),
   ("ABI_ERROR", .record (undecodable <$> Record.required "message" Json.string)),
   ("REVERTED", .record (reverted <$> Record.required "message" Json.string))]

/-- Reads the JSON form. -/
def ofJson : Json.Decoder ContractFault := Json.Alternatives.decode "type" alternatives

end ContractFault

namespace Fault

/-- The kind of a fault, by which its JSON form is tagged. -/
def kind : Fault → String
  | rpc .. => "RPC_ERROR"
  | configuration .. => "RPC_CONFIG_ERROR"
  | contract .. => "CONTRACT_INTERACTION_ERROR"
  | validation .. => "VALIDATION_ERROR"
  | signing .. => "SIGNING_ERROR"
  | internal .. => "INTERNAL_ERROR"

/-- The JSON form. -/
def toJson (f : Fault) : Json :=
  .tagged "type" f.kind <|
    match f with
    | rpc chainId url m kind =>
      [("chain_id", .ofUInt64 chainId), ("rpc_url", .str url), ("message", .str m), ("kind", kind.toJson)]
    | contract address chainId m kind =>
      [("contractAddress", Json.option Json.ofAddress address), ("chainId", .ofUInt64 chainId), ("message", .str m),
       ("kind", kind.toJson)]
    | signing a m => [("address", .ofAddress a), ("message", .str m)]
    | configuration m | validation m | internal m => [("message", .str m)]

/-- The kinds by their tags. -/
def alternatives : Json.Alternatives Fault :=
  [("RPC_ERROR", .record (rpc <$> Record.required "chain_id" Json.uint64 <*> Record.required "rpc_url" Json.string
      <*> Record.required "message" Json.string <*> Record.required "kind" RpcFault.ofJson)),
   ("RPC_CONFIG_ERROR", .record (configuration <$> Record.required "message" Json.string)),
   ("CONTRACT_INTERACTION_ERROR", .record (contract <$> Record.optional "contractAddress" Json.address
      <*> Record.required "chainId" Json.uint64 <*> Record.required "message" Json.string
      <*> Record.required "kind" ContractFault.ofJson)),
   ("VALIDATION_ERROR", .record (validation <$> Record.required "message" Json.string)),
   ("SIGNING_ERROR", .record (signing <$> Record.required "address" Json.address
      <*> Record.required "message" Json.string)),
   ("INTERNAL_ERROR", .record (internal <$> Record.required "message" Json.string))]

/-- Reads the JSON form. -/
def ofJson : Json.Decoder Fault := Json.Alternatives.decode "type" alternatives

end Fault

end OrderKeeper
