import OrderKeeper.Address
import OrderKeeper.Text.Case

/-!
# Faults of the layers below

What can go wrong at a node, in a contract, in the configuration or at the signer. Each cause has one wording
(`message`), and three questions are asked of a cause: whether the same request may succeed later
(`RpcFault.isRetryable`), whether the trouble lay in the transport and not in the answer (`Fault.isTransient`), and
whether a refused broadcast may have reached the pool all the same (`Fault.isPossiblySent`).
-/

namespace OrderKeeper

/-- An error object that a node answered. -/
structure ErrorResponse where
  code : Int64
  message : String
  data : Option String
  deriving DecidableEq, Repr

/-- Why a request to a node gave no result. -/
inductive RpcFault where
  /-- The node answered with an error object. -/
  | errorResponse (response : ErrorResponse)
  /-- The node answered null where a value was due. -/
  | nullResponse
  | unsupportedFeature (message : String)
  /-- The request never left the process. -/
  | localUsage (message : String)
  | unwritableRequest (message : String)
  /-- The answer `text` could not be read. -/
  | unreadableResponse (message : String) (text : String)
  | httpStatus (status : UInt16) (body : String)
  | transport (message : String)
  deriving DecidableEq, Repr

/-- A failure of the called contract itself. -/
inductive ContractFault where
  /-- The call returned no data at all. -/
  | noData (function : String)
  | undecodable (message : String)
  | reverted (message : String)
  deriving DecidableEq, Repr

/-- A fault of a lower layer. -/
inductive Fault where
  | rpc (chainId : UInt64) (url : String) (message : String) (kind : RpcFault)
  | configuration (message : String)
  | contract (address : Option Address) (chainId : UInt64) (message : String) (kind : ContractFault)
  | validation (message : String)
  | signing (address : Address) (message : String)
  | internal (message : String)
  deriving DecidableEq, Repr

/-- The wording of an error object. -/
def ErrorResponse.display (r : ErrorResponse) : String :=
  "code " ++ toString r.code.toInt ++ ": " ++ r.message ++
    match r.data with
    | some data => ", data: " ++ data
    | none => ""

namespace RpcFault

/-- The wording of a cause. -/
def display : RpcFault → String
  | errorResponse r => "server returned an error response: " ++ r.display
  | nullResponse => "server returned a null response when a non-null response was expected"
  | unsupportedFeature m => "unsupported feature: " ++ m
  | localUsage m => "local usage error: " ++ m
  | unwritableRequest m => "serialization error: " ++ m
  | unreadableResponse m text => "deserialization error: " ++ m ++ ", text: " ++ text
  | httpStatus status _ => "HTTP error " ++ toString status.toNat
  | transport m => "Other transport error: " ++ m

/-- Whether the same request may succeed later. -/
def isRetryable : RpcFault → Bool
  | httpStatus status _ => !(400 ≤ status.toNat && status.toNat < 500)
  | errorResponse r =>
    !(Case.mentions r.message "invalid chain" || Case.mentions r.message "invalid opcode"
      || Case.mentions r.message "revert")
  | unsupportedFeature _ | unwritableRequest _ | localUsage _ => false
  | nullResponse | unreadableResponse _ _ | transport _ => true

end RpcFault

/-- The wording of a failure of the called contract. -/
def ContractFault.display : ContractFault → String
  | noData function =>
    "contract call to `" ++ function ++ "` returned no data (\"0x\"); the called address might not be a contract"
  | undecodable m => "ABI error: " ++ m
  | reverted m => "execution reverted: " ++ m

namespace Fault

/-- The wording of a fault. -/
def display : Fault → String
  | rpc chainId url m _ => "RPC error on chain " ++ toString chainId.toNat ++ " at " ++ url ++ ": " ++ m
  | configuration m => "Bad RPC configuration: " ++ m
  | contract _ _ m _ => "Contract interaction error: " ++ m
  | validation m => "Validation error: " ++ m
  | signing a m => "Signing error for " ++ a.display ++ ": " ++ m
  | internal m => "Internal error: " ++ m

/-- A failure of the contract at an address, worded by its kind. -/
def ofContract (address : Option Address) (chainId : UInt64) (kind : ContractFault) : Fault :=
  .contract address chainId kind.display kind

/-- The cause at the node, if the fault lies there. -/
def rpcKind? : Fault → Option RpcFault
  | rpc _ _ _ kind => some kind
  | _ => none

/-- The error object that the node answered, if it answered one. -/
def response? : Fault → Option ErrorResponse
  | rpc _ _ _ (.errorResponse r) => some r
  | _ => none

/-- Trouble in the transport is worth another try; an answer of the node is not. -/
def isTransient (f : Fault) : Bool := f.response?.isNone && (f.rpcKind?.map RpcFault.isRetryable).getD false

/-- What a node says of a transaction that it, or another one of the same nonce, already holds. -/
def alreadyPooled : List String :=
  ["nonce too low", "already known", "replacement transaction underpriced", "transaction already imported"]

/-- Whether a refused transaction, or another one of the same nonce, may be in the pool. -/
def isPossiblySent (f : Fault) : Bool :=
  match f.response? with
  | some r => alreadyPooled.any (Case.mentions r.message)
  | none => false

end Fault

end OrderKeeper
