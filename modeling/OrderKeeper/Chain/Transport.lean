import OrderKeeper.Fault

/-!
# Failures of the transport

Why a request to a node brought back no result, as the transport tells it, and the cause that a fault keeps of it.
-/

namespace OrderKeeper

/-- Why a request brought back no result. -/
inductive TransportFailure where
  | errorResponse (response : ErrorResponse)
  | nullResponse
  | unsupportedFeature (feature : String)
  | localUsage (message : String)
  | unwritableRequest (message : String)
  /-- The result `text` could not be read. -/
  | unreadableResult (message : String) (text : String)
  | http (status : UInt16) (body : String)
  /-- A batch brought back no answer to one of its requests. -/
  | missingAnswer (id : String)
  | backendGone
  | noSubscriptions
  | custom (message : String)
  deriving DecidableEq, Repr

namespace TransportFailure

/-- The wording. -/
def message : TransportFailure → String
  | errorResponse r => "server returned an error response: error " ++ r.display
  | nullResponse => "server returned a null response when a non-null response was expected"
  | unsupportedFeature f => "unsupported feature: " ++ f
  | localUsage m => "local usage error: " ++ m
  | unwritableRequest m => "serialization error: " ++ m
  | unreadableResult m text => "deserialization error: " ++ m ++ "\n" ++ text
  | http status body =>
    "HTTP error " ++ toString status.toNat ++ (if body.isEmpty then " with empty body" else " with body: " ++ body)
  | missingAnswer id => "missing response for request with ID " ++ id
  | backendGone => "backend connection task has stopped"
  | noSubscriptions => "subscriptions are not available on this provider"
  | custom m => m

/-- The cause that a fault keeps. -/
def kind : TransportFailure → RpcFault
  | errorResponse r => .errorResponse r
  | nullResponse => .nullResponse
  | unsupportedFeature f => .unsupportedFeature f
  | localUsage m => .localUsage m
  | unwritableRequest m => .unwritableRequest m
  | unreadableResult m text => .unreadableResponse m text
  | http status body => .httpStatus status body
  | f => .transport f.message

end TransportFailure

end OrderKeeper
