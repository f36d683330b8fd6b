import OrderKeeper.Chain.Registry
import OrderKeeper.Chain.Transport
import OrderKeeper.Json.Printer
import OrderKeeper.Json.Scalar
import OrderKeeper.Ledger.Call

/-!
# Speaking with a node

Every call on a ledger is one request: a method and, for most methods, a list of parameters. `method` and `parameters`
say what is sent, `read` what a result means, and `Chain.settle` what the caller learns of a reply.
-/

namespace OrderKeeper

open Json (Record Decoder Mismatch)

/-- A number of 64 bits, as a quantity. -/
def Json.quantity64 : Decoder UInt64 := fun v => (Json.quantityBelow UInt64.size v).map UInt64.ofNat

/-- A number of 128 bits, as a quantity. -/
def Json.quantity128 : Decoder Wei := fun v => (Json.quantityBelow Wei.size v).map (BitVec.ofNat 128)

/-- A number as a quantity. -/
def Json.ofQuantity (n : Nat) : Json := .str (Hex.quantity n)

/-- The members of a request that are set. -/
def CallRequest.toJson (r : CallRequest) : Json :=
  let member {α : Type} (name : String) (f : α → Json) (v : Option α) : Members :=
    match v with
    | some a => [(name, f a)]
    | none => []
  let quantity64 (n : UInt64) : Json := Json.ofQuantity n.toNat
  let quantity128 (n : Wei) : Json := Json.ofQuantity n.toNat
  .obj (member "from" Json.ofAddress r.from? ++ member "to" Json.ofAddress r.to?
    ++ member "gasPrice" quantity128 r.gasPrice? ++ member "maxFeePerGas" quantity128 r.feeCap?
    ++ member "maxPriorityFeePerGas" quantity128 r.tip? ++ member "gas" quantity64 r.gas?
    ++ member "value" Json.ofWord r.value? ++ member "input" Json.ofBytes r.input?
    ++ member "nonce" quantity64 r.nonce? ++ member "chainId" quantity64 r.chainId?)

namespace LedgerCall

/-- The method of a call. -/
def method : LedgerCall → String
  | pendingNonce _ => "eth_getTransactionCount"
  | baseFee => "eth_getBlockByNumber"
  | priorityFee => "eth_maxPriorityFeePerGas"
  | gasPrice => "eth_gasPrice"
  | estimateGas _ => "eth_estimateGas"
  | call _ => "eth_call"
  | send _ => "eth_sendRawTransaction"
  | receipt _ => "eth_getTransactionReceipt"

/-- The parameters of a call; some methods have none. -/
def parameters : LedgerCall → Option (List Json)
  | pendingNonce a => some [.ofAddress a, .str "pending"]
  | baseFee => some [.str "latest", .bool false]
  | priorityFee | gasPrice => none
  | estimateGas r | call r => some [r.toJson, .str "pending"]
  | send t => some [.ofBytes t.bytes]
  | receipt h => some [.ofHash h]

end LedgerCall

/-! ## Results -/

/-- A member that is only known to be there. -/
def presence (name : String) : Record Unit := Record.required name fun _ => .ok ()

/-- Members that are only known to be there. -/
def presences : List String → Record Unit
  | [] => ⟨[], fun _ _ => .ok (), fun _ => .ok (), fun xs => .ok ((), xs)⟩
  | name :: names => (fun () () => ()) <$> presence name <*> presences names

/-- The base fee in the head of a block, if the chain has one. -/
def blockBaseFee : Record (Option UInt64) :=
  (fun fee () => fee) <$> Record.optional "baseFeePerGas" Json.quantity64
    <*> presences ["hash", "parentHash", "sha3Uncles", "miner", "stateRoot", "transactionsRoot", "receiptsRoot",
      "logsBloom", "difficulty", "number", "gasLimit", "gasUsed", "timestamp", "extraData"]

/-- Whether a transaction succeeded, as a quantity. -/
def success : Decoder Bool := fun v => do
  match ← Json.quantityBelow 2 v with
  | 0 => return false
  | _ => return true

/-- A receipt as a node writes it. -/
def nodeReceipt : Record Receipt :=
  (fun hash block status gas () => ⟨hash, block, status, gas⟩) <$> Record.required "transactionHash" Json.hash
    <*> Record.optional "blockNumber" Json.quantity64 <*> Record.required "status" success
    <*> Record.required "gasUsed" Json.quantity64
    <*> presences ["from", "cumulativeGasUsed", "effectiveGasPrice", "logs", "logsBloom"]

/-- The members of an object. -/
def ofObject {α : Type} (r : Record α) : Decoder α
  | .obj ms => r.ofMembers ms
  | _ => .error .malformed

/-- What a result means. There may be no latest block at all. -/
def LedgerCall.read (c : LedgerCall) : Decoder (Option c.Answer) :=
  match c with
  | pendingNonce _ => fun v => (Json.quantity64 v).map some
  | baseFee => fun
    | .null => .ok none
    | v => (ofObject blockBaseFee v).map fun fee => some (fee.map fun f => BitVec.ofNat 128 f.toNat)
  | priorityFee => fun v => (Json.quantity128 v).map some
  | gasPrice => fun v => (Json.quantity128 v).map some
  | estimateGas _ => fun v => (Json.quantity64 v).map some
  | call _ => fun v => (Json.bytes v).map some
  | send _ => fun v => (Json.hash v).map some
  | receipt _ => fun
    | .null => .ok (some none)
    | v => (ofObject nodeReceipt v).map fun r => some (some r)

/-- A chain as a submission sees it. -/
def Chain.info (chain : Chain) : ChainInfo := ⟨chain.network, chain.chainId⟩

/-- A fault of the transport on a chain. -/
def Chain.fault (chain : Chain) (f : TransportFailure) : Fault :=
  .rpc chain.chainId chain.endpoint.text f.message f.kind

/-- What the caller of a chain's node learns of a reply. -/
def Chain.settle (chain : Chain) (c : LedgerCall) : Except TransportFailure Json → Except Fault c.Answer
  | .error f => .error (chain.fault f)
  | .ok v =>
    match c.read v with
    | .error _ => .error (chain.fault (.unreadableResult "the result has another form" v.sorted.compact))
    | .ok none => .error (.internal ("latest block not available on " ++ chain.network))
    | .ok (some a) => .ok a

end OrderKeeper
