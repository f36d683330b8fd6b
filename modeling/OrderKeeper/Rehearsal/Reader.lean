import OrderKeeper.Abi
import OrderKeeper.Job.Record
import OrderKeeper.Json.Printer
import OrderKeeper.Rehearsal.Act
import OrderKeeper.Signing.Keyring
import OrderKeeper.WorkItem.Parse

/-!
# Rehearsals in JSON

Ledgers, signers and the runs of work items as a rehearsal file writes them. A script is a list of entries or one entry; an
entry is the answer itself, or an object with its delay and with the answer or the fault in its place. What is left out
has its usual value.
-/

namespace OrderKeeper.Rehearsal

open Json (Decoder Mismatch Record)

/-- A number below a bound, as an integer or in decimal digits. -/
def decimalBelow (bound : Nat) : Decoder Nat
  | .int n => if 0 ≤ n ∧ n < bound then .ok n.toNat else .error .malformed
  | .str s => match s.toNat? with
    | some n => if n < bound then .ok n else .error .malformed
    | none => .error .malformed
  | _ => .error .malformed

/-- A number of milliseconds, or another number that is not bounded. -/
def natural : Decoder Nat
  | .int n => if 0 ≤ n then .ok n.toNat else .error .malformed
  | _ => .error .malformed

/-- An amount. -/
def amount : Decoder Wei := fun v => (decimalBelow Wei.size v).map (BitVec.ofNat 128)

/-- The endpoint of every scripted ledger. -/
def endpoint : String := "http://fake-ledger/"

/-- A fault of the transport, told by its cause. -/
def ofCause (kind : RpcFault) (chainId : UInt64) : Fault := .rpc chainId endpoint kind.display kind

/-- A fault in full, or one of three causes in short; a cause becomes a fault on a chain. -/
def trouble : Decoder (UInt64 → Fault) := fun v =>
  match v with
  | .obj [("resp", m)] => do return ofCause (.errorResponse ⟨-32000, ← Json.string m, none⟩)
  | .obj [("transport", m)] => do return ofCause (.transport (← Json.string m))
  | .obj [("http", s)] => do return ofCause (.httpStatus (← Json.uint16 s) "")
  | v => (Fault.ofJson v).map fun f _ => f

/-- An entry of a script on a chain. -/
def entry {α : Type} (chainId : UInt64) (usual : α) (read : Decoder α) : Decoder (Entry α)
  | .obj ms => do
    let delay ← match Json.find? ms "delay" with
      | some v => natural v
      | none => pure 0
    match Json.find? ms "err", Json.find? ms "ok" with
    | some e, _ => return ⟨delay, .error ((← trouble e) chainId)⟩
    | _, some v => return ⟨delay, .ok (← read v)⟩
    | _, _ => return ⟨delay, .ok usual⟩
  | .null => .ok ⟨0, .ok usual⟩
  | v => (read v).map fun a => ⟨0, .ok a⟩

/-- A script on a chain. -/
def script {α : Type} (chainId : UInt64) (usual : α) (read : Decoder α) : Decoder (Script α)
  | .arr vs => do return ⟨← vs.mapM (entry chainId usual read), usual⟩
  | v => do return ⟨[← entry chainId usual read v], usual⟩

/-- The hashes that a rule is about: a hash, all of them, or a broadcast by its number. -/
def ruleSubject : Decoder RuleSubject
  | .str "*" => .ok .any
  | .str s =>
    match s.toList with
    | '#' :: n => match (String.ofList n).toNat? with
      | some n => .ok (.sent n)
      | none => .error .malformed
    | _ => (Json.hash (.str s)).map .hash
  | _ => .error .malformed

/-- A rule for receipts. -/
def rule : Record ReceiptRule :=
  ReceiptRule.mk <$> Record.required "hash" ruleSubject <*> Record.default "at" natural 0
    <*> Record.default "fromQuery" natural 0 <*> Record.default "status" Json.boolean true
    <*> Record.default "block" (Json.nullable Json.uint64) (some 100)
    <*> Record.default "gasUsed" Json.uint64 80000 <*> Record.optional "txHash" Json.hash

/-- The data that answers an upkeep check: the flag alone, or the data as it is. -/
def upkeepAnswer : Decoder Bytes
  | .bool b => .ok (Abi.Value.tuple [.bool b, .bytes []]).encode
  | v => Json.bytes v

namespace Ledger

/-- A ledger with the usual answers. -/
def usual (chainId : UInt64) : Ledger where
  chainId
  pendingNonce := ⟨[], 10⟩
  baseFee := ⟨[], some 1000000000⟩
  priorityFee := ⟨[], 2000000000⟩
  gasPrice := ⟨[], 3000000000⟩
  estimateGas := ⟨[], 100000⟩
  call := ⟨[], (Abi.Value.tuple [.bool true, .bytes []]).encode⟩
  send := ⟨[], none⟩
  receipt := ⟨[], ()⟩
  rules := []

/-- Reads a script that takes the place of another one, if it is there. -/
def rescript {α : Type} (l : Ledger) (ms : Members) (name : String) (old : Script α) (read : Decoder α) :
    Except Mismatch (Script α) :=
  match Json.find? ms name with
  | some v => script l.chainId old.usual read v
  | none => .ok old

/-- The scripts of a ledger by their names. -/
def scriptNames : List (String × Method) :=
  [("pendingNonce", .pendingNonce), ("baseFee", .baseFee), ("priorityFee", .priorityFee), ("gasPrice", .gasPrice),
   ("gasEstimate", .estimateGas), ("call", .call), ("send", .send), ("receiptQuery", .receipt)]

/-- Replaces the scripts and rules that are there; the calls of a replaced script count anew. -/
def update (l : Ledger) (ms : Members) : Except Mismatch Ledger := do
  let restarted := scriptNames.filter fun (name, _) => (Json.find? ms name).isSome
  return { l with
    pendingNonce := ← l.rescript ms "pendingNonce" l.pendingNonce Json.uint64
    baseFee := ← l.rescript ms "baseFee" l.baseFee (Json.nullable amount)
    priorityFee := ← l.rescript ms "priorityFee" l.priorityFee amount
    gasPrice := ← l.rescript ms "gasPrice" l.gasPrice amount
    estimateGas := ← l.rescript ms "gasEstimate" l.estimateGas Json.uint64
    call := ← l.rescript ms "call" l.call upkeepAnswer
    send := ← l.rescript ms "send" l.send (Json.nullable Json.hash)
    receipt := ← l.rescript ms "receiptQuery" l.receipt fun _ => .ok ()
    rules := ← match Json.find? ms "receipts" with
      | some v => Json.list rule.decode v
      | none => pure l.rules
    calls := restarted.foldl (fun t (_, m) => t.set m 0) l.calls }

/-- A ledger and its network. -/
def named : Decoder (String × Ledger)
  | .obj ms => do
    let (network, chainId) ← (Prod.mk <$> Record.default "network" Json.string "anvil"
      <*> Record.default "chainId" Json.uint64 31337 : Record (String × UInt64)).ofMembers ms
    return (network, ← (usual chainId).update ms)
  | _ => .error .malformed

end Ledger

/-- The account that a signer has unless others are named. -/
def usualAccount : Address := 0xf39fd6e51aad88f6f4ce6ab8827279cfffb92266

/-- A signer of some accounts whose transactions get their numbers as hashes; some of its signings fail. -/
def Signer.counting (accounts : List Address) (faults : List (Option (UInt64 → Fault))) : Signer where
  hasKey := accounts.contains
  sign n options t :=
    match (faults[n - 1]?).join with
    | some f => .error (f options.chainId)
    | none => .ok ⟨t, ⟨0, 0, false⟩, BitVec.ofNat 256 n⟩

/-- A signer with real keys. -/
def Signer.ofKeyring (r : Keyring) : Signer := ⟨r.has, fun _ options t => r.sign options t⟩

/-- A key, added to a keyring. -/
def addKey (r : Keyring) (v : Json) : Except Mismatch Keyring := do
  match r.addText (← Json.string v) with
  | .ok (r, _) => return r
  | .error _ => throw .malformed

/-- A signer: one with keys, or a counting one. -/
def signer : Decoder Signer
  | .obj ms =>
    match Json.find? ms "privateKeys" with
    | some (.arr keys) => (keys.foldlM addKey {}).map Signer.ofKeyring
    | some _ => .error .malformed
    | none => (Signer.counting <$> Record.default "accounts" (Json.list Json.address) [usualAccount]
        <*> Record.default "errors" (Json.list (Json.nullable trouble)) [] : Record Signer).ofMembers ms
  | _ => .error .malformed

/-- When something is cancelled: at once, or after a time. -/
def token : Record Token :=
  (fun cancelled after? => ⟨if cancelled then some 0 else after?⟩) <$> Record.default "cancelled" Json.boolean false
    <*> Record.optional "cancelAt" natural

/-- A work item: the text of one, or its value. -/
def item : Decoder (Except KeeperError WorkItem)
  | .str line => .ok (WorkItem.parse line)
  | v => .ok (WorkItem.parse v.sorted.compact)

/-- A work item to run in a rehearsal. -/
structure Running where
  item : Except KeeperError WorkItem
  startAt : Nat
  token : Token
  limit : Nat
  /-- The identity and the time limit of a whole work item; a single submission has none. -/
  job : Option (String × Nat)

namespace Running

/-- A work item to run; `whole` tells whether with its retries. -/
def record (whole : Bool) : Record Running :=
  (fun item startAt token limit jobId timeout =>
      ⟨item, startAt, token, limit, if whole then some (jobId, timeout) else none⟩)
    <$> Record.required "item" Rehearsal.item <*> Record.default "startAt" natural 0 <*> Rehearsal.token
    <*> Record.default "limit" natural 60250 <*> Record.default "jobId" Json.string "job"
    <*> Record.default "timeout" natural 1800000

/-- Reads a work item to run, told by the member `do`. -/
def ofJson : Decoder Running
  | .obj ms =>
    match Json.find? ms "do" with
    | some (.str "process") => (record false).ofMembers ms
    | some (.str "job") => (record true).ofMembers ms
    | _ => .error .malformed
  | _ => .error .malformed

end Running

/-- What a run of a work item shows. -/
inductive Finding where
  | submission (result : Except KeeperError (Except (Verdict KeeperError) Outcome))
  | job (record : JobRecord)

/-- A work item to run as an act. -/
def Running.act (settings : Settings) (r : Running) : Act Finding :=
  match r.job with
  | none => (Act.submission settings r.item r.startAt r.token r.limit).map .submission
  | some (jobId, timeout) =>
    (Act.job settings r.item timeout r.startAt r.token r.limit).map fun (action, result) =>
      .job ⟨jobId, action, result⟩

end OrderKeeper.Rehearsal
