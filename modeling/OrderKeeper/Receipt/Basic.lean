import OrderKeeper.Fault.Wire
import OrderKeeper.Ledger.Call

/-!
# Receipts

How a receipt settles a broadcast, how often receipts are asked for, and why waiting for one can end without success.
-/

namespace OrderKeeper

open Json (Record)

namespace Receipt

/-- Reads a receipt. -/
def record : Record Receipt :=
  Receipt.mk <$> Record.required "transactionHash" Json.hash <*> Record.optional "blockNumber" Json.uint64
    <*> Record.required "status" Json.boolean <*> Record.required "gasUsed" Json.uint64

/-- The JSON form. -/
def toJson (r : Receipt) : Json :=
  .obj [("transactionHash", .ofHash r.transactionHash), ("blockNumber", Json.option Json.ofUInt64 r.blockNumber),
    ("status", .bool r.status), ("gasUsed", .ofUInt64 r.gasUsed)]

end Receipt

/-- The times between looks at the ledger, in milliseconds. -/
structure PollTimes where
  /-- Between two look-ups of a pending transaction. -/
  pollInterval : UInt64 := 1000
  /-- Between a broadcast and the next rise of its price. -/
  escalationWait : UInt64 := 1000
  deriving DecidableEq, Repr

namespace PollTimes

/-- Reads the times; each has a default. -/
def record : Record PollTimes :=
  PollTimes.mk <$> Record.default "pollInterval" Json.uint64 1000
    <*> Record.default "escalationWait" Json.uint64 1000

/-- The members of the JSON form. -/
def members (t : PollTimes) : Members :=
  [("pollInterval", .ofUInt64 t.pollInterval), ("escalationWait", .ofUInt64 t.escalationWait)]

end PollTimes

/-- Why waiting for a receipt ended without success. -/
inductive WaitFailure where
  | cancelled (transactionHash : Option Hash)
  | reverted (transactionHash : Hash) (blockNumber : Option UInt64) (gasUsed : UInt64)
  | queryFailed (transactionHash : Hash) (inner : Fault)
  | notFound (transactionHash : Hash) (polls : UInt32)
  | budgetExhausted (attempts : UInt32) (lastTransactionHash : Option Hash)
  deriving DecidableEq, Repr

namespace WaitFailure

/-- The wording of a failure. -/
def display : WaitFailure → String
  | cancelled _ => "stopped waiting for a receipt: cancelled"
  | reverted h _ _ => "transaction " ++ h.display ++ " failed on chain"
  | queryFailed h inner => "receipt lookup for " ++ h.display ++ " failed: " ++ inner.display
  | notFound h polls => "no receipt for " ++ h.display ++ " after " ++ toString polls.toNat ++ " lookups"
  | budgetExhausted attempts _ => "transaction not mined after " ++ toString attempts.toNat ++ " fee escalations"

/-- Whether no later look can change the failure. -/
def isPermanent : WaitFailure → Bool
  | reverted .. | budgetExhausted .. => true
  | cancelled _ | queryFailed .. | notFound .. => false

/-- The kind of a failure, by which its JSON form is tagged. -/
def kind : WaitFailure → String
  | cancelled .. => "CANCELLED"
  | reverted .. => "REVERTED"
  | queryFailed .. => "QUERY_FAILED"
  | notFound .. => "NOT_FOUND"
  | budgetExhausted .. => "ESCALATION_BUDGET_EXHAUSTED"

/-- The JSON form. -/
def toJson (e : WaitFailure) : Json :=
  .tagged "errorCode" e.kind <|
    match e with
    | cancelled h => [("transactionHash", Json.option Json.ofHash h)]
    | reverted h block gas =>
      [("transactionHash", .ofHash h), ("blockNumber", Json.option Json.ofUInt64 block), ("gasUsed", .ofUInt64 gas)]
    | queryFailed h inner => [("transactionHash", .ofHash h), ("innerError", inner.toJson)]
    | notFound h polls => [("transactionHash", .ofHash h), ("polls", .ofUInt32 polls)]
    | budgetExhausted attempts h =>
      [("attempts", .ofUInt32 attempts), ("lastTransactionHash", Json.option Json.ofHash h)]

/-- The kinds by their tags. -/
def alternatives : Json.Alternatives WaitFailure :=
  [("CANCELLED", .record (cancelled <$> Record.optional "transactionHash" Json.hash)),
   ("REVERTED", .record (reverted <$> Record.required "transactionHash" Json.hash
      <*> Record.optional "blockNumber" Json.uint64 <*> Record.required "gasUsed" Json.uint64)),
   ("QUERY_FAILED", .record (queryFailed <$> Record.required "transactionHash" Json.hash
      <*> Record.required "innerError" Fault.ofJson)),
   ("NOT_FOUND", .record (notFound <$> Record.required "transactionHash" Json.hash
      <*> Record.required "polls" Json.uint32)),
   ("ESCALATION_BUDGET_EXHAUSTED", .record (budgetExhausted <$> Record.required "attempts" Json.uint32
      <*> Record.optional "lastTransactionHash" Json.hash))]

/-- Reads the JSON form. -/
def ofJson : Json.Decoder WaitFailure := Json.Alternatives.decode "errorCode" alternatives

end WaitFailure

/-- A success in a block. -/
def Receipt.isSuccess (r : Receipt) : Bool := r.status && r.isIncluded

/-- What a look-up of a hash says: a failure, a success, or nothing yet. A success outside of a block counts as nothing
yet; a failure counts wherever it stands. -/
def Receipt.classify (hash : Hash) : Option Receipt → Except WaitFailure (Option Receipt)
  | none => .ok none
  | some r =>
    if !r.status then .error (.reverted hash r.blockNumber r.gasUsed)
    else if r.isIncluded then .ok (some r)
    else .ok none

/-- What the ledger's answer to a look-up of a hash says. -/
def Receipt.judge (hash : Hash) : Except Fault (Option Receipt) → Except WaitFailure (Option Receipt)
  | .error f => .error (.queryFailed hash f)
  | .ok r => classify hash r

end OrderKeeper
