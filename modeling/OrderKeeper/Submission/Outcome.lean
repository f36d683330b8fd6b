import OrderKeeper.Ledger.Call
import OrderKeeper.Json.Scalar

/-!
# Outcomes

How a submission that was carried out ended.
-/

namespace OrderKeeper

/-- How a submission ended. -/
inductive Outcome where
  /-- There was nothing to do: no nonce was leased and nothing was sent. -/
  | notExecutable
  /-- A broadcast was included; `attempts` counts the broadcasts made under the nonce. -/
  | included (transactionHash : Hash) (blockNumber : Option UInt64) (gasUsed : UInt64) (nonce : UInt64)
      (attempts : UInt32)
  deriving DecidableEq, Repr

namespace Outcome

open Json (Record)

/-- The outcome that a receipt shows. -/
def ofReceipt (r : Receipt) (nonce : UInt64) (attempts : UInt32) : Outcome :=
  .included r.transactionHash r.blockNumber r.gasUsed nonce attempts

/-- The JSON form. -/
def toJson : Outcome → Json
  | notExecutable => .tagged "status" "notExecutable" []
  | included h block gas nonce attempts =>
    .tagged "status" "included"
      [("transactionHash", .ofHash h), ("blockNumber", Json.option Json.ofUInt64 block), ("gasUsed", .ofUInt64 gas),
       ("nonce", .ofUInt64 nonce), ("attempts", .ofUInt32 attempts)]

/-- The outcomes by their tags. -/
def alternatives : Json.Alternatives Outcome :=
  [("notExecutable", .unit notExecutable),
   ("included", .record (included <$> Record.required "transactionHash" Json.hash
      <*> Record.optional "blockNumber" Json.uint64 <*> Record.required "gasUsed" Json.uint64
      <*> Record.required "nonce" Json.uint64 <*> Record.required "attempts" Json.uint32))]

/-- Reads the JSON form. -/
def ofJson : Json.Decoder Outcome := Json.Alternatives.decode "status" alternatives

end Outcome

end OrderKeeper
