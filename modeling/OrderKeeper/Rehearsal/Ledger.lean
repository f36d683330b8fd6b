import OrderKeeper.Ledger.Call
import OrderKeeper.Table

/-!
# Scripted ledgers

A ledger whose answers are laid down beforehand. Each kind of call has a script of its own, read in the order of the
calls, and the last entry of a script stands for all later calls. Receipts are given by rules, of which the last that fits
a look-up counts.
-/

namespace OrderKeeper.Rehearsal

/-- What a script holds for one call: how long the answer takes, in milliseconds, and the answer. -/
structure Entry (α : Type) where
  delay : Nat := 0
  reply : Except Fault α

/-- The answers to one kind of call; without entries the usual answer is given at once. -/
structure Script (α : Type) where
  entries : List (Entry α) := []
  usual : α

/-- The entry for a call by its number, counted from one. -/
def Script.entry {α : Type} (s : Script α) (number : Nat) : Entry α :=
  (s.entries[min number s.entries.length - 1]?).getD ⟨0, .ok s.usual⟩

/-- The kinds of calls. -/
inductive Method where
  | pendingNonce
  | baseFee
  | priorityFee
  | gasPrice
  | estimateGas
  | call
  | send
  | receipt
  deriving DecidableEq, Repr

/-- The kind of a call. -/
def methodOf : LedgerCall → Method
  | .pendingNonce _ => .pendingNonce
  | .baseFee => .baseFee
  | .priorityFee => .priorityFee
  | .gasPrice => .gasPrice
  | .estimateGas _ => .estimateGas
  | .call _ => .call
  | .send _ => .send
  | .receipt _ => .receipt

/-- Which hashes a rule is about. -/
inductive RuleSubject where
  | any
  | hash (hash : Hash)
  /-- The transaction broadcast as number `number`, counted from one. -/
  | sent (number : Nat)
  deriving DecidableEq, Repr

/-- A rule for receipts. -/
structure ReceiptRule where
  subject : RuleSubject
  /-- The time from which the rule holds. -/
  fromTime : Nat
  /-- The look-up from which the rule holds, counted from one over all hashes. -/
  fromQuery : Nat
  status : Bool
  block : Option UInt64
  gasUsed : UInt64
  /-- The hash in the receipt, if it is not the one looked up. -/
  hash : Option Hash
  deriving DecidableEq, Repr

/-- A scripted ledger. -/
structure Ledger where
  chainId : UInt64
  pendingNonce : Script UInt64
  baseFee : Script (Option Wei)
  priorityFee : Script Wei
  gasPrice : Script Wei
  estimateGas : Script UInt64
  call : Script Bytes
  /-- The hash that a broadcast answers, if it is not the transaction's own. -/
  send : Script (Option Hash)
  receipt : Script Unit
  rules : List ReceiptRule
  /-- How many calls of each kind have been made. -/
  calls : Table Method Nat := []
  /-- The hashes of the transactions broadcast so far. -/
  sent : List Hash := []

namespace Ledger

/-- Whether a rule fits a look-up. -/
def fits (l : Ledger) (now number : Nat) (hash : Hash) (r : ReceiptRule) : Bool :=
  let concerned := match r.subject with
    | .any => true
    | .hash h => h = hash
    | .sent n => n ≠ 0 && l.sent[n - 1]? = some hash
  concerned && r.fromTime ≤ now && r.fromQuery ≤ number

/-- The receipt that the rules give. -/
def receiptOf (l : Ledger) (now number : Nat) (hash : Hash) : Option Receipt :=
  (l.rules.reverse.find? (l.fits now number hash)).map fun r => ⟨r.hash.getD hash, r.block, r.status, r.gasUsed⟩

/-- Counts a call, and keeps what is broadcast. -/
def begin (l : Ledger) (c : LedgerCall) : Ledger × Nat :=
  let number := (l.calls.get? (methodOf c)).getD 0 + 1
  let sent := match c with
    | .send t => l.sent ++ [t.hash]
    | _ => l.sent
  ({ l with calls := l.calls.set (methodOf c) number, sent }, number)

/-- How long the answer to a call takes. -/
def delay (l : Ledger) (number : Nat) : LedgerCall → Nat
  | .pendingNonce _ => (l.pendingNonce.entry number).delay
  | .baseFee => (l.baseFee.entry number).delay
  | .priorityFee => (l.priorityFee.entry number).delay
  | .gasPrice => (l.gasPrice.entry number).delay
  | .estimateGas _ => (l.estimateGas.entry number).delay
  | .call _ => (l.call.entry number).delay
  | .send _ => (l.send.entry number).delay
  | .receipt _ => (l.receipt.entry number).delay

/-- The answer to a call, by the time at which it is given. -/
def reply (l : Ledger) (now number : Nat) : (c : LedgerCall) → Except Fault c.Answer
  | .pendingNonce _ => (l.pendingNonce.entry number).reply
  | .baseFee => (l.baseFee.entry number).reply
  | .priorityFee => (l.priorityFee.entry number).reply
  | .gasPrice => (l.gasPrice.entry number).reply
  | .estimateGas _ => (l.estimateGas.entry number).reply
  | .call _ => (l.call.entry number).reply
  | .send t => (l.send.entry number).reply.map fun h => h.getD t.hash
  | .receipt hash => (l.receipt.entry number).reply.map fun () => l.receiptOf now number hash

end Ledger

end OrderKeeper.Rehearsal
