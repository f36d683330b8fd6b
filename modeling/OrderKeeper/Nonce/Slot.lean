import OrderKeeper.Word

/-!
# Nonce slots

The nonces of one account on one chain. While leases are out, the next nonce follows the last one; the first lease needs
the pending nonce of the ledger, and a gate admits one request at a time to ask for it.

- `Stage` says how far a request has come, `Step` what a request or its lease can do next.
- `Slot.step?` makes one step. Each step touches the slot at most once, so any two steps of different requests may follow
  each other.
-/

namespace OrderKeeper.Nonce

/-- The number of a request for a lease, and of the lease it obtains. -/
abbrev Ticket := Nat

/-- An account on a chain. -/
structure Key where
  chainId : UInt64
  address : Address
  deriving DecidableEq, Repr

/-- How far a request has come. -/
inductive Stage where
  /-- There was no lease to follow: on the way to the gate. -/
  | arriving
  /-- At the gate. -/
  | waiting
  /-- Admitted, and there is still no lease to follow. -/
  | admitted
  /-- Waiting for the ledger's pending nonce. -/
  | querying
  /-- The ledger has answered. -/
  | answered (pending : UInt64)
  /-- The lease is live, and the gate is still held. -/
  | settled (nonce : UInt64)
  /-- The lease is live. -/
  | leased (nonce : UInt64)
  deriving DecidableEq, Repr

/-- The nonce of a live lease. -/
def Stage.nonce? : Stage → Option UInt64
  | settled n | leased n => some n
  | _ => none

/-- Whether the ledger has answered and the lease is not taken yet. -/
def Stage.isAnswered : Stage → Bool
  | answered _ => true
  | _ => false

/-- What a request or its lease does. -/
inductive Step where
  /-- A new request looks for a lease to follow. -/
  | begin (k : Key)
  /-- It arrives at the gate. -/
  | join
  /-- The request that holds the gate looks again. -/
  | recheck
  /-- It asks the ledger. -/
  | ask
  | answer (pending : UInt64)
  /-- The query fails, and the request ends without a lease. -/
  | fail
  /-- The answered request takes the first lease. -/
  | settle
  /-- The request leaves the gate with its lease. -/
  | leave
  /-- A request that waits is given up. -/
  | abandon
  /-- A lease is released, explicitly or because its holder is gone. -/
  | release
  deriving DecidableEq, Repr

/-- The nonces of one account on one chain. -/
structure Slot where
  /-- The last nonce handed out; it means something only while leases are out. -/
  currentNonce : UInt64 := 0
  activeLeases : UInt64 := 0
  /-- The requests at the gate in order of arrival; the first one holds it. -/
  gate : List Ticket := []
  deriving DecidableEq, Repr

namespace Slot

/-- One lease more, whose nonce follows the last one. -/
def issueNext (s : Slot) : Slot :=
  { s with currentNonce := s.currentNonce + 1, activeLeases := s.activeLeases + 1 }

/-- The nonce after the last one, if a lease is out. -/
def issueNext? (s : Slot) : Option (UInt64 × Slot) :=
  if s.activeLeases = 0 then none else some (s.currentNonce + 1, s.issueNext)

/-- The first lease, with the pending nonce of the ledger. -/
def issueFirst (s : Slot) (pending : UInt64) : Slot := { s with currentNonce := pending, activeLeases := 1 }

/-- One lease less; there are never less than none. -/
def release (s : Slot) : Slot :=
  { s with activeLeases := if s.activeLeases = 0 then 0 else s.activeLeases - 1 }

/-- A request arrives at the gate. -/
def join (s : Slot) (t : Ticket) : Slot := { s with gate := s.gate ++ [t] }

/-- A request leaves the gate, which passes to the next one if it held it. -/
def leave (s : Slot) (t : Ticket) : Slot := { s with gate := s.gate.filter (· ≠ t) }

/-- Whether a request holds the gate. -/
def admits (s : Slot) (t : Ticket) : Bool := s.gate.head? == some t

/-- Makes a step of the request `t`, if its stage allows it; a request without a stage is not there. -/
def step? (s : Slot) (t : Ticket) : Option Stage → Step → Option (Slot × Option Stage)
  | none, .begin _ =>
    match s.issueNext? with
    | some (n, s) => some (s, some (.leased n))
    | none => some (s, some .arriving)
  | some .arriving, .join => some (s.join t, some .waiting)
  | some .waiting, .recheck =>
    if s.admits t then
      match s.issueNext? with
      | some (n, s) => some (s, some (.settled n))
      | none => some (s, some .admitted)
    else none
  | some .waiting, .abandon => some (s.leave t, none)
  | some .admitted, .ask => some (s, some .querying)
  | some .querying, .answer p => some (s, some (.answered p))
  | some .querying, .fail => some (s.leave t, none)
  | some .querying, .abandon => some (s.leave t, none)
  | some (.answered p), .settle => some (s.issueFirst p, some (.settled p))
  | some (.answered _), .abandon => some (s.leave t, none)
  | some (.settled n), .leave => some (s.leave t, some (.leased n))
  | some (.leased _), .release => some (s.release, none)
  | _, _ => none

end Slot

end OrderKeeper.Nonce
