import OrderKeeper.Nonce.Slot
import OrderKeeper.Table

/-!
# The nonce allocator

Requests for leases on any number of accounts, step by step. A request first looks for a lease to follow; where none is
out it waits at the gate, looks again when admitted, and asks the ledger only if there is still no lease. A `Move` is a
step of one request or lease; `apply` makes one, if it is possible, and `run?` makes several in a row, in whatever order
they fall.
-/

namespace OrderKeeper.Nonce

/-- A request and its account. -/
structure Request where
  key : Key
  stage : Stage
  deriving DecidableEq, Repr

/-- The nonce of the live lease that a request has on an account. -/
def Request.nonce? (k : Key) (r : Request) : Option UInt64 := if r.key = k then r.stage.nonce? else none

/-- Whether a request on an account has its answer and not yet its lease. -/
def Request.isAnswered (k : Key) (r : Request) : Bool := r.key = k && r.stage.isAnswered

/-- All slots, and all requests and live leases by ticket. -/
structure Allocator where
  slots : Table Key Slot := []
  requests : Table Ticket Request := []
  deriving DecidableEq, Repr

/-- What can be seen of a slot. -/
structure SlotView where
  key : Key
  currentNonce : UInt64
  activeLeases : UInt64
  deriving DecidableEq, Repr

/-- A step of one request. -/
structure Move where
  ticket : Ticket
  step : Step
  deriving DecidableEq, Repr

namespace Allocator

/-- The slot of an account; an account without one has an empty slot. -/
def slot (a : Allocator) (k : Key) : Slot := (a.slots.get? k).getD {}

/-- What can be seen of the slot of an account, once a lease has been asked for. -/
def view? (a : Allocator) (k : Key) : Option SlotView :=
  (a.slots.get? k).map fun s => ⟨k, s.currentNonce, s.activeLeases⟩

/-- Puts a slot in place, and a request with its stage; a request without one is struck. -/
def put (a : Allocator) (t : Ticket) (k : Key) (s : Slot) : Option Stage → Allocator
  | some stage => ⟨a.slots.set k s, a.requests.set t ⟨k, stage⟩⟩
  | none => ⟨a.slots.set k s, a.requests.erase t⟩

/-- The account that a move concerns, and the stage of its request before it. -/
def site? (a : Allocator) (m : Move) : Option (Key × Option Stage) :=
  match a.requests.get? m.ticket, m.step with
  | some r, _ => some (r.key, some r.stage)
  | none, .begin k => some (k, none)
  | none, _ => none

/-- Makes a move, if it is possible. -/
def apply (a : Allocator) (m : Move) : Option Allocator :=
  match a.site? m with
  | none => none
  | some (k, stage) => ((a.slot k).step? m.ticket stage m.step).map fun (s, stage) => a.put m.ticket k s stage

/-- Makes moves in a row, if all of them are possible. -/
def run? (a : Allocator) (ms : List Move) : Option Allocator := ms.foldlM apply a

/-- Makes those of the steps of a request that are possible, in a row. -/
def attempt (a : Allocator) (t : Ticket) (steps : List Step) : Allocator :=
  steps.foldl (fun a s => (a.apply ⟨t, s⟩).getD a) a

/-- The nonce of the live lease that a ticket has on an account. -/
def nonce? (a : Allocator) (k : Key) (t : Ticket) : Option UInt64 := (a.requests.get? t).bind (Request.nonce? k)

/-- How far the request of a ticket has come. -/
def stage? (a : Allocator) (t : Ticket) : Option Stage := (a.requests.get? t).map Request.stage

/-- The nonces of the live leases of an account. -/
def leases (a : Allocator) (k : Key) : List UInt64 := a.requests.filterMap fun e => e.2.nonce? k

end Allocator

end OrderKeeper.Nonce
