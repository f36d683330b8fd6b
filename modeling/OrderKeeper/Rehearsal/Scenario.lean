import OrderKeeper.Rehearsal.Reader
import OrderKeeper.Rehearsal.Run

/-!
# Scenarios

Steps in one world, each run to its end before the next. Leases that a step takes are kept until a later step gives them
back, and offers until a later step raises them.
-/

namespace OrderKeeper.Rehearsal

/-- A scenario under way. -/
structure Scenario where
  settings : Settings := {}
  world : World
  /-- The leases taken so far, by number; those given back are gone. -/
  leases : List (Option Nonce.Ticket) := []
  offers : List Offer := []

/-- A lease as a scenario shows it. -/
structure LeaseView where
  number : Nat
  nonce : UInt64
  key : Nonce.Key

namespace Scenario

/-- The chain of a network, or the error of a submission that asks for it. -/
def chain (s : Scenario) (network : String) : Except KeeperError ChainInfo :=
  (s.world.chainOf network).mapError (KeeperError.ofChainFault network)

/-- Runs an act. -/
def perform {α : Type} (s : Scenario) (a : Act α) : Scenario × Option α :=
  let (w, r) := runOne s.world a
  ({ s with world := w }, r)

/-- Runs work items side by side. -/
def performAll (s : Scenario) (rs : List Running) : Scenario × List (Option Finding) :=
  let (w, found) := run s.world (rs.map (Running.act s.settings))
  ({ s with world := w }, found)

/-- Keeps a lease that an act has taken. -/
def keep (s : Scenario) (key : Nonce.Key) : Option (Nonce.Ticket × Except Fault UInt64) →
    Scenario × Option (Except Fault LeaseView)
  | none => (s, none)
  | some (_, .error f) => (s, some (.error f))
  | some (t, .ok nonce) => ({ s with leases := s.leases ++ [some t] }, some (.ok ⟨s.leases.length, nonce, key⟩))

/-- Keeps the leases that acts have taken, in order. -/
def keepAll (key : Nonce.Key) : Scenario → List (Option (Nonce.Ticket × Except Fault UInt64)) →
    Scenario × List (Option (Except Fault LeaseView))
  | s, [] => (s, [])
  | s, r :: rs =>
    let (s, v) := s.keep key r
    let (s, vs) := keepAll key s rs
    (s, v :: vs)

/-- Takes leases side by side. -/
def takeLeases (s : Scenario) (chain : ChainInfo) (keeper : Address) (count : Nat) :
    Scenario × List (Option (Except Fault LeaseView)) :=
  let (w, rs) := run s.world (List.replicate count (Act.lease chain keeper))
  keepAll ⟨chain.chainId, keeper⟩ { s with world := w } rs

/-- Gives a lease back, unless it is gone. -/
def giveBack? (s : Scenario) (number : Nat) : Option Scenario :=
  (s.leases[number]?).join.map fun t =>
    { s with leases := s.leases.set number none, world := s.world.drop t }

/-- What can be seen of an account's nonces. -/
def view? (s : Scenario) (key : Nonce.Key) : Option Nonce.SlotView := s.world.allocator.view? key

/-- Makes an offer, which is kept with its number. -/
def price (s : Scenario) (chain : ChainInfo) (talk : LedgerDialogue (Except PricingFailure Offer)) :
    Scenario × Option (Except PricingFailure (Nat × Offer)) :=
  match s.perform (Act.ledger chain talk) with
  | (s, some (.ok o)) => ({ s with offers := s.offers ++ [o] }, some (.ok (s.offers.length, o)))
  | (s, some (.error e)) => (s, some (.error e))
  | (s, none) => (s, none)

/-- The call that a scenario prices. -/
def pricedCall (nonce : Option UInt64) : CallRequest where
  from? := some 0x4b4b4b4b4b4b4b4b4b4b4b4b4b4b4b4b4b4b4b4b
  to? := some 0x0c
  nonce? := nonce

/-- Replaces scripts of a ledger. -/
def rescript (s : Scenario) (network : String) (ms : Members) : Except Json.Mismatch Scenario :=
  match s.world.ledgers.get? network with
  | none => .ok s
  | some l => do
    let l ← l.update ms
    return { s with world := { s.world with ledgers := s.world.ledgers.set network l } }

/-- Takes the log of a step. -/
def takeLog (s : Scenario) : Scenario × List (Nat × Event) :=
  ({ s with world := { s.world with log := [] } }, s.world.log.reverse)

end Scenario

end OrderKeeper.Rehearsal
