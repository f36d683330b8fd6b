import OrderKeeper.Receipt.Basic

/-!
# Watching one hash

Looking up one hash at equal times until its receipt settles it. A watch may have a bound on its look-ups, of which there
is always at least one; after the last of them it ends at once.
-/

namespace OrderKeeper

/-- Which hash is looked up, how often, and at most how many times. -/
structure Watch where
  hash : Hash
  /-- Milliseconds between two look-ups. -/
  interval : UInt64
  bound : Option UInt32
  deriving DecidableEq, Repr

namespace Watch

/-- Where a watch stands. -/
inductive State where
  /-- A look-up is under way, after `polls` others. -/
  | looking (polls : Nat)
  /-- The next look-up waits, after `polls` others. -/
  | pausing (polls : Nat)
  | ended (result : Except WaitFailure Receipt)

/-- A watch begins with a look-up. -/
def start : State := .looking 0

/-- Whether a number of look-ups uses up the bound. -/
def isSpent (w : Watch) (polls : Nat) : Bool := w.bound.any fun b => b.toNat ≤ polls

/-- The ledger answers the look-up. -/
def answer (w : Watch) (polls : Nat) (a : Except Fault (Option Receipt)) : State :=
  match Receipt.judge w.hash a with
  | .error e => .ended (.error e)
  | .ok (some r) => .ended (.ok r)
  | .ok none =>
    if w.isSpent (polls + 1) then .ended (.error (.notFound w.hash (UInt32.ofNat (polls + 1))))
    else .pausing (polls + 1)

/-- The pause is over. -/
def wake (polls : Nat) : State := .looking polls

/-- The watch is cancelled. -/
def cancelled (w : Watch) : Except WaitFailure Receipt := .error (.cancelled (some w.hash))

end Watch

end OrderKeeper
