import OrderKeeper.Keeper.Basic
import OrderKeeper.Keeper.Desk

/-!
# The keeper at its desk

A whole input taken in and carried to its end while no network can be reached. What needs no network is done: lines are
judged, networks and keys are looked up, and failures are reported.
-/

namespace OrderKeeper.Keeper

/-- The answers to a job under retry while no network can be reached; no time passes in its pauses. -/
def answerWithoutNetwork (k : Keeper) (j : Job) : (q : Retry.Question) → q.Answer KeeperError Outcome
  | .attempt _ => k.attemptWithoutNetwork j.item
  | .pause _ => ()

/-- The records of an input. -/
def records (k : Keeper) (input : String) : List JobRecord :=
  ((Desk.readAll {} 0 (inputLines input)).settle k.answerWithoutNetwork).records

end OrderKeeper.Keeper
