import OrderKeeper.Metrics.Submission
import OrderKeeper.Submission.Outcome
import OrderKeeper.Job.Verdict
import OrderKeeper.WorkItem.Basic

/-!
# What is recorded of an ending

Every submission that comes to its end is recorded once by its kind of ending and once by its duration; an inclusion is
recorded by its broadcasts as well.
-/

namespace OrderKeeper.Submission

/-- The kinds of endings. -/
inductive Ending where
  | notExecutable
  | included (attempts : UInt32)
  | retryable
  | failed
  deriving DecidableEq, Repr

namespace Ending

/-- The kind of an ending. -/
def of : Except KeeperError Outcome → Ending
  | .ok .notExecutable => notExecutable
  | .ok (.included _ _ _ _ attempts) => included attempts
  | .error e => if e.isRetryable then retryable else failed

/-- The name of a kind. -/
def name : Ending → String
  | notExecutable => "not_executable"
  | included _ => "included"
  | retryable => "retryable"
  | failed => "failed"

/-- What is recorded of the submission of a work item. -/
def events (mode : Mode) (item : WorkItem) (seconds : Float) (e : Ending) : List Metrics.Event :=
  let network := item.target.network
  let broadcasts := match e with
    | included attempts => [Metrics.Event.attempts network attempts]
    | _ => []
  Metrics.Event.duration mode.name network seconds :: broadcasts ++ [.outcome network item.action.name e.name]

end Ending

end OrderKeeper.Submission
