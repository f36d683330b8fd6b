import OrderKeeper.Submission.Error

/-!
# Verdicts

What the dispatcher is told of an attempt that failed: to schedule the work item again, or to drop it.
-/

namespace OrderKeeper

/-- What becomes of a failed attempt. -/
inductive Verdict (ε : Type) where
  /-- The same work item is to be scheduled again, after a delay in milliseconds. -/
  | nack (error : ε) (delay : Option UInt64)
  | fail (error : ε)
  deriving DecidableEq, Repr

namespace Verdict

variable {ε : Type}

/-- Why the attempt failed. -/
def error : Verdict ε → ε
  | nack e _ => e
  | fail e => e

/-- Whether the work item is to be scheduled again. -/
def isNack : Verdict ε → Bool
  | nack .. => true
  | fail _ => false

end Verdict

/-- The delay before a work item is scheduled again, in milliseconds. -/
def retryDelay : UInt64 := 5000

/-- The verdict on an ending without success. -/
def KeeperError.verdict (e : KeeperError) : Verdict KeeperError :=
  if e.isRetryable then .nack e (some retryDelay) else .fail e

end OrderKeeper
