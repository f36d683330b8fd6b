import OrderKeeper.Dialogue
import OrderKeeper.Job.Verdict

/-!
# Retrying a work item

A work item is attempted until an attempt succeeds, fails for good, or the budget is used up. Between two attempts there
is the pause that the failed one asked for; an attempt is never cut short, but a cancellation ends the pauses.
-/

namespace OrderKeeper.Retry

/-- What retrying asks for. -/
inductive Question where
  /-- Attempt number `retry`, counted from zero. -/
  | attempt (retry : UInt32)
  | pause (milliseconds : UInt64)
  deriving DecidableEq, Repr

/-- The answers, for attempts with results in `α` and errors in `ε`. -/
abbrev Question.Answer (ε α : Type) : Question → Type
  | attempt _ => Except (Verdict ε) α
  | pause _ => Unit

variable {ε α : Type}

/-- A work item under retry. What ends a pause is the error of the attempt before it. -/
abbrev Talk (ε α : Type) := Dialogue Question (Question.Answer ε α) (Except ε α) (Except ε α)

/-- The attempts from `retry` on, with `left` retries after it. -/
def attempts : Nat → UInt32 → Talk ε α
  | left, retry =>
    .ask (.attempt retry) none fun
      | .ok a => .done (.ok a)
      | .error (.fail e) => .done (.error e)
      | .error (.nack e delay) =>
        match left with
        | 0 => .done (.error e)
        | left + 1 => .ask (.pause (delay.getD 0)) (some (.error e)) fun () => attempts left (retry + 1)

/-- All attempts of a work item. -/
def run (maxRetries : UInt32) : Talk ε α := attempts maxRetries.toNat 0

end OrderKeeper.Retry
