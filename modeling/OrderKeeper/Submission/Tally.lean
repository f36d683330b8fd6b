import OrderKeeper.Submission.Ending
import OrderKeeper.Submission.History

/-!
# Submissions on record

Calls on any number of floors that share one set of records. When the submission of a call has come to its end, the call
measures its time and records one thing after the other, its duration first; between any two of them all other calls may
do whatever they do. Then it returns the verdict on its submission. A call whose submission is given up returns nothing and
records nothing.
-/

namespace OrderKeeper.Submission

open Nonce (Ticket)

/-- A call: the floor of its submission, and its ticket there. -/
structure Call where
  floor : Nat
  ticket : Ticket
  deriving DecidableEq, Repr

/-- A work item that was carried out under some settings, and what its submission has handed back. -/
structure Conclusion where
  settings : Settings
  item : WorkItem
  result : Except KeeperError Outcome

namespace Conclusion

/-- The network of the work item. -/
def network (x : Conclusion) : String := x.item.target.network

/-- The action of the work item. -/
def action (x : Conclusion) : Action := x.item.action

/-- The mode in which it was carried out. -/
def mode (x : Conclusion) : Mode := modeOf x.settings x.item

/-- What is recorded of it when it has taken some time. -/
def events (x : Conclusion) (seconds : Float) : List Metrics.Event :=
  (Ending.of x.result).events x.mode x.item seconds

/-- What its caller is told. -/
def answer (x : Conclusion) : Except (Verdict KeeperError) Outcome := x.result.mapError KeeperError.verdict

end Conclusion

/-- Floors by their numbers, the records that their calls share, and what each call that has measured its time is still to
record. -/
structure Tally where
  floors : Table Nat Floor := []
  due : Table Call (List Metrics.Event) := []
  records : Metrics.Records := {}

namespace Tally

/-- What can happen. -/
inductive Move where
  | work (floor : Nat) (move : Floor.Move)
  /-- A call whose submission has come to its end measures its time. -/
  | conclude (call : Call) (seconds : Float)
  /-- It records the next thing. -/
  | record (call : Call)

/-- The floor of a number. -/
def floorOf (y : Tally) (n : Nat) : Floor := (y.floors.get? n).getD {}

/-- What the submission of a call has come to. -/
def conclusion? (y : Tally) (c : Call) : Option Conclusion :=
  ((y.floorOf c.floor).tasks.get? c.ticket).bind fun task =>
    task.standing.result?.map (⟨task.brief.settings, task.brief.item, ·⟩)

/-- Lets something happen, if it is possible. -/
def apply (y : Tally) : Move → Option Tally
  | .work n m => ((y.floorOf n).apply m).map fun f => { y with floors := y.floors.set n f }
  | .conclude c seconds =>
    match y.due.get? c, y.conclusion? c with
    | none, some x => some { y with due := y.due.set c (x.events seconds) }
    | _, _ => none
  | .record c =>
    match y.due.get? c with
    | some (e :: es) => some { y with due := y.due.set c es, records := y.records.record e }
    | _ => none

/-- Lets things happen in a row, if all of them are possible. -/
def run? (y : Tally) (ms : List Move) : Option Tally := ms.foldlM apply y

/-- The calls that have measured their time, in this order. -/
def calls (y : Tally) : List Call := y.due.keys

/-- What a call has returned, once it has recorded all there is to record. -/
def returned? (y : Tally) (c : Call) : Option Conclusion :=
  match y.due.get? c with
  | some [] => y.conclusion? c
  | _ => none

/-- What has been returned. -/
def returns (y : Tally) : List Conclusion := y.calls.filterMap y.returned?

/-- No call is about to record something. -/
def IsSettled (y : Tally) : Prop := ∀ c es, y.due.get? c = some es → es = []

end Tally

end OrderKeeper.Submission
