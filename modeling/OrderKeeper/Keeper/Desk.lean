import OrderKeeper.Job.Record
import OrderKeeper.Job.Retry
import OrderKeeper.Table
import OrderKeeper.Text.Blank
import OrderKeeper.WorkItem.Parse

/-!
# The desk

Lines come in and records go out. A blank line is passed over, a line that is no work item is reported at once, and
every other line becomes a job that is reported when its attempts have come to an end. Jobs go on side by side, in any
order.

- `Desk.read` takes a line in under its number, and `Desk.put` puts a job back or its record out.
- `Desk.settle` carries every job to its end.
-/

namespace OrderKeeper

/-- What becomes of a line. -/
inductive Intake where
  | blank
  | rejected (error : KeeperError)
  | accepted (item : WorkItem)

/-- What becomes of a line. -/
def Intake.ofLine (line : String) : Intake :=
  if (trimBlank line.toList).isEmpty then .blank
  else
    match WorkItem.parse line with
    | .error e => .rejected e
    | .ok item => .accepted item

/-- A work item whose attempts are under way. -/
structure Job where
  jobId : String
  item : WorkItem
  talk : Retry.Talk KeeperError Outcome

namespace Job

/-- A work item before its first attempt. -/
def ofItem (jobId : String) (item : WorkItem) : Job := ⟨jobId, item, Retry.run item.maxRetries⟩

/-- The record of a job with a result. -/
def recordOf (j : Job) (r : Except KeeperError Outcome) : JobRecord := ⟨j.jobId, some j.item.action, r⟩

/-- The record of a job that has come to its end. -/
def record? (j : Job) : Option JobRecord := j.talk.result?.map j.recordOf

end Job

/-- The jobs under way by the numbers of their lines, and the records that have gone out, first one first. -/
structure Desk where
  jobs : Table Nat Job := []
  records : List JobRecord := []

namespace Desk

/-- Takes a line in, whose job, if it becomes one, has a name of its own. -/
def read (d : Desk) (n : Nat) (jobId line : String) : Desk :=
  match Intake.ofLine line with
  | .blank => d
  | .rejected e => { d with records := d.records ++ [⟨jobId, none, .error e⟩] }
  | .accepted item => { d with jobs := d.jobs.set n (Job.ofItem jobId item) }

/-- Puts a job back, or its record out if it has come to its end. -/
def put (d : Desk) (n : Nat) (j : Job) : Desk :=
  match j.record? with
  | some r => ⟨d.jobs.erase n, d.records ++ [r]⟩
  | none => { d with jobs := d.jobs.set n j }

/-- Carries every job to its end, in order. -/
def settle (d : Desk) (answer : Job → (q : Retry.Question) → q.Answer KeeperError Outcome) : Desk :=
  ⟨[], d.records ++ d.jobs.map fun e => e.2.recordOf (e.2.talk.answered (answer e.2))⟩

/-- Takes lines in, which are numbered from `first` on; their jobs are named by their numbers. -/
def readAll (d : Desk) (first : Nat) : List String → Desk
  | [] => d
  | l :: ls => (d.read first (toString first) l).readAll (first + 1) ls

end Desk

/-- A line without its line end, of which a carriage return is a part. -/
def withoutReturn (l : List Char) : List Char := if l.getLast? = some '\r' then l.dropLast else l

/-- The lines of an input; what follows the last line end is a line if there is anything. -/
def inputLines (input : String) : List String :=
  let parts := input.toList.splitOn '\n'
  let last := parts.getLast?.getD []
  (parts.dropLast.map withoutReturn ++ if last.isEmpty then [] else [last]).map String.ofList

end OrderKeeper
