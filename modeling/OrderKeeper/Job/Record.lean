import OrderKeeper.Order.Basic
import OrderKeeper.Submission.Outcome
import OrderKeeper.Submission.Wire

/-!
# Job records

What is reported of a finished work item. The action is absent if the work item could not be read.
-/

namespace OrderKeeper

namespace Action

/-- The actions by name. -/
def names : List (String × Action) := [("execute", execute), ("cancel", cancel)]

/-- Reads an action. -/
def ofJson : Json.Decoder Action := Json.name Json.isNull names

/-- The JSON form. -/
def toJson (a : Action) : Json := .str a.name

end Action

/-- What is reported of a finished work item. -/
structure JobRecord where
  jobId : String
  action : Option Action
  result : Except KeeperError Outcome

/-- The members of a record beside its number: the action, and either the outcome or the error. -/
def JobRecord.findings (r : JobRecord) : Members :=
  [("action", Json.option Action.toJson r.action),
   match r.result with
   | .ok o => ("outcome", o.toJson)
   | .error e => ("error", e.toJson)]

/-- The JSON form. -/
def JobRecord.toJson (r : JobRecord) : Json := .obj (("jobId", .str r.jobId) :: r.findings)

end OrderKeeper
