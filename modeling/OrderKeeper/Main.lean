import OrderKeeper.Job.Number
import OrderKeeper.Json.Printer
import OrderKeeper.Keeper.Service

/-!
# The command line

Starts a keeper in the working directory, reads work items from standard input, and writes one record a line to standard
output. Jobs go on side by side. The program has no connection to a network: every call on a node fails as one whose
connection has stopped.
-/

namespace OrderKeeper.Main

/-- The text of a file, if there is one. -/
def fileText? (path : String) : IO (Option String) := do
  try return some (← IO.FS.readFile path)
  catch _ => return none

/-- Files by their paths. -/
def readFiles (paths : List String) : IO (String → Option String) := do
  let texts ← paths.mapM fun path => do return (path, ← fileText? path)
  return fun path => (texts.lookup path).join

/-- The variables of the environment. -/
def environment : IO (List (String × String)) := do
  let text := (← fileText? "/proc/self/environ").getD ""
  return (text.splitOn "\x00").map fun entry =>
    match entry.splitOn "=" with
    | name :: value => (name, String.intercalate "=" value)
    | [] => ("", "")

/-- The keeper that starts here. -/
def start : IO (Except Keeper.StartFailure Keeper) := do
  match Keeper.config (← readFiles (Config.fileNames.map Keeper.configPath)) (← environment) with
  | .error f => return .error f
  | .ok c => return (Keeper.ofConfig (← readFiles (c.keyFiles.map KeyFileEntry.path)) c).mapError .fault

/-- Writes the record of a finished job. -/
def emit (r : JobRecord) : IO Unit := do
  let out ← IO.getStdout
  out.putStrLn r.toJson.compact
  out.flush

/-- Carries the attempts at a work item to their end. -/
def finish (k : Keeper) (item : WorkItem) : Retry.Talk KeeperError Outcome → IO (Except KeeperError Outcome)
  | .done r => return r
  | .ask (.attempt _) _ next => finish k item (next (k.attemptWithoutNetwork item))
  | .ask (.pause ms) _ next => do
    IO.sleep ms.toUInt32
    finish k item (next ())

/-- Takes in a line; a job goes on by itself. -/
def take (k : Keeper) (line : String) : IO (Option (Task (Except IO.Error Unit))) := do
  let jobId := JobId.ofBits (← IO.rand 0 (1 <<< 128 - 1))
  match Intake.ofLine line with
  | .blank => return none
  | .rejected e =>
    emit ⟨jobId, none, .error e⟩
    return none
  | .accepted item =>
    let job := Job.ofItem jobId item
    return some (← IO.asTask do emit (job.recordOf (← finish k item job.talk)))

/-- Takes in the lines of the input up to its end, and waits for their jobs. -/
partial def serve (k : Keeper) (input : IO.FS.Stream) (jobs : List (Task (Except IO.Error Unit))) : IO Unit := do
  let line ← input.getLine
  if line.isEmpty then
    for job in jobs.reverse do
      let _ ← IO.wait job
  else
    match ← take k line with
    | some job => serve k input (job :: jobs)
    | none => serve k input jobs

end OrderKeeper.Main

/-- Works through the input; fails if the keeper cannot start. -/
def main : IO UInt32 := do
  match ← OrderKeeper.Main.start with
  | .error f =>
    IO.eprintln ("Error: " ++ f.message)
    return 1
  | .ok k =>
    OrderKeeper.Main.serve k (← IO.getStdin) []
    return 0
