import OrderKeeper.Chain.Client
import OrderKeeper.Config.Basic
import OrderKeeper.Job.Verdict
import OrderKeeper.Signing.Keyring
import OrderKeeper.Submission.Run

/-!
# A keeper at work

What a configuration makes of a keeper: the chains that it speaks with, the keys that it signs with, and how it goes about
its work items.
-/

namespace OrderKeeper

/-- A keeper at work. -/
structure Keeper where
  registry : Registry
  keyring : Keyring
  settings : Settings
  /-- Milliseconds until an attempt is cancelled. -/
  jobTimeout : UInt64

namespace Keeper

/-- Why a keeper does not take up its work. -/
inductive StartFailure where
  | config (f : Config.Failure)
  /-- A network or a key is not acceptable. -/
  | fault (f : Fault)
  deriving DecidableEq, Repr

/-- The wording. -/
def StartFailure.message : StartFailure → String
  | config f => f.message
  | fault f => f.display

/-- The keyring of a configuration: private keys first, then the keys in key files, each in their order. -/
def keysOf (files : String → Option String) (c : Config) : Except Fault Keyring := do
  let r ← c.privateKeys.foldlM (fun (r : Keyring) k => (r.addText k).map (·.1)) {}
  c.keyFiles.foldlM (fun r f => (r.addFile f.path (files f.path) f.password).map (·.1)) r

/-- The keeper of a configuration; networks are looked at before keys. -/
def ofConfig (files : String → Option String) (c : Config) : Except Fault Keeper := do
  let registry ← Registry.ofConfigs c.networks
  return ⟨registry, ← keysOf files c, c.settings, c.jobTimeout⟩

/-- The path of a file of the configuration. -/
def configPath (name : String) : String := "configuration/" ++ name

/-- The configuration in a directory with files by their paths, in an environment. -/
def config (files : String → Option String) (vars : List (String × String)) : Except StartFailure Config :=
  (Config.load (fun name => files (configPath name)) vars).mapError .config

/-- The keeper that starts in a directory with files by their paths, in an environment. -/
def start (files : String → Option String) (vars : List (String × String)) : Except StartFailure Keeper := do
  (ofConfig files (← config files vars)).mapError .fault

/-- The chain of a network. -/
def chainOf (k : Keeper) (network : String) : Except Fault ChainInfo := (k.registry.get network).map Chain.info

/-- The submission of a work item. -/
def submission (k : Keeper) (item : WorkItem) : Submission.Talk KeeperError (Except KeeperError Outcome) :=
  Submission.run k.settings k.chainOf k.keyring.has item

/-- The answers of a network that cannot be reached: every call fails, and so does what depends on one. -/
def withoutNetwork (k : Keeper) (fault : Fault) : (q : Submission.Question) → q.Answer
  | .ledger _ => .error fault
  | .lease _ => .error fault
  | .sign options transaction => k.keyring.sign options transaction
  | .pause _ => ()
  | .watch w => .error (.queryFailed w.hash fault)

/-- The fault of a network that cannot be reached. -/
def unreachable (k : Keeper) (network : String) : Fault :=
  match k.registry.get network with
  | .ok c => c.fault .backendGone
  | .error f => f

/-- An attempt at a work item while no network can be reached. -/
def attemptWithoutNetwork (k : Keeper) (item : WorkItem) : Except (Verdict KeeperError) Outcome :=
  ((k.submission item).answered (k.withoutNetwork (k.unreachable item.target.network))).mapError KeeperError.verdict

end Keeper

end OrderKeeper
