import OrderKeeper.Chain.Config
import OrderKeeper.Config.Environment
import OrderKeeper.Config.Layer
import OrderKeeper.Config.Yaml.Reader
import OrderKeeper.Submission.Settings

/-!
# The configuration of a keeper

Read from three layers: a file that is always there, a file for the environment that may be there, and the variables of
the environment. Only the networks have to be named; everything else has a usual value.
-/

namespace OrderKeeper

/-- How the keeper's log is written. -/
inductive LogFormat where
  | json
  | pretty
  deriving DecidableEq, Repr

namespace LogFormat

/-- The name of a format. -/
def name : LogFormat → String
  | json => "json"
  | pretty => "pretty"

/-- The formats by name. -/
def names : List (String × LogFormat) := [("json", json), ("pretty", pretty)]

end LogFormat

/-- A key file and what opens it. -/
structure KeyFileEntry where
  path : String
  password : String
  deriving DecidableEq, Repr

/-- The configuration of a keeper. -/
structure Config where
  logFormat : LogFormat := .pretty
  settings : Settings := {}
  /-- Milliseconds until an attempt is cancelled. -/
  jobTimeout : UInt64 := 1800000
  networks : List ChainConfig
  privateKeys : List String := []
  keyFiles : List KeyFileEntry := []
  deriving DecidableEq, Repr

namespace Config

open ConfigValue (required defaulted)

/-- A configuration without networks, which has the usual value of everything else. -/
def usual : Config := { networks := [] }

/-- Reads a network. -/
def network? (v : ConfigValue) : Option ChainConfig := do
  let es ← v.fields? ["name", "chain_id", "rpc_url"]
  return ⟨← required es "name" ConfigValue.text?, ← required es "chain_id" ConfigValue.uint64?,
    ← required es "rpc_url" ConfigValue.text?⟩

/-- Reads a key file and its password. -/
def keyFile? (v : ConfigValue) : Option KeyFileEntry := do
  let es ← v.fields? ["path", "password"]
  return ⟨← required es "path" ConfigValue.text?, ← required es "password" ConfigValue.text?⟩

/-- Reads the keeper's own settings into a configuration. -/
def withKeeper? (c : Config) (v : ConfigValue) : Option Config := do
  let es ← v.fields?
    ["log_format", "mode", "max_escalations", "poll_interval_ms", "escalation_wait_ms", "job_timeout_ms"]
  return { c with
    logFormat := ← defaulted es "log_format" (ConfigValue.choice? LogFormat.names) c.logFormat
    settings :=
      { mode := ← defaulted es "mode" (ConfigValue.choice? Mode.names) c.settings.mode
        maxEscalations := ← defaulted es "max_escalations" ConfigValue.uint32? c.settings.maxEscalations
        times :=
          { pollInterval := ← defaulted es "poll_interval_ms" ConfigValue.uint64? c.settings.times.pollInterval
            escalationWait :=
              ← defaulted es "escalation_wait_ms" ConfigValue.uint64? c.settings.times.escalationWait } }
    jobTimeout := ← defaulted es "job_timeout_ms" ConfigValue.uint64? c.jobTimeout }

/-- Reads what the keeper signs with into a configuration. -/
def withSigner? (c : Config) (v : ConfigValue) : Option Config := do
  let es ← v.fields? ["private_keys", "keystores"]
  return { c with
    privateKeys := ← defaulted es "private_keys" (ConfigValue.list? ConfigValue.text?) c.privateKeys
    keyFiles := ← defaulted es "keystores" (ConfigValue.list? keyFile?) c.keyFiles }

/-- Reads a whole configuration. -/
def ofValue? (v : ConfigValue) : Option Config := do
  let es ← v.entries?
  let c ← defaulted es "keeper" usual.withKeeper? usual
  let c := { c with networks := ← required es "networks" (ConfigValue.list? network?) }
  defaulted es "signer" c.withSigner? c

/-- Why there is no configuration. -/
inductive Failure where
  | environment (u : Environment.Unsupported)
  /-- A layer is missing or cannot be read, or the layers do not make up a configuration. -/
  | unreadable
  deriving DecidableEq, Repr

/-- The wording. -/
def Failure.message : Failure → String
  | environment u => u.message
  | unreadable =>
    "Make sure all required fields are set correctly in your configuration files or environment variables."

/-- The name of the file that is always there. -/
def baseFile : String := "keeper_base.yaml"

/-- The name of the file for an environment. -/
def environmentFile (e : Environment) : String := "keeper_" ++ e.name ++ ".yaml"

/-- The names of all files that can be a layer. -/
def fileNames : List String := baseFile :: Environment.all.map environmentFile

/-- The variable that names the environment. -/
def environmentVariable : String := "APP_ENVIRONMENT"

/-- The environment that the variables name. -/
def environment (vars : List (String × String)) : Except Failure Environment :=
  match vars.lookup environmentVariable with
  | some s => (Environment.ofName s).mapError .environment
  | none => .ok .locally

/-- The layers from the texts of the two files and the variables. -/
def layers? (base : String) (overlay : Option String) (vars : List (String × String)) :
    Option (List ConfigValue.Layer) := do
  let base ← (← Yaml.read? base).entries?
  let overlay ← match overlay with
    | some text => (← Yaml.read? text).entries?
    | none => some []
  return [base, overlay, ConfigValue.Layer.ofEnvironment vars]

/-- The configuration from files by their names and from variables. -/
def load (files : String → Option String) (vars : List (String × String)) : Except Failure Config := do
  let e ← environment vars
  let config := do
    let layers ← layers? (← files baseFile) (files (environmentFile e)) vars
    ofValue? (ConfigValue.ofLayers layers)
  match config with
  | some c => .ok c
  | none => .error .unreadable

end Config

end OrderKeeper
