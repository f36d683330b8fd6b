import OrderKeeper.Text.Case

/-!
# Environments

Where the keeper runs, which chooses a layer of its configuration. The case of a name does not matter.
-/

namespace OrderKeeper

/-- Where the keeper runs. -/
inductive Environment where
  | locally
  | development
  | production
  deriving DecidableEq, Repr

namespace Environment

/-- The name of an environment. -/
def name : Environment → String
  | locally => "local"
  | development => "development"
  | production => "production"

/-- All environments. -/
def all : List Environment := [locally, development, production]

/-- A name that no environment has, in lower case. -/
structure Unsupported where
  name : String
  deriving DecidableEq, Repr

/-- The wording of an unsupported name. -/
def Unsupported.message (u : Unsupported) : String :=
  u.name ++ " is not a supported environment. Use either `local`, `development`, or `production`."

/-- The environment of a name. -/
def ofName (s : String) : Except Unsupported Environment :=
  let lowered := Case.lower s
  match all.find? fun e => e.name = lowered with
  | some e => .ok e
  | none => .error ⟨lowered⟩

end Environment

end OrderKeeper
