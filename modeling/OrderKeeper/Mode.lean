import OrderKeeper.Json.Scalar

/-!
# Modes of submission

How a submission is priced and driven to inclusion.
-/

namespace OrderKeeper

/-- A mode of submission. -/
inductive Mode where
  /-- Priced once from the network's suggestions, sent once, then waited for. -/
  | simple
  /-- Priced with a minimal tip and sent again under the same nonce at rising prices until mined. -/
  | optimized
  deriving DecidableEq, Repr

namespace Mode

/-- The name of a mode. -/
def name : Mode → String
  | simple => "simple"
  | optimized => "optimized"

/-- The modes by name. -/
def names : List (String × Mode) := [("simple", simple), ("optimized", optimized)]

/-- Reads a mode. -/
def ofJson : Json.Decoder Mode := Json.name Json.isNull names

/-- Reads a mode inside of a tagged value, where an empty object counts as nothing. -/
def ofTaggedJson : Json.Decoder Mode := Json.name Json.isVoid names

/-- The JSON form. -/
def toJson (m : Mode) : Json := .str m.name

end Mode

end OrderKeeper
