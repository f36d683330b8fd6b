import OrderKeeper.Mode
import OrderKeeper.Receipt.Basic

/-!
# Settings of submissions

The mode of work items that name none, the escalation budget, and the times between looks at the ledger. In JSON the
times stand among the other members.
-/

namespace OrderKeeper

/-- The settings that all submissions share. -/
structure Settings where
  mode : Mode := .optimized
  /-- Broadcasts allowed after the first one. -/
  maxEscalations : UInt32 := 3
  times : PollTimes := {}
  deriving DecidableEq, Repr

namespace Settings

open Json (Record)

/-- The members that are the settings' own. -/
def ownRecord : Record (Mode × UInt32) :=
  Prod.mk <$> Record.default "mode" Mode.ofJson .optimized <*> Record.default "maxEscalations" Json.uint32 3

/-- Reads settings from the members of an object: their own first, then the times. -/
def ofJson : Json.Decoder Settings
  | .obj ms => do
    let (mode, maxEscalations) ← ownRecord.ofMembers ms
    let times ← PollTimes.record.ofMembers ms
    return ⟨mode, maxEscalations, times⟩
  | _ => .error .malformed

/-- The JSON form. -/
def toJson (s : Settings) : Json :=
  .obj ([("mode", s.mode.toJson), ("maxEscalations", .ofUInt32 s.maxEscalations)] ++ s.times.members)

end Settings

end OrderKeeper
