import OrderKeeper.Table
import OrderKeeper.Text.Case
import OrderKeeper.Text.Decimal

/-!
# Values of a configuration

Scalars, lists and tables as a layer of a configuration holds them, and what they can be read as. A scalar reads as text
and, if its text allows, as a number, whichever way it was written: a number in quotes is still a number.
-/

namespace OrderKeeper

/-- A value without parts. -/
inductive Scalar where
  | null
  | bool (b : Bool)
  | int (n : Int)
  /-- A number with a fraction or an exponent, or outside of 64 bits, as written. -/
  | real (text : String)
  | text (s : String)
  deriving DecidableEq, Repr

/-- A value of a configuration. -/
inductive ConfigValue where
  | scalar (s : Scalar)
  | list (xs : List ConfigValue)
  | table (entries : List (String × ConfigValue))

namespace Scalar

/-- The text of a scalar. -/
def text? : Scalar → Option String
  | null => none
  | bool b => some (if b then "true" else "false")
  | int n => some (toString n)
  | real t => (Decimal.read? t).map Decimal.display
  | text s => some s

/-- The number that digits write, with an optional plus sign. -/
def natOfText? (s : String) : Option Nat :=
  let ds := match s.toList with
    | '+' :: r => r
    | r => r
  if ds.isEmpty || !ds.all Char.isDigit then none else some (Decimal.natOfDigits ds)

/-- The number a scalar reads as: a truth value, also one in words, is one or zero, and a fraction is rounded to the
nearest number within 64 bits. -/
def nat? : Scalar → Option Nat
  | null => none
  | bool b => some b.toNat
  | int n => if n < 0 then none else some n.toNat
  | real t => (Decimal.read? t).map fun x => x.round.toUInt64.toNat
  | text s =>
    let lowered := Case.lower s
    if lowered = "true" ∨ lowered = "on" ∨ lowered = "yes" then some 1
    else if lowered = "false" ∨ lowered = "off" ∨ lowered = "no" then some 0
    else natOfText? s

end Scalar

namespace ConfigValue

/-- No value. -/
def null : ConfigValue := .scalar .null

/-- The entries of a table. -/
def entries? : ConfigValue → Option (List (String × ConfigValue))
  | table es => some es
  | _ => none

/-- The fields of a record: a table, or a list of some first ones in their order. -/
def fields? (names : List String) : ConfigValue → Option (List (String × ConfigValue))
  | table es => some es
  | list xs => some (names.zip xs)
  | _ => none

/-- The text a value reads as. -/
def text? : ConfigValue → Option String
  | scalar s => s.text?
  | _ => none

/-- The number below `bound` a value reads as. -/
def natBelow? (bound : Nat) : ConfigValue → Option Nat
  | scalar s => s.nat?.filter (· < bound)
  | _ => none

/-- The number of 32 bits a value reads as. -/
def uint32? (v : ConfigValue) : Option UInt32 := (v.natBelow? UInt32.size).map UInt32.ofNat

/-- The number of 64 bits a value reads as. -/
def uint64? (v : ConfigValue) : Option UInt64 := (v.natBelow? UInt64.size).map UInt64.ofNat

/-- One of several named values: its name, or a table whose only key is its name. -/
def choice? {α : Type} (names : List (String × α)) : ConfigValue → Option α
  | scalar (.text s) => names.lookup s
  | table [(s, _)] => names.lookup s
  | _ => none

/-- A list of values that all can be read. -/
def list? {α : Type} (read : ConfigValue → Option α) : ConfigValue → Option (List α)
  | list xs => xs.mapM read
  | _ => none

/-- An entry that has to be there. -/
def required {α : Type} (es : List (String × ConfigValue)) (key : String) (read : ConfigValue → Option α) : Option α :=
  (es.lookup key).bind read

/-- An entry that has a value when it is absent. -/
def defaulted {α : Type} (es : List (String × ConfigValue)) (key : String) (read : ConfigValue → Option α) (usual : α) :
    Option α :=
  match es.lookup key with
  | some v => read v
  | none => some usual

end ConfigValue

end OrderKeeper
