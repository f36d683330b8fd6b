import OrderKeeper.Config.Value
import OrderKeeper.Text.Hex

/-!
# Plain scalars of YAML

What a scalar without quotes stands for: nothing, a truth value, a number, or else its own text.
-/

namespace OrderKeeper.Yaml

/-- The value of a digit in a base of at most sixteen. -/
def digit? (base : Nat) (c : Char) : Option Nat := (Hex.value? c).filter (· < base)

/-- The number that digits of a base write. -/
def natOfBase? (base : Nat) (ds : List Char) : Option Nat :=
  if ds.isEmpty then none else ds.foldlM (fun n c => (digit? base c).map (base * n + ·)) 0

/-- An integer of 64 bits in a base, with an optional sign. -/
def intOfBase? (base : Nat) (cs : List Char) : Option Int :=
  let (n, low) : Option Int × Int := match cs with
    | '-' :: r => ((natOfBase? base r).map fun n => -(n : Int), -0x8000000000000000)
    | '+' :: r => ((natOfBase? base r).map fun n => (n : Int), 0)
    | r => ((natOfBase? base r).map fun n => (n : Int), 0)
  n.filter fun n => low ≤ n ∧ n < 0x8000000000000000

/-- An integer of 64 bits; a mark in front tells its base. -/
def int? (cs : List Char) : Option Int :=
  let marked := match cs with
    | '0' :: 'x' :: r => intOfBase? 16 r
    | '0' :: 'o' :: r => intOfBase? 8 r
    | '+' :: r => intOfBase? 10 r
    | _ => none
  marked.or (intOfBase? 10 cs)

/-- Whether a text names an infinity, or no number at all. -/
def isUnbounded (s : String) : Bool :=
  [".inf", ".Inf", ".INF", "+.inf", "+.Inf", "+.INF", "-.inf", "-.Inf", "-.INF", ".nan", ".NaN", ".NAN"].contains s

/-- The scalar of a plain text. Numbers without bounds are refused, as no setting has one. -/
def plainScalar? (s : String) : Option Scalar :=
  if s = "~" ∨ s = "null" then some .null
  else if s = "true" then some (.bool true)
  else if s = "false" then some (.bool false)
  else if isUnbounded s then none
  else
    match int? s.toList with
    | some n => some (.int n)
    | none =>
      if s.toList.any Char.isDigit && (Decimal.read? s).isSome then some (.real s)
      else some (.text s)

/-- The key of a table that a scalar stands for. -/
def key? : Scalar → Option String
  | .null => none
  | .real t => some t
  | s => s.text?

end OrderKeeper.Yaml
