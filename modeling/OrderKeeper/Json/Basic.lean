/-!
# JSON values

A value as its text writes it: members keep their order and may repeat. A number without fraction and exponent is an
integer of any size, except `-0`, which is a floating-point number like all others.
-/

namespace OrderKeeper

/-- A JSON value. -/
inductive Json where
  | null
  | bool (b : Bool)
  | int (n : Int)
  | real (x : Float)
  | str (s : String)
  | arr (xs : List Json)
  | obj (members : List (String × Json))
  deriving Inhabited

/-- The members of an object, in order. -/
abbrev Members := List (String × Json)

namespace Json

/-- A number from a natural number. -/
def nat (n : Nat) : Json := .int n

/-- An absent value is written as `null`. -/
def option {α : Type} (f : α → Json) : Option α → Json
  | none => .null
  | some a => f a

/-- An object of a tag and other members. -/
def tagged (tag kind : String) (ms : Members) : Json := .obj ((tag, .str kind) :: ms)

/-- The value of the first member of a name. -/
def find? (ms : Members) (name : String) : Option Json := (ms.find? (·.1 == name)).map (·.2)

end Json

end OrderKeeper
