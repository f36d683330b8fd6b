import OrderKeeper.Json.Number
import OrderKeeper.Text.Hex

/-!
# Writing JSON text

Compact text: no white space, members in their order. Only quotes, backslashes and control characters are escaped.
-/

namespace OrderKeeper.Json

/-- The characters that stand for one character of a string. -/
def escapeChar (c : Char) : List Char :=
  if c = '"' then ['\\', '"']
  else if c = '\\' then ['\\', '\\']
  else if 32 ≤ c.toNat then [c]
  else if c = '\x08' then ['\\', 'b']
  else if c = '\x0c' then ['\\', 'f']
  else if c = '\n' then ['\\', 'n']
  else if c = '\r' then ['\\', 'r']
  else if c = '\t' then ['\\', 't']
  else ['\\', 'u', '0', '0', Hex.digit (c.toNat / 16), Hex.digit (c.toNat % 16)]

/-- A string in quotes. -/
def quote (s : String) : String := String.ofList ('"' :: s.toList.flatMap escapeChar ++ ['"'])

mutual

/-- The text of a value. -/
def compact : Json → String
  | .null => "null"
  | .bool true => "true"
  | .bool false => "false"
  | .int n => toString n
  | .real x => Decimal.compact x
  | .str s => quote s
  | .arr xs => "[" ++ String.intercalate "," (compactAll xs) ++ "]"
  | .obj ms => "\x7b" ++ String.intercalate "," (compactMembers ms) ++ "\x7d"

/-- The texts of several values. -/
def compactAll : List Json → List String
  | [] => []
  | x :: xs => compact x :: compactAll xs

/-- The texts of members. -/
def compactMembers : Members → List String
  | [] => []
  | (name, v) :: ms => (quote name ++ ":" ++ compact v) :: compactMembers ms

end

mutual

/-- The value with the members of every object in the order of their names. -/
def sorted : Json → Json
  | .arr xs => .arr (sortedAll xs)
  | .obj ms => .obj ((sortedMembers ms).mergeSort fun a b => a.1 ≤ b.1)
  | v => v

/-- Sorts the members inside several values. -/
def sortedAll : List Json → List Json
  | [] => []
  | x :: xs => sorted x :: sortedAll xs

/-- Sorts the members inside the values of members. -/
def sortedMembers : Members → Members
  | [] => []
  | (name, v) :: ms => (name, sorted v) :: sortedMembers ms

end

end OrderKeeper.Json
