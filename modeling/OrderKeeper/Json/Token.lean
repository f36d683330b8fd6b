import OrderKeeper.Json.Number
import OrderKeeper.Text.Hex

/-!
# Tokens of JSON text

`tokens` splits a text into tokens up to its end or its first fault. Strings refuse raw control characters and escapes
of half a surrogate pair; numbers refuse leading zeros, a bare point and an empty exponent.
-/

namespace OrderKeeper.Json

/-- A token. -/
inductive Token where
  | beginObject
  | endObject
  | beginArray
  | endArray
  | colon
  | comma
  /-- A value that has no parts. -/
  | leaf (v : Json)
  /-- A string, which is a value or the name of a member. -/
  | text (s : String)

namespace Token

/-- The number that the first four characters write in hexadecimal. -/
def unit? : List Char → Option Nat
  | a :: b :: c :: d :: _ => do
    let a ← Hex.value? a
    let b ← Hex.value? b
    let c ← Hex.value? c
    let d ← Hex.value? d
    return ((a * 16 + b) * 16 + c) * 16 + d
  | _ => none

/-- The character that a letter after a backslash stands for. -/
def letter? : Char → Option Char
  | '"' => some '"'
  | '\\' => some '\\'
  | '/' => some '/'
  | 'b' => some '\x08'
  | 'f' => some '\x0c'
  | 'n' => some '\n'
  | 'r' => some '\r'
  | 't' => some '\t'
  | _ => none

/-- The character that follows `\u`, one unit or a surrogate pair, and how many characters write it. -/
def unicode? (s : List Char) : Option (Char × Nat) := do
  let high ← unit? s
  if high < 0xd800 ∨ 0xdfff < high then return (Char.ofNat high, 4)
  if 0xdc00 ≤ high ∨ (s.drop 4).take 2 ≠ ['\\', 'u'] then none
  let low ← unit? (s.drop 6)
  if low < 0xdc00 ∨ 0xdfff < low then none
  return (Char.ofNat (0x10000 + (high - 0xd800) * 0x400 + (low - 0xdc00)), 10)

/-- The character that follows a backslash, and how many characters write it. -/
def escape? : List Char → Option (Char × Nat)
  | [] => none
  | c :: r =>
    if c = 'u' then (unicode? r).map fun (e, width) => (e, width + 1)
    else (letter? c).map fun e => (e, 1)

/-- The characters up to the closing quote, and the rest after it; `skip` characters belong to an escape before them. -/
def string? : Nat → List Char → Option (List Char × List Char)
  | _, [] => none
  | skip + 1, _ :: r => string? skip r
  | 0, c :: r =>
    if c = '"' then some ([], r)
    else if c = '\\' then
      match escape? r with
      | some (e, width) => (string? width r).map fun (cs, t) => (e :: cs, t)
      | none => none
    else if c.toNat < 32 then none
    else (string? 0 r).map fun (cs, t) => (c :: cs, t)

/-- The digits at the front of a text and the rest. -/
def digits : List Char → List Nat × List Char
  | [] => ([], [])
  | c :: r =>
    if c.isDigit then
      let (ds, t) := digits r
      ((c.toNat - 48) :: ds, t)
    else ([], c :: r)

/-- The fraction at the front of a text, which is empty unless a point is there. -/
def fraction? : List Char → Option (List Nat × List Char)
  | '.' :: r =>
    let (ds, t) := digits r
    if ds.isEmpty then none else some (ds, t)
  | r => some ([], r)

/-- The exponent at the front of a text, if the mark `e` is there; its digits must follow. -/
def exponent? : List Char → Option (Option Int × List Char)
  | [] => some (none, [])
  | c :: r =>
    if c = 'e' ∨ c = 'E' then
      let (negative, r) := match r with
        | '-' :: t => (true, t)
        | '+' :: t => (false, t)
        | t => (false, t)
      let (ds, t) := digits r
      if ds.isEmpty then none
      else
        let n : Nat := min (ds.foldl (fun n d => 10 * n + d) 0) 0x80000000
        some (some (if negative then -(n : Int) else n), t)
    else some (none, c :: r)

/-- The number at the front of a text and the rest. -/
def number? (s : List Char) : Option (Json × List Char) := do
  let (negative, s) := match s with
    | '-' :: r => (true, r)
    | r => (false, r)
  let (whole, r) := digits s
  if whole.isEmpty || (whole.head? == some 0 && 1 < whole.length) then none
  else
    let (fraction, r) ← fraction? r
    let (exponent, r) ← exponent? r
    let plain := fraction.isEmpty && exponent.isNone
    let v ← (Number.Literal.mk negative whole fraction plain (exponent.getD 0)).value?
    return (v, r)

/-- The word `word` at the front of a text is replaced by its value. -/
def word? (word : List Char) (v : Json) (s : List Char) : Option (Json × List Char) :=
  if word.isPrefixOf s then some (v, s.drop word.length) else none

/-- The token at the front of a text that does not begin with white space, and the rest. -/
def next? : List Char → Option (Token × List Char)
  | [] => none
  | '{' :: r => some (.beginObject, r)
  | '}' :: r => some (.endObject, r)
  | '[' :: r => some (.beginArray, r)
  | ']' :: r => some (.endArray, r)
  | ':' :: r => some (.colon, r)
  | ',' :: r => some (.comma, r)
  | '"' :: r => (string? 0 r).map fun (cs, t) => (.text (String.ofList cs), t)
  | c :: r =>
    let found :=
      if c = 't' then word? "true".toList (.bool true) (c :: r)
      else if c = 'f' then word? "false".toList (.bool false) (c :: r)
      else if c = 'n' then word? "null".toList .null (c :: r)
      else number? (c :: r)
    found.map fun (v, t) => (.leaf v, t)

/-- White space between tokens. -/
def isSpace (c : Char) : Bool := c == ' ' || c == '\n' || c == '\t' || c == '\r'

end Token

/-- The tokens of a text, and whether they reach its end; a fault ends them early. -/
def tokens (s : List Char) : List Token × Bool :=
  match s with
  | [] => ([], true)
  | c :: r =>
    if Token.isSpace c then tokens r
    else
      match Token.next? (c :: r) with
      | none => ([], false)
      | some (t, q) =>
        if q.length ≤ r.length then
          let (ts, whole) := tokens q
          (t :: ts, whole)
        else ([], false)
termination_by s.length
decreasing_by all_goals (simp only [List.length_cons]; omega)

end OrderKeeper.Json
