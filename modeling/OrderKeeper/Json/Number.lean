import OrderKeeper.Json.Basic
import OrderKeeper.Text.Decimal

/-!
# Numbers in JSON text

A floating-point number is read from a significand of at most 64 bits, which takes the leading digits that fit, and a
power of ten: the significand is rounded once and then multiplied or divided once. A result beyond the largest number
is refused.
-/

namespace OrderKeeper.Json.Number

/-- Takes digits onto a significand as long as it fits into 64 bits; gives the digits that did not fit. -/
def takeDigits : Nat → List Nat → Nat × List Nat
  | n, [] => (n, [])
  | n, d :: ds => if 10 * n + d < UInt64.size then takeDigits (10 * n + d) ds else (n, d :: ds)

/-- `10 ^ k` as a number, for `k` up to 308. -/
def powerOfTen (k : Nat) : Float := Float.ofScientific 1 false k

/-- A rounded significand times a power of ten; `none` beyond the largest number. -/
def scale (x : Float) (exponent : Int) : Option Float :=
  if 0 ≤ exponent then
    if exponent ≤ 308 then
      let y := x * powerOfTen exponent.toNat
      if y.isInf then none else some y
    else if x == 0.0 then some x
    else none
  else
    -- Divisions by `1e308` until at most 308 places are left; after four of them the significand is gone.
    let places := exponent.natAbs
    let steps := (places - 1) / 308
    let y := (List.range (min steps 4)).foldl (fun y _ => y / 1e308) x
    some (y / powerOfTen (places - 308 * steps))

/-- The parts of a number's text. -/
structure Literal where
  negative : Bool
  whole : List Nat
  fraction : List Nat
  /-- Whether the text has neither a fraction nor an exponent. -/
  plain : Bool
  exponent : Int

/-- The floating-point number that a literal writes. -/
def Literal.real? (l : Literal) : Option Float :=
  let (n, left) := takeDigits 0 l.whole
  let (n, unread) := takeDigits n l.fraction
  let exponent : Int := l.exponent + (left.length : Int) - ((l.fraction.length - unread.length : Nat) : Int)
  (scale (UInt64.ofNat n).toFloat exponent).map fun x => if l.negative then -x else x

/-- The decimal digits of a natural number, most significant first. -/
def digitsOf (n : Nat) : List Nat := (Nat.toDigits 10 n).map fun c => c.toNat - 48

/-- An integer as a floating-point number, as its text is read. -/
def realOfInt? (n : Int) : Option Float :=
  Literal.real? ⟨n < 0, digitsOf n.natAbs, [], true, 0⟩

/-- The value of a literal: an integer where the text is plain, a floating-point number otherwise. An integer of more than
64 bits must not be beyond the largest number. -/
def Literal.value? (l : Literal) : Option Json :=
  if l.plain then
    let n : Nat := l.whole.foldl (fun n d => 10 * n + d) 0
    let v := Json.int (if l.negative then -(n : Int) else n)
    if l.negative && n == 0 then some (.real (-0.0))
    else if n < UInt64.size then some v
    else l.real?.map fun _ => v
  else l.real?.map .real

end OrderKeeper.Json.Number
