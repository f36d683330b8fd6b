/-!
# Decimal text of floating-point numbers

- `shortest` gives the fewest digits of which the decimal nearest to the number reads back as that number.
- `display` writes them without an exponent and without a trailing `.0`; `compact` writes them as a number of a JSON
  text, with an exponent outside of `1e-5 … 1e16`.
- `read?` reads decimal text to the nearest number.
-/

namespace OrderKeeper.Decimal

/-- A finite positive number as `mantissa * 2 ^ exponent`. -/
structure Binary where
  mantissa : Nat
  exponent : Int
  /-- Whether the next smaller number is half as far away as the next larger one. -/
  narrow : Bool
  deriving DecidableEq, Repr

/-- The parts of a finite number other than zero, from its 64 bits without the sign. -/
def Binary.ofBits (bits : UInt64) : Binary :=
  let fraction : Nat := bits.toNat % 0x10000000000000
  let biased : Nat := bits.toNat / 0x10000000000000 % 0x800
  if biased = 0 then ⟨fraction, -1074, false⟩
  else ⟨0x10000000000000 + fraction, (biased : Int) - 1075, fraction = 0 ∧ 1 < biased⟩

/-- Decimal digits scaled by a power of ten. -/
structure Digits where
  digits : Nat
  exponent : Int
  deriving DecidableEq, Repr

/-- The grid of multiples of `10 ^ e`: the neighbour of the number on it that reads back, the nearer one of two and the
upper one of two equally near. -/
def onGrid (b : Binary) (e : Int) : Option Digits :=
  -- Four times the number and four times both ends of its interval, as multiples of `unit`.
  let up := Nat.pow 2 (b.exponent - 2).toNat * Nat.pow 10 (-e).toNat
  let unit := Nat.pow 2 (2 - b.exponent).toNat * Nat.pow 10 e.toNat
  let value := 4 * b.mantissa * up
  let low := (4 * b.mantissa - if b.narrow then 1 else 2) * up
  let high := (4 * b.mantissa + 2) * up
  let inside (n : Nat) : Bool :=
    if b.mantissa % 2 = 0 then low ≤ n * unit && n * unit ≤ high else low < n * unit && n * unit < high
  let below := value / unit
  let above := below + 1
  match inside below, inside above with
  | true, true => some ⟨if 2 * value < (below + above) * unit then below else above, e⟩
  | true, false => some ⟨below, e⟩
  | false, true => some ⟨above, e⟩
  | false, false => none

/-- The shortest digits that read back, found on the coarsest grid that holds some. -/
def shortest (b : Binary) : Digits :=
  ((List.range 640).findSome? fun (k : Nat) => onGrid b (310 - (k : Int))).getD ⟨0, 0⟩

/-- The sign of a number and, where it is finite, its digits. -/
inductive Parts where
  | notNumber
  | infinite (negative : Bool)
  | finite (negative : Bool) (digits : Digits)
  deriving DecidableEq, Repr

/-- The parts of a number; zero has the single digit `0`. -/
def Parts.of (x : Float) : Parts :=
  let bits := x.toBits
  let negative := bits.toNat / 0x8000000000000000 = 1
  let size := UInt64.ofNat (bits.toNat % 0x8000000000000000)
  if x.isNaN then .notNumber
  else if x.isInf then .infinite negative
  else if size = 0 then .finite negative ⟨0, 0⟩
  else .finite negative (shortest (Binary.ofBits size))

/-- Positional text of digits scaled by a power of ten, without an exponent. -/
def positional (d : Digits) : String :=
  let ds := Nat.toDigits 10 d.digits
  if 0 ≤ d.exponent then String.ofList (ds ++ List.replicate d.exponent.toNat '0')
  else
    let places := (-d.exponent).toNat
    if places < ds.length then
      String.ofList (ds.take (ds.length - places) ++ '.' :: ds.drop (ds.length - places))
    else String.ofList ('0' :: '.' :: List.replicate (places - ds.length) '0' ++ ds)

/-- A number in a message: shortest digits, never an exponent, no trailing `.0`. -/
def display (x : Float) : String :=
  match Parts.of x with
  | .notNumber => "NaN"
  | .infinite negative => if negative then "-inf" else "inf"
  | .finite negative d => (if negative then "-" else "") ++ positional d

/-- A finite number in a JSON text. -/
def compact (x : Float) : String :=
  match Parts.of x with
  | .notNumber => "null"
  | .infinite _ => "null"
  | .finite negative d =>
    let ds := Nat.toDigits 10 d.digits
    let point := (ds.length : Int) + d.exponent
    let body :=
      if d.digits = 0 then "0.0"
      else if 0 ≤ d.exponent ∧ point ≤ 16 then positional d ++ ".0"
      else if -5 < point ∧ point ≤ 16 then positional d
      else
        let tail := if ds.length = 1 then [] else '.' :: ds.drop 1
        String.ofList (ds.take 1 ++ tail) ++ "e" ++ toString (point - 1)
    (if negative then "-" else "") ++ body

/-- The number written by decimal digits, as a value of base ten. -/
def natOfDigits (ds : List Char) : Nat := ds.foldl (fun n c => 10 * n + (c.toNat - 48)) 0

/-- The number nearest to `digits * 10 ^ exponent`. -/
def nearest (digits : Nat) (exponent : Int) : Float :=
  if 400 < exponent ∧ digits ≠ 0 then 1.0 / 0.0
  else if exponent < -400 - (Nat.toDigits 10 digits).length then 0.0
  else Float.ofScientific digits (exponent < 0) exponent.natAbs

/-- The exponent that follows the mark `e`, if the text is well formed. -/
def exponent? : List Char → Option Int
  | [] => some 0
  | c :: r =>
    if c = 'e' ∨ c = 'E' then
      let (negative, ds) := match r with
        | '-' :: t => (true, t)
        | '+' :: t => (false, t)
        | t => (false, t)
      if ds.isEmpty || !ds.all Char.isDigit then none
      else
        let n := min (natOfDigits ds) 100000
        some (if negative then -(n : Int) else n)
    else none

/-- Reads unsigned decimal text. -/
def readUnsigned? (cs : List Char) : Option Float :=
  let whole := cs.takeWhile Char.isDigit
  let rest := cs.dropWhile Char.isDigit
  let (fraction, rest) := match rest with
    | '.' :: t => (t.takeWhile Char.isDigit, t.dropWhile Char.isDigit)
    | t => ([], t)
  if whole.isEmpty && fraction.isEmpty then
    let word := cs.map Char.toLower
    if word = "inf".toList ∨ word = "infinity".toList then some (1.0 / 0.0)
    else if word = "nan".toList then some (0.0 / 0.0)
    else none
  else (exponent? rest).map fun e => nearest (natOfDigits (whole ++ fraction)) (e - fraction.length)

/-- Reads decimal text with an optional sign to the nearest number. -/
def read? (s : String) : Option Float :=
  match s.toList with
  | '-' :: r => (readUnsigned? r).map fun x => -x
  | '+' :: r => readUnsigned? r
  | r => readUnsigned? r

/-- The sixteen hexadecimal digits of the bits of a number. -/
def bitsText (x : Float) : String :=
  let ds := Nat.toDigits 16 x.toBits.toNat
  String.ofList (List.replicate (16 - ds.length) '0' ++ ds)

end OrderKeeper.Decimal
