import OrderKeeper.Signing.Key
import OrderKeeper.Text.Blank
import OrderKeeper.Text.Hex

/-!
# Keys as text

A key is written as 64 hexadecimal digits, with or without the mark `0x`, and with white space around it. What is wrong is
told in a fixed order: an odd number of digits, a wrong number of them, the first character that is no digit, a number
out of range. Characters count by their bytes.
-/

namespace OrderKeeper.SigningKey

/-- What can be wrong with the text of a key. -/
inductive Unreadable where
  | oddDigits
  | wrongLength
  /-- A byte that is no digit, and its place among the digits. -/
  | strangeByte (byte : UInt8) (place : Nat)
  | outOfRange
  deriving DecidableEq, Repr

/-- The wording. A byte is shown as the character of its number. -/
def Unreadable.message : Unreadable → String
  | oddDigits => "odd number of digits"
  | wrongLength => "invalid string length"
  | strangeByte b i =>
    "invalid character '" ++ String.singleton (Char.ofNat b.toNat) ++ "' at position " ++ toString i
  | outOfRange => "signature error"

/-- The key of a byte string, which may lack up to eight zeros in front. -/
def ofBytes (bs : Bytes) : Except Unreadable SigningKey :=
  if bs.length < 24 ∨ 32 < bs.length then .error .outOfRange
  else match ofNat? (Bytes.toNat bs) with
    | some k => .ok k
    | none => .error .outOfRange

/-- The first byte that is no digit, and its place. -/
def strangeByte? (digits : Bytes) : Option (UInt8 × Nat) :=
  digits.zipIdx.find? fun (b, _) => (Hex.value? (Char.ofNat b.toNat)).isNone

/-- Reads a key. -/
def ofText (s : String) : Except Unreadable SigningKey :=
  let digits := (String.ofList (Hex.stripMark (trimBlank s.toList))).toUTF8.toList
  if digits.length % 2 ≠ 0 then .error .oddDigits
  else if digits.length ≠ 64 then .error .wrongLength
  else
    match strangeByte? digits with
    | some (b, i) => .error (.strangeByte b i)
    | none =>
      match Hex.decode? (digits.map fun b => Char.ofNat b.toNat) with
      | some bs => ofBytes bs
      | none => .error .wrongLength

end OrderKeeper.SigningKey
