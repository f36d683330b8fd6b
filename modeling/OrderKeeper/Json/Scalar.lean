import OrderKeeper.Json.Record
import OrderKeeper.Json.Number
import OrderKeeper.Text.Hex

/-!
# Scalars in JSON

The JSON forms of numbers, texts, addresses, hashes, contract words and byte strings.
-/

namespace OrderKeeper.Json

/-- A text. -/
def string : Decoder String
  | .str s => .ok s
  | _ => .error .malformed

/-- A truth value. -/
def boolean : Decoder Bool
  | .bool b => .ok b
  | _ => .error .malformed

/-- An integer from 0 to `bound - 1`. -/
def natBelow (bound : Nat) : Decoder Nat
  | .int n => if 0 ≤ n ∧ n < bound then .ok n.toNat else .error .malformed
  | _ => .error .malformed

/-- An unsigned integer of 8 bits. -/
def uint8 : Decoder UInt8 := fun v => (natBelow UInt8.size v).map UInt8.ofNat

/-- An unsigned integer of 16 bits. -/
def uint16 : Decoder UInt16 := fun v => (natBelow UInt16.size v).map UInt16.ofNat

/-- An unsigned integer of 32 bits. -/
def uint32 : Decoder UInt32 := fun v => (natBelow UInt32.size v).map UInt32.ofNat

/-- An unsigned integer of 64 bits. -/
def uint64 : Decoder UInt64 := fun v => (natBelow UInt64.size v).map UInt64.ofNat

/-- An amount of wei. -/
def wei : Decoder Wei := fun v => (natBelow Wei.size v).map (BitVec.ofNat 128)

/-- A signed integer of 64 bits. -/
def int64 : Decoder Int64
  | .int n => if -0x8000000000000000 ≤ n ∧ n < 0x8000000000000000 then .ok (Int64.ofInt n) else .error .malformed
  | _ => .error .malformed

/-- A number, from any number. -/
def float : Decoder Float
  | .int n => match Number.realOfInt? n with
    | some x => .ok x
    | none => .error .malformed
  | .real x => .ok x
  | _ => .error .malformed

/-- A list of values. -/
def list {α : Type} (decode : Decoder α) : Decoder (List α)
  | .arr xs => xs.mapM decode
  | _ => .error .malformed

/-- An optional value, absent as null. -/
def nullable {α : Type} (decode : Decoder α) : Decoder (Option α)
  | .null => .ok none
  | v => (decode v).map some

/-- A byte string: hexadecimal text or an array of numbers. -/
def bytes : Decoder Bytes
  | .str s => match Hex.bytes? s with
    | some bs => .ok bs
    | none => .error .malformed
  | .arr xs => xs.mapM uint8
  | _ => .error .malformed

/-- A byte string of exactly `n` bytes. -/
def fixedBytes (n : Nat) : Decoder Bytes := fun v => do
  let bs ← bytes v
  if bs.length = n then .ok bs else .error .malformed

/-- The address that a text of forty hexadecimal digits writes. -/
def addressOfText? (s : String) : Option Address :=
  (Hex.fixed? 20 s).map fun bs => BitVec.ofNat 160 (Bytes.toNat bs)

/-- An address. -/
def address : Decoder Address := fun v => (fixedBytes 20 v).map fun bs => BitVec.ofNat 160 (Bytes.toNat bs)

/-- A hash. -/
def hash : Decoder Hash := fun v => (fixedBytes 32 v).map fun bs => BitVec.ofNat 256 (Bytes.toNat bs)

/-- The value of a digit or letter, `10` for `a` of either case. -/
def digitValue? (c : Char) : Option Nat :=
  if '0' ≤ c ∧ c ≤ '9' then some (c.toNat - 48)
  else if 'a' ≤ c ∧ c ≤ 'z' then some (c.toNat - 87)
  else if 'A' ≤ c ∧ c ≤ 'Z' then some (c.toNat - 55)
  else none

/-- Reads digits of a base onto `n`; underscores are skipped. -/
def digitsOfBase? (base : Nat) : Nat → List Char → Option Nat
  | n, [] => some n
  | n, c :: r =>
    if c = '_' then digitsOfBase? base n r
    else
      match digitValue? c with
      | some d => if d < base then digitsOfBase? base (n * base + d) r else none
      | none => none

/-- Reads a number in the base that its mark names, decimal without one. -/
def natOfText? : List Char → Option Nat
  | '0' :: 'x' :: r => digitsOfBase? 16 0 r
  | '0' :: 'X' :: r => digitsOfBase? 16 0 r
  | '0' :: 'o' :: r => digitsOfBase? 8 0 r
  | '0' :: 'O' :: r => digitsOfBase? 8 0 r
  | '0' :: 'b' :: r => digitsOfBase? 2 0 r
  | '0' :: 'B' :: r => digitsOfBase? 2 0 r
  | r => digitsOfBase? 10 0 r

/-- A quantity below `bound`: an integer of 64 bits or text in one of four bases. -/
def quantityBelow (bound : Nat) : Decoder Nat
  | .int n => if 0 ≤ n ∧ n < UInt64.size ∧ n < bound then .ok n.toNat else .error .malformed
  | .str s => match natOfText? s.toList with
    | some n => if n < bound then .ok n else .error .malformed
    | none => .error .malformed
  | _ => .error .malformed

/-- A contract word. -/
def word : Decoder Word := fun v => (quantityBelow Word.size v).map (BitVec.ofNat 256)

/-- One of several names: the name itself, or an object with that name as its only member, whose value is nothing. -/
def name {α : Type} (isNothing : Json → Bool) (cases : List (String × α)) : Decoder α
  | .str s => match cases.lookup s with
    | some a => .ok a
    | none => .error (.unknownVariant s (cases.map (·.1)))
  | .obj [(s, v)] => match cases.lookup s with
    | some a => if isNothing v then .ok a else .error .malformed
    | none => .error (.unknownVariant s (cases.map (·.1)))
  | _ => .error .malformed

/-- Whether a value is null. -/
def isNull : Json → Bool
  | .null => true
  | _ => false

/-- Whether a value is null or an object without members. -/
def isVoid : Json → Bool
  | .null => true
  | .obj [] => true
  | _ => false

/-- An address in lower-case hexadecimal. -/
def ofAddress (a : Address) : Json := .str (Hex.text a.bytes)

/-- A hash in lower-case hexadecimal. -/
def ofHash (h : Hash) : Json := .str (Hex.text (Word.bytes h))

/-- A contract word as the shortest hexadecimal quantity. -/
def ofWord (w : Word) : Json := .str (Hex.quantity w.toNat)

/-- A byte string in lower-case hexadecimal. -/
def ofBytes (bs : Bytes) : Json := .str (Hex.text bs)

/-- An unsigned integer of 64 bits. -/
def ofUInt64 (n : UInt64) : Json := .nat n.toNat

/-- An unsigned integer of 32 bits. -/
def ofUInt32 (n : UInt32) : Json := .nat n.toNat

end OrderKeeper.Json
