import OrderKeeper.Abi

/-!
# Types of call data

A type says which values may stand at a place of call data, and how they are read there. Reading goes by the types alone:
a number has to be in the range of its type, an offset is followed from the start of its tuple to wherever it points, and
what follows the bytes of a byte string is not looked at.
-/

namespace OrderKeeper.Abi

/-- The type of a value. -/
inductive Kind where
  /-- A number below `2 ^ bits`. -/
  | uint (bits : Nat)
  | bytes
  | array (element : Kind)
  | tuple (parts : List Kind)

namespace Kind

/-- The type of addresses. -/
def address : Kind := .uint 160

/-- The type of truth values. -/
def bool : Kind := .uint 1

end Kind

mutual

/-- Whether a value is of the type; no tuple is empty. -/
def Kind.admits : Kind → Value → Bool
  | .uint bits, .word w => w.toNat < Nat.pow 2 bits
  | .bytes, .bytes _ => true
  | .array k, .array vs => vs.all fun v => k.admits v
  | .tuple ks, .tuple vs => !vs.isEmpty && admitsAll ks vs
  | _, _ => false

/-- Whether values are of the types, one by one. -/
def admitsAll : List Kind → List Value → Bool
  | [], [] => true
  | k :: ks, v :: vs => k.admits v && admitsAll ks vs
  | _, _ => false

end

/-! ## Reading -/

/-- How the values of a type are read. -/
structure Reader where
  isDynamic : Bool
  /-- The bytes that a value takes in the head of its tuple. -/
  width : Nat
  /-- Reads the value with whose encoding the data begins. -/
  read : Bytes → Option Value

/-- The number in the 32 bytes at an offset. -/
def word? (data : Bytes) (offset : Nat) : Option Nat :=
  if offset + 32 ≤ data.length then some (Bytes.toNat ((data.drop offset).take 32)) else none

/-- Reads the parts of the tuple with whose encoding the data begins; their heads are at an offset. -/
def readParts (data : Bytes) : Nat → List Reader → Option (List Value)
  | _, [] => some []
  | offset, r :: rs => do
    let start ← if r.isDynamic then word? data offset else some offset
    let v ← r.read (data.drop start)
    let vs ← readParts data (offset + r.width) rs
    return v :: vs

/-- The bytes that the heads of several parts take. -/
def headWidth : List Reader → Nat
  | [] => 0
  | r :: rs => r.width + headWidth rs

/-- Reads a tuple of what the readers of its parts read. -/
def Reader.tuple (rs : List Reader) : Reader where
  isDynamic := rs.any Reader.isDynamic
  width := if rs.any Reader.isDynamic then 32 else headWidth rs
  read data := (readParts data 0 rs).map .tuple

mutual

/-- How the values of a type are read. -/
def Kind.reader : Kind → Reader
  | .uint bits => ⟨false, 32, fun data => do
      let n ← word? data 0
      if n < Nat.pow 2 bits then some (.nat n) else none⟩
  | .bytes => ⟨true, 32, fun data => do
      let n ← word? data 0
      if 32 + n ≤ data.length then some (.bytes ((data.drop 32).take n)) else none⟩
  | .array k => ⟨true, 32, fun data => do
      let n ← word? data 0
      -- No more elements are read than there is room for.
      if n * k.reader.width ≤ data.length then
        (readParts (data.drop 32) 0 (List.replicate n k.reader)).map .array
      else none⟩
  | .tuple ks => .tuple (readers ks)

/-- How the values of several types are read. -/
def readers : List Kind → List Reader
  | [] => []
  | k :: ks => k.reader :: readers ks

end

/-- The values of the types that are encoded as a parameter list. -/
def decode? (ks : List Kind) (data : Bytes) : Option (List Value) := readParts data 0 (readers ks)

/-- The arguments of a call of a function. -/
def arguments? (signature : String) (ks : List Kind) (data : Bytes) : Option (List Value) :=
  if data.take 4 = selector signature then decode? ks (data.drop 4) else none

end OrderKeeper.Abi
