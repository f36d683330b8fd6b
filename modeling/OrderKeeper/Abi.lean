import OrderKeeper.Digest.Keccak

/-!
# Contract call data

The encoding of arguments of a contract call. A value of fixed size stands in the head of its tuple; any other leaves its
offset there, counted from the start of the tuple, and stands in the tail.
-/

namespace OrderKeeper.Abi

/-- A value that can be passed to a contract. -/
inductive Value where
  /-- A number, an address or a truth value. -/
  | word (w : Word)
  | bytes (bs : Bytes)
  | array (vs : List Value)
  | tuple (vs : List Value)

/-- A number as a word. -/
def Value.nat (n : Nat) : Value := .word (BitVec.ofNat 256 n)

/-- An address as a word. -/
def Value.address (a : Address) : Value := .nat a.toNat

/-- A truth value as a word. -/
def Value.bool (b : Bool) : Value := .nat b.toNat

/-- A word of 32 bytes. -/
def wordBytes (n : Nat) : Bytes := Bytes.ofNat 32 n

/-- The bytes followed by zeros up to a multiple of 32. -/
def padded (bs : Bytes) : Bytes := bs ++ List.replicate ((32 - bs.length % 32) % 32) 0

/-- The size of the heads of the parts of a tuple. -/
def headSize : List (Bool × Bytes) → Nat
  | [] => 0
  | (true, _) :: rest => 32 + headSize rest
  | (false, bs) :: rest => bs.length + headSize rest

/-- Joins the parts of a tuple: each part is the encoding of a value, with whether it goes to the tail. -/
def layout (parts : List (Bool × Bytes)) : Bytes :=
  let rec heads : Nat → List (Bool × Bytes) → Bytes
    | _, [] => []
    | offset, (true, bs) :: rest => wordBytes offset ++ heads (offset + bs.length) rest
    | offset, (false, bs) :: rest => bs ++ heads offset rest
  heads (headSize parts) parts ++ parts.flatMap fun (dynamic, bs) => if dynamic then bs else []

mutual

/-- Whether the size of the encoding depends on the value. -/
def Value.isDynamic : Value → Bool
  | .word _ => false
  | .bytes _ => true
  | .array _ => true
  | .tuple vs => anyDynamic vs

/-- Whether the size of one of several encodings depends on the value. -/
def anyDynamic : List Value → Bool
  | [] => false
  | v :: vs => v.isDynamic || anyDynamic vs

end

mutual

/-- The encoding of a value. -/
def Value.encode : Value → Bytes
  | .word w => wordBytes w.toNat
  | .bytes bs => wordBytes bs.length ++ padded bs
  | .array vs => wordBytes vs.length ++ layout (parts vs)
  | .tuple vs => layout (parts vs)

/-- The encodings of several values, each with whether it goes to the tail. -/
def parts : List Value → List (Bool × Bytes)
  | [] => []
  | v :: vs => (v.isDynamic, v.encode) :: parts vs

end

/-- The four bytes that name a function, from its name and the types of its arguments. -/
def selector (signature : String) : Bytes := (Keccak.digest signature.toUTF8.toList).take 4

/-- The data of a call with arguments. -/
def call (signature : String) (arguments : List Value) : Bytes :=
  selector signature ++ (Value.tuple arguments).encode

end OrderKeeper.Abi
