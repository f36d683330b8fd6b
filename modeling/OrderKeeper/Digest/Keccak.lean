import OrderKeeper.Word

/-!
# Keccak-256

The sponge of rate 136 over the permutation of 1600 bits, where a single one bit follows the message. Lanes are
64-bit words; lane `(x, y)` stands at index `x + 5 * y`.
-/

namespace OrderKeeper.Keccak

/-- The lanes of the state. -/
abbrev Lanes := Array UInt64

/-- The lane at an index; absent lanes are zero. -/
def lane (a : Lanes) (i : Nat) : UInt64 := a.getD i 0

/-- Rotation of a word to the left. -/
def rotl (w : UInt64) (k : Nat) : UInt64 :=
  if k % 64 = 0 then w else (w <<< UInt64.ofNat (k % 64)) ||| (w >>> UInt64.ofNat (64 - k % 64))

/-- The constants of the 24 rounds. -/
def roundConstants : List UInt64 :=
  [0x0000000000000001, 0x0000000000008082, 0x800000000000808a, 0x8000000080008000,
   0x000000000000808b, 0x0000000080000001, 0x8000000080008081, 0x8000000000008009,
   0x000000000000008a, 0x0000000000000088, 0x0000000080008009, 0x000000008000000a,
   0x000000008000808b, 0x800000000000008b, 0x8000000000008089, 0x8000000000008003,
   0x8000000000008002, 0x8000000000000080, 0x000000000000800a, 0x800000008000000a,
   0x8000000080008081, 0x8000000000008080, 0x0000000080000001, 0x8000000080008008]

/-- The rotation of each lane. -/
def rotations : Array Nat :=
  #[0, 1, 62, 28, 27, 36, 44, 6, 55, 20, 3, 10, 43, 25, 39, 41, 45, 15, 21, 8, 18, 2, 61, 56, 14]

/-- Adds to every lane the parities of two neighbouring columns. -/
def theta (a : Lanes) : Lanes :=
  let c := Array.ofFn (n := 5) fun x =>
    lane a x ^^^ lane a (x + 5) ^^^ lane a (x + 10) ^^^ lane a (x + 15) ^^^ lane a (x + 20)
  Array.ofFn (n := 25) fun i => lane a i ^^^ lane c ((i + 4) % 5) ^^^ rotl (lane c ((i + 1) % 5)) 1

/-- Rotates every lane and moves it to its new place. -/
def rhoPi (a : Lanes) : Lanes :=
  Array.ofFn (n := 25) fun i =>
    let x := i.val % 5
    let y := i.val / 5
    let source := (x + 3 * y) % 5 + 5 * x
    rotl (lane a source) (rotations.getD source 0)

/-- The nonlinear step along each row. -/
def chi (a : Lanes) : Lanes :=
  Array.ofFn (n := 25) fun i =>
    let row := 5 * (i.val / 5)
    lane a i ^^^ ((lane a (row + (i + 1) % 5) ^^^ 0xffffffffffffffff) &&& lane a (row + (i + 2) % 5))

/-- The permutation: 24 rounds. -/
def permute (a : Lanes) : Lanes :=
  roundConstants.foldl (fun a rc => (chi (rhoPi (theta a))).modify 0 (· ^^^ rc)) a

/-- The number that bytes write, least significant first. -/
def littleEndian (bs : Bytes) : UInt64 := bs.foldr (fun b acc => (acc <<< 8) ||| b.toUInt64) 0

/-- The lanes of one block of 136 bytes. -/
def blockLanes : Nat → Bytes → List UInt64
  | 0, _ => []
  | k + 1, bs => littleEndian (bs.take 8) :: blockLanes k (bs.drop 8)

/-- Adds one block to the state and permutes it. -/
def absorb (a : Lanes) (block : Bytes) : Lanes :=
  permute ((blockLanes 17 block).zipIdx.foldl (fun a (w, i) => a.modify i (· ^^^ w)) a)

/-- The message, the padding bits and zeros up to a multiple of the rate. -/
def pad (msg : Bytes) : Bytes :=
  match 135 - msg.length % 136 with
  | 0 => msg ++ [0x81]
  | k + 1 => msg ++ 0x01 :: List.replicate k 0 ++ [0x80]

/-- Splits a string into `k` blocks of the rate. -/
def blocks : Nat → Bytes → List Bytes
  | 0, _ => []
  | k + 1, bs => bs.take 136 :: blocks k (bs.drop 136)

/-- The eight bytes of a lane, least significant first. -/
def laneBytes (w : UInt64) : Bytes := (List.range 8).map fun i => (w >>> UInt64.ofNat (8 * i)).toUInt8

/-- The 32-byte digest of a message. -/
def digest (msg : Bytes) : Bytes :=
  let padded := pad msg
  let state := (blocks (padded.length / 136) padded).foldl absorb (Array.replicate 25 0)
  (List.range 4).flatMap fun i => laneBytes (lane state i)

/-- The digest as a word. -/
def hash (msg : Bytes) : Hash := BitVec.ofNat 256 (Bytes.toNat (digest msg))

end OrderKeeper.Keccak
