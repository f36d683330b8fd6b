import OrderKeeper.Digest.Sha256

/-!
# Keys from passwords

Two ways to derive a key from a password and a salt, both slow on purpose: one repeats a message code, the other fills
and rereads a large memory as well.
-/

namespace OrderKeeper.Stretch

/-- Adds up `n` further codes, each of the one before. -/
def repeatCode (password : Bytes) : Nat → Bytes → Bytes → Bytes
  | 0, _, sum => sum
  | n + 1, last, sum =>
    let next := Sha256.code password last
    repeatCode password n next (List.zipWith (· ^^^ ·) sum next)

/-- Block number `i` of a key, counted from one. -/
def block (password salt : Bytes) (count i : Nat) : Bytes :=
  let first := Sha256.code password (salt ++ Bytes.ofNat 4 i)
  repeatCode password (count - 1) first first

/-- A key of `length` bytes by repetition. -/
def repetition (password salt : Bytes) (count length : Nat) : Bytes :=
  ((List.range ((length + 31) / 32)).flatMap fun i => block password salt count (i + 1)).take length

/-! ## Filling memory -/

/-- Rotation of a word to the left. -/
def rotl (w : UInt32) (k : UInt32) : UInt32 := (w <<< k) ||| (w >>> (32 - k))

/-- One step of the core: adds to a word the rotated sum of two others. -/
def mixStep (a : Array UInt32) (target left right : Nat) (k : UInt32) : Array UInt32 :=
  a.modify target (· ^^^ rotl (a.getD left 0 + a.getD right 0) k)

/-- A quarter round over four words. -/
def quarter (a : Array UInt32) (i j k l : Nat) : Array UInt32 :=
  let a := mixStep a j i l 7
  let a := mixStep a k j i 9
  let a := mixStep a l k j 13
  mixStep a i l k 18

/-- A round over the columns and one over the rows. -/
def doubleRound (a : Array UInt32) : Array UInt32 :=
  let a := quarter (quarter (quarter (quarter a 0 4 8 12) 5 9 13 1) 10 14 2 6) 15 3 7 11
  quarter (quarter (quarter (quarter a 0 1 2 3) 5 6 7 4) 10 11 8 9) 15 12 13 14

/-- The core: eight rounds, added to the input. -/
def core (a : Array UInt32) : Array UInt32 :=
  let b := doubleRound (doubleRound (doubleRound (doubleRound a)))
  Array.ofFn (n := 16) fun i => a.getD i 0 + b.getD i 0

/-- Adds word arrays. -/
def add (a b : Array UInt32) : Array UInt32 := Array.zipWith (· ^^^ ·) a b

/-- Chains the core over the pieces of sixteen words in a memory block, from piece `i` on. -/
def chain (b : Array UInt32) : Nat → Nat → Array UInt32 → List (Array UInt32)
  | 0, _, _ => []
  | n + 1, i, x =>
    let x := core (add x (b.extract (16 * i) (16 * i + 16)))
    x :: chain b n (i + 1) x

/-- The elements at even places, then those at odd places. -/
def unshuffle {α : Type} : List α → List α × List α
  | [] => ([], [])
  | a :: rest => let (evens, odds) := unshuffle rest; (a :: odds, evens)

/-- Mixes a memory block of `2 * r` pieces. -/
def mixBlock (r : Nat) (b : Array UInt32) : Array UInt32 :=
  let pieces := chain b (2 * r) 0 (b.extract (16 * (2 * r - 1)) (32 * r))
  let (evens, odds) := unshuffle pieces
  (evens ++ odds).foldl (· ++ ·) #[]

/-- Fills the memory with `n` blocks; gives them and the block after them. -/
def fill (r : Nat) : Nat → Array UInt32 → Array (Array UInt32) → Array (Array UInt32) × Array UInt32
  | 0, x, memory => (memory, x)
  | n + 1, x, memory => fill r n (mixBlock r x) (memory.push x)

/-- Rereads the memory in `k` places that the blocks themselves choose. -/
def reread (r n : Nat) (memory : Array (Array UInt32)) : Nat → Array UInt32 → Array UInt32
  | 0, x => x
  | k + 1, x =>
    let last := 16 * (2 * r - 1)
    let place := ((x.getD last 0).toNat + UInt32.size * (x.getD (last + 1) 0).toNat) % n
    reread r n memory k (mixBlock r (add x (memory.getD place #[])))

/-- The words of a byte string, least significant byte first. -/
def words : Nat → Bytes → List UInt32
  | 0, _ => []
  | k + 1, bs => UInt32.ofNat (Bytes.toNat (bs.take 4).reverse) :: words k (bs.drop 4)

/-- Mixes `128 * r` bytes through a memory of `n` blocks. -/
def throughMemory (r n : Nat) (bs : Bytes) : Bytes :=
  let (memory, x) := fill r n (words (32 * r) bs).toArray #[]
  (reread r n memory n x).toList.flatMap fun w => (Bytes.ofNat 4 w.toNat).reverse

/-- Splits a string into `k` parts of a length. -/
def parts (length : Nat) : Nat → Bytes → List Bytes
  | 0, _ => []
  | k + 1, bs => bs.take length :: parts length k (bs.drop length)

/-- A key of `length` bytes through a memory of `n` blocks of `128 * r` bytes, `p` times. -/
def memory (password salt : Bytes) (n r p length : Nat) : Bytes :=
  let filled := (parts (128 * r) p (repetition password salt 1 (128 * r * p))).flatMap (throughMemory r n)
  repetition password filled 1 length

end OrderKeeper.Stretch
