import OrderKeeper.Word

/-!
# SHA-256

The digest of 32 bytes over blocks of 64 bytes, and the message code that is made from it with a key.
-/

namespace OrderKeeper.Sha256

/-- Rotation of a word to the right. -/
def rotr (w : UInt32) (k : UInt32) : UInt32 := (w >>> k) ||| (w <<< (32 - k))

/-- The constants of the 64 rounds: the first bits of the cube roots of the first primes. -/
def roundConstants : Array UInt32 := #[
   0x428a2f98, 0x71374491, 0xb5c0fbcf, 0xe9b5dba5, 0x3956c25b, 0x59f111f1, 0x923f82a4, 0xab1c5ed5,
   0xd807aa98, 0x12835b01, 0x243185be, 0x550c7dc3, 0x72be5d74, 0x80deb1fe, 0x9bdc06a7, 0xc19bf174,
   0xe49b69c1, 0xefbe4786, 0x0fc19dc6, 0x240ca1cc, 0x2de92c6f, 0x4a7484aa, 0x5cb0a9dc, 0x76f988da,
   0x983e5152, 0xa831c66d, 0xb00327c8, 0xbf597fc7, 0xc6e00bf3, 0xd5a79147, 0x06ca6351, 0x14292967,
   0x27b70a85, 0x2e1b2138, 0x4d2c6dfc, 0x53380d13, 0x650a7354, 0x766a0abb, 0x81c2c92e, 0x92722c85,
   0xa2bfe8a1, 0xa81a664b, 0xc24b8b70, 0xc76c51a3, 0xd192e819, 0xd6990624, 0xf40e3585, 0x106aa070,
   0x19a4c116, 0x1e376c08, 0x2748774c, 0x34b0bcb5, 0x391c0cb3, 0x4ed8aa4a, 0x5b9cca4f, 0x682e6ff3,
   0x748f82ee, 0x78a5636f, 0x84c87814, 0x8cc70208, 0x90befffa, 0xa4506ceb, 0xbef9a3f7, 0xc67178f2]

/-- The initial state: the first bits of the square roots of the first primes. -/
def start : Array UInt32 := #[
   0x6a09e667, 0xbb67ae85, 0x3c6ef372, 0xa54ff53a, 0x510e527f, 0x9b05688c, 0x1f83d9ab, 0x5be0cd19]

/-- The word at an index; absent words are zero. -/
def word (a : Array UInt32) (i : Nat) : UInt32 := a.getD i 0

/-- The words of a block, most significant byte first. -/
def blockWords : Nat → Bytes → List UInt32
  | 0, _ => []
  | k + 1, bs => UInt32.ofNat (Bytes.toNat (bs.take 4)) :: blockWords k (bs.drop 4)

/-- Extends the sixteen words of a block to the words of all rounds. -/
def schedule (block : Bytes) : Array UInt32 :=
  (List.range 48).foldl (fun w i =>
    let a := word w (i + 1)
    let b := word w (i + 14)
    let s := rotr a 7 ^^^ rotr a 18 ^^^ (a >>> 3)
    let t := rotr b 17 ^^^ rotr b 19 ^^^ (b >>> 10)
    w.push (word w i + s + word w (i + 9) + t)) (blockWords 16 block).toArray

/-- One round over the eight words of the state. -/
def round (s : Array UInt32) (k w : UInt32) : Array UInt32 :=
  let e := word s 4
  let a := word s 0
  let mixed := (e &&& word s 5) ^^^ ((e ^^^ 0xffffffff) &&& word s 6)
  let t := word s 7 + (rotr e 6 ^^^ rotr e 11 ^^^ rotr e 25) + mixed + k + w
  let majority := (a &&& word s 1) ^^^ (a &&& word s 2) ^^^ (word s 1 &&& word s 2)
  let u := (rotr a 2 ^^^ rotr a 13 ^^^ rotr a 22) + majority
  #[t + u, a, word s 1, word s 2, word s 3 + t, e, word s 5, word s 6]

/-- Takes one block into the state. -/
def absorb (s : Array UInt32) (block : Bytes) : Array UInt32 :=
  let w := schedule block
  let t := (List.range 64).foldl (fun t i => round t (word roundConstants i) (word w i)) s
  Array.ofFn (n := 8) fun i => word s i + word t i

/-- The message, a one bit, zeros, and the length in bits, up to a multiple of 64 bytes. -/
def pad (msg : Bytes) : Bytes :=
  msg ++ 0x80 :: List.replicate ((119 - msg.length % 64) % 64) 0 ++ Bytes.ofNat 8 (8 * msg.length)

/-- Splits a string into `k` blocks. -/
def blocks : Nat → Bytes → List Bytes
  | 0, _ => []
  | k + 1, bs => bs.take 64 :: blocks k (bs.drop 64)

/-- The digest of a message. -/
def digest (msg : Bytes) : Bytes :=
  let padded := pad msg
  let s := (blocks (padded.length / 64) padded).foldl absorb start
  s.toList.flatMap fun w => Bytes.ofNat 4 w.toNat

/-- The key of a message code, brought to the length of a block. -/
def blockKey (key : Bytes) : Bytes :=
  let key := if 64 < key.length then digest key else key
  key ++ List.replicate (64 - key.length) 0

/-- The code of a message under a key. -/
def code (key msg : Bytes) : Bytes :=
  let key := blockKey key
  digest (key.map (· ^^^ 0x5c) ++ digest (key.map (· ^^^ 0x36) ++ msg))

end OrderKeeper.Sha256
