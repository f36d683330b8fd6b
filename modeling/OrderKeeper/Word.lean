/-!
# Words and byte strings

The fixed-width values of the domain and their big-endian bytes.

- `Bytes.ofNat w n` writes `n` in exactly `w` bytes (`length_ofNat`), most significant first; reading the bytes back
  gives `n` modulo `256 ^ w` (`toNat_ofNat`).
- Amounts of wei saturate at the top of their range instead of wrapping (`Wei.toNat_satAdd`, `Wei.toNat_satMul`).
-/

namespace OrderKeeper

/-- A string of bytes, first byte first. -/
abbrev Bytes := List UInt8

/-- The address of an account or a contract. -/
abbrev Address := BitVec 160

/-- The hash of a transaction. -/
abbrev Hash := BitVec 256

/-- An unsigned word of the contract's machine. -/
abbrev Word := BitVec 256

/-- A price or an amount in wei. -/
abbrev Wei := BitVec 128

/-- The number of words. -/
abbrev Word.size : Nat := 0x10000000000000000000000000000000000000000000000000000000000000000

/-- The number of amounts. -/
abbrev Wei.size : Nat := 0x100000000000000000000000000000000

namespace Bytes

/-- The `w` low-order bytes of `n`, most significant first. -/
def ofNat : Nat → Nat → Bytes
  | 0, _ => []
  | w + 1, n => ofNat w (n / 256) ++ [UInt8.ofNat n]

/-- The number that the bytes write, most significant first. -/
def toNat (bs : Bytes) : Nat := bs.foldl (fun acc b => acc * 256 + b.toNat) 0

/-- The bytes of `n` without leading zero bytes; zero has none. -/
def minimal (n : Nat) : Bytes :=
  if _h : n = 0 then [] else minimal (n / 256) ++ [UInt8.ofNat n]
termination_by n
decreasing_by omega

@[simp] theorem length_ofNat (w n : Nat) : (ofNat w n).length = w := by
  induction w generalizing n with
  | zero => rfl
  | succ w ih => simp [ofNat, ih]

theorem toNat_append_singleton (bs : Bytes) (b : UInt8) : toNat (bs ++ [b]) = toNat bs * 256 + b.toNat := by
  simp [toNat]

theorem toNat_ofNat (w n : Nat) : toNat (ofNat w n) = n % Nat.pow 256 w := by
  induction w generalizing n with
  | zero => simp [ofNat, toNat, Nat.mod_one]
  | succ w ih =>
    have hp : Nat.pow 256 (w + 1) = 256 * Nat.pow 256 w := by rw [Nat.pow_eq, Nat.pow_succ, Nat.mul_comm]; rfl
    rw [ofNat, toNat_append_singleton, ih, UInt8.toNat_ofNat', hp, Nat.mod_mul]
    omega

end Bytes

namespace Wei

/-- The largest amount. -/
def top : Wei := BitVec.ofNat 128 (size - 1)

/-- The amount nearest to `n`. -/
def saturate (n : Nat) : Wei := BitVec.ofNat 128 (min n (size - 1))

/-- Addition that stops at the largest amount. -/
def satAdd (a b : Wei) : Wei := saturate (a.toNat + b.toNat)

/-- Multiplication that stops at the largest amount. -/
def satMul (a : Wei) (k : Nat) : Wei := saturate (a.toNat * k)

theorem toNat_saturate (n : Nat) : (saturate n).toNat = min n (size - 1) := by
  rw [saturate, BitVec.toNat_ofNat]
  exact Nat.mod_eq_of_lt (by simp only [size]; omega)

theorem toNat_satAdd (a b : Wei) : (satAdd a b).toNat = min (a.toNat + b.toNat) (size - 1) :=
  toNat_saturate _

theorem toNat_satMul (a : Wei) (k : Nat) : (satMul a k).toNat = min (a.toNat * k) (size - 1) :=
  toNat_saturate _

end Wei

/-- The bytes of an address. -/
def Address.bytes (a : Address) : Bytes := Bytes.ofNat 20 a.toNat

/-- The bytes of a hash or of a contract word. -/
def Word.bytes (w : Word) : Bytes := Bytes.ofNat 32 w.toNat

end OrderKeeper
