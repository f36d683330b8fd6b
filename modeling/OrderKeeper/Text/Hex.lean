import OrderKeeper.Word

/-!
# Hexadecimal

Bytes as pairs of hexadecimal digits. `encode` writes lower-case digits; `decode?` reads digits of either case and
refuses any other character and an odd number of digits. What is written is read back (`decode?_encode`).
-/

namespace OrderKeeper.Hex

/-- The digit of a number below sixteen. -/
def digit (n : Nat) : Char :=
  if n < 10 then Char.ofNat (48 + n) else Char.ofNat (87 + n)

/-- The value of a digit of either case. -/
def value? (c : Char) : Option Nat :=
  if '0' ≤ c ∧ c ≤ '9' then some (c.toNat - 48)
  else if 'a' ≤ c ∧ c ≤ 'f' then some (c.toNat - 87)
  else if 'A' ≤ c ∧ c ≤ 'F' then some (c.toNat - 55)
  else none

/-- Two lower-case digits for each byte. -/
def encode (bs : Bytes) : List Char :=
  bs.flatMap fun b => [digit (b.toNat / 16), digit (b.toNat % 16)]

/-- The bytes that pairs of digits write. -/
def decode? : List Char → Option Bytes
  | [] => some []
  | [_] => none
  | a :: b :: r => do
    let hi ← value? a
    let lo ← value? b
    return UInt8.ofNat (16 * hi + lo) :: (← decode? r)

/-- The text without a leading `0x` or `0X`. -/
def stripMark : List Char → List Char
  | '0' :: 'x' :: r => r
  | '0' :: 'X' :: r => r
  | r => r

/-- The bytes in hexadecimal after the mark `0x`. -/
def text (bs : Bytes) : String := String.ofList ('0' :: 'x' :: encode bs)

/-- Reads bytes in hexadecimal, with or without the mark. -/
def bytes? (s : String) : Option Bytes := decode? (stripMark s.toList)

/-- Reads exactly `n` bytes in hexadecimal, with or without the mark. -/
def fixed? (n : Nat) (s : String) : Option Bytes := do
  let bs ← bytes? s
  if bs.length = n then some bs else none

/-- The digits of `n` without leading zeros; zero is one digit. -/
def natDigits (n : Nat) : List Char :=
  if _h : n < 16 then [digit n] else natDigits (n / 16) ++ [digit (n % 16)]
termination_by n
decreasing_by omega

/-- A quantity: the shortest hexadecimal form of a number after the mark `0x`. -/
def quantity (n : Nat) : String := String.ofList ('0' :: 'x' :: natDigits n)

theorem value?_digit : ∀ n < 16, value? (digit n) = some n := by decide

theorem decode?_encode (bs : Bytes) : decode? (encode bs) = some bs := by
  induction bs with
  | nil => rfl
  | cons b r ih =>
    have hb : b.toNat < 256 := b.toNat_lt
    have h1 := value?_digit (b.toNat / 16) (by omega)
    have h2 := value?_digit (b.toNat % 16) (by omega)
    have hr : decode? (encode (b :: r)) = (do
        let hi ← value? (digit (b.toNat / 16))
        let lo ← value? (digit (b.toNat % 16))
        return UInt8.ofNat (16 * hi + lo) :: (← decode? (encode r))) := rfl
    rw [hr, h1, h2, ih]
    have hn : 16 * (b.toNat / 16) + b.toNat % 16 = b.toNat := by omega
    show some (UInt8.ofNat (16 * (b.toNat / 16) + b.toNat % 16) :: r) = some (b :: r)
    rw [hn, UInt8.ofNat_toNat]

end OrderKeeper.Hex
