import OrderKeeper.Digest.Keccak
import OrderKeeper.Text.Hex

/-!
# Addresses in messages

An address is shown with a checksum in the case of its letters: a letter is a capital where the digest of the lower-case
digits has a digit of at least eight.
-/

namespace OrderKeeper

/-- Raises each letter whose place in the digest has a value of at least eight. -/
def Address.applyChecksum : List Char → List Char → List Char
  | c :: cs, d :: ds => (if 8 ≤ (Hex.value? d).getD 0 then c.toUpper else c) :: applyChecksum cs ds
  | cs, _ => cs

/-- The address with its checksum. -/
def Address.display (a : Address) : String :=
  let digits := Hex.encode a.bytes
  let digest := Hex.encode (Keccak.digest (digits.map fun c => c.toNat.toUInt8))
  String.ofList ('0' :: 'x' :: Address.applyChecksum digits digest)

/-- The hash in lower-case hexadecimal. -/
def Hash.display (h : Hash) : String := Hex.text (Word.bytes h)

end OrderKeeper
