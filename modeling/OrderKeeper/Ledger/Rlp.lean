import OrderKeeper.Word

/-!
# Recursive length prefixes

The encoding of byte strings and lists of them in transactions. A short string or list carries its length in one byte; a
longer one carries the length of its length first. A byte below `0x80` stands for itself.
-/

namespace OrderKeeper.Rlp

/-- An item to encode. -/
inductive Item where
  | bytes (bs : Bytes)
  | list (items : List Item)

/-- A number: its bytes without leading zeros. -/
def Item.nat (n : Nat) : Item := .bytes (Bytes.minimal n)

/-- The mark of a string or list of a length; `base` is `0x80` for strings and `0xc0` for lists. -/
def mark (base length : Nat) : Bytes :=
  if length < 56 then [UInt8.ofNat (base + length)]
  else
    let size := Bytes.minimal length
    UInt8.ofNat (base + 55 + size.length) :: size

/-- The encoding of a byte string. -/
def encodeBytes : Bytes → Bytes
  | [b] => if b.toNat < 0x80 then [b] else mark 0x80 1 ++ [b]
  | bs => mark 0x80 bs.length ++ bs

mutual

/-- The encoding of an item. -/
def Item.encode : Item → Bytes
  | .bytes bs => encodeBytes bs
  | .list items =>
    let body := encodeAll items
    mark 0xc0 body.length ++ body

/-- The encodings of several items, one after the other. -/
def encodeAll : List Item → Bytes
  | [] => []
  | i :: is => i.encode ++ encodeAll is

end

end OrderKeeper.Rlp
