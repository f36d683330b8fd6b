import OrderKeeper.Text.Hex

/-!
# Percent encoding

Characters that a part of an address cannot hold are written as the bytes of their encoding, each as a percent sign and
two digits. Every part has a set of its own of ASCII characters that are encoded; other characters always are.
-/

namespace OrderKeeper.Url

/-- A byte as a percent sign and two capital digits. -/
def percentByte (b : UInt8) : List Char := '%' :: (Hex.encode [b]).map Char.toUpper

/-- Encodes a character if it is a control character, not ASCII, or in a set. -/
def percentChar (set : List Char) (c : Char) : List Char :=
  if c.toNat < 0x20 || 0x7f ≤ c.toNat || set.contains c then
    (String.singleton c).toUTF8.toList.flatMap percentByte
  else [c]

/-- Encodes a text. -/
def percentEncode (set s : List Char) : List Char := s.flatMap (percentChar set)

/-- The characters encoded in fragments. -/
def fragmentSet : List Char := [' ', '"', '<', '>', '`']

/-- The characters encoded in paths. -/
def pathSet : List Char := fragmentSet ++ ['#', '?', '{', '}']

/-- The characters encoded in names and passwords. -/
def userSet : List Char := pathSet ++ ['/', ':', ';', '=', '@', '[', '\\', ']', '^', '|']

/-- The characters encoded in queries. -/
def querySet : List Char := [' ', '"', '#', '<', '>']

/-- The characters encoded in the queries of the well-known schemes. -/
def specialQuerySet : List Char := querySet ++ ['\'']

/-- The bytes of a text in which encoded bytes are decoded. -/
def percentDecode : List Char → Bytes
  | '%' :: a :: b :: rest =>
    match Hex.decode? [a, b] with
    | some bs => bs ++ percentDecode rest
    | none => 0x25 :: percentDecode (a :: b :: rest)
  | c :: rest => (String.singleton c).toUTF8.toList ++ percentDecode rest
  | [] => []

end OrderKeeper.Url
