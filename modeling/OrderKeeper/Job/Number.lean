import OrderKeeper.Text.Hex

/-!
# Numbers of jobs

A job is known by a random identifier of 128 bits, of which six say that it is random.
-/

namespace OrderKeeper

/-- The identifier with the given bits, as far as they are free: thirty-two hexadecimal digits in groups. -/
def JobId.ofBits (bits : Nat) : String :=
  let part (high width : Nat) : List Char :=
    (List.range width).map fun i => Hex.digit ((bits >>> (4 * (high - i))) % 16)
  let variant := Hex.digit (8 + (bits >>> 60) % 4)
  String.ofList (part 31 8 ++ '-' :: part 23 4 ++ '-' :: '4' :: part 18 3 ++ '-' :: variant :: part 14 3
    ++ '-' :: part 11 12)

end OrderKeeper
