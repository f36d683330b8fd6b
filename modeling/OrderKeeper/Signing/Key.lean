import OrderKeeper.Digest.Keccak
import OrderKeeper.Digest.Sha256
import OrderKeeper.Ledger.Transaction
import OrderKeeper.Signing.Curve

/-!
# Signing keys

A key is a number from one to below the order of the curve. It signs without chance: the secret number of a signature is
derived from the key and the signed digest, and of the two values of `s` that make a signature the smaller one is taken.
-/

namespace OrderKeeper

/-- A signing key. -/
structure SigningKey where
  secret : Nat
  pos : 0 < secret
  lt_order : secret < Curve.order

namespace SigningKey

/-- The key of a number, if it is in range. -/
def ofNat? (n : Nat) : Option SigningKey :=
  if h : 0 < n ∧ n < Curve.order then some ⟨n, h.1, h.2⟩ else none

/-- The account of a key: the end of the digest of its public point. -/
def address (k : SigningKey) : Address :=
  let (x, y) := (Curve.Point.generator.times k.secret).affine
  BitVec.ofNat 160 (Bytes.toNat (Keccak.digest (Bytes.ofNat 32 x ++ Bytes.ofNat 32 y)))

/-- The state from which secret numbers are drawn. -/
structure Draw where
  key : Bytes
  value : Bytes

/-- Takes data into the state. -/
def Draw.update (d : Draw) (mark : UInt8) (data : Bytes) : Draw :=
  let key := Sha256.code d.key (d.value ++ mark :: data)
  ⟨key, Sha256.code key d.value⟩

/-- The state for a key and a digest. -/
def draw (k : SigningKey) (digest : Nat) : Draw :=
  let seed := Bytes.ofNat 32 k.secret ++ Bytes.ofNat 32 (digest % Curve.order)
  let d : Draw := ⟨List.replicate 32 0x00, List.replicate 32 0x01⟩
  (d.update 0x00 seed).update 0x01 seed

/-- The signature under a secret number, if that number gives one. -/
def signWith? (k : SigningKey) (digest number : Nat) : Option Signature :=
  if number = 0 ∨ Curve.order ≤ number then none
  else
    let (x, y) := (Curve.Point.generator.times number).affine
    let r := x % Curve.order
    let s := Curve.inverse Curve.order number * ((digest + r * k.secret) % Curve.order) % Curve.order
    if r = 0 ∨ s = 0 then none
    else
      let high := Curve.order / 2 < s
      some ⟨r, if high then Curve.order - s else s, (y % 2 == 1) != decide high⟩

/-- The signature under the first drawn number that gives one, of `fuel` numbers. -/
def signFrom (k : SigningKey) (digest : Nat) : Nat → Draw → Signature
  | 0, _ => ⟨0, 0, false⟩
  | fuel + 1, d =>
    let value := Sha256.code d.key d.value
    match k.signWith? digest (Bytes.toNat value) with
    | some s => s
    | none => k.signFrom digest fuel (Draw.update ⟨d.key, value⟩ 0x00 [])

/-- The signature over a digest. That a hundred numbers in a row are out of range does not happen. -/
def sign (k : SigningKey) (digest : Hash) : Signature := k.signFrom digest.toNat 100 (k.draw digest.toNat)

end SigningKey

end OrderKeeper
