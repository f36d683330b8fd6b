/-!
# The curve of the signatures

Points of the curve `y² = x³ + 7` over the integers modulo a prime, and multiples of its generator. A point is written
with three coordinates, `(x / z², y / z³)`, so that adding points needs no division; with `z = 0` it is the neutral point.
-/

namespace OrderKeeper.Curve

/-- The prime of the field. -/
def fieldPrime : Nat := 0xfffffffffffffffffffffffffffffffffffffffffffffffffffffffefffffc2f

/-- The order of the generator, a prime. -/
def order : Nat := 0xfffffffffffffffffffffffffffffffebaaedce6af48a03bbfd25e8cd0364141

/-- The power of a number modulo `m`. -/
def powMod (m base exponent : Nat) : Nat :=
  if _h : exponent = 0 then 1 % m
  else
    let half := powMod m (base * base % m) (exponent / 2)
    if exponent % 2 = 1 then base * half % m else half
termination_by exponent
decreasing_by omega

/-- The inverse of a number modulo a prime; zero has the inverse zero. -/
def inverse (m a : Nat) : Nat := powMod m (a % m) (m - 2)

/-- Multiplication in the field. -/
def mul (a b : Nat) : Nat := a * b % fieldPrime

/-- Subtraction in the field, for numbers below the prime. -/
def sub (a b : Nat) : Nat := (a + fieldPrime - b) % fieldPrime

/-- A point by its three coordinates. -/
structure Point where
  x : Nat
  y : Nat
  z : Nat
  deriving DecidableEq, Repr

namespace Point

/-- The neutral point. -/
def zero : Point := ⟨1, 1, 0⟩

/-- The generator. -/
def generator : Point where
  x := 0x79be667ef9dcbbac55a06295ce870b07029bfcdb2dce28d959f2815b16f81798
  y := 0x483ada7726a3c4655da4fbfc0e1108a8fd17b448a68554199c47d08ffb10d4b8
  z := 1

/-- Twice a point. -/
def double (p : Point) : Point :=
  let a := mul p.x p.x
  let b := mul p.y p.y
  let d := mul 4 (mul p.x b)
  let e := mul 3 a
  let x := sub (mul e e) (mul 2 d)
  ⟨x, sub (mul e (sub d x)) (mul 8 (mul b b)), mul 2 (mul p.y p.z)⟩

/-- The sum of two points. -/
def add (p q : Point) : Point :=
  if p.z = 0 then q
  else if q.z = 0 then p
  else
    let pz := mul p.z p.z
    let qz := mul q.z q.z
    let u := mul p.x qz
    let h := sub (mul q.x pz) u
    let s := mul p.y (mul q.z qz)
    let r := sub (mul q.y (mul p.z pz)) s
    if h = 0 then (if r = 0 then p.double else zero)
    else
      let hh := mul h h
      let hhh := mul h hh
      let v := mul u hh
      let x := sub (sub (mul r r) hhh) (mul 2 v)
      ⟨x, sub (mul r (sub v x)) (mul s hhh), mul h (mul p.z q.z)⟩

/-- A multiple of a point. -/
def times (k : Nat) (p : Point) : Point :=
  if _h : k = 0 then zero
  else
    let half := times (k / 2) p.double
    if k % 2 = 1 then p.add half else half
termination_by k
decreasing_by omega

/-- The two coordinates of a point other than the neutral one. -/
def affine (p : Point) : Nat × Nat :=
  let i := inverse fieldPrime p.z
  let ii := mul i i
  (mul p.x ii, mul p.y (mul i ii))

end Point

end OrderKeeper.Curve
