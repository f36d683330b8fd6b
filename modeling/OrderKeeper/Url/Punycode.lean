/-!
# Labels beyond ASCII

A label of a domain that has characters beyond ASCII is written with the ASCII ones first, followed by digits that say where
the others go.
-/

namespace OrderKeeper.Url.Punycode

/-- The digit of a number below 36. -/
def digit (n : Nat) : Char := if n < 26 then Char.ofNat (97 + n) else Char.ofNat (22 + n)

/-- Reduces a bias until it is small, in `fuel` steps. -/
def shrink : Nat → Nat → Nat → Nat × Nat
  | 0, delta, k => (delta, k)
  | fuel + 1, delta, k => if 455 < delta then shrink fuel (delta / 35) (k + 36) else (delta, k)

/-- The bias after a delta, when `count` characters have been placed. -/
def adapt (delta count : Nat) (first : Bool) : Nat :=
  let delta := if first then delta / 700 else delta / 2
  let (delta, k) := shrink 64 (delta + delta / count) 0
  k + 36 * delta / (delta + 38)

/-- The digits of a delta under a bias; `fuel` bounds their number. -/
def digits : Nat → Nat → Nat → Nat → List Char
  | 0, _, _, _ => []
  | fuel + 1, bias, k, q =>
    let t := if k ≤ bias then 1 else if bias + 26 ≤ k then 26 else k - bias
    if q < t then [digit q] else digit (t + (q - t) % (36 - t)) :: digits fuel bias (k + 36) ((q - t) / (36 - t))

/-- Where the placing of characters stands. -/
structure Progress where
  delta : Nat
  bias : Nat
  placed : Nat
  first : Bool
  out : List Char

/-- Passes one character of the label, placing it if it is the character `n`. -/
def pass (n : Nat) (p : Progress) (c : Char) : Progress :=
  if c.toNat < n then { p with delta := p.delta + 1 }
  else if c.toNat = n then
    { delta := 0
      bias := adapt p.delta (p.placed + 1) p.first
      placed := p.placed + 1
      first := false
      out := p.out ++ digits 64 p.bias 36 p.delta }
  else p

/-- Places the characters of the label in the order of their numbers. -/
def place (label : List Char) : List Nat → Nat → Progress → List Char
  | [], _, p => p.out
  | n :: ns, last, p =>
    let p := { p with delta := p.delta + (n - last) * (p.placed + 1) }
    let p := label.foldl (pass n) p
    place label ns (n + 1) { p with delta := p.delta + 1 }

/-- The written form of a label. -/
def encode (label : List Char) : List Char :=
  let basic := label.filter fun c => c.toNat < 128
  let others := ((label.map Char.toNat).filter (128 ≤ ·)).eraseDups.mergeSort
  basic ++ (if basic.isEmpty then [] else ['-'])
    ++ place label others 128 ⟨0, 72, basic.length, true, []⟩

end OrderKeeper.Url.Punycode
