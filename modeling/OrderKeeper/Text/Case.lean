import OrderKeeper.Text.Case.Table

/-!
# Lower case

Lower case of whole texts. Every character maps by itself, except the capital sigma, which takes its final form where
it ends a word: after a cased letter and before none, ignorable characters aside.
-/

namespace OrderKeeper.Case

/-- Whether a code point lies in one of the closed ranges. -/
def inRanges (ranges : Array (Nat × Nat)) (n : Nat) : Bool := ranges.any fun (a, b) => a ≤ n && n ≤ b

/-- The lower case of one character, without regard to its neighbours. -/
def lowerChar (c : Char) : List Char :=
  let n := c.toNat
  if n < 128 then [c.toLower]
  else if n = 0x130 then ['i', Char.ofNat 0x307]
  else
    match lowerRuns.find? fun r => r.first ≤ n && n ≤ r.last && (n - r.first) % r.step == 0 with
    | some r => [Char.ofNat (Int.toNat (n + r.shift))]
    | none => [c]

/-- Whether the first character that is not ignorable is a cased letter. -/
def reachesCased : List Char → Bool
  | [] => false
  | c :: r => if inRanges ignorableRanges c.toNat then reachesCased r else inRanges casedRanges c.toNat

/-- Lower case of the rest of a text, given what stands before it, last character first. -/
def lowerAfter : List Char → List Char → List Char
  | _, [] => []
  | before, c :: r =>
    let here :=
      if c.toNat = 0x3a3 then
        if reachesCased before && !reachesCased r then [Char.ofNat 0x3c2] else [Char.ofNat 0x3c3]
      else lowerChar c
    here ++ lowerAfter (c :: before) r

/-- The text in lower case. -/
def lower (s : String) : String := String.ofList (lowerAfter [] s.toList)

/-- Whether `needle` stands somewhere in the list. -/
def occursIn (needle : List Char) : List Char → Bool
  | [] => needle.isEmpty
  | c :: r => needle.isPrefixOf (c :: r) || occursIn needle r

/-- Whether `needle` stands somewhere in the lower case of `s`. -/
def mentions (s needle : String) : Bool := occursIn needle.toList (lower s).toList

end OrderKeeper.Case
