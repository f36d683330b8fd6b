import OrderKeeper.Text.Case
import OrderKeeper.Text.Hex
import OrderKeeper.Url.Percent
import OrderKeeper.Url.Punycode

/-!
# Hosts

The host of an address: a domain in lower case, a number address of four bytes in any of its spellings, an address of
eight groups between brackets, or, under schemes that are not well known, a text.
-/

namespace OrderKeeper

/-- Why a text is no address. -/
inductive UrlFault where
  | noScheme
  | emptyHost
  | badService
  | badGroups
  | badNumbers
  | badDomain
  | badHostChar
  deriving DecidableEq, Repr

/-- The wording. -/
def UrlFault.message : UrlFault → String
  | noScheme => "relative URL without a base"
  | emptyHost => "empty host"
  | badService => "invalid port number"
  | badGroups => "invalid IPv6 address"
  | badNumbers => "invalid IPv4 address"
  | badDomain => "invalid international domain name"
  | badHostChar => "invalid domain character"

/-- A host. -/
inductive Host where
  | named (name : String)
  /-- Four bytes as one number. -/
  | numbers (n : Nat)
  /-- Eight groups of sixteen bits. -/
  | groups (gs : List Nat)
  deriving DecidableEq, Repr

namespace Host

/-! ## Eight groups -/

/-- Splits at every occurrence of a character. -/
def splitAt (sep : Char) : List Char → List (List Char)
  | [] => [[]]
  | c :: cs =>
    match splitAt sep cs with
    | [] => [[]]
    | p :: ps => if c = sep then [] :: p :: ps else (c :: p) :: ps

/-- The number of up to four digits. -/
def group? (s : List Char) : Option Nat :=
  if s.isEmpty || 4 < s.length then none
  else s.foldlM (fun n c => (Hex.value? c).map (16 * n + ·)) 0

/-- A decimal number below 256 without a needless zero. -/
def byte? (s : List Char) : Option Nat :=
  if s.isEmpty || 3 < s.length || !s.all Char.isDigit || (1 < s.length && s.head? == some '0') then none
  else
    let n := s.foldl (fun n c => 10 * n + (c.toNat - 48)) 0
    if n < 256 then some n else none

/-- The groups of a run between colons, of which the last piece may be four decimal bytes. -/
def run? (lastMayBeBytes : Bool) : List (List Char) → Option (List Nat)
  | [] => some []
  | [s] =>
    if lastMayBeBytes && s.contains '.' then
      match (splitAt '.' s).mapM byte? with
      | some [a, b, c, d] => some [256 * a + b, 256 * c + d]
      | _ => none
    else (group? s).map ([·])
  | s :: ss => do return (← group? s) :: (← run? lastMayBeBytes ss)

/-- Splits at the first pair of colons. -/
def splitGap : List Char → Option (List Char × List Char)
  | ':' :: ':' :: rest => some ([], rest)
  | c :: cs => (splitGap cs).map fun (a, b) => (c :: a, b)
  | [] => none

/-- The pieces between colons; nothing has no pieces. -/
def pieces (s : List Char) : List (List Char) := if s.isEmpty then [] else splitAt ':' s

/-- The eight groups of a text, of which a pair of colons stands for one or more zeros. -/
def groups? (s : List Char) : Option (List Nat) :=
  match splitGap s with
  | none => (run? true (pieces s)).filter (·.length == 8)
  | some (a, b) => do
    let front ← run? false (pieces a)
    let back ← run? true (pieces b)
    let known := front.length + back.length
    if 8 ≤ known then none else some (front ++ List.replicate (8 - known) 0 ++ back)

/-- The number of zeros at the beginning. -/
def leadingZeros (gs : List Nat) : Nat := (gs.takeWhile (· == 0)).length

/-- The first longest run of at least two zeros: its place and its length. -/
def longestGap (gs : List Nat) : Option (Nat × Nat) :=
  (List.range gs.length).foldl (fun best i =>
    let n := leadingZeros (gs.drop i)
    if n < 2 then best
    else match best with
      | some (_, m) => if m < n then some (i, n) else best
      | none => some (i, n)) none

/-- Groups between colons. -/
def colons (gs : List Nat) : String := String.intercalate ":" (gs.map fun g => String.ofList (Hex.natDigits g))

/-- The groups, the longest run of zeros left out. -/
def groupsText (gs : List Nat) : String :=
  match longestGap gs with
  | some (i, n) => colons (gs.take i) ++ "::" ++ colons (gs.drop (i + n))
  | none => colons gs

/-! ## Four bytes -/

/-- A number in a base. -/
def numberIn? (base : Nat) (s : List Char) : Option Nat :=
  s.foldlM (fun n c => ((Hex.value? c).filter (· < base)).map (base * n + ·)) 0

/-- A decimal, octal or hexadecimal number by its beginning. -/
def number? : List Char → Option Nat
  | [] => none
  | '0' :: 'x' :: s => numberIn? 16 s
  | '0' :: 'X' :: s => numberIn? 16 s
  | ['0'] => some 0
  | '0' :: s => numberIn? 8 s
  | s => numberIn? 10 s

/-- The parts between dots; an empty last one is left out. -/
def dotted (s : List Char) : List (List Char) :=
  let ps := splitAt '.' s
  if 1 < ps.length && ps.getLast? == some [] then ps.dropLast else ps

/-- Whether the last part is a number, so that the whole has to be one. -/
def endsInNumber (s : List Char) : Bool :=
  match (dotted s).getLast? with
  | some p => (!p.isEmpty && p.all Char.isDigit) ||
      match p with
      | '0' :: 'x' :: _ | '0' :: 'X' :: _ => (number? p).isSome
      | _ => false
  | none => false

/-- The number of a spelling: all parts but the last are bytes, the last fills the bytes that are left. -/
def numbers? (s : List Char) : Option Nat := do
  let ns ← (dotted s).mapM number?
  if ns.length = 0 ∨ 4 < ns.length then none
  else
    let last ← ns.getLast?
    let front := ns.dropLast
    if front.any (255 < ·) || Nat.pow 256 (5 - ns.length) ≤ last then none
    else some (front.zipIdx.foldl (fun n (b, i) => n + b * Nat.pow 256 (3 - i)) last)

/-! ## Reading and writing -/

/-- Characters that no domain has. -/
def isForbidden (c : Char) : Bool :=
  c.toNat ≤ 0x20 || c.toNat == 0x7f
    || ['#', '/', ':', '<', '>', '?', '@', '[', '\\', ']', '^', '|', '%', '`', '{', '}', '"'].contains c

/-- A label in its written form. -/
def label (s : List Char) : List Char :=
  if s.all fun c => c.toNat < 128 then s else ['x', 'n', '-', '-'] ++ Url.Punycode.encode s

/-- The host of a well-known scheme. -/
def ofText (s : List Char) : Except UrlFault Host :=
  match s with
  | '[' :: rest =>
    if rest.getLast? = some ']' then
      match groups? rest.dropLast with
      | some gs => .ok (.groups gs)
      | none => .error .badGroups
    else .error .badGroups
  | _ =>
    match String.fromUTF8? ⟨(Url.percentDecode s).toArray⟩ with
    | none => .error .badDomain
    | some decoded =>
      let name := (Case.lower decoded).toList
      let written := List.intercalate ['.'] ((splitAt '.' name).map label)
      if written.any isForbidden then .error .badDomain
      else if written.isEmpty then .error .emptyHost
      else if endsInNumber written then
        match numbers? written with
        | some n => .ok (.numbers n)
        | none => .error .badNumbers
      else .ok (.named (String.ofList written))

/-- Characters that no host has. -/
def isForbiddenAnywhere (c : Char) : Bool :=
  [Char.ofNat 0, '\t', '\n', '\r', ' ', '#', '/', ':', '<', '>', '?', '@', '[', '\\', ']', '^', '|'].contains c

/-- The host of any other scheme. -/
def ofPlainText (s : List Char) : Except UrlFault Host :=
  match s with
  | '[' :: _ => ofText s
  | _ =>
    if s.any isForbiddenAnywhere then .error .badHostChar
    else .ok (.named (String.ofList (Url.percentEncode [] s)))

/-- The written form. -/
def text : Host → String
  | named s => s
  | numbers n =>
    String.intercalate "." ([n / 0x1000000, n / 0x10000 % 256, n / 256 % 256, n % 256].map toString)
  | groups gs => "[" ++ groupsText gs ++ "]"

end Host

end OrderKeeper
