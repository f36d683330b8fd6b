import OrderKeeper.Text.Hex

/-!
# Places in the text of a YAML document

A cursor knows the column of the character it stands at, since the columns of its lines give a document its structure.
Scalars are read from a cursor; a scalar over several lines is folded: one line break becomes a space, and of several
all but one are kept.
-/

namespace OrderKeeper.Yaml

/-- What is left of a text, and the column where it begins. -/
structure Cursor where
  rest : List Char
  column : Nat
  deriving DecidableEq, Repr

/-- Whether a character parts words within a line. -/
def isGap (c : Char) : Bool := c = ' ' || c = '\t'

/-- Whether a text begins with a gap, or its line ends here. -/
def atGap : List Char → Bool
  | [] => true
  | c :: _ => isGap c || c = '\n'

/-- Whether a character has a meaning within brackets wherever it stands. -/
def isFlowMark (c : Char) : Bool := c = ',' || c = '[' || c = ']' || c = '{' || c = '}'

/-- Line ends in one form. -/
def unifyLines : List Char → List Char
  | '\r' :: '\n' :: r => '\n' :: unifyLines r
  | '\r' :: r => '\n' :: unifyLines r
  | c :: r => c :: unifyLines r
  | [] => []

namespace Cursor

/-- The cursor behind `n` characters of its line. -/
def skip (c : Cursor) (n : Nat) : Cursor := ⟨c.rest.drop n, c.column + n⟩

/-- The cursor behind the gaps it stands at. -/
def skipGaps (c : Cursor) : Cursor := c.skip (c.rest.takeWhile isGap).length

/-- Whether the text has ended. -/
def isEnd (c : Cursor) : Bool := c.rest.isEmpty

/-- Whether a line of dashes or points stands here that ends a document. -/
def isMarker (c : Cursor) : Bool :=
  c.column = 0 && (c.rest.take 3 == ['-', '-', '-'] || c.rest.take 3 == ['.', '.', '.']) && atGap (c.rest.drop 3)

/-- Whether a dash stands here that begins an item. -/
def isDash (c : Cursor) : Bool := c.rest.head? == some '-' && atGap (c.rest.drop 1)

/-- Whether the content of a block goes on here at a column. -/
def continues (c : Cursor) (column : Nat) : Bool := !c.isEnd && c.column = column && !c.isMarker

/-- Whether there is content that belongs to nothing at a column or left of it. -/
def isBeyond (c : Cursor) (column : Nat) : Bool := !c.isEnd && column < c.column

end Cursor

/-- How the search for content stands within a line. -/
inductive LineState where
  /-- Only blanks have been seen. -/
  | blanks
  | tabbed
  | comment
  deriving DecidableEq, Repr

/-- The next content of a block, from within a line; tabs are no indentation. -/
def content? (state : LineState) (column : Nat) : List Char → Option Cursor
  | [] => some ⟨[], 0⟩
  | '\n' :: r => content? .blanks 0 r
  | c :: r =>
    if state = .comment then content? .comment 0 r
    else if c = '#' then content? .comment 0 r
    else if c = ' ' then content? state (column + 1) r
    else if c = '\t' then content? .tabbed (column + 1) r
    else if state = .tabbed then none
    else some ⟨c :: r, column⟩

/-- The next content below a line whose content ends here. -/
def Cursor.endLine? (c : Cursor) : Option Cursor :=
  let d := c.skipGaps
  match d.rest with
  | [] => some ⟨[], 0⟩
  | '\n' :: r => content? .blanks 0 r
  | '#' :: r => if c.column < d.column then content? .comment 0 r else none
  | _ => none

/-- The next content within brackets. A comment stands behind a gap, and each line is as far to the right as the block
around it. -/
def flowContent? (indent : Nat) (spaced broken : Bool) (column : Nat) : List Char → Option Cursor
  | [] => some ⟨[], 0⟩
  | '\n' :: r => flowContent? indent true true 0 r
  | c :: r =>
    if isGap c then flowContent? indent true broken (column + 1) r
    else if c = '#' then if spaced then comment r else none
    else if broken && column + 1 < indent then none
    else some ⟨c :: r, column⟩
where
  comment : List Char → Option Cursor
    | [] => some ⟨[], 0⟩
    | '\n' :: r => flowContent? indent true true 0 r
    | _ :: r => comment r

/-- The next content within brackets. -/
def Cursor.flowContent? (c : Cursor) (indent : Nat) : Option Cursor :=
  Yaml.flowContent? indent false false c.column c.rest

/-! ## Folding -/

/-- White space that has been read behind a word. -/
inductive Pending where
  /-- Gaps, last one first. -/
  | gaps (cs : List Char)
  /-- A line break, which is joined or becomes a space, and more line breaks. -/
  | breaks (joined : Bool) (more : Nat)
  deriving DecidableEq, Repr

namespace Pending

/-- What the white space becomes, last character first. -/
def folded : Pending → List Char
  | gaps cs => cs
  | breaks joined more => if !joined && more = 0 then [' '] else List.replicate more '\n'

/-- One more gap; at the beginning of a line it does not count. -/
def addGap (c : Char) : Pending → Pending
  | gaps cs => gaps (c :: cs)
  | p => p

/-- One more line break; gaps in front of it do not count. -/
def addBreak : Pending → Pending
  | gaps _ => breaks false 0
  | breaks joined more => breaks joined (more + 1)

/-- Whether a line break has been read. -/
def isBroken : Pending → Bool
  | gaps _ => false
  | breaks .. => true

end Pending

/-! ## Plain scalars -/

/-- Whether a plain scalar can begin here. -/
def beginsPlain (flow : Bool) : List Char → Bool
  | [] => false
  | c :: r =>
    if c = '-' || c = '?' || c = ':' then !atGap r && !(flow && r.head?.any isFlowMark)
    else !isGap c && c ≠ '\n' && !(",[]\x7b\x7d#&*!|>'\"%@`".toList.contains c)

/-- The part of a plain scalar on its line, with the gaps behind it. -/
def plainSpan (flow afterGap : Bool) : List Char → List Char
  | [] => []
  | c :: r =>
    if c = '\n' then []
    else if c = '#' && afterGap then []
    else if c = ':' && (atGap r || (flow && r.head?.any isFlowMark)) then []
    else if flow && isFlowMark c then []
    else c :: plainSpan flow (isGap c) r

/-- The part of a plain scalar on its line. -/
def plainLine (flow : Bool) (cs : List Char) : List Char :=
  ((plainSpan flow false cs).reverse.dropWhile isGap).reverse

/-- The white space here, and the cursor behind it. -/
def passBlanks (p : Pending) (column : Nat) : List Char → Pending × Cursor
  | '\n' :: r => passBlanks p.addBreak 0 r
  | c :: r => if isGap c then passBlanks (p.addGap c) (column + 1) r else (p, ⟨c :: r, column⟩)
  | [] => (p, ⟨[], column⟩)

/-- The further lines of a plain scalar, each at least at the column `indent`; `fuel` bounds their number. -/
def plainMore (flow : Bool) (indent : Nat) : Nat → Cursor → List Char × Cursor
  | 0, c => ([], c)
  | fuel + 1, c =>
    let (p, d) := passBlanks (.gaps []) c.column c.rest
    let line := plainLine flow d.rest
    if p.isBroken && indent ≤ d.column && !d.isMarker && d.rest.head? != some '#' && !line.isEmpty then
      let (more, e) := plainMore flow indent fuel (d.skip line.length)
      (p.folded ++ line ++ more, e)
    else ([], c)

/-- A plain scalar. -/
def plain (flow : Bool) (indent : Nat) (c : Cursor) : List Char × Cursor :=
  let line := plainLine flow c.rest
  let (more, d) := plainMore flow indent c.rest.length (c.skip line.length)
  (line ++ more, d)

/-! ## Quoted scalars -/

/-- The character that a letter behind a backslash stands for. -/
def escapes : List (Char × Char) :=
  [('0', '\x00'), ('a', '\x07'), ('b', '\x08'), ('t', '\t'), ('\t', '\t'), ('n', '\n'), ('v', '\x0b'), ('f', '\x0c'),
   ('r', '\r'), ('e', '\x1b'), (' ', ' '), ('"', '"'), ('/', '/'), ('\\', '\\'), ('N', '\u0085'), ('_', '\u00a0'),
   ('L', '\u2028'), ('P', '\u2029')]

/-- The number of hexadecimal digits that follow a letter behind a backslash. -/
def escapeWidths : List (Char × Nat) := [('x', 2), ('u', 4), ('U', 8)]

/-- The character behind a backslash, and how many characters write it. -/
def escape? : List Char → Option (Char × Nat)
  | [] => none
  | c :: r =>
    match escapes.lookup c, escapeWidths.lookup c with
    | some e, _ => some (e, 1)
    | none, some width =>
      let ds := r.take width
      if ds.length < width then none
      else (ds.foldlM (fun n d => (Hex.value? d).map (16 * n + ·)) 0).bind fun n =>
        if n.isValidChar then some (Char.ofNat n, width + 1) else none
    | none, none => none

/-- A scalar in quotes as it is read: its text, last character first, and the white space behind it. -/
structure Quoted where
  text : List Char := []
  pending : Pending := .gaps []
  /-- Whether the scalar has a line break. -/
  broken : Bool := false

/-- One more character. -/
def Quoted.push (q : Quoted) (c : Char) : Quoted := ⟨c :: (q.pending.folded ++ q.text), .gaps [], q.broken⟩

/-- The text that has been read. -/
def Quoted.done (q : Quoted) : String := String.ofList (q.pending.folded ++ q.text).reverse

/-- The rest of a scalar behind its first quote, whether it has a line break, and the cursor behind its last quote. -/
def quoted? (mark : Char) (indent : Nat) : Nat → Quoted → Cursor → Option (String × Bool × Cursor)
  | 0, _, _ => none
  | fuel + 1, q, c =>
    match c.rest with
    | [] => none
    | ch :: r =>
      if ch = '\n' then quoted? mark indent fuel { q with pending := q.pending.addBreak, broken := true } ⟨r, 0⟩
      else if isGap ch then quoted? mark indent fuel { q with pending := q.pending.addGap ch } (c.skip 1)
      else if q.pending.isBroken && (c.column + 1 < indent || c.isMarker) then none
      else if ch = mark then
        if mark = '\x27' && r.head? == some '\x27' then quoted? mark indent fuel (q.push ch) (c.skip 2)
        else some (q.done, q.broken, c.skip 1)
      else if ch = '\\' && mark = '"' then
        match r with
        | '\n' :: r =>
          quoted? mark indent fuel ⟨q.pending.folded ++ q.text, .breaks true 0, true⟩ ⟨r, 0⟩
        | _ =>
          match escape? r with
          | some (e, width) => quoted? mark indent fuel (q.push e) (c.skip (width + 1))
          | none => none
      else quoted? mark indent fuel (q.push ch) (c.skip 1)

/-- The quote that a scalar begins with. -/
def quoteMark? : List Char → Option Char
  | '"' :: _ => some '"'
  | '\x27' :: _ => some '\x27'
  | _ => none

/-- A scalar in quotes, whether it has a line break, and the cursor behind it. -/
def Cursor.quoted? (c : Cursor) (indent : Nat) : Option (String × Bool × Cursor) :=
  (quoteMark? c.rest).bind fun mark => Yaml.quoted? mark indent (c.rest.length + 1) {} (c.skip 1)

end OrderKeeper.Yaml
