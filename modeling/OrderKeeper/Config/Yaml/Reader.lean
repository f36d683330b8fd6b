import OrderKeeper.Config.Yaml.Cursor
import OrderKeeper.Config.Yaml.Scalar

/-!
# Reading YAML

The YAML of configuration files: one document of block and bracket collections, plain and quoted scalars, and comments.
Anchors, tags, directives, block scalars and keys that are no scalars are refused, and so are two equal keys of a table.

A block belongs to a column. Its entries begin there, and all that stands to the right of them belongs to an entry; the
items of a list under a key may stand in the column of the key.
-/

namespace OrderKeeper.Yaml

/-- Entries as they are written, first one first. -/
abbrev Entries := List (Scalar × ConfigValue)

/-- The table of entries, if all of their keys can be keys. -/
def table? (es : Entries) : Option ConfigValue :=
  (es.foldlM (fun (t : Table String ConfigValue) e => (key? e.1).map fun k => t.set k e.2) []).map .table

/-- One more entry in front, with a key of its own. -/
def addEntry? (k : Scalar) (v : ConfigValue) (es : Entries) : Option Entries :=
  if es.any (·.1 = k) then none else some ((k, v) :: es)

/-! ## Brackets -/

/-- A scalar within brackets, whether it is in quotes, and the cursor behind it. -/
def flowScalar? (indent : Nat) (c : Cursor) : Option (Scalar × Bool × Cursor) :=
  if (quoteMark? c.rest).isSome then (c.quoted? indent).map fun (s, _, d) => (.text s, true, d)
  else if beginsPlain true c.rest then
    let (cs, d) := plain true (indent - 1) c
    (plainScalar? (String.ofList cs)).map fun s => (s, false, d)
  else none

/-- The cursor behind the colon that ends a key. -/
def colon? (quoted : Bool) (c : Cursor) : Option Cursor :=
  match c.rest with
  | ':' :: r => if quoted || atGap r || r.head?.any isFlowMark then some (c.skip 1) else none
  | _ => none

/-- Whether a part between brackets ends here. -/
def endsPart (c : Cursor) : Bool := c.rest.head?.any fun ch => ch = ',' || ch = ']' || ch = '}'

mutual

/-- A value within brackets, whether it can be a key without a gap behind it, and the cursor behind it. -/
def flow? (indent : Nat) : Nat → Cursor → Option (ConfigValue × Bool × Cursor)
  | 0, _ => none
  | fuel + 1, c =>
    match c.rest.head? with
    | some '[' => do
      let (xs, d) ← flowItems? indent fuel (← (c.skip 1).flowContent? indent)
      return (.list xs, true, d)
    | some '{' => do
      let (es, d) ← flowEntries? indent fuel (← (c.skip 1).flowContent? indent)
      return (← table? es, true, d)
    | _ => (flowScalar? indent c).map fun (s, quoted, d) => (.scalar s, quoted, d)

/-- The value behind a colon within brackets, which may be absent, and the cursor at what follows it. -/
def flowValue? (indent : Nat) : Nat → Cursor → Option (ConfigValue × Cursor)
  | 0, _ => none
  | fuel + 1, c => do
    let c ← c.flowContent? indent
    if endsPart c then return (.null, c)
    let (v, _, c) ← flow? indent fuel c
    return (v, ← c.flowContent? indent)

/-- The items up to a closing bracket. An item may be a lone entry, which is a table. -/
def flowItems? (indent : Nat) : Nat → Cursor → Option (List ConfigValue × Cursor)
  | 0, _ => none
  | fuel + 1, c =>
    if c.rest.head? = some ']' then some ([], c.skip 1)
    else do
      let (v, quoted, c) ← flow? indent fuel c
      let c ← c.flowContent? indent
      let (v, c) ← match colon? quoted c, v with
        | some c, .scalar k => do
          let (w, c) ← flowValue? indent fuel c
          pure (← table? [(k, w)], c)
        | some _, _ => none
        | none, _ => pure (v, c)
      match c.rest.head? with
      | some ',' =>
        let (xs, c) ← flowItems? indent fuel (← (c.skip 1).flowContent? indent)
        return (v :: xs, c)
      | some ']' => return ([v], c.skip 1)
      | _ => none

/-- The entries up to a closing brace. A key may stand without a value. -/
def flowEntries? (indent : Nat) : Nat → Cursor → Option (Entries × Cursor)
  | 0, _ => none
  | fuel + 1, c =>
    if c.rest.head? = some '}' then some ([], c.skip 1)
    else do
      let (k, quoted, c) ← flowScalar? indent c
      let c ← c.flowContent? indent
      let (v, c) ← match colon? quoted c with
        | some c => flowValue? indent fuel c
        | none => pure (.null, c)
      match c.rest.head? with
      | some ',' =>
        let (es, c) ← flowEntries? indent fuel (← (c.skip 1).flowContent? indent)
        return (← addEntry? k v es, c)
      | some '}' => return ([(k, v)], c.skip 1)
      | _ => none

end

/-! ## Blocks -/

/-- A key on one line, and the cursor behind its colon. -/
def blockKey? (c : Cursor) : Option (Scalar × Cursor) := do
  let (k, d) ←
    if (quoteMark? c.rest).isSome then
      match ← c.quoted? 0 with
      | (s, false, d) => pure (.text s, d)
      | (_, true, _) => none
    else if beginsPlain false c.rest then do
      let line := plainLine false c.rest
      pure (← plainScalar? (String.ofList line), c.skip line.length)
    else none
  match d.skipGaps.rest with
  | ':' :: r => if atGap r then some (k, d.skipGaps.skip 1) else none
  | _ => none

/-- A value that is no block, up to the next content below it. -/
def leaf? (indent : Nat) (c : Cursor) : Option (ConfigValue × Cursor) := do
  let (v, d) ← match c.rest.head? with
    | some '[' | some '{' => (flow? indent (4 * c.rest.length + 4) c).map fun (v, _, d) => (v, d)
    | _ =>
      if (quoteMark? c.rest).isSome then (c.quoted? indent).map fun (s, _, d) => (.scalar (.text s), d)
      else if beginsPlain false c.rest then
        let (cs, d) := plain false indent c
        (plainScalar? (String.ofList cs)).map fun s => (.scalar s, d)
      else none
  return (v, ← d.endLine?)

mutual

/-- The value that begins here, and the next content below it. A block can only begin where `compact` says so. -/
def node? (compact : Bool) (indent : Nat) : Nat → Cursor → Option (ConfigValue × Cursor)
  | 0, _ => none
  | fuel + 1, c =>
    if c.isDash then
      if compact then (items? c.column fuel c).map fun (xs, d) => (.list xs, d) else none
    else if (blockKey? c).isSome then
      if compact then do
        let (es, d) ← entries? c.column fuel c
        return (← table? es, d)
      else none
    else leaf? indent c
termination_by structural fuel => fuel

/-- The value behind a colon, a dash or a marker: on the same line, or below it from the column `indent` on. -/
def value? (compact listBelow : Bool) (indent : Nat) : Nat → Cursor → Option (ConfigValue × Cursor)
  | 0, _ => none
  | fuel + 1, c =>
    match c.endLine? with
    | none => node? compact indent fuel c.skipGaps
    | some d =>
      if d.isEnd || d.isMarker then some (.null, d)
      else if indent ≤ d.column then node? true indent fuel d
      else if listBelow && d.column + 1 = indent && d.isDash then node? true indent fuel d
      else some (.null, d)
termination_by structural fuel => fuel

/-- The entries of a table at a column. -/
def entries? (column : Nat) : Nat → Cursor → Option (Entries × Cursor)
  | 0, _ => none
  | fuel + 1, c => do
    let (k, c) ← blockKey? c
    let (v, c) ← value? false true (column + 1) fuel c
    if c.continues column then
      let (es, c) ← entries? column fuel c
      return (← addEntry? k v es, c)
    if c.isBeyond column then none else return ([(k, v)], c)
termination_by structural fuel => fuel

/-- The items of a list at a column. -/
def items? (column : Nat) : Nat → Cursor → Option (List ConfigValue × Cursor)
  | 0, _ => none
  | fuel + 1, c => do
    let (v, c) ← value? true false (column + 1) fuel (c.skip 1)
    if c.continues column && c.isDash then
      let (xs, c) ← items? column fuel c
      return (v :: xs, c)
    if c.isBeyond column then none else return ([v], c)
termination_by structural fuel => fuel

end

/-! ## Documents -/

/-- Whether a document ends here with nothing behind it. -/
def isOver (c : Cursor) : Bool :=
  c.isEnd ||
    (c.isMarker && c.rest.head? == some '.' && (c.skip 3).endLine?.any Cursor.isEnd)

/-- A text without a mark of its byte order. -/
def withoutMark : List Char → List Char
  | '\ufeff' :: r => r
  | cs => cs

/-- The one value of a text; a text without content is an empty table. -/
def read? (text : String) : Option ConfigValue := do
  let cs := unifyLines (withoutMark text.toList)
  let fuel := 4 * cs.length + 4
  let c ← content? .blanks 0 cs
  if c.isEnd then return .table []
  let (v, d) ←
    if c.isMarker && c.rest.head? == some '-' then value? false false 0 fuel (c.skip 3)
    else node? true 0 fuel c
  if isOver d then some v else none

end OrderKeeper.Yaml
