import OrderKeeper.Config.Value

/-!
# Layers of a configuration

A layer gives values to places, and the places of one layer are filled over those of the layers before it: tables are
merged, anything else is replaced.

- A place is written as a path such as `networks[0].name`; text that is no path names an entry of the whole as it stands.
- A variable of the environment is a layer of one value: behind its mark, two underscores part the keys of its path.
-/

namespace OrderKeeper

namespace ConfigValue

/-! ## Paths -/

/-- A step into a value. -/
inductive Step where
  | key (name : String)
  /-- An element by its number, a negative one counted from the end. -/
  | index (i : Int)
  deriving DecidableEq, Repr

/-- Whether a character stands in a key of a path. -/
def isKeyChar (c : Char) : Bool := c.isAlphanum || c = '_' || c = '-'

/-- The number that is written at the beginning, and the rest. -/
def index? (cs : List Char) : Option (Int × List Char) :=
  let (negative, cs) := match cs with
    | '-' :: r => (true, r)
    | r => (false, r)
  let ds := cs.takeWhile Char.isDigit
  if ds.isEmpty then none
  else
    let n : Int := Decimal.natOfDigits ds
    some (if negative then -n else n, cs.dropWhile Char.isDigit)

/-- The steps behind the first one; `fuel` bounds their number. -/
def steps? : Nat → List Char → Option (List Step)
  | _, [] => some []
  | 0, _ => none
  | fuel + 1, '.' :: r =>
    let name := r.takeWhile isKeyChar
    if name.isEmpty then none
    else (steps? fuel (r.dropWhile isKeyChar)).map (.key (String.ofList name) :: ·)
  | fuel + 1, '[' :: r =>
    match index? r with
    | some (i, ']' :: r) => (steps? fuel r).map (.index i :: ·)
    | _ => none
  | _, _ => none

/-- The path that a text writes. -/
def path (s : String) : List Step :=
  (steps? (s.length + 1) ('.' :: s.toList)).getD [.key s]

/-! ## Filling places -/

/-- The entries with the value of a key replaced by a function of it. -/
def alter (key : String) (f : ConfigValue → ConfigValue) (es : List (String × ConfigValue)) :
    List (String × ConfigValue) :=
  Table.set es key (f ((Table.get? es key).getD null))

/-- The elements with one of them replaced by a function of it; elements that are not there yet are null. -/
def alterAt (i : Int) (f : ConfigValue → ConfigValue) (xs : List ConfigValue) : List ConfigValue :=
  let (xs, n) :=
    if 0 ≤ i then (xs ++ List.replicate (i.toNat + 1 - xs.length) null, i.toNat)
    else (List.replicate (i.natAbs - xs.length) null ++ xs, xs.length - i.natAbs)
  xs.set n (f (xs.getD n null))

/-- The value with a place in it replaced by a function of it. What is in the way of the path is replaced. -/
def updateAt (f : ConfigValue → ConfigValue) : List Step → ConfigValue → ConfigValue
  | [], v => f v
  | .key k :: p, table es => table (alter k (updateAt f p) es)
  | .key k :: p, _ => table (alter k (updateAt f p) [])
  | .index i :: p, list xs => list (alterAt i (updateAt f p) xs)
  | .index i :: p, _ => list (alterAt i (updateAt f p) [])

mutual

/-- A value laid over another. -/
def overlay (below : ConfigValue) : ConfigValue → ConfigValue
  | table es => table (overlayEntries (below.entries?.getD []) es)
  | v => v

/-- Entries laid over others. -/
def overlayEntries (below : List (String × ConfigValue)) : List (String × ConfigValue) → List (String × ConfigValue)
  | [] => below
  | (k, v) :: es => overlayEntries (Table.set below k (overlay ((Table.get? below k).getD null) v)) es

end

/-- A layer: places and what they are filled with. -/
abbrev Layer := List (String × ConfigValue)

/-- A value with a layer laid over it. -/
def fill (below : ConfigValue) (l : Layer) : ConfigValue :=
  l.foldl (fun below e => updateAt (fun old => old.overlay e.2) (path e.1) below) below

/-- All layers, each over those before it. -/
def ofLayers (ls : List Layer) : ConfigValue := ls.foldl fill (table [])

/-! ## The environment -/

/-- The mark of a variable that belongs to the configuration. -/
def variableMark : List Char := "app__".toList

/-- The keys between pairs of underscores, parted by points; a lone underscore belongs to its key. -/
def pointed : List Char → List Char
  | '_' :: '_' :: r => '.' :: pointed r
  | c :: r => c :: pointed r
  | [] => []

/-- The layer of an environment. The case of a variable's name does not matter. -/
def Layer.ofEnvironment (vars : List (String × String)) : Layer :=
  vars.filterMap fun (name, value) =>
    let name := (Case.lower name).toList
    if variableMark.isPrefixOf name then
      some (String.ofList (pointed (name.drop variableMark.length)), .scalar (.text value))
    else none

end ConfigValue

end OrderKeeper
