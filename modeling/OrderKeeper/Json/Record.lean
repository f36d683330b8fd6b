import OrderKeeper.Json.Basic

/-!
# Typed reading of JSON values

A `Record` reads the members of an object into a structure. Members are looked at in their order: one of an unknown name
is passed over, a repeated known name and a value of the wrong form are refused where they stand. Only then absent
members are noticed, in the order in which the record declares them. The same record reads an array of its members'
values in that order.
-/

namespace OrderKeeper.Json

/-- Why a value does not have the expected form. -/
inductive Mismatch where
  | missingField (name : String)
  | unknownVariant (name : String) (expected : List String)
  /-- A value of another kind or range, a repeated member, or a wrong number of elements. -/
  | malformed
  deriving DecidableEq, Repr

/-- A reader of values of one form. -/
abbrev Decoder (α : Type) := Json → Except Mismatch α

/-- How the members of an object make up a value. -/
structure Record (α : Type) where
  /-- The names that belong to the record, in order of declaration. -/
  names : List String
  /-- Whether the value of a member has the form that its name asks for. -/
  check : String → Json → Except Mismatch Unit
  /-- The value, from the members by name. -/
  read : (String → Option Json) → Except Mismatch α
  /-- The value, from elements in order of declaration, and the elements that are left. -/
  readElements : List Json → Except Mismatch (α × List Json)

namespace Record

variable {α β : Type}

/-- The members of one record followed by those of another. -/
def seq (f : Record (α → β)) (a : Unit → Record α) : Record β where
  names := f.names ++ (a ()).names
  check name v := if name ∈ f.names then f.check name v else (a ()).check name v
  read look := do
    let g ← f.read look
    let x ← (a ()).read look
    return g x
  readElements xs := do
    let (g, xs) ← f.readElements xs
    let (x, xs) ← (a ()).readElements xs
    return (g x, xs)

/-- The record with a function applied to its value. -/
def map (g : α → β) (r : Record α) : Record β where
  names := r.names
  check := r.check
  read look := (r.read look).map g
  readElements xs := (r.readElements xs).map fun (a, left) => (g a, left)

instance : Functor Record where
  map := map

instance : Seq Record := ⟨seq⟩

/-- One member; `absent` says what stands for it where it is not given by name, `short` where the elements end. -/
def member (name : String) (decode : Decoder α) (absent : Except Mismatch α) (short : Except Mismatch α) :
    Record α where
  names := [name]
  check _ v := (decode v).map fun _ => ()
  read look :=
    match look name with
    | some v => decode v
    | none => absent
  readElements
    | [] => short.map fun a => (a, [])
    | x :: xs => (decode x).map fun a => (a, xs)

/-- A member that must be given. -/
def required (name : String) (decode : Decoder α) : Record α :=
  member name decode (.error (.missingField name)) (.error .malformed)

/-- A member that may be absent or null. -/
def optional (name : String) (decode : Decoder α) : Record (Option α) :=
  member name (fun | .null => .ok none | v => (decode v).map some) (.ok none) (.error .malformed)

/-- A member with a value to use where it is absent. -/
def default (name : String) (decode : Decoder α) (a : α) : Record α :=
  member name decode (.ok a) (.ok a)

/-- Looks at the members in order, given the known names seen so far. -/
def scan (r : Record α) : List String → Members → Except Mismatch Unit
  | _, [] => .ok ()
  | seen, (name, v) :: ms =>
    if name ∈ r.names then
      if name ∈ seen then .error .malformed
      else do
        r.check name v
        scan r (name :: seen) ms
    else scan r seen ms

/-- The value that the members of an object make up. -/
def ofMembers (r : Record α) (ms : Members) : Except Mismatch α := do
  r.scan [] ms
  r.read (Json.find? ms)

/-- The value that the elements of an array make up; none may be left. -/
def ofElements (r : Record α) (xs : List Json) : Except Mismatch α := do
  let (a, left) ← r.readElements xs
  if left.isEmpty then .ok a else .error .malformed

/-- The value that an object or an array makes up. -/
def decode (r : Record α) : Decoder α
  | .obj ms => r.ofMembers ms
  | .arr xs => r.ofElements xs
  | _ => .error .malformed

end Record

/-- How the content of a tagged value makes up one of its alternatives. -/
inductive Content (α : Type) where
  /-- Nothing besides the tag; other members are passed over. -/
  | unit (a : α)
  /-- The members of a record. -/
  | record (r : Record α)
  /-- Members of an object that is read as a whole. -/
  | members (read : Members → Except Mismatch α)

namespace Content

variable {α : Type}

/-- The alternative, from the members beside the tag. -/
def ofMembers (ms : Members) : Content α → Except Mismatch α
  | .unit a => .ok a
  | .record r => r.ofMembers ms
  | .members read => read ms

/-- The alternative, from the elements after the tag. -/
def ofElements (xs : List Json) : Content α → Except Mismatch α
  | .unit a => if xs.isEmpty then .ok a else .error .malformed
  | .record r => r.ofElements xs
  | .members _ => .error .malformed

end Content

/-- The alternatives of a tagged value by their tags. -/
abbrev Alternatives (α : Type) := List (String × Content α)

namespace Alternatives

variable {α : Type}

/-- The alternative that a tag names. -/
def select (alts : Alternatives α) : Json → Except Mismatch (Content α)
  | .str s =>
    match alts.lookup s with
    | some c => .ok c
    | none => .error (.unknownVariant s (alts.map (·.1)))
  | _ => .error .malformed

/-- The content that the first member called `tag` names; a second such member is refused. -/
def tagged (tag : String) (alts : Alternatives α) : Members → Except Mismatch (Option (Content α))
  | [] => .ok none
  | (name, v) :: ms =>
    if name = tag then do
      let c ← select alts v
      if ms.any (·.1 == tag) then .error .malformed else .ok (some c)
    else tagged tag alts ms

/-- A value whose member `tag` tells which alternative the other members make up. -/
def ofMembers (tag : String) (alts : Alternatives α) (ms : Members) : Except Mismatch α := do
  match ← tagged tag alts ms with
  | some c => c.ofMembers (ms.filter (·.1 != tag))
  | none => .error (.missingField tag)

/-- A value whose first element tells which alternative the other elements make up. -/
def ofElements (tag : String) (alts : Alternatives α) : List Json → Except Mismatch α
  | [] => .error (.missingField tag)
  | x :: xs => do (← select alts x).ofElements xs

/-- A tagged value. -/
def decode (tag : String) (alts : Alternatives α) : Decoder α
  | .obj ms => ofMembers tag alts ms
  | .arr xs => ofElements tag alts xs
  | _ => .error .malformed

end Alternatives

end OrderKeeper.Json
