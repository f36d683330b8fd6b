import OrderKeeper.Json.Token

/-!
# Reading JSON text

A pushdown machine builds a value from tokens (`Builder.step`). Containers nest at most 127 deep. `read` also tells what
a faulty text had shown of its outermost container before the fault.
-/

namespace OrderKeeper.Json

/-- A container that is still open: its finished parts, last first, and the name of the member being read. -/
inductive Frame where
  | array (done : List Json)
  | object (done : Members) (name : String)

/-- What the machine has read and what it waits for. -/
inductive Builder where
  /-- A value must follow. -/
  | value (stack : List Frame)
  /-- An array has just begun: a value or its end must follow. -/
  | firstElement (stack : List Frame)
  /-- An object has just begun: a name or its end must follow. -/
  | firstName (stack : List Frame)
  /-- A name must follow. -/
  | nextName (done : Members) (stack : List Frame)
  /-- A colon must follow a name. -/
  | colon (done : Members) (name : String) (stack : List Frame)
  /-- A comma or the end of an array must follow. -/
  | afterElement (done : List Json) (stack : List Frame)
  /-- A comma or the end of an object must follow. -/
  | afterMember (done : Members) (stack : List Frame)
  /-- The value is complete. -/
  | complete (v : Json)

namespace Builder

/-- The number of containers that may be open at once. -/
def maxDepth : Nat := 127

/-- A finished value takes its place in the innermost open container. -/
def close (v : Json) : List Frame → Builder
  | [] => .complete v
  | .array done :: stack => .afterElement (v :: done) stack
  | .object done name :: stack => .afterMember ((name, v) :: done) stack

/-- A value begins. -/
def beginValue (stack : List Frame) : Token → Option Builder
  | .leaf v => some (close v stack)
  | .text s => some (close (.str s) stack)
  | .beginArray => if stack.length < maxDepth then some (.firstElement stack) else none
  | .beginObject => if stack.length < maxDepth then some (.firstName stack) else none
  | _ => none

/-- Reads one token; `none` if it may not stand here. -/
def step : Builder → Token → Option Builder
  | .value stack, t => beginValue stack t
  | .firstElement stack, .endArray => some (close (.arr []) stack)
  | .firstElement stack, t => beginValue (.array [] :: stack) t
  | .firstName stack, .endObject => some (close (.obj []) stack)
  | .firstName stack, .text s => some (.colon [] s stack)
  | .nextName done stack, .text s => some (.colon done s stack)
  | .colon done name stack, .colon => some (.value (.object done name :: stack))
  | .afterElement done stack, .comma => some (.value (.array done :: stack))
  | .afterElement done stack, .endArray => some (close (.arr done.reverse) stack)
  | .afterMember done stack, .comma => some (.nextName done stack)
  | .afterMember done stack, .endObject => some (close (.obj done.reverse) stack)
  | _, _ => none

/-- Reads tokens until the first that may not stand where it does; tells whether all were read. -/
def run : Builder → List Token → Builder × Bool
  | b, [] => (b, true)
  | b, t :: ts =>
    match step b t with
    | none => (b, false)
    | some b' => run b' ts

/-- What has been read of the outermost container. -/
inductive Outermost where
  | members (ms : Members)
  | elements (xs : List Json)
  | nothing

/-- The outermost of the open containers. -/
def outermostFrame : List Frame → Outermost
  | [] => .nothing
  | [.array done] => .elements done.reverse
  | [.object done _] => .members done.reverse
  | _ :: stack => outermostFrame stack

/-- What has been read of the outermost container. -/
def outermost : Builder → Outermost
  | .value stack => outermostFrame stack
  | .firstElement [] => .elements []
  | .firstElement stack => outermostFrame stack
  | .firstName [] => .members []
  | .firstName stack => outermostFrame stack
  | .nextName done [] => .members done.reverse
  | .nextName _ stack => outermostFrame stack
  | .colon done _ [] => .members done.reverse
  | .colon _ _ stack => outermostFrame stack
  | .afterElement done [] => .elements done.reverse
  | .afterElement _ stack => outermostFrame stack
  | .afterMember done [] => .members done.reverse
  | .afterMember _ stack => outermostFrame stack
  | .complete _ => .nothing

end Builder

/-- What a text shows: a value, followed by nothing or by more text, or an incomplete value. -/
inductive Reading where
  | value (v : Json)
  | followed (v : Json)
  | incomplete (seen : Builder.Outermost)

/-- Reads a text. -/
def reading (s : String) : Reading :=
  let (ts, atEnd) := tokens s.toList
  let (b, all) := Builder.run (.value []) ts
  match b with
  | .complete v => if all && atEnd then .value v else .followed v
  | b => .incomplete b.outermost

/-- The value that a text writes. -/
def parse? (s : String) : Option Json :=
  match reading s with
  | .value v => some v
  | _ => none

end OrderKeeper.Json
