import OrderKeeper.Json.Reader
import OrderKeeper.WorkItem.Basic

/-!
# Work items as lines of text

A line holds one request. A request is read while its text is: an unknown kind is reported as soon as it is read, even if
the text breaks off later; everything else waits for the end of the request, and text after the request is noticed last.
-/

namespace OrderKeeper

/-- The wording of a mismatch. -/
def Json.Mismatch.display : Json.Mismatch → String
  | missingField name => "missing field `" ++ name ++ "`"
  | unknownVariant name expected =>
    "unknown variant `" ++ name ++ "`, expected " ++
      String.intercalate " or " (expected.map fun e => "`" ++ e ++ "`")
  | malformed => "the text has another form"

namespace WorkItem

/-- A fault of the kind of request that shows before a text breaks off. -/
def kindFault (seen : Json.Builder.Outermost) : Json.Mismatch :=
  let found := match seen with
    | .members ms => (Json.Alternatives.tagged "type" WorkRequest.alternatives ms).map fun _ => ()
    | .elements (x :: _) => (Json.Alternatives.select WorkRequest.alternatives x).map fun _ => ()
    | _ => .ok ()
  match found with
  | .error m => m
  | .ok () => .malformed

/-- The request that a line writes. -/
def readLine (line : String) : Except Json.Mismatch WorkRequest :=
  match Json.reading line with
  | .value v => WorkRequest.ofJson v
  | .followed v =>
    match WorkRequest.ofJson v with
    | .error m => .error m
    | .ok _ => .error .malformed
  | .incomplete seen => .error (kindFault seen)

/-- The work item that a line writes. -/
def parse (line : String) : Except KeeperError WorkItem :=
  match readLine line with
  | .error m => .error (.validation ("malformed work item: " ++ m.display))
  | .ok r => ofRequest r

end WorkItem

end OrderKeeper
