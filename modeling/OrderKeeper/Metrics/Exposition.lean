import OrderKeeper.Table
import OrderKeeper.Text.Decimal

/-!
# Exposed metrics

Families of counters and histograms, and the lines that show them to a scraper. The series of a family stand in the order
of their label values, and a family without series is left out.

- `Histogram.observe` puts a sample into the first bucket that takes it; a sample above all bounds is only counted.
- `Histogram.cumulative` shows for each bound the samples of its bucket and of all buckets before it.
-/

namespace OrderKeeper.Metrics

/-- How often samples fell under each of a list of bounds. -/
structure Histogram where
  /-- Each bound with the number of samples that it and no earlier bound takes. -/
  buckets : List (Float × Nat)
  sum : Float := 0.0
  count : Nat := 0

namespace Histogram

/-- The histogram of no samples. -/
def empty (bounds : List Float) : Histogram := ⟨bounds.map (·, 0), 0.0, 0⟩

/-- Counts a sample in the first bucket that takes it. -/
def place (x : Float) : List (Float × Nat) → List (Float × Nat)
  | [] => []
  | (bound, n) :: rest => if x ≤ bound then (bound, n + 1) :: rest else (bound, n) :: place x rest

/-- Adds a sample. -/
def observe (h : Histogram) (x : Float) : Histogram := ⟨place x h.buckets, h.sum + x, h.count + 1⟩

/-- Running totals over buckets, from the samples of earlier ones on. -/
def totals (before : Nat) : List (Float × Nat) → List (Float × Nat)
  | [] => []
  | (bound, n) :: rest => (bound, before + n) :: totals (before + n) rest

/-- For each bound the number of samples up to it. -/
def cumulative (h : Histogram) : List (Float × Nat) := totals 0 h.buckets

end Histogram

/-- The label values of a series, in the order of the family's labels. -/
abbrev Labels := List String

/-- The series of a family. -/
inductive Series where
  | counters (values : Table Labels Nat)
  | histograms (values : Table Labels Histogram)

/-- What a registry knows of a family: its name, its purpose and its labels in alphabetical order. -/
structure Family where
  name : String
  help : String
  labels : List String
  deriving DecidableEq, Repr

/-- Label values of one family by their order. -/
def labelsBefore : Labels → Labels → Bool
  | x :: xs, y :: ys => if x = y then labelsBefore xs ys else decide (x < y)
  | _, _ => true

/-- A label value between quotation marks. -/
def escapeLabel (s : String) : String :=
  String.ofList <| s.toList.flatMap fun c =>
    if c = '\\' then ['\\', '\\'] else if c = '"' then ['\\', '"'] else if c = '\n' then ['\\', 'n'] else [c]

/-- The labels of a series between braces. -/
def labelText (labels : List (String × String)) : String :=
  let pairs := labels.map fun (n, v) => n ++ "=\"" ++ escapeLabel v ++ "\""
  "\x7b" ++ String.intercalate "," pairs ++ "\x7d"

/-- One line. -/
def line (name : String) (labels : List (String × String)) (value : String) : String :=
  name ++ labelText labels ++ " " ++ value

/-- The lines of a histogram. -/
def Histogram.lines (name : String) (labels : List (String × String)) (h : Histogram) : List String :=
  let bucket (bound : String) (n : Nat) := line (name ++ "_bucket") (labels ++ [("le", bound)]) (toString n)
  h.cumulative.map (fun (bound, n) => bucket (Decimal.display bound) n)
    ++ [bucket "+Inf" h.count, line (name ++ "_sum") labels (Decimal.display h.sum),
        line (name ++ "_count") labels (toString h.count)]

/-- The series of a table in the order of their label values. -/
def ordered {α : Type} (values : Table Labels α) : List (Labels × α) :=
  values.mergeSort fun a b => labelsBefore a.1 b.1

/-- The lines of a family. -/
def Family.lines (f : Family) (series : Series) : List String :=
  let shown (kind : String) (body : List String) :=
    if body.isEmpty then [] else ("# HELP " ++ f.name ++ " " ++ f.help) :: ("# TYPE " ++ f.name ++ " " ++ kind) :: body
  match series with
  | .counters t =>
    shown "counter" <| (ordered t).map fun (values, n) => line f.name (f.labels.zip values) (toString n)
  | .histograms t => shown "histogram" <| (ordered t).flatMap fun (values, h) => h.lines f.name (f.labels.zip values)

end OrderKeeper.Metrics
