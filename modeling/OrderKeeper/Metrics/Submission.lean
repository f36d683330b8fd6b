import OrderKeeper.Metrics.Exposition

/-!
# Metrics of submissions

How long work items took, how many broadcasts an inclusion needed, and how work items ended.
-/

namespace OrderKeeper.Metrics

/-- Broadcasts of included submissions, by network. -/
def attemptsFamily : Family :=
  ⟨"limit_keeper_escalation_attempts", "Broadcasts needed per included transaction", ["network"]⟩

/-- Endings of submissions, by action, network and kind. -/
def outcomesFamily : Family :=
  ⟨"limit_keeper_outcomes_total", "Work item outcomes by kind", ["action", "network", "outcome"]⟩

/-- Seconds that submissions took, by mode and network. -/
def durationsFamily : Family :=
  ⟨"limit_keeper_submission_duration_seconds",
    "Time from picking up a work item to its outcome, including receipt waits", ["mode", "network"]⟩

/-- The families in alphabetical order. -/
def families : List Family := [attemptsFamily, outcomesFamily, durationsFamily]

/-- The names that a registry has taken. -/
abbrev Registered := List String

/-- Takes the names of families, unless one of them is taken. -/
def register? (taken : Registered) (fs : List Family) : Option Registered :=
  if fs.any fun f => taken.contains f.name then none else some (taken ++ fs.map (·.name))

/-- The bounds of the broadcast counts. -/
def attemptBounds : List Float := [1.0, 2.0, 3.0, 4.0, 5.0, 8.0]

/-- The bounds of the durations in seconds. -/
def durationBounds : List Float := [0.1, 0.5, 1.0, 2.0, 5.0, 10.0, 30.0, 60.0, 120.0, 300.0]

/-- One thing to record. -/
inductive Event where
  | duration (mode network : String) (seconds : Float)
  | attempts (network : String) (count : UInt32)
  | outcome (network action kind : String)

/-- All that has been recorded. -/
structure Records where
  attempts : Table Labels Histogram := []
  outcomes : Table Labels Nat := []
  durations : Table Labels Histogram := []

namespace Records

/-- Adds a sample to the series of some labels. -/
def sample (t : Table Labels Histogram) (bounds : List Float) (labels : Labels) (x : Float) : Table Labels Histogram :=
  t.set labels (((t.get? labels).getD (Histogram.empty bounds)).observe x)

/-- Records an event. -/
def record (r : Records) : Event → Records
  | .duration mode network seconds =>
    { r with durations := sample r.durations durationBounds [mode, network] seconds }
  | .attempts network count =>
    { r with attempts := sample r.attempts attemptBounds [network] (UInt64.ofNat count.toNat).toFloat }
  | .outcome network action kind =>
    let labels := [action, network, kind]
    { r with outcomes := r.outcomes.set labels ((r.outcomes.get? labels).getD 0 + 1) }

/-- The lines that show the records. -/
def lines (r : Records) : List String :=
  attemptsFamily.lines (.histograms r.attempts) ++ outcomesFamily.lines (.counters r.outcomes)
    ++ durationsFamily.lines (.histograms r.durations)

end Records

end OrderKeeper.Metrics
