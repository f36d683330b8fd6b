import OrderKeeper.Rehearsal.Act

/-!
# Running acts

Acts run side by side in one time. They are polled in their order, again and again until none of them can go on; then
the time moves to the next moment at which one can.
-/

namespace OrderKeeper.Rehearsal

/-- Where an act stands. -/
inductive Standing (α : Type) where
  | unstarted (act : Act α) (start : Nat)
  | running (act : Act α) (start : Nat) (state : act.State) (wake : Option Nat)
  | finished (result : α)
  /-- The act was given up at its limit. -/
  | abandoned

namespace Standing

variable {α : Type}

/-- Polls an act that has started. -/
def pollRunning (act : Act α) (start : Nat) (state : act.State) (w : World) : World × Standing α :=
  match act.poll (act.token.isCancelled start) w state with
  | (w, .ready a) => (w, .finished a)
  | (w, .waiting state wake) =>
    if act.limit.any fun n => start + n ≤ w.now then (act.abandon state w, .abandoned)
    else (w, .running act start state wake)

/-- Polls an act. -/
def poll (w : World) : Standing α → World × Standing α
  | .unstarted act start =>
    if start ≤ w.now then
      let (w, state) := act.begin w
      pollRunning act start state w
    else (w, .unstarted act start)
  | .running act start state _ => pollRunning act start state w
  | s => (w, s)

/-- The next time after `now` at which polling may show more. -/
def wake (now : Nat) : Standing α → Option Nat
  | .unstarted _ start => some start
  | .running act start _ wake =>
    let later (t : Option Nat) := t.filter (now < ·)
    earlier (later wake)
      (earlier (later (act.limit.map (start + ·))) (later (act.token.after?.map (start + ·))))
  | _ => none

/-- The result of an act that was not given up. -/
def result? : Standing α → Option α
  | .finished a => some a
  | _ => none

/-- Whether an act has ended. -/
def isOver : Standing α → Bool
  | .finished _ | .abandoned => true
  | _ => false

end Standing

variable {α : Type}

/-- Polls each act once, in order. -/
def pollAll (w : World) : List (Standing α) → World × List (Standing α)
  | [] => (w, [])
  | s :: ss =>
    let (w, s) := s.poll w
    let (w, ss) := pollAll w ss
    (w, s :: ss)

/-- Polls until no lease changes hands any more; `fuel` bounds the rounds. -/
def pollRounds : Nat → World → List (Standing α) → World × List (Standing α)
  | 0, w, ss => (w, ss)
  | fuel + 1, w, ss =>
    let (w', ss) := pollAll w ss
    if w'.allocator = w.allocator then (w', ss) else pollRounds fuel w' ss

/-- The next time at which an act can go on. -/
def nextWake (now : Nat) (ss : List (Standing α)) : Option Nat :=
  ss.foldl (fun t s => earlier t (s.wake now)) none

/-- Runs acts to their ends; `fuel` bounds the moments at which the time stops. -/
def runFrom : Nat → World → List (Standing α) → World × List (Standing α)
  | 0, w, ss => (w, ss)
  | fuel + 1, w, ss =>
    let (w, ss) := pollRounds (8 * ss.length + 8) w ss
    if ss.all Standing.isOver then (w, ss)
    else
      match nextWake w.now ss with
      | some t => runFrom fuel { w with now := max t w.now } ss
      | none => (w, ss)

/-- A bound on the moments at which the time stops. -/
def maxMoments : Nat := 0x10000000000

/-- Runs acts side by side; the result of an act that was given up is none. -/
def run (w : World) (acts : List (Act α)) : World × List (Option α) :=
  let (w, ss) := runFrom maxMoments w (acts.map fun t => .unstarted t (w.now + t.startAt))
  (w, ss.map Standing.result?)

/-- Runs one act. -/
def runOne (w : World) (act : Act α) : World × Option α :=
  let (w, rs) := run w [act]
  (w, rs.head?.join)

/-- Lets time pass. -/
def World.wait (w : World) (ms : Nat) : World := { w with now := w.now + ms }

end OrderKeeper.Rehearsal
