import OrderKeeper.Job.Deadline
import OrderKeeper.Job.Retry
import OrderKeeper.Rehearsal.World
import OrderKeeper.Submission.Ending

/-!
# Acts of a rehearsal

What can be rehearsed: single dialogues, submissions with what is recorded of them, whole work items with their retries
and deadlines, and scripted attempts in their place.
-/

namespace OrderKeeper.Rehearsal

/-- When an act is cancelled, in milliseconds after its start. -/
structure Token where
  after? : Option Nat := none
  deriving DecidableEq, Repr

/-- Whether the token of an act that started at a time is cancelled. -/
def Token.isCancelled (t : Token) (start : Nat) (w : World) : Bool :=
  w.cancelled || t.after?.any fun n => start + n ≤ w.now

/-- Something to run in the world, with results in `α`. -/
structure Act (α : Type) where
  State : Type
  /-- Milliseconds before the start. -/
  startAt : Nat := 0
  token : Token := {}
  /-- Milliseconds after the start at which an unfinished act is given up. -/
  limit : Option Nat := none
  begin : World → World × State
  poll : (World → Bool) → World → State → World × Polled State α
  /-- What is given up with an act that has not ended. -/
  abandon : State → World → World

/-! ## Dialogues -/

/-- The result of a dialogue that nothing cancels. -/
def settled {α : Type} : Except Empty α → α
  | .ok a => a

/-- A poll with a function applied to its result. -/
def mapPolled {S α β : Type} (f : α → β) : Polled S α → Polled S β
  | .ready a => .ready (f a)
  | .waiting s wake => .waiting s wake

/-- An act with a function applied to its result. -/
def Act.map {α β : Type} (f : α → β) (t : Act α) : Act β where
  State := t.State
  startAt := t.startAt
  token := t.token
  limit := t.limit
  begin := t.begin
  poll cancelled w s :=
    let (w, p) := t.poll cancelled w s
    (w, mapPolled f p)
  abandon := t.abandon

/-- A dialogue with a ledger as an act. -/
def Act.ledger {α : Type} (chain : ChainInfo) (talk : LedgerDialogue α) : Act α where
  State := Course LedgerCall (fun c => Except Fault c.Answer) Empty α Wait
  begin w := (w, ⟨talk, none⟩)
  poll cancelled w c :=
    let (w, p) := c.poll (Place.ledger ⟨chain, 0⟩) cancelled w
    (w, mapPolled settled p)
  abandon _ w := w

/-- A lease as an act; it is kept under its ticket when the act has ended. -/
def Act.lease (chain : ChainInfo) (keeper : Address) : Act (Nonce.Ticket × Except Fault UInt64) where
  State := Nonce.Ticket × Wait
  begin w :=
    let (w, t) := w.takeTicket
    let (w, s) := (Place.lease ⟨chain, t⟩ keeper).begin w ()
    (w, t, s)
  poll _ w s :=
    let (t, s) := s
    let (w, p) := (Place.lease ⟨chain, t⟩ keeper).poll w () s
    (w, (mapPolled (fun r => (t, r)) p).mapState fun s => (t, s))
  abandon s w := w.drop s.1

/-- Watching a hash as an act. -/
def Act.watch (chain : ChainInfo) (watch : Watch) (token : Token) (limit : Nat) :
    Act (Except WaitFailure Receipt) where
  State := Course Submission.Question Submission.Question.Answer (Except WaitFailure Receipt)
    (Except WaitFailure Receipt) Wait
  token
  limit := some limit
  begin w := (w, ⟨.ask (.watch watch) (some watch.cancelled) .done, none⟩)
  poll cancelled w c :=
    let (w, p) := c.poll (Place.submission ⟨chain, 0⟩) cancelled w
    (w, mapPolled (fun | .ok r => r | .error r => r) p)
  abandon _ w := w

/-- An escalation with scripted broadcasts as an act. -/
def Act.escalation (chain : ChainInfo) (times : PollTimes) (maxAttempts : UInt32) (sends : Script Hash) (token : Token)
    (limit : Nat) : Act (Except (Escalation.Failure Fault) Receipt) where
  State := Course Escalation.Question (Escalation.Question.Answer Fault) WaitFailure
    (Except (Escalation.Failure Fault) Receipt) Wait
  token
  limit := some limit
  begin w := (w, ⟨Escalation.run maxAttempts, none⟩)
  poll cancelled w c :=
    let (w, p) := c.poll (Place.escalation ⟨chain, 0⟩ times sends) cancelled w
    (w, mapPolled (fun | .ok r => r | .error e => .error (.receipt e)) p)
  abandon _ w := w

/-! ## Submissions -/

/-- A submission under way. -/
structure Session where
  item : WorkItem
  place : Place
  startedAt : Nat
  course : Course Submission.Question Submission.Question.Answer KeeperError (Except KeeperError Outcome) Wait

namespace Session

/-- Begins a submission that takes its lease under a ticket. -/
def begin (settings : Settings) (item : WorkItem) (ticket : Nonce.Ticket) (w : World) : Session where
  item
  place := ⟨(w.chainOf item.target.network).toOption.getD ⟨item.target.network, 0⟩, ticket⟩
  startedAt := w.now
  course := ⟨Submission.run settings w.chainOf w.signer.hasKey item, none⟩

/-- A submission has ended: its lease is released, and its ending is recorded. -/
def finish (settings : Settings) (s : Session) (r : Except KeeperError Outcome) (w : World) : World :=
  let seconds := (UInt64.ofNat (w.now - s.startedAt)).toFloat / 1000.0
  let mode := Submission.modeOf settings s.item
  (w.drop s.place.ticket).record ((Submission.Ending.of r).events mode s.item seconds)

/-- Polls a submission. -/
def poll (settings : Settings) (cancelled : World → Bool) (w : World) (s : Session) :
    World × Polled Session (Except (Verdict KeeperError) Outcome) :=
  match s.course.poll s.place.submission cancelled w with
  | (w, .waiting c wake) => (w, .waiting { s with course := c } wake)
  | (w, .ready r) =>
    let r := match r with
      | .ok r => r
      | .error e => .error e
    (s.finish settings r w, .ready (r.mapError KeeperError.verdict))

end Session

/-- A submission as an act, or the error of a work item that could not be read. -/
def Act.submission (settings : Settings) (item : Except KeeperError WorkItem) (startAt : Nat) (token : Token)
    (limit : Nat) : Act (Except KeeperError (Except (Verdict KeeperError) Outcome)) where
  State := Except KeeperError Session
  startAt
  token
  limit := some limit
  begin w :=
    match item with
    | .error e => (w, .error e)
    | .ok item =>
      let (w, t) := w.takeTicket
      (w, .ok (Session.begin settings item t w))
  poll cancelled w
    | .error e => (w, .ready (.error e))
    | .ok s =>
      let (w, p) := s.poll settings cancelled w
      (w, (mapPolled .ok p).mapState .ok)
  abandon s w :=
    match s with
    | .error _ => w
    | .ok s => w.drop s.place.ticket

/-! ## Work items under retry -/

/-- What a work item under retry waits for. -/
inductive RetryWait (S : Type) where
  | attempt (s : Deadline S)
  | pause (ready : Nat)

/-- How attempts are made. -/
structure Attempts (S ε α : Type) where
  begin : UInt32 → World → World × S
  poll : (World → Bool) → World → S → World × Polled S (Except (Verdict ε) α)

/-- The world answers a work item under retry; each attempt has a deadline of its own. -/
def Attempts.surroundings {S ε α : Type} (a : Attempts S ε α) (timeout : Nat) (parent : World → Bool) :
    Surroundings World Retry.Question (Retry.Question.Answer ε α) (RetryWait S) where
  begin w
    | .attempt n =>
      let (w, s) := a.begin n w
      (w, .attempt ⟨w.now + timeout, false, s⟩)
    | .pause ms => (w, .pause (w.now + ms.toNat))
  poll w
    | .attempt _, .attempt d =>
      let (w, p) := d.poll World.now a.poll parent w
      (w, p.mapState .attempt)
    | .pause _, .pause ready => (w, if ready ≤ w.now then .ready () else .waiting (.pause ready) (some ready))
    | _, s => (w, .waiting s none)

/-- A work item under retry. -/
abbrev RetryCourse (S ε α : Type) :=
  Course Retry.Question (Retry.Question.Answer ε α) (Except ε α) (Except ε α) (RetryWait S)

/-- Polls a work item under retry. -/
def RetryCourse.poll {S ε α : Type} (a : Attempts S ε α) (timeout : Nat) (cancelled : World → Bool) (w : World)
    (c : RetryCourse S ε α) : World × Polled (RetryCourse S ε α) (Except ε α) :=
  let (w, p) := Course.poll (a.surroundings timeout cancelled) cancelled w c
  (w, mapPolled (fun | .ok r => r | .error r => r) p)

/-- The attempts at a work item, which are submissions. -/
def submissionAttempts (settings : Settings) (item : WorkItem) (ticket : Nonce.Ticket) :
    Attempts Session KeeperError Outcome where
  begin n w :=
    let w := w.write (.attempt n)
    (w, Session.begin settings item ticket w)
  poll := Session.poll settings

/-- A whole work item as an act: its action, if it could be read, and its result. -/
def Act.job (settings : Settings) (item : Except KeeperError WorkItem) (timeout startAt : Nat) (token : Token)
    (limit : Nat) : Act (Option Action × Except KeeperError Outcome) where
  State := Except KeeperError (WorkItem × Nonce.Ticket × RetryCourse Session KeeperError Outcome)
  startAt
  token
  limit := some limit
  begin w :=
    match item with
    | .error e => (w, .error e)
    | .ok item =>
      let (w, t) := w.takeTicket
      (w, .ok (item, t, ⟨Retry.run item.maxRetries, none⟩))
  poll cancelled w
    | .error e => (w, .ready (none, .error e))
    | .ok (item, t, c) =>
      let (w, p) := RetryCourse.poll (submissionAttempts settings item t) timeout cancelled w c
      (w, (mapPolled (fun r => (some item.action, r)) p).mapState fun c => .ok (item, t, c))
  abandon s w :=
    match s with
    | .error _ => w
    | .ok (_, t, _) => w.drop t

/-! ## Scripted attempts -/

/-- A scripted attempt: how long it takes, whether it cancels the work item, and its result. -/
structure ScriptedAttempt (ε α : Type) where
  takes : Nat
  cancels : Bool
  result : Except (Verdict ε) α

/-- Attempts by their numbers, counted from zero; the last repeats. -/
def scriptedAttempts {ε α : Type} (usual : ScriptedAttempt ε α) (attempts : List (ScriptedAttempt ε α)) :
    Attempts (Nat × ScriptedAttempt ε α) ε α where
  begin n w :=
    let a := (attempts[min n.toNat (attempts.length - 1)]?).getD usual
    (w.write (.attempt n), w.now + a.takes, a)
  poll _ w s :=
    if s.1 ≤ w.now then ({ w with cancelled := w.cancelled || s.2.cancels }, .ready s.2.result)
    else (w, .waiting s (some s.1))

/-- Scripted attempts under retry as an act. Their deadline is never reached. -/
def Act.retries {ε α : Type} (usual : ScriptedAttempt ε α) (attempts : List (ScriptedAttempt ε α))
    (maxRetries : UInt32) (token : Token) : Act (Except ε α) where
  State := RetryCourse (Nat × ScriptedAttempt ε α) ε α
  token
  begin w := (w, ⟨Retry.run maxRetries, none⟩)
  poll := RetryCourse.poll (scriptedAttempts usual attempts) UInt64.size
  abandon _ w := w

/-- An attempt that waits, and may notice that it is cancelled. -/
structure Patience where
  takes : Nat
  observes : Bool
  cleanup : Nat

/-- How far such an attempt is. -/
inductive Patience.State where
  | fresh
  | waiting (ready : Nat)
  | cleaning (ready : Nat)
  deriving DecidableEq, Repr

namespace Patience

/-- Polls an attempt that has noticed its cancellation. -/
def pollCleaning (cancelled : World → Bool) (w : World) (ready : Nat) : World × Polled State Bool :=
  (w, if ready ≤ w.now then .ready (cancelled w) else .waiting (.cleaning ready) (some ready))

/-- Polls an attempt that waits. -/
def pollWaiting (p : Patience) (cancelled : World → Bool) (w : World) (ready : Nat) : World × Polled State Bool :=
  if ready ≤ w.now then (w, .ready (cancelled w))
  else if p.observes && cancelled w then pollCleaning cancelled (w.write .noticed) (w.now + p.cleanup)
  else (w, .waiting (.waiting ready) (some ready))

/-- Polls the attempt; its result is whether it is cancelled at its end. -/
def poll (p : Patience) (cancelled : World → Bool) (w : World) : State → World × Polled State Bool
  | .fresh => p.pollWaiting cancelled (w.write (.start (cancelled w))) (w.now + p.takes)
  | .waiting ready => p.pollWaiting cancelled w ready
  | .cleaning ready => pollCleaning cancelled w ready

end Patience

/-- Such an attempt with a deadline as an act. -/
def Act.deadline (p : Patience) (timeout : Nat) (token : Token) : Act Bool where
  State := Deadline Patience.State
  token
  begin w := (w, ⟨w.now + timeout, false, .fresh⟩)
  poll cancelled w d := d.poll World.now p.poll cancelled w
  abandon _ w := w

end OrderKeeper.Rehearsal
