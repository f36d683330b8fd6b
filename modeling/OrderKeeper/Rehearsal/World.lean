import OrderKeeper.Metrics.Submission
import OrderKeeper.Nonce.Allocator
import OrderKeeper.Polling
import OrderKeeper.Rehearsal.Ledger
import OrderKeeper.Submission.Run

/-!
# The world of a rehearsal

Scripted ledgers and a scripted signer in a time that passes only while everyone waits. Every call is written to a log
when it begins.
-/

namespace OrderKeeper.Rehearsal

/-- What is written to the log. -/
inductive Event where
  | ledger (chainId : UInt64) (call : LedgerCall)
  | sign (options : SigningOptions) (transaction : Transaction)
  /-- A scripted broadcast of an escalation. -/
  | broadcast (attempt : UInt32)
  /-- An attempt at a work item. -/
  | attempt (retry : UInt32)
  /-- A scripted attempt starts, knowing whether it is cancelled. -/
  | start (cancelled : Bool)
  /-- A scripted attempt notices that it is cancelled. -/
  | noticed

/-- A scripted signer. -/
structure Signer where
  hasKey : Address → Bool
  /-- The result of a signing by its number, counted from one. -/
  sign : Nat → SigningOptions → Transaction → Except Fault SignedTransaction

/-- The world of a rehearsal; times are in milliseconds from its start. -/
structure World where
  now : Nat := 0
  ledgers : Table String Ledger := []
  signer : Signer
  signings : Nat := 0
  allocator : Nonce.Allocator := {}
  /-- The tickets given out for leases. -/
  tickets : Nat := 0
  records : Metrics.Records := {}
  /-- The log with its times, last entry first. -/
  log : List (Nat × Event) := []
  /-- Whether a scripted attempt has cancelled itself. -/
  cancelled : Bool := false

namespace World

/-- Writes to the log. -/
def write (w : World) (e : Event) : World := { w with log := (w.now, e) :: w.log }

/-- A ticket that is not in use. -/
def takeTicket (w : World) : World × Nonce.Ticket := ({ w with tickets := w.tickets + 1 }, w.tickets)

/-- Makes steps of a request for a lease, as far as they are possible. -/
def attempt (w : World) (t : Nonce.Ticket) (steps : List Nonce.Step) : World :=
  { w with allocator := w.allocator.attempt t steps }

/-- Gives up what a ticket stands for. -/
def drop (w : World) (t : Nonce.Ticket) : World := w.attempt t [.release, .abandon]

/-- Records events. -/
def record (w : World) (es : List Metrics.Event) : World :=
  { w with records := es.foldl Metrics.Records.record w.records }

/-- The chain of a network. -/
def chainOf (w : World) (network : String) : Except Fault ChainInfo :=
  match w.ledgers.get? network with
  | some l => .ok ⟨network, l.chainId⟩
  | none => .error (.configuration ("network " ++ network ++ " is not supported"))

end World

/-- A chain in the world, and the ticket of whoever speaks with it. -/
structure Place where
  chain : ChainInfo
  ticket : Nonce.Ticket

/-- What a question waits for. -/
inductive Wait where
  | until (ready : Nat)
  /-- The answer to the call of this number. -/
  | call (ready number : Nat)
  | gate
  /-- The pending nonce, asked for by the call of this number. -/
  | nonce (ready number : Nat)
  /-- A look-up of a watch after `polls` others. -/
  | look (polls ready number : Nat)
  /-- The next look-up of a watch. -/
  | rest (polls ready : Nat)
  deriving DecidableEq, Repr

namespace Place

/-- Begins a call: its log entry, its number, and the time of its answer. -/
def beginCall (p : Place) (w : World) (c : LedgerCall) : World × Nat × Nat :=
  let w := w.write (.ledger p.chain.chainId c)
  match w.ledgers.get? p.chain.network with
  | none => (w, w.now, 0)
  | some l =>
    let (l, number) := l.begin c
    ({ w with ledgers := w.ledgers.set p.chain.network l }, w.now + l.delay number c, number)

/-- The answer to a call. -/
def replyTo (p : Place) (w : World) (number : Nat) (c : LedgerCall) : Except Fault c.Answer :=
  match w.ledgers.get? p.chain.network with
  | none => .error (.internal "no such ledger")
  | some l => l.reply w.now number c

/-- The ledger answers calls. -/
def ledger (p : Place) : Surroundings World LedgerCall (fun c => Except Fault c.Answer) Wait where
  begin w c :=
    let (w, ready, number) := p.beginCall w c
    (w, .call ready number)
  poll w c
    | .call ready number =>
      (w, if ready ≤ w.now then .ready (p.replyTo w number c) else .waiting (.call ready number) (some ready))
    | s => (w, .waiting s none)

/-- The key of a keeper's nonces. -/
def key (p : Place) (keeper : Address) : Nonce.Key := ⟨p.chain.chainId, keeper⟩

/-- Looks for the pending nonce, which settles the lease. -/
def pollNonce (p : Place) (w : World) (keeper : Address) (ready number : Nat) :
    World × Polled Wait (Except Fault UInt64) :=
  if ready ≤ w.now then
    match p.replyTo w number (.pendingNonce keeper) with
    | .ok n => (w.attempt p.ticket [.answer n, .settle, .leave], .ready (.ok n))
    | .error f => (w.attempt p.ticket [.fail], .ready (.error f))
  else (w, .waiting (.nonce ready number) (some ready))

/-- Looks whether a request for a lease has obtained it or is admitted to ask the ledger. -/
def pollGate (p : Place) (w : World) (keeper : Address) : World × Polled Wait (Except Fault UInt64) :=
  let w := w.attempt p.ticket [.recheck, .leave, .ask]
  match (w.allocator.requests.get? p.ticket).map Nonce.Request.stage with
  | some (.leased n) => (w, .ready (.ok n))
  | some .querying =>
    let (w, ready, number) := p.beginCall w (.pendingNonce keeper)
    p.pollNonce w keeper ready number
  | _ => (w, .waiting .gate none)

/-- Answers a request for a lease. -/
def lease (p : Place) (keeper : Address) : Surroundings World Unit (fun _ => Except Fault UInt64) Wait where
  begin w _ := (w.attempt p.ticket [.begin (p.key keeper), .join], .gate)
  poll w _
    | .nonce ready number => p.pollNonce w keeper ready number
    | _ => p.pollGate w keeper

/-- Carries a watch on; `fuel` bounds the look-ups of one poll. -/
def pollWatch (p : Place) (watch : Watch) : Nat → World → Wait → World × Polled Wait (Except WaitFailure Receipt)
  | 0, w, s => (w, .waiting s (some (w.now + 1)))
  | fuel + 1, w, .look polls ready number =>
    if ready ≤ w.now then
      match watch.answer polls (p.replyTo w number (.receipt watch.hash)) with
      | .ended r => (w, .ready r)
      | .pausing polls => p.pollWatch watch fuel w (.rest polls (w.now + watch.interval.toNat))
      | .looking polls => (w, .waiting (.rest polls w.now) (some w.now))
    else (w, .waiting (.look polls ready number) (some ready))
  | fuel + 1, w, .rest polls ready =>
    if ready ≤ w.now then
      let (w, ready, number) := p.beginCall w (.receipt watch.hash)
      p.pollWatch watch fuel w (.look polls ready number)
    else (w, .waiting (.rest polls ready) (some ready))
  | _, w, s => (w, .waiting s none)

/-- The look-ups and pauses of a watch in one poll; only a watch without pauses can use them up. -/
def watchFuel : Nat := 2000000

/-- The world answers a submission. -/
def submission (p : Place) : Surroundings World Submission.Question Submission.Question.Answer Wait where
  begin w
    | .ledger c => p.ledger.begin w c
    | .lease keeper => (p.lease keeper).begin w ()
    | .sign options transaction =>
      let w := w.write (.sign options transaction)
      ({ w with signings := w.signings + 1 }, .call w.now (w.signings + 1))
    | .pause ms => (w, .until (w.now + ms.toNat))
    | .watch _ => (w, .rest 0 w.now)
  poll w
    | .ledger c, s => p.ledger.poll w c s
    | .lease keeper, s => (p.lease keeper).poll w () s
    | .sign options transaction, .call _ number => (w, .ready (w.signer.sign number options transaction))
    | .pause _, .until ready => (w, if ready ≤ w.now then .ready () else .waiting (.until ready) (some ready))
    | .watch watch, s => p.pollWatch watch watchFuel w s
    | _, s => (w, .waiting s none)

/-- The world answers an escalation whose broadcasts are scripted. -/
def escalation (p : Place) (times : PollTimes) (sends : Script Hash) :
    Surroundings World Escalation.Question (Escalation.Question.Answer Fault) Wait where
  begin w
    | .send attempt => (w.write (.broadcast attempt), .until (w.now + (sends.entry attempt.toNat).delay))
    | .pause => (w, .until (w.now + times.escalationWait.toNat))
    | .lookup hash => p.ledger.begin w (.receipt hash)
  poll w
    | .send attempt, .until ready =>
      (w, if ready ≤ w.now then .ready (sends.entry attempt.toNat).reply else .waiting (.until ready) (some ready))
    | .pause, .until ready => (w, if ready ≤ w.now then .ready () else .waiting (.until ready) (some ready))
    | .lookup hash, s => p.ledger.poll w (.receipt hash) s
    | _, s => (w, .waiting s none)

end Place

end OrderKeeper.Rehearsal
