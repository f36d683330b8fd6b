import OrderKeeper.Nonce.Allocator
import OrderKeeper.Submission.Run

/-!
# Submissions side by side

Any number of submissions that share one allocator, step by step. Between any two steps of one submission all others may
make steps of theirs, ledger and signer may answer anything, and whoever waits may be cancelled or given up.

- `Task.turn?` is the next step of one submission: how a question is put and how its answer is found. A lease is taken
  through the allocator in the steps of its request; a watch looks up its hash again and again.
- `Floor.apply` makes a step, if it is possible, and writes what can be seen of it to the log of the submission.
- A submission that has ended, in whatever way, is closed by one more step, which gives back what its ticket stands for.
-/

namespace OrderKeeper.Submission

open Nonce (Ticket Key Stage Allocator)

/-- What can be seen of a submission. -/
inductive Event where
  /-- It begins to ask for a nonce of a keeper. -/
  | requested (keeper : Address)
  | called (call : LedgerCall)
  | replied (call : LedgerCall) (answer : Except Fault call.Answer)
  /-- Its lease is live. -/
  | leased (nonce : UInt64)
  | released

/-- Whether a lease becomes live. -/
def Event.isLeased : Event → Bool
  | leased _ => true
  | _ => false

/-- Whether a lease is released. -/
def Event.isReleased : Event → Bool
  | released => true
  | _ => false

/-- The call that is made. -/
def Event.call? : Event → Option LedgerCall
  | called c => some c
  | _ => none

/-- Whether a call is answered. -/
def Event.isReply : Event → Bool
  | replied .. => true
  | _ => false

/-- The transaction that is handed to the node. -/
def Event.sent? : Event → Option SignedTransaction
  | called (.send x) => some x
  | _ => none

/-- How the ledger and the signer answer at some moment. -/
structure Answers where
  ledger : (call : LedgerCall) → Except Fault call.Answer
  signer : SigningOptions → Transaction → Except Fault SignedTransaction
  /-- What is signed is the transaction that was given. -/
  faithful : ∀ {o t s}, signer o t = .ok s → s.transaction = t

/-- What a submission starts from. -/
structure Brief where
  settings : Settings
  chainOf : String → Except Fault ChainInfo
  hasKey : Address → Bool
  item : WorkItem

namespace Brief

/-- The whole course of the submission. -/
def course (b : Brief) : Talk KeeperError (Except KeeperError Outcome) := run b.settings b.chainOf b.hasKey b.item

/-- The chain of the submission; one without a chain asks for nothing. -/
def chainId (b : Brief) : UInt64 :=
  match b.chainOf b.item.target.network with
  | .ok chain => chain.chainId
  | .error _ => 0

/-- The account whose nonce it leases. -/
def key (b : Brief) : Key := ⟨b.chainId, b.item.target.keeper⟩

end Brief

/-- What the question of a submission waits for. -/
inductive Wait where
  /-- Nothing yet. -/
  | idle
  /-- The ledger's answer. -/
  | reply
  /-- A lease. -/
  | lease
  /-- A receipt. -/
  | watch (state : Watch.State)

/-- How a submission ended. -/
inductive Exit where
  | finished (result : Except KeeperError Outcome)
  /-- It was cancelled while it waited. -/
  | stopped (error : KeeperError)
  /-- It was given up while it waited. -/
  | dropped

/-- Where a submission stands. -/
inductive Standing where
  | underWay (talk : Talk KeeperError (Except KeeperError Outcome)) (wait : Wait)
  /-- It has ended and may still hold a lease or a place at the gate. -/
  | closing (exit : Exit)
  | ended (exit : Exit)

/-- Whether the submission is over. -/
def Standing.isOver : Standing → Bool
  | ended _ => true
  | underWay .. | closing _ => false

/-- Whether the submission waits for a lease. -/
def Standing.awaitsLease : Standing → Bool
  | underWay _ .lease => true
  | _ => false

/-- A submission with its log. -/
structure Task where
  brief : Brief
  log : List Event := []
  standing : Standing

/-- The next step of a submission: what its request for a lease does, what is seen, and where the submission stands
then. -/
structure Turn where
  step : Option Nonce.Step := none
  event : Option Event := none
  standing : Standing

/-- What is done with a submission. -/
inductive Act where
  | enter (brief : Brief)
  /-- It goes on with what the ledger and the signer answer now. -/
  | go (answers : Answers)
  | stop
  | drop
  | close

/-- Whether a request at this stage waits, so that it can be given up; a live lease can always be released. -/
def canLetGo : Option Stage → Bool
  | none | some .waiting | some .querying | some (.answered _) | some (.leased _) => true
  | some .arriving | some .admitted | some (.settled _) => false

/-- The nonce of a lease that becomes live when the stage of its request changes. -/
def issued? (before after : Option Stage) : Option UInt64 :=
  match before.bind Stage.nonce? with
  | none => after.bind Stage.nonce?
  | some _ => none

namespace Task

variable (b : Brief) (x : Answers) (keeper : Address)

/-- The next step of a submission that waits for its lease, whose request is at some stage. -/
def leaseTurn (talk : Talk KeeperError (Except KeeperError Outcome))
    (next : Except Fault UInt64 → Talk KeeperError (Except KeeperError Outcome)) : Stage → Turn
  | .arriving => { step := some .join, standing := .underWay talk .lease }
  | .waiting => { step := some .recheck, standing := .underWay talk .lease }
  | .admitted =>
    { step := some .ask, event := some (.called (.pendingNonce keeper)), standing := .underWay talk .lease }
  | .querying =>
    let event := Event.replied (.pendingNonce keeper) (x.ledger (.pendingNonce keeper))
    match x.ledger (.pendingNonce keeper) with
    | .ok p => { step := some (.answer p), event, standing := .underWay talk .lease }
    | .error f => { step := some .fail, event, standing := .underWay (next (.error f)) .idle }
  | .answered _ => { step := some .settle, standing := .underWay talk .lease }
  | .settled _ => { step := some .leave, standing := .underWay talk .lease }
  | .leased n => { standing := .underWay (next (.ok n)) .idle }

/-- The next step of a submission under way. -/
def goTurn? (stage : Option Stage) : Talk KeeperError (Except KeeperError Outcome) → Wait → Option Turn
  | .done r, .idle => some { standing := .closing (.finished r) }
  | .ask (.ledger c) stop next, .idle =>
    some { event := some (.called c), standing := .underWay (.ask (.ledger c) stop next) .reply }
  | .ask (.ledger c) _ next, .reply =>
    some { event := some (.replied c (x.ledger c)), standing := .underWay (next (x.ledger c)) .idle }
  | .ask (.sign o t) _ next, .idle => some { standing := .underWay (next (x.signer o t)) .idle }
  | .ask (.pause _) _ next, .idle => some { standing := .underWay (next ()) .idle }
  | .ask (.lease keeper) stop next, .idle =>
    some {
      step := some (.begin ⟨b.chainId, keeper⟩)
      event := some (.requested keeper)
      standing := .underWay (.ask (.lease keeper) stop next) .lease }
  | .ask (.lease keeper) stop next, .lease => stage.map (leaseTurn x keeper (.ask (.lease keeper) stop next) next)
  | .ask (.watch w) stop next, .idle =>
    some {
      event := some (.called (.receipt w.hash))
      standing := .underWay (.ask (.watch w) stop next) (.watch Watch.start) }
  | .ask (.watch w) stop next, .watch (.looking polls) =>
    let event := Event.replied (.receipt w.hash) (x.ledger (.receipt w.hash))
    match w.answer polls (x.ledger (.receipt w.hash)) with
    | .ended r => some { event, standing := .underWay (next r) .idle }
    | state => some { event, standing := .underWay (.ask (.watch w) stop next) (.watch state) }
  | .ask (.watch w) stop next, .watch (.pausing polls) =>
    some {
      event := some (.called (.receipt w.hash))
      standing := .underWay (.ask (.watch w) stop next) (.watch (Watch.wake polls)) }
  | _, _ => none

/-- The next step of a submission whose request for a lease, if it has one, is at some stage. -/
def turn? (task : Task) (stage : Option Stage) : Act → Option Turn
  | .enter _ => none
  | .go x =>
    match task.standing with
    | .underWay talk wait => goTurn? task.brief x stage talk wait
    | _ => none
  | .stop =>
    match task.standing with
    | .underWay (.ask _ (some e) _) _ => if canLetGo stage then some { standing := .closing (.stopped e) } else none
    | _ => none
  | .drop =>
    match task.standing with
    | .underWay _ _ => if canLetGo stage then some { standing := .closing .dropped } else none
    | _ => none
  | .close =>
    match task.standing, stage with
    | .closing e, none => some { standing := .ended e }
    | .closing e, some (.leased _) => some { step := some .release, event := some .released, standing := .ended e }
    | .closing e, some _ => some { step := some .abandon, standing := .ended e }
    | _, _ => none

end Task

/-- All submissions and the allocator that they share. -/
structure Floor where
  allocator : Allocator := {}
  tasks : Table Ticket Task := []

/-- A step of one submission. -/
structure Floor.Move where
  ticket : Ticket
  act : Act

namespace Floor

/-- Makes the step of a request for a lease, if there is one to make. -/
def carry? (f : Floor) (t : Ticket) : Option Nonce.Step → Option Allocator
  | none => some f.allocator
  | some s => f.allocator.apply ⟨t, s⟩

/-- Writes down a turn that has led to a state of the allocator; a lease that becomes live is seen last. -/
def record (f : Floor) (t : Ticket) (task : Task) (turn : Turn) (a : Allocator) : Floor where
  allocator := a
  tasks :=
    let issued := issued? (f.allocator.stage? t) (a.stage? t)
    let seen := turn.event.toList ++ issued.toList.map Event.leased
    f.tasks.set t { task with log := task.log ++ seen, standing := turn.standing }

/-- Makes a step, if it is possible. -/
def apply (f : Floor) (m : Move) : Option Floor :=
  match f.tasks.get? m.ticket, m.act with
  | none, .enter b => some { f with tasks := f.tasks.set m.ticket { brief := b, standing := .underWay b.course .idle } }
  | none, _ => none
  | some task, act =>
    (task.turn? (f.allocator.stage? m.ticket) act).bind fun turn =>
      (f.carry? m.ticket turn.step).map (f.record m.ticket task turn)

/-- Makes steps in a row, if all of them are possible. -/
def run? (f : Floor) (ms : List Move) : Option Floor := ms.foldlM apply f

end Floor

end OrderKeeper.Submission
