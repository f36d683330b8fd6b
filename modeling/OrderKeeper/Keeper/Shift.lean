import OrderKeeper.Keeper.Basic
import OrderKeeper.Keeper.Desk
import OrderKeeper.Submission.History

/-!
# A shift of the keeper

All that a keeper does with the lines of its input, step by step. Lines are read one after the other; every job makes its
attempts, each of which is a submission, and pauses between them. Jobs and submissions go on side by side, so that steps
of any of them may follow each other.

- An attempt begins with a submission of a new ticket (`attempt`), which is stopped at its deadline or when the keeper
  closes (`stop`), and is reported to its job when it is over (`report`).
- A keeper that closes reads nothing more and cuts pauses short (`quit`); attempts are seen through to their end.
-/

namespace OrderKeeper

open Nonce (Ticket)
open Submission (Floor Answers)

/-- What the submission of a work item starts from. -/
def Keeper.brief (k : Keeper) (item : WorkItem) : Submission.Brief := ⟨k.settings, k.chainOf, k.keyring.has, item⟩

/-- A keeper at its work. -/
structure Shift where
  /-- The lines that have not been read. -/
  input : List String
  /-- How many lines have been read. -/
  taken : Nat := 0
  desk : Desk := {}
  /-- The submissions of all attempts. -/
  floor : Floor := {}
  /-- The attempts that jobs wait for. -/
  pending : Table Nat Ticket := []
  /-- All attempts so far, each with its job, first one first. -/
  attempts : List (Nat × Ticket) := []
  closing : Bool := false

/-- A step of a keeper. -/
inductive Shift.Move where
  | read
  | attempt (job : Nat) (ticket : Ticket)
  /-- A submission goes on with what the ledger and the signer answer now. -/
  | go (ticket : Ticket) (answers : Answers)
  /-- Its deadline has passed, or the keeper closes. -/
  | stop (ticket : Ticket)
  | close (ticket : Ticket)
  /-- A job learns of the end of its attempt. -/
  | report (job : Nat)
  /-- The pause of a job is over. -/
  | resume (job : Nat)
  | shutdown
  /-- The pause of a job is cut short. -/
  | quit (job : Nat)

namespace Shift

/-- The step of a submission under way. -/
def Move.work? : Move → Option Floor.Move
  | go t x => some ⟨t, .go x⟩
  | stop t => some ⟨t, .stop⟩
  | close t => some ⟨t, .close⟩
  | read | attempt .. | report _ | resume _ | shutdown | quit _ => none

/-- The beginning of the shift. -/
def start (lines : List String) : Shift := { input := lines }

/-- Whether nothing is left to do. -/
def isDone (s : Shift) : Bool := s.input.isEmpty && s.desk.jobs.isEmpty

/-- The tickets of the attempts of a job, first one first. -/
def attemptsOf (s : Shift) (n : Nat) : List Ticket := (s.attempts.filter (·.1 = n)).map (·.2)

/-- What the last attempt of a job has handed back. -/
def lastResult? (s : Shift) (n : Nat) : Option (Except KeeperError Outcome) :=
  (s.attemptsOf n).getLast?.bind s.floor.result?

/-- The transactions that the attempts of a job have handed to their nodes, those of the first attempt first. -/
def broadcasts (s : Shift) (n : Nat) : List SignedTransaction :=
  (s.attemptsOf n).flatMap fun t => Submission.sends (s.floor.logOf t)

variable (k : Keeper) (ids : Nat → String)

/-- Makes a step of a submission. -/
def work (s : Shift) (m : Floor.Move) : Option Shift := (s.floor.apply m).map fun f => { s with floor := f }

/-- Makes a step, if it is possible; jobs are named by the numbers of their lines. -/
def apply (s : Shift) : Move → Option Shift
  | .read =>
    match s.closing, s.input with
    | false, line :: rest =>
      some { s with input := rest, taken := s.taken + 1, desk := s.desk.read s.taken (ids s.taken) line }
    | _, _ => none
  | .attempt n t =>
    match s.desk.jobs.get? n, s.pending.get? n with
    | some ⟨_, item, .ask (.attempt _) _ _⟩, none =>
      (s.floor.apply ⟨t, .enter (k.brief item)⟩).map fun f =>
        { s with floor := f, pending := s.pending.set n t, attempts := s.attempts ++ [(n, t)] }
    | _, _ => none
  | .go t x => s.work ⟨t, .go x⟩
  | .stop t => s.work ⟨t, .stop⟩
  | .close t => s.work ⟨t, .close⟩
  | .report n =>
    match s.desk.jobs.get? n, s.pending.get? n with
    | some ⟨jobId, item, .ask (.attempt _) _ next⟩, some t =>
      (s.floor.result? t).map fun result =>
        { s with
          desk := s.desk.put n ⟨jobId, item, next (result.mapError KeeperError.verdict)⟩
          pending := s.pending.erase n }
    | _, _ => none
  | .resume n =>
    match s.closing, s.desk.jobs.get? n with
    | false, some ⟨jobId, item, .ask (.pause _) _ next⟩ => some { s with desk := s.desk.put n ⟨jobId, item, next ()⟩ }
    | _, _ => none
  | .shutdown => some { s with closing := true }
  | .quit n =>
    match s.closing, s.desk.jobs.get? n with
    | true, some ⟨jobId, item, .ask (.pause _) (some result) _⟩ =>
      some { s with desk := s.desk.put n ⟨jobId, item, .done result⟩ }
    | _, _ => none

/-- Makes steps in a row, if all of them are possible. -/
def run? (s : Shift) (ms : List Move) : Option Shift := ms.foldlM (apply k ids) s

end Shift

end OrderKeeper
