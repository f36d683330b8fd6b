import OrderKeeper.Proofs.Job.Deadline
import OrderKeeper.Proofs.Job.Retry
import OrderKeeper.Proofs.Rehearsal.Timed

/-!
# Rehearsals of retries

A rehearsal of scripted attempts is a work item under retry in time (`RetryScript.course_of_runOne`): its result, the time of
its end and its log are those of the course whose attempts are as the script says. So what is true of every course is true
of every rehearsal.
-/

namespace OrderKeeper

namespace Rehearsal

open Dialogue (Put)
open Retry (Question)

variable {ε α : Type}

/-- What goes to the log when a question is put. -/
def logged (p : Put Question (Question.Answer ε α)) : Option (Nat × Event) :=
  match p.question with
  | .attempt n => some (p.begun, .attempt n)
  | .pause _ => none

/-- Scripted attempts in a world in which nothing is cancelled yet. None takes so long that its deadline is reached. -/
structure RetryScript (ε α : Type) where
  usual : ScriptedAttempt ε α
  attempts : List (ScriptedAttempt ε α)
  maxRetries : UInt32
  token : Token
  world : World
  calm : world.cancelled = false
  brief : ∀ a ∈ usual :: attempts, a.takes < UInt64.size

namespace RetryScript

variable {o : RetryScript ε α} {ps : List (Put Question (Question.Answer ε α))} {w : World}

/-- Attempt number `n`. -/
def attempt (o : RetryScript ε α) (n : UInt32) : ScriptedAttempt ε α :=
  (o.attempts[min n.toNat (o.attempts.length - 1)]?).getD o.usual

/-- What comes of the attempts. -/
def behaviour (o : RetryScript ε α) : Retry.Behaviour ε α := fun n _ =>
  { takes := (o.attempt n).takes, answer := (o.attempt n).result, cancels := (o.attempt n).cancels }

/-- The work item in time. -/
def course (o : RetryScript ε α) : Retry.History ε α :=
  Retry.course o.maxRetries o.behaviour (o.token.after?.map (o.world.now + ·)) o.world.now

theorem takes_lt (o : RetryScript ε α) (n : UInt32) : (o.attempt n).takes < UInt64.size := by
  refine o.brief _ ?_
  rw [attempt]
  cases ha : o.attempts[min n.toNat (o.attempts.length - 1)]? with
  | none => exact List.mem_cons_self
  | some a => exact List.mem_cons_of_mem _ (List.mem_of_getElem? ha)

/-- Attempt number `n`, begun at the time `t`, under its deadline. -/
def deadline (o : RetryScript ε α) (t : Nat) (n : UInt32) : Deadline (Nat × ScriptedAttempt ε α) where
  expiresAt := t + UInt64.size
  inner := (t + (o.attempt n).takes, o.attempt n)

/-- The state of a question that was put at the time `t`. -/
def waiting (o : RetryScript ε α) (t : Nat) : Question → RetryWait (Nat × ScriptedAttempt ε α)
  | .attempt n => .attempt (o.deadline t n)
  | .pause ms => .pause (t + ms.toNat)

section

variable {t : Nat} {n : UInt32} (parent : World → Bool)

theorem poll_deadline_early (h : w.now < t + (o.attempt n).takes) :
    (o.deadline t n).poll World.now (scriptedAttempts o.usual o.attempts).poll parent w =
      (w, .waiting (o.deadline t n) (some (t + (o.attempt n).takes))) := by
  have htakes := o.takes_lt n
  have hpoll (cancelled : World → Bool) :
      (scriptedAttempts o.usual o.attempts).poll cancelled w (o.deadline t n).inner =
        (w, .waiting (o.deadline t n).inner (some (t + (o.attempt n).takes))) := if_neg (Nat.not_le.2 h)
  have hexpires : w.now < t + UInt64.size := by omega
  rw [Deadline.poll_of_waiting (hpoll _) rfl hexpires]
  have hwake : min (t + (o.attempt n).takes) (t + UInt64.size) = t + (o.attempt n).takes := by omega
  exact congrArg (fun t => (w, Polled.waiting _ (some t))) hwake

theorem poll_deadline_due (h : w.now = t + (o.attempt n).takes) :
    (o.deadline t n).poll World.now (scriptedAttempts o.usual o.attempts).poll parent w =
      ({ w with cancelled := w.cancelled || (o.attempt n).cancels }, .ready (o.attempt n).result) :=
  Deadline.poll_of_ready (if_pos (Nat.le_of_eq h.symm))

end

/-- The attempts are in the log, and the world is cancelled by them. -/
structure Logged (o : RetryScript ε α) (ps : List (Put Question (Question.Answer ε α))) (w : World) : Prop where
  log : w.log = (ps.filterMap logged).reverse ++ o.world.log
  cancelled : w.cancelled = cancelledIn ps

/-- The script with what a world shows of it. -/
def staging (o : RetryScript ε α) : Staging Question (Question.Answer ε α) (Except ε α) (Except ε α) (Except ε α)
    (RetryWait (Nat × ScriptedAttempt ε α)) where
  talk := Retry.run o.maxRetries
  surroundings := (scriptedAttempts o.usual o.attempts).surroundings UInt64.size
  finish
    | .ok r => r
    | .error r => r
  token := o.token
  start := o.world.now
  reply := (Retry.conditions o.behaviour none).reply
  view :=
    { Idle := o.Logged
      Awaits ps q t s w := o.Logged (ps ++ [⟨q, t, none⟩]) w ∧ s = o.waiting t q }

/-- The log does not show whether a question has been answered. -/
theorem filterMap_logged_append (ps : List (Put Question (Question.Answer ε α))) (q : Question) (t : Nat)
    (y : Option (Dialogue.Reply (q.Answer ε α))) :
    List.filterMap logged (ps ++ [⟨q, t, y⟩]) = List.filterMap logged (ps ++ [⟨q, t, none⟩]) := by
  rw [List.filterMap_append, List.filterMap_append]
  rfl

/-- The world answers the script as the script says. -/
theorem keepsTo (o : RetryScript ε α) (parent : World → Bool) :
    o.staging.view.KeepsTo (o.staging.surroundings parent) o.staging.conditions where
  idle_at h _ := ⟨h.log, h.cancelled⟩
  awaits_at h _ := ⟨⟨h.1.log, h.1.cancelled⟩, h.2⟩
  idle_cancelled h := h.cancelled
  awaits_cancelled h := by rw [h.1.cancelled, cancelledIn_append_awaited]
  begins := by
    intro ps w q h
    have hcancelled := h.cancelled.trans (cancelledIn_append_awaited ps q w.now).symm
    cases q with
    | attempt n =>
      refine ⟨rfl, ⟨?_, hcancelled⟩, rfl⟩
      change (w.now, .attempt n) :: w.log = _
      rw [h.log, List.filterMap_append, List.reverse_append]
      rfl
    | pause ms =>
      refine ⟨rfl, ⟨?_, hcancelled⟩, rfl⟩
      rw [List.filterMap_append, List.reverse_append]
      exact h.log
  waits := by
    rintro ps q t s w ⟨hlogged, rfl⟩ hearly
    refine ⟨_, ?_, hlogged, rfl⟩
    cases q with
    | attempt n =>
      change (Prod.fst (Deadline.poll World.now _ parent w (o.deadline t n)),
        (Prod.snd (Deadline.poll World.now _ parent w (o.deadline t n))).mapState RetryWait.attempt) = _
      rw [poll_deadline_early parent hearly]
      rfl
    | pause ms =>
      exact congrArg (Prod.mk w) (if_neg (Nat.not_le.2 hearly))
  answers := by
    rintro ps q t s w ⟨hlogged, rfl⟩ hdue
    have hlog := hlogged.log
    have hcancelled := hlogged.cancelled
    rw [cancelledIn_append_awaited] at hcancelled
    rw [← filterMap_logged_append ps q t (some (o.staging.conditions.reply q t))] at hlog
    cases q with
    | attempt n =>
      refine ⟨{ w with cancelled := w.cancelled || (o.attempt n).cancels }, ?_, rfl, hlog, ?_⟩
      · change (Prod.fst (Deadline.poll World.now _ parent w (o.deadline t n)),
          (Prod.snd (Deadline.poll World.now _ parent w (o.deadline t n))).mapState RetryWait.attempt) = _
        rw [poll_deadline_due parent hdue]
        rfl
      · rw [cancelledIn_append, ← hcancelled]
        rfl
    | pause ms =>
      refine ⟨w, ?_, rfl, hlog, ?_⟩
      · exact congrArg (Prod.mk w) (if_pos (Nat.le_of_eq hdue.symm))
      · rw [cancelledIn_append, ← hcancelled]
        exact (Bool.or_false _).symm

/-- **A rehearsal of scripted attempts is a work item under retry in time.** -/
theorem course_of_runOne (o : RetryScript ε α) :
    (runOne o.world (Act.retries o.usual o.attempts o.maxRetries o.token)).2 = some (Retry.outcome o.course) ∧
    (runOne o.world (Act.retries o.usual o.attempts o.maxRetries o.token)).1.now = o.course.endedAt ∧
    (runOne o.world (Act.retries o.usual o.attempts o.maxRetries o.token)).1.log =
      (o.course.puts.filterMap logged).reverse ++ o.world.log := by
  have hmoments : o.staging.timeline.puts.length + 2 < maxMoments := by
    have hle := Dialogue.length_puts_timed (Retry.asksAtMost_attempts (ε := ε) (α := α) o.maxRetries.toNat 0)
      o.staging.conditions false o.world.now
    have hmax := o.maxRetries.toNat_lt
    change o.staging.timeline.puts.length ≤ _ at hle
    rw [maxMoments]
    omega
  obtain ⟨hresult, hnow, hidle⟩ := Staging.runOne_act (keepsTo o _) rfl ⟨rfl, o.calm⟩ hmoments
  refine ⟨hresult, hnow.symm, ?_⟩
  rcases hidle with hlogged | ⟨ps, q, t, s, hputs, hlogged, -⟩
  · exact hlogged.log
  · change o.course.puts = _ at hputs
    rw [hputs]
    exact hlogged.log

end RetryScript

end Rehearsal

end OrderKeeper
