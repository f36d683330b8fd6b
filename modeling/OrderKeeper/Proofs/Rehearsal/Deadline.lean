import OrderKeeper.Proofs.Job.Deadline
import OrderKeeper.Rehearsal.Act

/-!
# Deadlines under retry

A work item under retry begins every attempt with a deadline of its own, and polls nothing else until this attempt has ended
(`RetryAttended`). So what a deadline does for its attempt (`Deadline.Attended`), it does for every attempt by itself:
whatever became of the attempts before, and with the token of the work item as the parent of every attempt's token.
-/

namespace OrderKeeper

namespace Retry

variable {ε α : Type}

/-- Whether a question asks for an attempt. -/
def Question.IsAttempt : Question → Prop
  | .attempt _ => True
  | .pause _ => False

/-- Attempts are seen through to their ends. -/
theorem seesThrough_attempts (left : Nat) (retry : UInt32) :
    (attempts left retry : Talk ε α).SeesThrough Question.IsAttempt := by
  induction left generalizing retry with
  | zero =>
    rw [attempts]
    refine ⟨fun _ => rfl, fun x => ?_⟩
    rcases x with (⟨e, delay⟩ | e) | a <;> trivial
  | succ left ih =>
    rw [attempts]
    refine ⟨fun _ => rfl, fun x => ?_⟩
    rcases x with (⟨e, delay⟩ | e) | a
    · exact ⟨False.elim, fun _ => ih (retry + 1)⟩
    · trivial
    · trivial

end Retry

namespace Rehearsal

open Dialogue (Step)
open Retry (Question)

variable {W S ε α β : Type}

@[simp] theorem wake?_mapPolled (f : α → β) (p : Polled S α) : (mapPolled f p).wake? = p.wake? := by
  cases p <;> rfl

/-- Polls with a function applied to their result. -/
theorem visits_mapPolled {poll : W → S → W × Polled S α} {poll' : W → S → W × Polled S β} {f : α → β}
    (h : ∀ w s, poll' w s = ((poll w s).1, mapPolled f (poll w s).2)) (s : S) (ws : List W) :
    visits poll' s ws = (visits poll s ws).map fun v => ⟨v.before, v.state, v.after, mapPolled f v.shown⟩ := by
  induction ws generalizing s with
  | nil => rfl
  | cons w ws ih =>
    rcases hp : poll w s with ⟨w', a | ⟨s', wake⟩⟩
    · have hp' : poll' w s = (w', .ready (f a)) := by rw [h, hp]; rfl
      rw [visits_of_ready hp, visits_of_ready hp']
      rfl
    · have hp' : poll' w s = (w', .waiting s' wake) := by rw [h, hp]; rfl
      rw [visits_of_waiting hp, visits_of_waiting hp', ih]
      rfl

/-- The polls of a work item under retry in one world after the other. -/
def retryVisits (a : Attempts S ε α) (timeout : Nat) (parent : World → Bool) (maxRetries : UInt32) (ws : List World) :
    List (Visit World (RetryCourse S ε α) (Except ε α)) :=
  visits (RetryCourse.poll a timeout parent) ⟨Retry.run maxRetries, none⟩ ws

/-- What these polls do: they begin attempts and pauses, and poll them. -/
def retrySteps (a : Attempts S ε α) (timeout : Nat) (parent : World → Bool) (maxRetries : UInt32) (ws : List World) :
    List (Step World Question (Question.Answer ε α) (RetryWait S)) :=
  (retryVisits a timeout parent maxRetries ws).flatMap fun v =>
    v.state.steps (a.surroundings timeout parent) parent v.before

/-- A poll of attempt number `n` under its deadline. -/
def polledAttempt (n : UInt32) (v : Visit World (Deadline S) (Except (Verdict ε) α)) :
    Step World Question (Question.Answer ε α) (RetryWait S) :=
  .polled (.attempt n) (v.mapState .attempt)

/-- What a work item under retry does for its attempts, in whatever worlds it is polled. -/
structure RetryAttended (a : Attempts S ε α) (timeout : Nat) (parent : World → Bool) (maxRetries : UInt32)
    (ws : List World) : Prop where
  /-- Nothing is polled that has not been begun. -/
  begun : ∀ t ∈ (retrySteps a timeout parent maxRetries ws).head?, t.isPolled = false
  /-- An attempt is begun with a deadline of its own, and until it has ended, all polls are polls of this deadline, which
  does for the attempt what a deadline does. The deadline is polled promptly if the work item is, and the attempt has ended
  before anything else is begun, and before the work item has. -/
  attempt : ∀ before n w w' x after, retrySteps a timeout parent maxRetries ws = before ++ .begun (.attempt n) w w' x :: after →
    ∃ s ws', a.begin n w = (w', s) ∧ x = .attempt ⟨w'.now + timeout, false, s⟩ ∧
      after.takeWhile Step.isPolled =
        (Deadline.polls World.now a.poll parent ⟨w'.now + timeout, false, s⟩ ws').map (polledAttempt n) ∧
      Deadline.Attended World.now a.poll parent w'.now timeout s ws' ∧
      (∀ start, Prompt World.now start (retryVisits a timeout parent maxRetries ws) →
        Prompt World.now w'.now (Deadline.polls World.now a.poll parent ⟨w'.now + timeout, false, s⟩ ws')) ∧
      ((∃ t ∈ after, t.isPolled = false) ∨ (∃ v ∈ retryVisits a timeout parent maxRetries ws, ∃ r, v.shown = .ready r) →
        ∃ v ∈ (Deadline.polls World.now a.poll parent ⟨w'.now + timeout, false, s⟩ ws').getLast?,
          ∃ r, v.shown = .ready r)

/-- The steps of a work item under retry are a passage, which leaves no attempt open if the work item has ended, and they
follow each other promptly if the work item is polled promptly. -/
theorem exists_passage_retrySteps (a : Attempts S ε α) (timeout : Nat) (parent : World → Bool) (maxRetries : UInt32)
    (ws : List World) :
    ∃ y, Dialogue.Passage (a.surroundings timeout parent) none (retrySteps a timeout parent maxRetries ws) y ∧
      ((∃ v ∈ retryVisits a timeout parent maxRetries ws, ∃ r, v.shown = .ready r) → ∀ z ∈ y, ¬ z.1.IsAttempt) ∧
      ∀ start, Prompt World.now start (retryVisits a timeout parent maxRetries ws) →
        (retrySteps a timeout parent maxRetries ws).IsChain (Step.Follows World.now) := by
  let c : RetryCourse S ε α := ⟨Retry.run maxRetries, none⟩
  have hc : c.talk.SeesThrough Question.IsAttempt := Retry.seesThrough_attempts maxRetries.toNat 0
  have hvisits : retryVisits a timeout parent maxRetries ws =
      (visits (Course.poll (a.surroundings timeout parent) parent) c ws).map _ := visits_mapPolled (fun _ _ => rfl) c ws
  have hsteps : retrySteps a timeout parent maxRetries ws = c.allSteps (a.surroundings timeout parent) parent ws := by
    rw [retrySteps, hvisits, List.flatMap_map]
    rfl
  obtain ⟨y, hpassage, hend⟩ := Course.passage_allSteps (a.surroundings timeout parent) parent hc ws
  rw [Dialogue.openWith_none, ← hsteps] at hpassage
  refine ⟨y, hpassage, fun ⟨v, hv, r, hr⟩ => hend ?_, fun start hprompt => ?_⟩
  · rw [hvisits] at hv
    obtain ⟨⟨before, state, after, shown⟩, hu, rfl⟩ := List.mem_map.1 hv
    cases shown with
    | ready r' => exact ⟨_, hu, r', rfl⟩
    | waiting => cases hr
  · rw [hvisits] at hprompt
    rw [hsteps]
    exact Course.follows_allSteps (a.surroundings timeout parent) parent hc ws (hprompt.of_map fun v => by simp)

theorem retryAttended (a : Attempts S ε α) (timeout : Nat) (parent : World → Bool) (maxRetries : UInt32)
    (ws : List World) : RetryAttended a timeout parent maxRetries ws := by
  obtain ⟨y, hpassage, hend, hfollows⟩ := exists_passage_retrySteps a timeout parent maxRetries ws
  constructor
  case begun => exact hpassage.isPolled_head?
  case attempt =>
    intro before n w w' x after hsplit
    rw [hsplit] at hpassage hfollows
    obtain ⟨hbegin, hrest⟩ := hpassage.of_begun
    rcases hbegun : a.begin n w with ⟨w₁, s⟩
    have hput : (a.surroundings timeout parent).begin w (.attempt n) = (w₁, .attempt ⟨w₁.now + timeout, false, s⟩) := by
      simp [Attempts.surroundings, hbegun]
    obtain ⟨rfl, rfl⟩ := Prod.mk.inj (hput.symm.trans hbegin)
    obtain ⟨ws', hpolled, hended⟩ := hrest.exists_visits
    have hvisits : visits (fun w x => (a.surroundings timeout parent).poll w (.attempt n) x)
        (.attempt ⟨w₁.now + timeout, false, s⟩) ws' =
          (Deadline.polls World.now a.poll parent ⟨w₁.now + timeout, false, s⟩ ws').map (Visit.mapState .attempt) :=
      visits_mapState (fun _ _ => rfl) _ ws'
    rw [hvisits] at hpolled hended
    refine ⟨s, ws', rfl, rfl, hpolled.trans (List.map_map ..), Deadline.attended .., fun start hprompt => ?_, fun hover => ?_⟩
    · exact (Dialogue.prompt_of_follows (hfollows start hprompt) hpolled).of_map fun v => by simp [Visit.mapState]
    rcases hended with ⟨v, hv, r, hr⟩ | ⟨hall, x, rfl⟩
    · rw [List.getLast?_map] at hv
      obtain ⟨⟨before', state, after', shown⟩, hu, rfl⟩ := Option.map_eq_some_iff.1 hv
      cases shown with
      | ready r' => exact ⟨_, hu, r', rfl⟩
      | waiting => cases hr
    · -- The attempt is still open, so that neither anything else has begun nor the work item has ended.
      rcases hover with ⟨t, ht, hbegun⟩ | hready
      · simp [hall t ht] at hbegun
      · exact absurd trivial (hend hready _ rfl)

/-- **What deadlines do for attempts**: one deadline in whatever worlds it is polled, and the deadlines of a work item under
retry. -/
theorem deadlines_attended :
    (∀ (W S α : Type) (clock : W → Nat) (attempt : (W → Bool) → W → S → W × Polled S α) (parent : W → Bool)
      (start timeout : Nat) (s : S) (ws : List W), Deadline.Attended clock attempt parent start timeout s ws) ∧
    ∀ (S ε α : Type) (a : Attempts S ε α) (timeout : Nat) (parent : World → Bool) (maxRetries : UInt32) (ws : List World),
      RetryAttended a timeout parent maxRetries ws :=
  ⟨fun _ _ _ => Deadline.attended, fun _ _ _ => retryAttended⟩

/-- An attempt that nothing but a cancellation ends is polled three times, and the third time it is cancelled: at its start,
at its deadline, and once more at its deadline. -/
theorem deadlines_attended_stuck :
    let attempt : (Nat → Bool) → Nat → Unit → Nat × Polled Unit Unit := fun token now _ =>
      (now, if token now then .ready () else .waiting () none)
    let looks := Deadline.allLooks id attempt (fun _ => false) ⟨0 + 30, false, ()⟩ [0, 30]
    (∀ token w s, (attempt token w s).1 = w) ∧
      Prompt id 0 (Deadline.polls id attempt (fun _ => false) ⟨0 + 30, false, ()⟩ [0, 30]) ∧
      looks.map (fun l => l.before) = [0, 30, 30] ∧
      ∀ before l after, looks = before ++ l :: after → ∀ w, l.token w = true ↔ False ∨ 30 < l.before ∨
        l.before = 30 ∧ ∃ m ∈ before, m.before = 30 := by
  intro attempt looks
  have hquiet : ∀ token w s, (attempt token w s).1 = w := fun _ _ _ => rfl
  have hprompt : Prompt id 0 (Deadline.polls id attempt (fun _ => false) ⟨0 + 30, false, ()⟩ [0, 30]) := by
    have hpolls : Deadline.polls id attempt (fun _ => false) ⟨0 + 30, false, ()⟩ [0, 30] =
        [⟨0, ⟨30, false, ()⟩, 0, .waiting ⟨30, false, ()⟩ (some 30)⟩, ⟨30, ⟨30, false, ()⟩, 30, .ready ()⟩] := rfl
    rw [hpolls]
    constructor
    case first => simp
    case next => simp
  refine ⟨hquiet, hprompt, rfl, fun before l after hsplit w => ?_⟩
  have htoken := (deadlines_attended.1 Nat Unit Unit id attempt (fun _ => false) 0 30 () [0, 30]).onTime hquiet hprompt
    before l after hsplit w
  simpa using htoken

end Rehearsal

end OrderKeeper
