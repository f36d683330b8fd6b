import Mathlib.Data.List.Basic
import OrderKeeper.Proofs.Metrics.Records
import OrderKeeper.Proofs.Submission.Account
import OrderKeeper.Submission.Tally

/-!
# Records agree with returns

- The kind under which an ending is counted is that of the verdict (`kindOf_answer`). So records of some endings, made in
  any order, show how many answers of each kind were given (`exact_of_perm`).
- Whatever calls do side by side, what has been recorded and what is still to be recorded is, in some order, what the
  calls that have come to their ends record (`Accounts`). So once nothing is left to be recorded, every counter and every
  histogram shows what the calls have returned (`exact_of_run`).
-/

namespace OrderKeeper

theorem Action.name_inj {a b : Action} : a.name = b.name ↔ a = b := by
  cases a <;> cases b <;> decide

theorem Mode.name_inj {a b : Mode} : a.name = b.name ↔ a = b := by
  cases a <;> cases b <;> decide

namespace Submission

open Metrics (Records Histogram)

/-! ## Endings and answers -/

namespace Conclusion

variable (x : Conclusion) (seconds : Float)

/-- The kind of ending that an answer shows. -/
def kindOf : Except (Verdict KeeperError) Outcome → Ending
  | .ok .notExecutable => .notExecutable
  | .ok (.included _ _ _ _ attempts) => .included attempts
  | .error (.nack ..) => .retryable
  | .error (.fail _) => .failed

/-- An ending is recorded under the kind that its answer shows. -/
theorem kindOf_answer : kindOf x.answer = Ending.of x.result := by
  obtain ⟨settings, item, result⟩ := x
  cases result with
  | ok o => cases o <;> rfl
  | error e =>
    have hanswer : answer ⟨settings, item, .error e⟩ = .error e.verdict := rfl
    rw [hanswer, KeeperError.verdict, Ending.of]
    split <;> rfl

theorem name_kindOf (a : Except (Verdict KeeperError) Outcome) :
    ((a matches .ok .notExecutable) = true ↔ (kindOf a).name = "not_executable") ∧
      ((a matches .ok (.included ..)) = true ↔ (kindOf a).name = "included") ∧
      ((a matches .error (.nack ..)) = true ↔ (kindOf a).name = "retryable") ∧
      ((a matches .error (.fail _)) = true ↔ (kindOf a).name = "failed") := by
  rcases a with (_ | _) | (_ | _) <;> simp [kindOf, Ending.name]

/-- The broadcasts of an inclusion. -/
def attempts? : Option UInt32 :=
  match x.answer with
  | .ok (.included _ _ _ _ attempts) => some attempts
  | _ => none

/-- The sample that is taken of a number of broadcasts. -/
def sampleOf (attempts : UInt32) : Float := (UInt64.ofNat attempts.toNat).toFloat

/-- The mode of the work item, if it gives one. -/
theorem mode_eq_getD : x.mode = x.item.mode.getD x.settings.mode := rfl

theorem counters_events : (x.events seconds).filterMap Metrics.Event.counter? =
    [[x.action.name, x.network, (kindOf x.answer).name]] := by
  rw [kindOf_answer]
  unfold events Ending.events
  cases Ending.of x.result <;> rfl

theorem durations_events :
    (x.events seconds).filterMap Metrics.Event.duration? = [([x.mode.name, x.network], seconds)] := by
  unfold events Ending.events
  cases Ending.of x.result <;> rfl

theorem attempts_events : (x.events seconds).filterMap Metrics.Event.attempts? =
    (x.attempts?.map fun n => ([x.network], sampleOf n)).toList := by
  unfold events Ending.events attempts?
  rw [← kindOf_answer]
  rcases x.answer with (_ | _) | (_ | _) <;> rfl

end Conclusion

/-! ## Counts -/

section Counts

variable (xs : List Conclusion) (network : String) (action : Action)

/-- How often an action on a network got an answer of some kind. -/
def number (p : Except (Verdict KeeperError) Outcome → Bool) : Nat :=
  xs.countP fun x => x.network = network ∧ x.action = action ∧ p x.answer

/-- The broadcasts of the inclusions on a network. -/
def attemptsOn : List UInt32 := (xs.filter (·.network = network)).filterMap Conclusion.attempts?

/-- Every answer is of one kind. -/
theorem sum_number :
    number xs network action (fun a => a matches .ok .notExecutable) +
        number xs network action (fun a => a matches .ok (.included ..)) +
        number xs network action (fun a => a matches .error (.nack ..)) +
        number xs network action (fun a => a matches .error (.fail _)) =
      xs.countP fun x => x.network = network ∧ x.action = action := by
  simp only [number]
  induction xs with
  | nil => rfl
  | cons x xs ih =>
    simp only [List.countP_cons, ← ih]
    by_cases hx : x.network = network ∧ x.action = action
    · obtain ⟨hn, ha⟩ := hx
      rcases x.answer with (_ | _) | (_ | _) <;> simp [hn, ha] <;> omega
    · have hnone (p : Prop) : ¬(x.network = network ∧ x.action = action ∧ p) := fun h => hx ⟨h.1, h.2.1⟩
      simp [hx, hnone]

/-- The records show of a network what its answers were. -/
structure Exact (r : Records) (xs : List Conclusion) (network : String) : Prop where
  notExecutable (action : Action) : r.outcome network action.name "not_executable" =
    number xs network action fun a => a matches .ok .notExecutable
  included (action : Action) : r.outcome network action.name "included" =
    number xs network action fun a => a matches .ok (.included ..)
  retryable (action : Action) : r.outcome network action.name "retryable" =
    number xs network action fun a => a matches .error (.nack ..)
  failed (action : Action) : r.outcome network action.name "failed" =
    number xs network action fun a => a matches .error (.fail _)
  total (action : Action) :
    r.outcome network action.name "not_executable" + r.outcome network action.name "included" +
      r.outcome network action.name "retryable" + r.outcome network action.name "failed" =
    xs.countP fun x => x.network = network ∧ x.action = action
  durations (mode : Mode) : ∃ seconds, r.durationsOf mode.name network = .ofSamples Metrics.durationBounds seconds ∧
    seconds.length = xs.countP fun x => x.network = network ∧ x.item.mode.getD x.settings.mode = mode
  attempts : ∃ samples, r.attemptsOf network = .ofSamples Metrics.attemptBounds samples ∧
    samples.Perm ((attemptsOn xs network).map Conclusion.sampleOf)
  /-- Each bucket shows how many inclusions took at most so many broadcasts. -/
  cumulative : (r.attemptsOf network).cumulative = Metrics.attemptBounds.map fun bound =>
    (bound, (attemptsOn xs network).countP (Conclusion.sampleOf · ≤ bound))
  rising : ((r.attemptsOf network).shown.map Prod.snd).Pairwise (· ≤ ·)
  top : (r.attemptsOf network).shown.getLast? = some ("+Inf", (attemptsOn xs network).length)
  count : (r.attemptsOf network).count = (attemptsOn xs network).length

end Counts

/-! ## Records of endings -/

section Recorded

/-- What endings are recorded as, each with the time that it took. -/
def eventsOf (closings : List (Conclusion × Float)) : List Metrics.Event := closings.flatMap fun x => x.1.events x.2

variable {recorded : List Metrics.Event} {closings : List (Conclusion × Float)}

theorem counters_perm (h : recorded.Perm (eventsOf closings)) :
    (recorded.filterMap Metrics.Event.counter?).Perm
      ((closings.map Prod.fst).map fun x => [x.action.name, x.network, (Conclusion.kindOf x.answer).name]) := by
  refine (h.filterMap _).trans (.of_eq ?_)
  rw [eventsOf, List.filterMap_flatMap, List.map_map, List.map_eq_flatMap]
  exact List.flatMap_congr fun x _ => x.1.counters_events x.2

theorem durations_perm (h : recorded.Perm (eventsOf closings)) :
    (recorded.filterMap Metrics.Event.duration?).Perm
      (closings.map fun x => ([x.1.mode.name, x.1.network], x.2)) := by
  refine (h.filterMap _).trans (.of_eq ?_)
  rw [eventsOf, List.filterMap_flatMap, List.map_eq_flatMap]
  exact List.flatMap_congr fun x _ => x.1.durations_events x.2

theorem attempts_perm (h : recorded.Perm (eventsOf closings)) :
    (recorded.filterMap Metrics.Event.attempts?).Perm ((closings.map Prod.fst).filterMap fun x =>
      x.attempts?.map fun n => ([x.network], Conclusion.sampleOf n)) := by
  refine (h.filterMap _).trans (.of_eq ?_)
  rw [eventsOf, List.filterMap_flatMap, List.filterMap_map, List.filterMap_eq_flatMap_toList]
  exact List.flatMap_congr fun x _ => x.1.attempts_events x.2

variable (network : String)

theorem outcome_eq (h : recorded.Perm (eventsOf closings)) (action : Action) {kind : String}
    {p : Except (Verdict KeeperError) Outcome → Bool} (hp : ∀ a, p a = true ↔ (Conclusion.kindOf a).name = kind) :
    (recorded.foldl Records.record {}).outcome network action.name kind =
      number (closings.map Prod.fst) network action p := by
  have hcount := Records.get?_outcomes_foldl recorded {} [action.name, network, kind]
  rw [Records.outcome, hcount, (counters_perm h).count_eq, List.count_eq_countP, List.countP_map]
  refine (Nat.zero_add _).trans (List.countP_congr fun x _ => ?_)
  simp only [Function.comp_apply, beq_iff_eq, List.cons.injEq, and_true, Action.name_inj, decide_eq_true_eq, hp]
  exact and_left_comm

theorem exists_seconds (h : recorded.Perm (eventsOf closings)) (mode : Mode) :
    ∃ seconds, (recorded.foldl Records.record {}).durationsOf mode.name network =
        .ofSamples Metrics.durationBounds seconds ∧
      seconds.length = (closings.map Prod.fst).countP fun x =>
        x.network = network ∧ x.item.mode.getD x.settings.mode = mode := by
  refine ⟨_, Records.get?_durations_foldl .., ?_⟩
  refine (((durations_perm h).filter _).map _).length_eq.trans ?_
  rw [List.length_map, ← List.countP_eq_length_filter, List.countP_map, List.countP_map]
  refine List.countP_congr fun x _ => ?_
  simp only [Function.comp_apply, decide_eq_true_eq, List.cons.injEq, and_true, Mode.name_inj, Conclusion.mode_eq_getD]
  exact and_comm

theorem exists_samples (h : recorded.Perm (eventsOf closings)) :
    ∃ samples, (recorded.foldl Records.record {}).attemptsOf network = .ofSamples Metrics.attemptBounds samples ∧
      samples.Perm ((attemptsOn (closings.map Prod.fst) network).map Conclusion.sampleOf) := by
  refine ⟨_, Records.get?_attempts_foldl .., ?_⟩
  refine (((attempts_perm h).filter _).map _).trans (.of_eq ?_)
  rw [attemptsOn]
  generalize closings.map Prod.fst = xs
  induction xs with
  | nil => rfl
  | cons x xs ih =>
    by_cases hn : x.network = network <;> cases ha : x.attempts? <;> simp [hn, ha, ih]

/-- Records of endings, made in whatever order, show what the answers were. -/
theorem exact_of_perm (h : recorded.Perm (eventsOf closings)) :
    Exact (recorded.foldl Records.record {}) (closings.map Prod.fst) network := by
  have hkind := Conclusion.name_kindOf
  have hnot := fun action => outcome_eq network h action fun a => (hkind a).1
  have hincluded := fun action => outcome_eq network h action fun a => (hkind a).2.1
  have hretryable := fun action => outcome_eq network h action fun a => (hkind a).2.2.1
  have hfailed := fun action => outcome_eq network h action fun a => (hkind a).2.2.2
  obtain ⟨samples, hsamples, hperm⟩ := exists_samples network h
  have hlength : samples.length = (attemptsOn (closings.map Prod.fst) network).length :=
    hperm.length_eq.trans (List.length_map _)
  exact {
    notExecutable := hnot
    included := hincluded
    retryable := hretryable
    failed := hfailed
    total := fun action => by rw [hnot, hincluded, hretryable, hfailed, sum_number]
    durations := exists_seconds network h
    attempts := ⟨samples, hsamples, hperm⟩
    cumulative := by
      rw [hsamples, Histogram.cumulative_ofSamples Metrics.pairwise_attemptBounds]
      refine List.map_congr_left fun bound _ => ?_
      rw [hperm.countP_eq, List.countP_map]
      rfl
    rising := by
      rw [hsamples]
      exact Histogram.pairwise_shown Metrics.pairwise_attemptBounds samples
    top := by
      rw [hsamples, Histogram.shown, Histogram.count_ofSamples, hlength]
      exact List.getLast?_concat
    count := by rw [hsamples, Histogram.count_ofSamples, hlength] }

end Recorded

namespace Tally

variable {y z : Tally} {m : Move}

/-! ## Steps -/

/-- What can happen: a step of a submission, the measuring of a time, the recording of a thing. -/
inductive Steps (y : Tally) : Move → Tally → Prop where
  | work {n m f} : (y.floorOf n).apply m = some f → Steps y (.work n m) { y with floors := y.floors.set n f }
  | conclude {c x seconds} : y.due.get? c = none → y.conclusion? c = some x →
      Steps y (.conclude c seconds) { y with due := y.due.set c (x.events seconds) }
  | record {c e es} : y.due.get? c = some (e :: es) →
      Steps y (.record c) { y with due := y.due.set c es, records := y.records.record e }

theorem steps_of_apply (h : y.apply m = some z) : Steps y m z := by
  cases m with
  | work n m =>
    obtain ⟨f, hf, rfl⟩ := Option.map_eq_some_iff.1 h
    exact .work hf
  | conclude c seconds =>
    rw [apply] at h
    split at h
    · cases h
      exact .conclude ‹_› ‹_›
    · cases h
  | record c =>
    rw [apply] at h
    split at h
    · cases h
      exact .record ‹_›
    · cases h

/-- What has come to its end stays so. -/
theorem conclusion?_of_steps {c : Call} {x : Conclusion} (h : Steps y m z) (hx : y.conclusion? c = some x) :
    z.conclusion? c = some x := by
  cases h with
  | conclude | record => exact hx
  | work hf =>
    rename_i n m f
    by_cases hn : n = c.floor
    · subst hn
      obtain ⟨task, ht, hx⟩ := Option.bind_eq_some_iff.1 hx
      have htask : f.tasks.get? c.ticket = some task := by
        rw [← ht]
        refine Floor.task_of_apply hf fun hm => ?_
        rcases Floor.apply_cases hf with ⟨b, hnone, -, -⟩ | ⟨task', turn, a, ht', hT, -, -⟩
        · rw [hm, ht] at hnone
          cases hnone
        · rw [hm, ht] at ht'
          cases ht'
          -- one that has handed something back makes no turn
          have ho := hT.not_over
          generalize task.standing = st at hx ho
          cases st with
          | ended e => cases ho
          | underWay | closing => cases hx
      rw [conclusion?, floorOf, Table.get?_set_self]
      exact Option.bind_eq_some_iff.2 ⟨task, htask, hx⟩
    · rw [conclusion?, floorOf, Table.get?_set_of_ne _ _ hn]
      exact hx

/-! ## Accounts -/

/-- A call that has measured its time. -/
structure Closing where
  call : Call
  conclusion : Conclusion
  seconds : Float

/-- Its ending with the time that it took. -/
def Closing.timed (x : Closing) : Conclusion × Float := (x.conclusion, x.seconds)

/-- What is still to be recorded. -/
def owed (y : Tally) : List Metrics.Event := y.due.flatMap Prod.snd

/-- What has been recorded, and the calls that it was recorded by or is still to be. -/
structure Accounts (y : Tally) (recorded : List Metrics.Event) (closings : List Closing) : Prop where
  records : y.records = recorded.foldl Records.record {}
  calls : y.calls = closings.map Closing.call
  nodup : y.calls.Nodup
  conclusion : ∀ x ∈ closings, y.conclusion? x.call = some x.conclusion
  events : (recorded ++ y.owed).Perm (eventsOf (closings.map Closing.timed))

theorem accounts_empty : Accounts {} [] [] where
  records := rfl
  calls := rfl
  nodup := List.nodup_nil
  conclusion _ hx := by cases hx
  events := .refl _

variable {recorded : List Metrics.Event} {closings : List Closing}

/-- Whatever happens, there are accounts of it. -/
theorem Accounts.of_steps (hy : y.Accounts recorded closings) (h : Steps y m z) :
    ∃ recorded' closings', z.Accounts recorded' closings' := by
  have hstays := fun x hx => conclusion?_of_steps h (hy.conclusion x hx)
  cases h with
  | work => exact ⟨recorded, closings, hy.records, hy.calls, hy.nodup, hstays, hy.events⟩
  | conclude hnone hx =>
    rename_i c x seconds
    have hset : y.due.set c (x.events seconds) = y.due ++ [(c, x.events seconds)] := Table.set_of_get?_eq_none hnone
    refine ⟨recorded, closings ++ [⟨c, x, seconds⟩], hy.records, ?_, Table.nodup_keys_set hy.nodup _ _, ?_, ?_⟩
    · rw [List.map_append, ← hy.calls]
      exact Table.keys_set_of_get?_eq_none hnone
    · intro x' hx'
      rcases List.mem_append.1 hx' with hx' | hx'
      · exact hstays x' hx'
      · rw [List.mem_singleton.1 hx']
        exact hx
    · rw [owed, hset, List.flatMap_append, ← List.append_assoc, List.map_append, eventsOf, List.flatMap_append]
      exact hy.events.append_right _
  | record hc =>
    rename_i c e es
    refine ⟨recorded ++ [e], closings, ?_, ?_, Table.nodup_keys_set hy.nodup _ _, hstays, ?_⟩
    · rw [List.foldl_append, ← hy.records]
      rfl
    · rw [← hy.calls]
      exact Table.keys_set_of_get? hc
    · have howed : y.owed.Perm (e :: es ++ (y.due.erase c).flatMap Prod.snd) :=
        (Table.perm_of_get? hy.nodup hc).flatMap_right Prod.snd
      have howes : (owed { y with due := y.due.set c es, records := y.records.record e }).Perm
          (es ++ (y.due.erase c).flatMap Prod.snd) :=
        (Table.set_perm hy.nodup c es).flatMap_right Prod.snd
      rw [List.append_assoc]
      exact (((howes.append_left [e]).trans howed.symm).append_left recorded).trans hy.events

theorem accounts_of_run : ∀ {ms : List Move} {y : Tally}, (∃ recorded closings, y.Accounts recorded closings) →
    y.run? ms = some z → ∃ recorded closings, z.Accounts recorded closings
  | [], _, hy, h => by
    cases h
    exact hy
  | m :: ms, y, ⟨recorded, closings, hy⟩, h => by
    rw [run?, List.foldlM_cons] at h
    obtain ⟨e, he, h⟩ := Option.bind_eq_some_iff.1 h
    exact accounts_of_run (hy.of_steps (steps_of_apply he)) h

/-! ## When nothing is left to be recorded -/

namespace Accounts

theorem perm (hy : y.Accounts recorded closings) (hs : y.IsSettled) :
    recorded.Perm (eventsOf (closings.map Closing.timed)) := by
  have howed : y.owed = [] := List.flatMap_eq_nil_iff.2 fun e he => hs e.1 e.2 (Table.get?_of_mem hy.nodup he)
  have hp := hy.events
  rwa [howed, List.append_nil] at hp

theorem returned? (hy : y.Accounts recorded closings) (hs : y.IsSettled) {x : Closing} (hx : x ∈ closings) :
    y.returned? x.call = some x.conclusion := by
  have hmem : x.call ∈ y.calls := hy.calls ▸ List.mem_map_of_mem hx
  cases hd : y.due.get? x.call with
  | none => exact absurd hmem (Table.get?_eq_none_iff.1 hd)
  | some es =>
    rw [Tally.returned?, hd, hs _ _ hd]
    exact hy.conclusion x hx

theorem returns (hy : y.Accounts recorded closings) (hs : y.IsSettled) :
    y.returns = (closings.map Closing.timed).map Prod.fst := by
  rw [Tally.returns, hy.calls, List.filterMap_map, List.map_map, ← List.filterMap_eq_map]
  exact List.filterMap_congr fun x hx => hy.returned? hs hx

end Accounts

/-- **Records agree with returns.** However calls on any floors do what they do side by side, once no call is about to
record something, the records show of each network what the calls on it have returned. -/
theorem exact_of_run {ms : List Move} (h : run? {} ms = some y) (hs : y.IsSettled) :
    y.calls.Nodup ∧ (∀ c, (y.returned? c).isSome ↔ c ∈ y.calls) ∧ ∀ network, Exact y.records y.returns network := by
  obtain ⟨recorded, closings, hy⟩ := accounts_of_run ⟨[], [], accounts_empty⟩ h
  refine ⟨hy.nodup, fun c => ⟨fun hc => ?_, fun hc => ?_⟩, fun network => ?_⟩
  · by_contra hn
    rw [returned?, Table.get?_eq_none_iff.2 hn] at hc
    cases hc
  · rw [hy.calls] at hc
    obtain ⟨x, hx, rfl⟩ := List.mem_map.1 hc
    rw [hy.returned? hs hx]
    rfl
  · rw [hy.records, hy.returns hs]
    exact exact_of_perm network (hy.perm hs)

theorem isSettled_of_all (h : y.due.all (·.2.isEmpty) = true) : y.IsSettled := by
  intro c es hc
  exact List.isEmpty_iff.1 (List.all_eq_true.1 h _ (Table.mem_of_get? hc))

/-- Two calls on floors of their own, whose recordings alternate: an inclusion after two broadcasts, and a cancellation
for a keeper without a key. -/
def Sample.twoCalls : List Move :=
  let first := Submission.Sample.inclusion ++ [⟨0, .close⟩]
  let second : List Floor.Move :=
    [⟨0, .enter { Submission.Sample.brief .simple with hasKey := fun _ => false }⟩,
      ⟨0, .go (Submission.Sample.answers none)⟩, ⟨0, .close⟩]
  first.map (.work 0) ++ second.map (.work 1) ++
    [.conclude ⟨0, 0⟩ 4.5, .conclude ⟨1, 0⟩ 0.25, .record ⟨0, 0⟩, .record ⟨1, 0⟩, .record ⟨0, 0⟩, .record ⟨1, 0⟩,
      .record ⟨0, 0⟩]

/-- Both have returned, and the records show it. -/
theorem exact_of_two_calls : ∃ y, run? {} Sample.twoCalls = some y ∧ y.IsSettled ∧
    y.returns.map (fun x => (x.item.mode.getD x.settings.mode, Conclusion.kindOf x.answer)) =
      [(.optimized, .included 2), (.simple, .failed)] ∧
    ∀ network, Exact y.records y.returns network := by
  have h : (run? {} Sample.twoCalls).map (fun y => (y.due.all (·.2.isEmpty),
      y.returns.map fun x => (x.item.mode.getD x.settings.mode, Conclusion.kindOf x.answer))) =
      some (true, [(.optimized, .included 2), (.simple, .failed)]) := by
    decide +kernel
  obtain ⟨y, hy, hboth⟩ := Option.map_eq_some_iff.1 h
  obtain ⟨hall, hshown⟩ := Prod.mk.inj hboth
  exact ⟨y, hy, isSettled_of_all hall, hshown, (exact_of_run hy (isSettled_of_all hall)).2.2⟩

end Tally

end Submission

end OrderKeeper
