import OrderKeeper.Proofs.Keeper.Records

/-!
# The attempts of a shift

The submissions of a shift are the attempts of its jobs (`Attributed`): each has a ticket of its own, starts from the work
item of its line, and is never given up, so that what it is waited for comes.
-/

namespace OrderKeeper

open Nonce (Ticket Stage)

/-! ## Submissions that are not given up -/

namespace Submission

variable {f g : Floor} {m : Floor.Move} {t : Ticket} {task : Task} {stage : Option Stage}

namespace Task

/-- A submission that goes on is under way, or has finished. -/
theorem exit?_of_goTurn? {b : Brief} {x : Answers} {talk : Rest} {w : Wait} {turn : Turn}
    (h : goTurn? b x stage talk w = some turn) :
    turn.standing.exit? = none ∨ ∃ r, turn.standing.exit? = some (.finished r) := by
  unfold goTurn? at h
  split at h
  case h_1 =>
    cases h
    exact .inr ⟨_, rfl⟩
  case h_7 =>
    obtain ⟨st, -, rfl⟩ := Option.map_eq_some_iff.1 h
    cases st with
    | querying =>
      rw [leaseTurn]
      split <;> exact .inl rfl
    | arriving | waiting | admitted | answered | settled | leased => exact .inl rfl
  case h_9 =>
    dsimp only at h
    split at h <;> cases h <;> exact .inl rfl
  case h_11 => cases h
  all_goals
    cases h
    exact .inl rfl

/-- Only a submission that is given up ends so. -/
theorem exit?_of_turn? {turn : Turn} {act : Act} (h : task.turn? stage act = some turn) (ha : act ≠ .drop)
    (hd : task.standing.exit? ≠ some .dropped) : turn.standing.exit? ≠ some .dropped := by
  cases act with
  | enter => cases h
  | drop => exact absurd rfl ha
  | go x =>
    simp only [turn?] at h
    split at h
    · rcases exit?_of_goTurn? h with hnone | ⟨r, hr⟩
      · simp [hnone]
      · simp [hr]
    · cases h
  | stop =>
    simp only [turn?] at h
    split at h
    · split at h <;> cases h
      simp [Standing.exit?]
    · cases h
  | close =>
    simp only [turn?] at h
    split at h
    case h_1 hs | h_2 hs | h_3 hs =>
      cases h
      rw [hs] at hd
      exact hd
    case h_4 => cases h

end Task

/-- A submission that is not given up goes on from what it started from. -/
theorem Floor.kept_of_apply (h : f.apply m = some g) (ha : m.act ≠ .drop) (ht : f.tasks.get? t = some task)
    (hd : task.standing.exit? ≠ some .dropped) :
    ∃ task', g.tasks.get? t = some task' ∧ task'.brief = task.brief ∧ task'.standing.exit? ≠ some .dropped := by
  by_cases hm : m.ticket = t
  · subst hm
    obtain ⟨b, hnone, -, -⟩ | ⟨task₀, turn, a, ht₀, hturn, -, rfl⟩ := turn_of_apply h
    · rw [ht] at hnone
      cases hnone
    · rw [ht] at ht₀
      cases ht₀
      exact ⟨_, task_record .., rfl, Task.exit?_of_turn? hturn ha hd⟩
  · rw [← task_of_apply h hm] at ht
    exact ⟨task, ht, rfl, hd⟩

end Submission

/-! ## Attempts -/

namespace Shift

variable {k : Keeper} {ids : Nat → String} {lines : List String} {s s' : Shift} {m : Move} {n : Nat} {t : Ticket}
  {out : List (Option JobRecord)}

/-- The submission of an attempt starts from the work item of its line, and is not given up. -/
structure Attempted (k : Keeper) (lines : List String) (f : Submission.Floor) (n : Nat) (t : Ticket) (line : String)
    (item : WorkItem) (task : Submission.Task) : Prop where
  given : lines[n]? = some line
  accepted : Intake.ofLine line = .accepted item
  begun : f.tasks.get? t = some task
  brief : task.brief = k.brief item
  kept : task.standing.exit? ≠ some .dropped

/-- The submissions of a shift are its attempts. -/
structure Attributed (k : Keeper) (lines : List String) (s : Shift) : Prop where
  distinct : (s.attempts.map (·.2)).Nodup
  each : ∀ n t, (n, t) ∈ s.attempts → ∃ line item task, Attempted k lines s.floor n t line item task
  all : ∀ t task, s.floor.tasks.get? t = some task → ∃ n, (n, t) ∈ s.attempts

theorem mem_attemptsOf : t ∈ s.attemptsOf n ↔ (n, t) ∈ s.attempts := by
  simp [attemptsOf]

theorem attributed_start : Attributed k lines (start lines) where
  distinct := List.nodup_nil
  each _ _ h := by cases h
  all _ _ h := by cases h

theorem Attempted.of_apply {f g : Submission.Floor} {fm : Submission.Floor.Move} {line : String} {item : WorkItem}
    {task : Submission.Task} (ha : Attempted k lines f n t line item task) (h : f.apply fm = some g)
    (hd : fm.act ≠ .drop) : ∃ task', Attempted k lines g n t line item task' := by
  obtain ⟨task', ht', hb, hkept⟩ := Submission.Floor.kept_of_apply h hd ha.begun ha.kept
  exact ⟨task', ha.given, ha.accepted, ht', hb.trans ha.brief, hkept⟩

/-- The step of a submission under way keeps to the attempts. -/
theorem Attributed.of_work {f : Submission.Floor} {fm : Submission.Floor.Move} (ha : Attributed k lines s)
    (h : s.floor.apply fm = some f) (hm : ∀ b, fm.act ≠ .enter b) (hd : fm.act ≠ .drop) :
    Attributed k lines { s with floor := f } := by
  constructor
  case distinct => exact ha.distinct
  case each =>
    intro n t hn
    obtain ⟨line, item, task, hat⟩ := ha.each n t hn
    exact ⟨line, item, hat.of_apply h hd⟩
  case all =>
    intro t task ht
    cases ht₀ : s.floor.tasks.get? t with
    | some task₀ => exact ha.all t task₀ ht₀
    | none =>
      rw [Submission.Floor.task_of_work h hm ht₀] at ht
      cases ht

theorem attributed_of_steps (hs : Books ids lines s out) (ha : Attributed k lines s) (h : Steps k ids s m s') :
    Attributed k lines s' := by
  cases h with
  | read | report | resume | shutdown | quit => exact ⟨ha.distinct, ha.each, ha.all⟩
  | work hm hf => exact ha.of_work hf (act_of_work hm).1 (act_of_work hm).2
  | @attempt n t jobId item retry stop next f hj hp hf =>
    obtain ⟨-, -, line, hline, -, hl⟩ := hs.job hj
    obtain ⟨hnone, htasks⟩ := Submission.Floor.of_enter hf
    constructor
    case distinct =>
      rw [List.map_append]
      refine List.nodup_append.2 ⟨ha.distinct, List.nodup_cons.2 ⟨List.not_mem_nil, List.nodup_nil⟩, ?_⟩
      rintro u hu _ (_ | ⟨_, ⟨⟩⟩) rfl
      obtain ⟨e, he, rfl⟩ := List.mem_map.1 hu
      obtain ⟨_, _, task, hat⟩ := ha.each e.1 e.2 he
      cases hnone.symm.trans hat.begun
    case each =>
      intro i u hu
      rcases List.mem_append.1 hu with hu | hu
      · obtain ⟨line', item', task, hat⟩ := ha.each i u hu
        exact ⟨line', item', hat.of_apply hf (fun hd => by cases hd)⟩
      · cases List.mem_singleton.1 hu
        exact ⟨line, item, _, hline, hl, by rw [htasks, Table.get?_set_self], rfl, fun hd => by cases hd⟩
    case all =>
      intro u task hu
      rw [htasks] at hu
      by_cases hut : t = u
      · subst hut
        exact ⟨n, List.mem_append_right _ (List.mem_singleton.2 rfl)⟩
      · rw [Table.get?_set_of_ne _ _ hut] at hu
        obtain ⟨i, hi⟩ := ha.all u task hu
        exact ⟨i, List.mem_append_left _ hi⟩

/-! ## What every shift is like -/

/-- What is true of a shift at every moment. -/
structure Consistent (k : Keeper) (ids : Nat → String) (lines : List String) (s : Shift) : Prop where
  books : ∃ out, Books ids lines s out
  attributed : Attributed k lines s
  floor : ∃ fs, Submission.Floor.run? {} fs = some s.floor

theorem Consistent.of_steps (hs : Consistent k ids lines s) (h : Steps k ids s m s') : Consistent k ids lines s' := by
  obtain ⟨out, hb⟩ := hs.books
  exact ⟨books_of_steps hb h, attributed_of_steps hb hs.attributed h, floor_of_steps hs.floor h⟩

theorem consistent_of_run {ms : List Move} (h : (start lines).run? k ids ms = some s) : Consistent k ids lines s :=
  run_induction Consistent.of_steps ⟨⟨[], books_start⟩, attributed_start, [], rfl⟩ h

end Shift

end OrderKeeper
