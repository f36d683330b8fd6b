import OrderKeeper.Keeper.Shift
import OrderKeeper.Proofs.Submission.Account

/-!
# Steps of a shift

`Steps` has one row for each kind of step that a keeper can make; whatever is proved of all shifts is proved by these rows.
No step takes back what a submission has handed back (`result?_of_apply`).
-/

namespace OrderKeeper

open Nonce (Ticket)
open Submission (Floor Answers)

/-! ## What stays of submissions -/

namespace Submission.Floor

variable {f g : Floor} {m : Move} {t : Ticket} {r : Except KeeperError Outcome}

/-- What a submission has handed back stays. -/
theorem result?_of_apply (h : f.apply m = some g) (hr : f.result? t = some r) : g.result? t = some r := by
  by_cases hm : m.ticket = t
  · subst hm
    obtain ⟨task, ht, hr⟩ := Option.bind_eq_some_iff.1 hr
    rcases apply_cases h with ⟨b, hnone, -, -⟩ | ⟨task₀, turn, a, ht₀, hT, -, -⟩
    · rw [ht] at hnone
      cases hnone
    · rw [ht] at ht₀
      cases ht₀
      -- one that has handed something back is over
      have ho := hT.not_over
      generalize task.standing = st at hr ho
      cases st with
      | ended e => cases ho
      | underWay | closing => cases hr
  · rw [result?, task_of_apply h hm]
    exact hr

/-- A submission begins under a ticket of its own. -/
theorem of_enter {b : Brief} (h : f.apply ⟨t, .enter b⟩ = some g) :
    f.tasks.get? t = none ∧ g.tasks = f.tasks.set t { brief := b, standing := .underWay b.course .idle } := by
  rcases turn_of_apply h with ⟨b', hnone, hb, rfl⟩ | ⟨task, turn, a, -, hturn, -, -⟩
  · cases hb
    exact ⟨hnone, rfl⟩
  · cases hturn

/-- The step of a submission under way begins none. -/
theorem task_of_work (h : f.apply m = some g) (hm : ∀ b, m.act ≠ .enter b) (ht : f.tasks.get? t = none) :
    g.tasks.get? t = none := by
  by_cases hu : m.ticket = t
  · subst hu
    rcases apply_cases h with ⟨b, -, hb, -⟩ | ⟨task, turn, a, ht', -, -, -⟩
    · exact absurd hb (hm b)
    · rw [ht] at ht'
      cases ht'
  · rw [task_of_apply h hu, ht]

end Submission.Floor

/-! ## Steps -/

namespace Shift

/-- What a step does. -/
inductive Steps (k : Keeper) (ids : Nat → String) : Shift → Move → Shift → Prop where
  | read {s line rest} : s.closing = false → s.input = line :: rest →
      Steps k ids s .read
        { s with input := rest, taken := s.taken + 1, desk := s.desk.read s.taken (ids s.taken) line }
  | attempt {s n t jobId item retry stop next f} :
      s.desk.jobs.get? n = some ⟨jobId, item, .ask (.attempt retry) stop next⟩ → s.pending.get? n = none →
      s.floor.apply ⟨t, .enter (k.brief item)⟩ = some f →
      Steps k ids s (.attempt n t)
        { s with floor := f, pending := s.pending.set n t, attempts := s.attempts ++ [(n, t)] }
  | work {s m fm f} : m.work? = some fm → s.floor.apply fm = some f → Steps k ids s m { s with floor := f }
  | report {s n t jobId item retry stop next result} :
      s.desk.jobs.get? n = some ⟨jobId, item, .ask (.attempt retry) stop next⟩ → s.pending.get? n = some t →
      s.floor.result? t = some result →
      Steps k ids s (.report n)
        { s with
          desk := s.desk.put n ⟨jobId, item, next (result.mapError KeeperError.verdict)⟩
          pending := s.pending.erase n }
  | resume {s n jobId item ms stop next} : s.closing = false →
      s.desk.jobs.get? n = some ⟨jobId, item, .ask (.pause ms) stop next⟩ →
      Steps k ids s (.resume n) { s with desk := s.desk.put n ⟨jobId, item, next ()⟩ }
  | shutdown {s} : Steps k ids s .shutdown { s with closing := true }
  | quit {s n jobId item ms result next} : s.closing = true →
      s.desk.jobs.get? n = some ⟨jobId, item, .ask (.pause ms) (some result) next⟩ →
      Steps k ids s (.quit n) { s with desk := s.desk.put n ⟨jobId, item, .done result⟩ }

variable {k : Keeper} {ids : Nat → String} {s s' : Shift} {m : Move}

theorem steps_of_work {fm : Floor.Move} (hm : m.work? = some fm) (h : s.work fm = some s') : Steps k ids s m s' := by
  obtain ⟨f, hf, rfl⟩ := Option.map_eq_some_iff.1 h
  exact .work hm hf

theorem steps_of_apply (h : s.apply k ids m = some s') : Steps k ids s m s' := by
  cases m with
  | go | stop | close => exact steps_of_work rfl h
  | shutdown =>
    cases h
    exact .shutdown
  | read =>
    simp only [apply] at h
    split at h
    · cases h
      exact .read ‹_› ‹_›
    · cases h
  | attempt n t =>
    simp only [apply] at h
    split at h
    · obtain ⟨f, hf, rfl⟩ := Option.map_eq_some_iff.1 h
      exact .attempt ‹_› ‹_› hf
    · cases h
  | report n =>
    simp only [apply] at h
    split at h
    · obtain ⟨r, hr, rfl⟩ := Option.map_eq_some_iff.1 h
      exact .report ‹_› ‹_› hr
    · cases h
  | resume n =>
    simp only [apply] at h
    split at h
    · cases h
      exact .resume ‹_› ‹_›
    · cases h
  | quit n =>
    simp only [apply] at h
    split at h
    · cases h
      exact .quit ‹_› ‹_›
    · cases h

theorem act_of_work {fm : Floor.Move} (h : m.work? = some fm) : (∀ b, fm.act ≠ .enter b) ∧ fm.act ≠ .drop := by
  cases m with
  | go | stop | close =>
    cases h
    exact ⟨nofun, nofun⟩
  | read | attempt | report | resume | shutdown | quit => cases h

/-! ## Runs -/

@[simp] theorem run?_nil : s.run? k ids [] = some s := rfl

theorem run?_cons {ms : List Move} :
    s.run? k ids (m :: ms) = some s' ↔ ∃ e, s.apply k ids m = some e ∧ e.run? k ids ms = some s' := by
  rw [run?, List.foldlM_cons]
  exact Option.bind_eq_some_iff

theorem run?_append {ms ns : List Move} (h : s.run? k ids ms = some s') :
    s.run? k ids (ms ++ ns) = s'.run? k ids ns := by
  rw [run?, List.foldlM_append]
  change (s.run? k ids ms).bind _ = _
  rw [h]
  rfl

/-- What every step keeps, every run keeps. -/
theorem run_induction {P : Shift → Prop} (step : ∀ {s : Shift} {m : Move} {s' : Shift}, P s → Steps k ids s m s' → P s') :
    ∀ {ms : List Move} {s : Shift}, P s → s.run? k ids ms = some s' → P s'
  | [], _, hs, h => by
    cases h
    exact hs
  | _ :: _, _, hs, h => by
    obtain ⟨e, he, h⟩ := run?_cons.1 h
    exact run_induction step (step hs (steps_of_apply he)) h

/-- A step of a shift is at most one step of its submissions. -/
theorem floor_of_steps (hs : ∃ fs, Floor.run? {} fs = some s.floor) (h : Steps k ids s m s') :
    ∃ fs, Floor.run? {} fs = some s'.floor := by
  obtain ⟨fs, hfs⟩ := hs
  have more {fm : Floor.Move} {f : Floor} (hf : s.floor.apply fm = some f) : ∃ fs, Floor.run? {} fs = some f :=
    ⟨fs ++ [fm], Floor.run?_concat hfs hf⟩
  cases h with
  | attempt _ _ hf => exact more hf
  | work _ hf => exact more hf
  | read | report | resume | shutdown | quit => exact ⟨fs, hfs⟩

end Shift

end OrderKeeper
