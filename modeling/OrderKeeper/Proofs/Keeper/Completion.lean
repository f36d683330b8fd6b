import Mathlib.Data.Fintype.EquivFin
import OrderKeeper.Proofs.Keeper.Attempts
import OrderKeeper.Proofs.Submission.Cancellation

/-!
# The end of a shift

A shift can come to its end from wherever it has got to, whatever ledgers and signers answer from then on, and nothing but
its own deadline is needed to end a submission (`canEnd_of_run`). What a job still needs is counted by its retries
(`finishes_of_ready`), what a shift needs by its jobs and the lines that are left (`leads_to_end`).
-/

namespace OrderKeeper

open Nonce (Ticket Stage Allocator)

/-! ## Submissions can end -/

namespace Submission

/-- A submission goes on with the answers `x`, is stopped at its deadline, or is closed when it has ended. -/
inductive Act.Ordinary (x : Answers) : Act → Prop where
  | go : Act.Ordinary x (.go x)
  | stop : Act.Ordinary x .stop
  | close : Act.Ordinary x .close

/-- Steps of one submission lead from one state to another. -/
inductive Floor.Goes (x : Answers) (t : Ticket) : Floor → Floor → Prop where
  | refl {f} : Floor.Goes x t f f
  | step {f g h a} : Act.Ordinary x a → f.apply ⟨t, a⟩ = some g → Floor.Goes x t g h → Floor.Goes x t f h

variable {f g : Floor} {t : Ticket} {task : Task} {x : Answers}

theorem Floor.Goes.trans {h : Floor} (hfg : Goes x t f g) (hgh : Goes x t g h) : Goes x t f h := by
  induction hfg with
  | refl => exact hgh
  | step ha hf _ ih => exact .step ha hf (ih hgh)

/-- A submission hands something back after some steps that are its own. -/
def Floor.CanEnd (x : Answers) (f : Floor) (t : Ticket) : Prop := ∃ g r, Goes x t f g ∧ g.result? t = some r

theorem Floor.CanEnd.of_apply {a : Act} (ha : Act.Ordinary x a) (h : f.apply ⟨t, a⟩ = some g) (hg : g.CanEnd x t) :
    f.CanEnd x t := by
  obtain ⟨g', r, hgoes, hr⟩ := hg
  exact ⟨g', r, .step ha h hgoes, hr⟩

/-- What is over has handed something back, unless it was given up. -/
theorem canEnd_of_ended {e : Exit} (ht : f.tasks.get? t = some task) (he : task.standing = .ended e)
    (hd : task.standing.exit? ≠ some .dropped) : f.CanEnd x t := by
  rw [he] at hd
  have hr : f.result? t = e.result? := by
    rw [Floor.result?, ht, Option.bind_some, he]
    rfl
  cases e with
  | dropped => exact absurd rfl hd
  | finished r => exact ⟨f, r, .refl, hr⟩
  | stopped e => exact ⟨f, .error e, .refl, hr⟩

theorem canEnd_of_closing {e : Exit} (hf : Sound f) (ht : f.tasks.get? t = some task)
    (he : task.standing = .closing e) (hd : task.standing.exit? ≠ some .dropped) : f.CanEnd x t := by
  obtain ⟨g, task', hg, ht', he'⟩ := hf.closes ht he
  refine .of_apply .close hg (canEnd_of_ended ht' he' ?_)
  rw [he']
  rw [he] at hd
  exact hd

/-- What waits is ended by its deadline. -/
theorem canEnd_of_suspended {ms : List Floor.Move} (h : Floor.run? {} ms = some f) (ht : f.tasks.get? t = some task)
    (hs : task.standing.isSuspended (f.allocator.stage? t) = true) : f.CanEnd x t := by
  have hf := sound_of_run h
  obtain ⟨q, during, hash, next, wait, hst, -⟩ := stop_of_narrated (narrated_of_run h ht) hs
  have hstop := apply_stop ht hst (hf.canLetGo ht hs)
  refine .of_apply .stop hstop (canEnd_of_closing (sound_apply hf hstop) (Floor.task_record ..) rfl ?_)
  simp [Standing.exit?]

theorem canEnd_of_done {r : Except KeeperError Outcome} (hf : Sound f) (ht : f.tasks.get? t = some task)
    (hs : task.standing = .underWay (.done r) .idle) : f.CanEnd x t := by
  have hgo : f.apply ⟨t, .go x⟩ = some (f.record t task { standing := .closing (.finished r) } f.allocator) := by
    refine Floor.apply_of_turn? ht ?_ rfl
    simp [Task.turn?, hs, Task.goTurn?]
  exact .of_apply .go hgo (canEnd_of_closing (sound_apply hf hgo) (Floor.task_record ..) rfl (by simp [Standing.exit?]))

/-- A request that cannot let go needs one step of its own to get to where it can. -/
theorem exists_step_of_not_canLetGo {st : Stage} (hst : canLetGo (some st) = false) (x : Answers) (keeper : Address)
    (talk : Rest) (next : Except Fault UInt64 → Rest) (s : Nonce.Slot) (t : Ticket) :
    ∃ y event s' st', Task.leaseTurn x keeper talk next st = ⟨some y, event, .underWay talk .lease⟩ ∧
      s.step? t (some st) y = some (s', some st') ∧ canLetGo (some st') = true := by
  cases st with
  | arriving => exact ⟨.join, _, _, _, rfl, rfl, rfl⟩
  | admitted => exact ⟨.ask, _, _, _, rfl, rfl, rfl⟩
  | settled n => exact ⟨.leave, _, _, _, rfl, rfl, rfl⟩
  | waiting | querying | answered | leased => cases hst

theorem canEnd_of_busy {ms : List Floor.Move} {keeper : Address} {stop : Option KeeperError}
    {next : Except Fault UInt64 → Rest} {st : Stage} (h : Floor.run? {} ms = some f) (ht : f.tasks.get? t = some task)
    (hs : task.standing = .underWay (.ask (.lease keeper) stop next) .lease) (hst : f.allocator.stage? t = some st)
    (hgo : canLetGo (some st) = false) : f.CanEnd x t := by
  obtain ⟨r, hr, rfl⟩ := Option.map_eq_some_iff.1 hst
  obtain ⟨y, event, s', st', hturn, hstep, hgo'⟩ :=
    exists_step_of_not_canLetGo hgo x keeper (.ask (.lease keeper) stop next) next (f.allocator.slot r.key) t
  have happly : f.apply ⟨t, .go x⟩ = some (f.record t task
      ⟨some y, event, .underWay (.ask (.lease keeper) stop next) .lease⟩ (f.allocator.put t r.key s' (some st'))) := by
    refine Floor.apply_of_turn? ht ?_ (Allocator.apply_of_step? hr hstep)
    simp [Task.turn?, hs, Task.goTurn?, hst, hturn]
  refine .of_apply .go happly (canEnd_of_suspended (Floor.run?_concat h happly) (Floor.task_record ..) ?_)
  change canLetGo ((f.allocator.put t r.key s' (some st')).stage? t) = true
  rw [Allocator.stage?_eq Allocator.request_put_self]
  exact hgo'

/-- **Whatever a submission waits for, its deadline ends it, if it is not given up.** -/
theorem canEnd_of_run {ms : List Floor.Move} (h : Floor.run? {} ms = some f) (ht : f.tasks.get? t = some task)
    (hd : task.standing.exit? ≠ some .dropped) : f.CanEnd x t := by
  have hf := sound_of_run h
  cases hs : task.standing with
  | ended e => exact canEnd_of_ended ht hs hd
  | closing e => exact canEnd_of_closing hf ht hs hd
  | underWay talk wait =>
    cases hsus : task.standing.isSuspended (f.allocator.stage? t) with
    | true => exact canEnd_of_suspended h ht hsus
    | false =>
      have hn := narrated_of_run h ht
      rw [hs] at hn hsus
      generalize task.log = log at hn
      cases hn with
      | ready => exact canEnd_of_done hf ht hs
      | asking _ _ _ hm =>
        generalize hstage : f.allocator.stage? t = stage at hm hsus
        cases hm with
        | idle | reply | looking | pausing => cases hsus
        | queued | querying | answered | granted => exact canEnd_of_busy h ht hs hstage hsus

end Submission

/-! ## Shifts can end -/

namespace Shift

open Submission (Answers)

/-- A step of a shift that goes on with the answers `x` and is not told to close. -/
inductive Move.Ordinary (x : Answers) : Move → Prop where
  | read : Move.Ordinary x .read
  | attempt {n t} : Move.Ordinary x (.attempt n t)
  | work {m fm} : m.work? = some fm → Submission.Act.Ordinary x fm.act → Move.Ordinary x m
  | report {n} : Move.Ordinary x (.report n)
  | resume {n} : Move.Ordinary x (.resume n)

/-- Ordinary steps lead from one state to another. -/
inductive Leads (k : Keeper) (ids : Nat → String) (x : Answers) : Shift → Shift → Prop where
  | refl {s} : Leads k ids x s s
  | step {s e s' m} : Move.Ordinary x m → s.apply k ids m = some e → Leads k ids x e s' → Leads k ids x s s'

variable {k : Keeper} {ids : Nat → String} {lines : List String} {x : Answers} {s s' s'' : Shift} {m : Move} {n : Nat}
  {t : Ticket} {item : WorkItem} {jobId : String}

theorem Leads.trans (h : Leads k ids x s s') (h' : Leads k ids x s' s'') : Leads k ids x s s'' := by
  induction h with
  | refl => exact h'
  | step hm ha _ ih => exact .step hm ha (ih h')

theorem Leads.run (h : Leads k ids x s s') : ∃ ms, (∀ m ∈ ms, Move.Ordinary x m) ∧ s.run? k ids ms = some s' := by
  induction h with
  | refl => exact ⟨[], List.forall_mem_nil _, rfl⟩
  | @step _ _ _ m hm ha _ ih =>
    obtain ⟨ms, hms, hrun⟩ := ih
    refine ⟨m :: ms, ?_, run?_cons.2 ⟨_, ha, hrun⟩⟩
    intro i hi
    rcases List.mem_cons.1 hi with rfl | hi
    · exact hm
    · exact hms i hi

theorem Consistent.of_leads (hs : Consistent k ids lines s) (h : Leads k ids x s s') : Consistent k ids lines s' := by
  induction h with
  | refl => exact hs
  | step _ ha _ ih => exact ih (hs.of_steps (steps_of_apply ha))

/-- The steps of a submission are steps of its shift. -/
theorem leads_of_goes {f g : Submission.Floor} (h : Submission.Floor.Goes x t f g) (hs : s.floor = f) :
    Leads k ids x s { s with floor := g } := by
  induction h generalizing s with
  | refl =>
    rw [← hs]
    exact .refl
  | @step f e g a ha hf _ ih =>
    have hwork : s.work ⟨t, a⟩ = some { s with floor := e } := by
      rw [work, hs, hf]
      rfl
    have hrest : Leads k ids x { s with floor := e } { s with floor := g } := ih rfl
    cases ha with
    | go => exact .step (m := .go t x) (.work rfl .go) hwork hrest
    | stop => exact .step (m := .stop t) (.work rfl .stop) hwork hrest
    | close => exact .step (m := .close t) (.work rfl .close) hwork hrest

/-- A state that differs from another in nothing but the job of one line, and what belongs to it. -/
structure Spares (n : Nat) (s s' : Shift) : Prop where
  input : s'.input = s.input
  taken : s'.taken = s.taken
  closing : s'.closing = s.closing
  jobs : ∀ i, i ≠ n → s'.desk.jobs.get? i = s.desk.jobs.get? i

theorem Spares.trans (h : Spares n s s') (h' : Spares n s' s'') : Spares n s s'' :=
  ⟨h'.input.trans h.input, h'.taken.trans h.taken, h'.closing.trans h.closing,
    fun i hi => (h'.jobs i hi).trans (h.jobs i hi)⟩

/-- The job of a line can come to its end, whatever others do. -/
def Finishes (k : Keeper) (ids : Nat → String) (x : Answers) (s : Shift) (n : Nat) : Prop :=
  ∃ s', Leads k ids x s s' ∧ Spares n s s' ∧ s'.desk.jobs.get? n = none

theorem Finishes.of_leads (h : Leads k ids x s s') (hn : Spares n s s') (hf : Finishes k ids x s' n) :
    Finishes k ids x s n := by
  obtain ⟨s'', h', hn', hj⟩ := hf
  exact ⟨s'', h.trans h', hn.trans hn', hj⟩

/-- What is known of a job that has `left` retries left: it can come to its end from wherever its next attempt begins. -/
def Ready (k : Keeper) (ids : Nat → String) (lines : List String) (x : Answers) (n left : Nat) : Prop :=
  ∀ (s : Shift) (jobId : String) (item : WorkItem) (retry : UInt32), Consistent k ids lines s → s.closing = false →
    s.pending.get? n = none → s.desk.jobs.get? n = some ⟨jobId, item, Retry.attempts left retry⟩ →
      Finishes k ids x s n

section Steps

variable (k ids)

theorem apply_report {retry : UInt32} {stop : Option (Except KeeperError Outcome)}
    {next : Except (Verdict KeeperError) Outcome → Retry.Talk KeeperError Outcome} {result : Except KeeperError Outcome}
    (hj : s.desk.jobs.get? n = some ⟨jobId, item, .ask (.attempt retry) stop next⟩) (hp : s.pending.get? n = some t)
    (hr : s.floor.result? t = some result) :
    s.apply k ids (.report n) = some { s with
      desk := s.desk.put n ⟨jobId, item, next (result.mapError KeeperError.verdict)⟩
      pending := s.pending.erase n } := by
  simp [apply, hj, hp, hr]

theorem apply_resume {ms : UInt64} {stop : Option (Except KeeperError Outcome)}
    {next : Unit → Retry.Talk KeeperError Outcome} (hc : s.closing = false)
    (hj : s.desk.jobs.get? n = some ⟨jobId, item, .ask (.pause ms) stop next⟩) :
    s.apply k ids (.resume n) = some { s with desk := s.desk.put n ⟨jobId, item, next ()⟩ } := by
  simp [apply, hc, hj]

theorem apply_attempt {f : Submission.Floor} {retry : UInt32} {stop : Option (Except KeeperError Outcome)}
    {next : Except (Verdict KeeperError) Outcome → Retry.Talk KeeperError Outcome}
    (hj : s.desk.jobs.get? n = some ⟨jobId, item, .ask (.attempt retry) stop next⟩) (hp : s.pending.get? n = none)
    (hf : s.floor.apply ⟨t, .enter (k.brief item)⟩ = some f) :
    s.apply k ids (.attempt n t) = some
      { s with floor := f, pending := s.pending.set n t, attempts := s.attempts ++ [(n, t)] } := by
  simp [apply, hj, hp, hf]

end Steps

theorem spares_of_put {j : Job} (hd : s'.desk = s.desk.put n j) (hi : s'.input = s.input) (ht : s'.taken = s.taken)
    (hc : s'.closing = s.closing) : Spares n s s' :=
  ⟨hi, ht, hc, fun i h => by rw [hd]; exact Desk.get?_put_of_ne h.symm⟩

theorem finishes_of_pausing {left : Nat} {retry : UInt32} {ms : UInt64} {stop : Option (Except KeeperError Outcome)}
    (ih : Ready k ids lines x n left) (hs : Consistent k ids lines s) (hc : s.closing = false)
    (hp : s.pending.get? n = none)
    (hj : s.desk.jobs.get? n = some ⟨jobId, item, .ask (.pause ms) stop fun () => Retry.attempts left retry⟩) :
    Finishes k ids x s n := by
  have hgo := apply_resume k ids hc hj
  have hleads : Leads k ids x s _ := .step .resume hgo .refl
  have hj' : (s.desk.put n ⟨jobId, item, Retry.attempts left retry⟩).jobs.get? n =
      some ⟨jobId, item, Retry.attempts left retry⟩ := by
    rw [Desk.put_of_none Retry.result?_attempts]
    exact Table.get?_set_self ..
  exact .of_leads hleads (spares_of_put rfl rfl rfl rfl) (ih _ _ _ _ (hs.of_leads hleads) hc hp hj')

/-- A job that learns of the end of its attempt is over, or pauses with one retry less. -/
theorem finishes_of_result {left : Nat} {retry : UInt32} {result : Except KeeperError Outcome}
    (ih : ∀ left', left = left' + 1 → Ready k ids lines x n left') (hs : Consistent k ids lines s)
    (hc : s.closing = false) (hp : s.pending.get? n = some t)
    (hj : s.desk.jobs.get? n = some ⟨jobId, item, Retry.attempts left retry⟩)
    (hr : s.floor.result? t = some result) : Finishes k ids x s n := by
  obtain ⟨next, hnext⟩ := Retry.exists_attempts_eq (ε := KeeperError) (α := Outcome) left retry
  rw [hnext] at hj
  have hgo := apply_report k ids hj hp hr
  have hleads : Leads k ids x s _ := .step .report hgo .refl
  refine .of_leads hleads (spares_of_put rfl rfl rfl rfl) ?_
  rcases Retry.after_attempt hnext result with hdone | ⟨left', e, hleft, -, hpause⟩
  · refine ⟨_, .refl, ⟨rfl, rfl, rfl, fun _ _ => rfl⟩, ?_⟩
    dsimp only
    rw [hdone]
    exact Table.get?_erase_self ..
  · have hj' : (s.desk.put n ⟨jobId, item, next (result.mapError KeeperError.verdict)⟩).jobs.get? n =
        some ⟨jobId, item, .ask (.pause 5000) (some (.error e)) fun () => Retry.attempts left' (retry + 1)⟩ := by
      rw [hpause]
      exact Table.get?_set_self ..
    exact finishes_of_pausing (ih left' hleft) (hs.of_leads hleads) hc (Table.get?_erase_self ..) hj'

theorem finishes_of_pending {left : Nat} {retry : UInt32}
    (ih : ∀ left', left = left' + 1 → Ready k ids lines x n left') (hs : Consistent k ids lines s)
    (hc : s.closing = false) (hp : s.pending.get? n = some t) (ht : (n, t) ∈ s.attempts)
    (hj : s.desk.jobs.get? n = some ⟨jobId, item, Retry.attempts left retry⟩) : Finishes k ids x s n := by
  obtain ⟨_, _, task, hat⟩ := hs.attributed.each n t ht
  obtain ⟨fs, hfs⟩ := hs.floor
  obtain ⟨f, result, hgoes, hr⟩ := Submission.canEnd_of_run (x := x) hfs hat.begun hat.kept
  have hleads : Leads k ids x s { s with floor := f } := leads_of_goes hgoes rfl
  exact .of_leads hleads ⟨rfl, rfl, rfl, fun _ _ => rfl⟩ (finishes_of_result ih (hs.of_leads hleads) hc hp hj hr)

/-- There is always a ticket that no submission has. -/
theorem exists_fresh (f : Submission.Floor) : ∃ t, f.tasks.get? t = none := by
  obtain ⟨t, ht⟩ := Infinite.exists_notMem_finset f.tasks.keys.toFinset
  exact ⟨t, Table.get?_eq_none_iff.2 fun hm => ht (List.mem_toFinset.2 hm)⟩

theorem ready : ∀ left, Ready k ids lines x n left
  | left, s, jobId, item, retry, hs, hc, hp, hj => by
    obtain ⟨t, ht⟩ := exists_fresh s.floor
    obtain ⟨next, hnext⟩ := Retry.exists_attempts_eq (ε := KeeperError) (α := Outcome) left retry
    have hgo := apply_attempt k ids (hnext ▸ hj) hp (Submission.Floor.apply_enter ht)
    have hleads : Leads k ids x s _ := .step .attempt hgo .refl
    refine .of_leads hleads ⟨rfl, rfl, rfl, fun _ _ => rfl⟩ ?_
    refine finishes_of_pending ?_ (hs.of_leads hleads) hc (Table.get?_set_self ..) (by simp) hj
    rintro left' rfl
    exact ready left'

theorem finishes_of_job {j : Job} (hs : Consistent k ids lines s) (hc : s.closing = false)
    (hj : s.desk.jobs.get? n = some j) : Finishes k ids x s n := by
  obtain ⟨out, hb⟩ := hs.books
  obtain ⟨jobId, item, talk⟩ := j
  cases (hb.job hj).2.1 with
  | ready hp => exact ready _ _ _ _ _ hs hc hp hj
  | pausing hp => exact finishes_of_pausing (ready _) hs hc hp hj
  | pending hp hl =>
    exact finishes_of_pending (fun _ _ => ready _) hs hc hp (mem_attemptsOf.1 (List.mem_of_getLast? hl)) hj

/-- All jobs can come to their ends, one after the other. -/
theorem leads_to_settled (hs : Consistent k ids lines s) (hc : s.closing = false) : ∀ bound, ∃ s',
    Leads k ids x s s' ∧ s'.input = s.input ∧ s'.taken = s.taken ∧ s'.closing = false ∧
      ∀ n, n < bound → s'.desk.jobs.get? n = none
  | 0 => ⟨s, .refl, rfl, rfl, hc, fun _ hn => absurd hn (Nat.not_lt_zero _)⟩
  | bound + 1 => by
    obtain ⟨s', hleads, hinput, htaken, hc', hjobs⟩ := leads_to_settled hs hc bound
    obtain ⟨s'', hleads', hspares, hnone⟩ : Finishes k ids x s' bound := by
      cases hj : s'.desk.jobs.get? bound with
      | none => exact ⟨s', .refl, ⟨rfl, rfl, rfl, fun _ _ => rfl⟩, hj⟩
      | some j => exact finishes_of_job (hs.of_leads hleads) hc' hj
    refine ⟨s'', hleads.trans hleads', hspares.input.trans hinput, hspares.taken.trans htaken,
      hspares.closing.trans hc', fun n hn => ?_⟩
    rcases Nat.lt_succ_iff_lt_or_eq.1 hn with hlt | rfl
    · rw [hspares.jobs n (Nat.ne_of_lt hlt)]
      exact hjobs n hlt
    · exact hnone

/-- All lines can be read. -/
theorem leads_to_read : ∀ {input : List String} {s : Shift}, s.input = input → s.closing = false →
    ∃ s', Leads k ids x s s' ∧ s'.input = [] ∧ s'.closing = false
  | [], s, hi, hc => ⟨s, .refl, hi, hc⟩
  | line :: rest, s, hi, hc => by
    have hgo : s.apply k ids .read = some
        { s with input := rest, taken := s.taken + 1, desk := s.desk.read s.taken (ids s.taken) line } := by
      simp [apply, hi, hc]
    obtain ⟨s', hleads, hinput, hc'⟩ := leads_to_read (s := { s with
      input := rest, taken := s.taken + 1, desk := s.desk.read s.taken (ids s.taken) line }) rfl hc
    exact ⟨s', .step .read hgo hleads, hinput, hc'⟩

/-- **From wherever it has got to, a shift that was not told to close can come to its end.** -/
theorem leads_to_end (hs : Consistent k ids lines s) (hc : s.closing = false) :
    ∃ s', Leads k ids x s s' ∧ s'.isDone = true := by
  obtain ⟨s₁, h₁, hinput, hc₁⟩ : ∃ s₁, Leads k ids x s s₁ ∧ s₁.input = [] ∧ s₁.closing = false :=
    leads_to_read rfl hc
  obtain ⟨s', h', hinput', htaken, -, hjobs⟩ := leads_to_settled (x := x) (hs.of_leads h₁) hc₁ s₁.taken
  have hleads := h₁.trans h'
  refine ⟨s', hleads, ?_⟩
  obtain ⟨out, hb⟩ := (hs.of_leads hleads).books
  have hnone (n : Nat) : s'.desk.jobs.get? n = none := by
    rcases Nat.lt_or_ge n s₁.taken with hlt | hge
    · exact hjobs n hlt
    · exact (hb.idle n (by rw [htaken]; exact hge)).job
  have hempty : s'.desk.jobs = [] := by
    refine List.eq_nil_iff_forall_not_mem.2 fun e he => ?_
    exact Table.get?_eq_none_iff.1 (hnone e.1) (List.mem_map_of_mem he)
  rw [isDone, hinput', hinput, hempty]
  rfl

end Shift

end OrderKeeper
