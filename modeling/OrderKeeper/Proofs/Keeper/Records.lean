import Mathlib.Data.List.ReduceOption
import OrderKeeper.Proofs.Keeper.Shift
import OrderKeeper.Proofs.Submission.Verdicts

/-!
# The records of a shift

Whatever ledgers answer, and in whatever order jobs and submissions make their steps, the records that have gone out are
one for each line that was rejected or whose attempts have come to their end, and none for any other (`Books`). The
attempts of a job are counted against its budget (`Trying`), and its record is what the last of them has handed back.
-/

namespace OrderKeeper

open Nonce (Ticket)

/-! ## Retries -/

/-- Attempts begin with an attempt. -/
theorem Retry.exists_attempts_eq {ε α : Type} (left : Nat) (retry : UInt32) :
    ∃ next, (Retry.attempts left retry : Retry.Talk ε α) = .ask (.attempt retry) none next :=
  ⟨_, by rw [Retry.attempts]⟩

/-- With an attempt to make, a job has not come to its end. -/
theorem Retry.result?_attempts {ε α : Type} {left : Nat} {retry : UInt32} :
    (Retry.attempts left retry : Retry.Talk ε α).result? = none := by
  obtain ⟨next, hnext⟩ := Retry.exists_attempts_eq (ε := ε) (α := α) left retry
  rw [hnext]
  rfl

/-- After an attempt, a job has the attempt's result, or pauses before another attempt, if one is left. -/
theorem Retry.after_attempt {left : Nat} {retry n : UInt32} {stop : Option (Except KeeperError Outcome)}
    {next : Except (Verdict KeeperError) Outcome → Retry.Talk KeeperError Outcome}
    (h : Retry.attempts left retry = .ask (.attempt n) stop next) (result : Except KeeperError Outcome) :
    next (result.mapError KeeperError.verdict) = .done result ∨ ∃ left' e, left = left' + 1 ∧ result = .error e ∧
      next (result.mapError KeeperError.verdict) =
        .ask (.pause 5000) (some (.error e)) fun () => Retry.attempts left' (retry + 1) := by
  rw [Retry.attempts] at h
  cases h
  cases result with
  | ok o => exact .inl rfl
  | error e =>
    have hm : (Except.error e : Except KeeperError Outcome).mapError KeeperError.verdict = .error e.verdict := rfl
    cases hr : e.isRetryable with
    | false =>
      rw [hm, KeeperError.verdict_of_not_isRetryable hr]
      exact .inl rfl
    | true =>
      rw [hm, KeeperError.verdict_of_isRetryable hr]
      cases left with
      | zero => exact .inl rfl
      | succ left => exact .inr ⟨left, e, rfl, rfl, rfl⟩

/-! ## The desk -/

namespace Desk

variable {d : Desk} {j : Job} {i n : Nat}

theorem get?_put_of_ne (h : i ≠ n) :
    (d.put i j).jobs.get? n = d.jobs.get? n := by
  unfold Desk.put
  split
  · exact Table.get?_erase_of_ne _ h
  · exact Table.get?_set_of_ne _ _ h

theorem get?_read_of_ne {jobId line : String} (h : i ≠ n) :
    (d.read i jobId line).jobs.get? n = d.jobs.get? n := by
  unfold Desk.read
  split
  · rfl
  · rfl
  · exact Table.get?_set_of_ne _ _ h

/-- A job that has not come to its end is put back. -/
theorem put_of_none (h : j.talk.result? = none) : d.put n j = { d with jobs := d.jobs.set n j } := by
  rw [Desk.put, Job.record?, h]
  rfl

/-- What is read is passed over, reported at once, or put with the jobs. -/
theorem read_cases (d : Desk) (n : Nat) (jobId line : String) :
    (Intake.ofLine line = .blank ∧ d.read n jobId line = d) ∨
    (∃ e, Intake.ofLine line = .rejected e ∧
      d.read n jobId line = { d with records := d.records ++ [⟨jobId, none, .error e⟩] }) ∨
    ∃ item, Intake.ofLine line = .accepted item ∧
      d.read n jobId line = { d with jobs := d.jobs.set n ⟨jobId, item, Retry.attempts item.maxRetries.toNat 0⟩ } := by
  unfold read
  cases Intake.ofLine line with
  | blank => exact .inl ⟨rfl, rfl⟩
  | rejected e => exact .inr (.inl ⟨e, rfl, rfl⟩)
  | accepted item => exact .inr (.inr ⟨item, rfl, rfl⟩)

end Desk

namespace Shift

/-! ## Jobs -/

section Jobs

variable {k : Keeper} {ids : Nat → String} {s s' : Shift} {m : Move} {n : Nat} {item : WorkItem} {line : String}

/-- There is nothing of a line at the keeper. -/
structure Idle (s : Shift) (n : Nat) : Prop where
  job : s.desk.jobs.get? n = none
  pending : s.pending.get? n = none
  attempts : s.attemptsOf n = []

/-- Where a job stands. Its attempts so far, and those that may follow, are its budget. -/
inductive Trying (s : Shift) (n : Nat) (item : WorkItem) : Retry.Talk KeeperError Outcome → Prop where
  | ready {left retry} : s.pending.get? n = none →
      (s.attemptsOf n).length + left = item.maxRetries.toNat → Trying s n item (Retry.attempts left retry)
  | pending {left retry t} : s.pending.get? n = some t → (s.attemptsOf n).getLast? = some t →
      (s.attemptsOf n).length + left = item.maxRetries.toNat + 1 → Trying s n item (Retry.attempts left retry)
  | pausing {left retry ms e} : s.pending.get? n = none → s.lastResult? n = some (.error e) →
      (s.attemptsOf n).length + left = item.maxRetries.toNat →
      Trying s n item (.ask (.pause ms) (some (.error e)) fun () => Retry.attempts left retry)

theorem Trying.result? {talk : Retry.Talk KeeperError Outcome} (h : s.Trying n item talk) : talk.result? = none := by
  cases h with
  | ready | pending => exact Retry.result?_attempts
  | pausing => rfl

section Inversion

variable {t : Ticket} {retry : UInt32} {ms : UInt64} {stop : Option (Except KeeperError Outcome)}

/-- A job that asks for an attempt and waits for none has another one left. -/
theorem Trying.of_attempt {next : Except (Verdict KeeperError) Outcome → Retry.Talk KeeperError Outcome}
    (h : s.Trying n item (.ask (.attempt retry) stop next)) (hp : s.pending.get? n = none) :
    ∃ left retry', Retry.attempts left retry' = .ask (.attempt retry) stop next ∧
      (s.attemptsOf n).length + left = item.maxRetries.toNat := by
  generalize htalk : (.ask (.attempt retry) stop next : Retry.Talk KeeperError Outcome) = talk at h
  cases h with
  | ready _ hb => exact ⟨_, _, rfl, hb⟩
  | pausing => cases htalk
  | pending hp' =>
    rw [hp] at hp'
    cases hp'

/-- The attempt that a job waits for is its last one so far. -/
theorem Trying.of_pending {next : Except (Verdict KeeperError) Outcome → Retry.Talk KeeperError Outcome}
    (h : s.Trying n item (.ask (.attempt retry) stop next)) (hp : s.pending.get? n = some t) :
    ∃ left retry', Retry.attempts left retry' = .ask (.attempt retry) stop next ∧
      (s.attemptsOf n).getLast? = some t ∧ (s.attemptsOf n).length + left = item.maxRetries.toNat + 1 := by
  generalize htalk : (.ask (.attempt retry) stop next : Retry.Talk KeeperError Outcome) = talk at h
  cases h with
  | ready hp' =>
    rw [hp] at hp'
    cases hp'
  | pausing => cases htalk
  | pending hp' hl hb =>
    rw [hp] at hp'
    cases hp'
    exact ⟨_, _, rfl, hl, hb⟩

/-- A job that pauses has the error of its last attempt, and another attempt after the pause. -/
theorem Trying.of_pause {next : Unit → Retry.Talk KeeperError Outcome}
    (h : s.Trying n item (.ask (.pause ms) stop next)) :
    ∃ left retry' e, stop = some (.error e) ∧ next () = Retry.attempts left retry' ∧ s.pending.get? n = none ∧
      s.lastResult? n = some (.error e) ∧ (s.attemptsOf n).length + left = item.maxRetries.toNat := by
  generalize htalk : (.ask (.pause ms) stop next : Retry.Talk KeeperError Outcome) = talk at h
  cases h with
  | ready | pending =>
    rw [Retry.attempts] at htalk
    cases htalk
  | pausing hp hr hb =>
    cases htalk
    exact ⟨_, _, _, rfl, rfl, hp, hr, hb⟩

end Inversion

/-- What has become of a line that was read, and its record, if it has gone out. -/
inductive Booked (ids : Nat → String) (s : Shift) (n : Nat) (line : String) : Option JobRecord → Prop where
  | blank : Intake.ofLine line = .blank → s.Idle n → Booked ids s n line none
  | rejected {e} : Intake.ofLine line = .rejected e → s.Idle n → Booked ids s n line (some ⟨ids n, none, .error e⟩)
  | working {item talk} : Intake.ofLine line = .accepted item →
      s.desk.jobs.get? n = some ⟨ids n, item, talk⟩ → s.Trying n item talk → Booked ids s n line none
  | reported {item result} : Intake.ofLine line = .accepted item → s.desk.jobs.get? n = none →
      s.pending.get? n = none → s.lastResult? n = some result →
      (s.attemptsOf n).length ≤ item.maxRetries.toNat + 1 →
      Booked ids s n line (some ⟨ids n, some item.action, result⟩)

/-- What has been handed back stays. -/
def Keeps (s s' : Shift) : Prop := ∀ t r, s.floor.result? t = some r → s'.floor.result? t = some r

/-- Nothing has changed about the job of a line, but for what its submissions have handed back meanwhile. -/
structure Same (s s' : Shift) (n : Nat) : Prop where
  job : s'.desk.jobs.get? n = s.desk.jobs.get? n
  pending : s'.pending.get? n = s.pending.get? n
  attempts : s'.attemptsOf n = s.attemptsOf n
  keeps : Keeps s s'

theorem Same.lastResult? {r : Except KeeperError Outcome} (h : Same s s' n) (hr : s.lastResult? n = some r) :
    s'.lastResult? n = some r := by
  obtain ⟨t, ht, hr⟩ := Option.bind_eq_some_iff.1 hr
  rw [Shift.lastResult?, h.attempts, ht]
  exact h.keeps t r hr

theorem Idle.of_same (hi : s.Idle n) (h : Same s s' n) : s'.Idle n :=
  ⟨h.job.trans hi.job, h.pending.trans hi.pending, h.attempts.trans hi.attempts⟩

theorem Trying.of_same {talk : Retry.Talk KeeperError Outcome} (ht : s.Trying n item talk) (h : Same s s' n) :
    s'.Trying n item talk := by
  cases ht with
  | ready hp hb => exact .ready (h.pending.trans hp) (by rw [h.attempts]; exact hb)
  | pending hp hl hb => exact .pending (h.pending.trans hp) (by rw [h.attempts]; exact hl) (by rw [h.attempts]; exact hb)
  | pausing hp hr hb => exact .pausing (h.pending.trans hp) (h.lastResult? hr) (by rw [h.attempts]; exact hb)

theorem Booked.of_same {o : Option JobRecord} (hb : Booked ids s n line o) (h : Same s s' n) :
    Booked ids s' n line o := by
  cases hb with
  | blank hl hi => exact .blank hl (hi.of_same h)
  | rejected hl hi => exact .rejected hl (hi.of_same h)
  | working hl hj ht => exact .working hl (h.job.trans hj) (ht.of_same h)
  | reported hl hj hp hr hb =>
    exact .reported hl (h.job.trans hj) (h.pending.trans hp) (h.lastResult? hr) (by rw [h.attempts]; exact hb)

/-- The line whose job a step concerns. -/
def Move.line? (s : Shift) : Move → Option Nat
  | read => some s.taken
  | attempt n _ | report n | resume n | quit n => some n
  | go .. | stop _ | close _ | shutdown => none

theorem attemptsOf_append {t : Ticket} {j : Nat} (h : s'.attempts = s.attempts ++ [(j, t)]) :
    s'.attemptsOf n = s.attemptsOf n ++ if j = n then [t] else [] := by
  rw [attemptsOf, h, List.filter_append, List.map_append, ← attemptsOf]
  by_cases hj : j = n <;> simp [hj]

theorem keeps_of_steps (h : Steps k ids s m s') : Keeps s s' := by
  intro t r hr
  cases h with
  | attempt _ _ hf => exact Submission.Floor.result?_of_apply hf hr
  | work _ hf => exact Submission.Floor.result?_of_apply hf hr
  | read | report | resume | shutdown | quit => exact hr

/-- A step concerns the job of one line at most. -/
theorem same_of_steps (h : Steps k ids s m s') (hn : m.line? s ≠ some n) : Same s s' n := by
  have hk := keeps_of_steps h
  cases h with
  | read => exact ⟨Desk.get?_read_of_ne fun e => hn (by rw [← e]; rfl), rfl, rfl, hk⟩
  | attempt =>
    have hne : _ ≠ n := fun e => hn (congrArg some e)
    exact ⟨rfl, Table.get?_set_of_ne _ _ hne, (attemptsOf_append rfl).trans (by simp [hne]), hk⟩
  | work | shutdown => exact ⟨rfl, rfl, rfl, hk⟩
  | report =>
    have hne : _ ≠ n := fun e => hn (congrArg some e)
    exact ⟨Desk.get?_put_of_ne hne, Table.get?_erase_of_ne _ hne, rfl, hk⟩
  | resume | quit =>
    have hne : _ ≠ n := fun e => hn (congrArg some e)
    exact ⟨Desk.get?_put_of_ne hne, rfl, rfl, hk⟩

end Jobs

/-! ## Books -/

section Books

variable {k : Keeper} {ids : Nat → String} {lines : List String} {s s' : Shift} {m : Move} {n : Nat}
  {item : WorkItem} {line : String} {out : List (Option JobRecord)}

/-- The records that have gone out are those of the lines that were read, in some order. -/
structure Books (ids : Nat → String) (lines : List String) (s : Shift) (out : List (Option JobRecord)) : Prop where
  input : s.input = lines.drop s.taken
  read : s.taken ≤ lines.length
  idle : ∀ n, s.taken ≤ n → s.Idle n
  length : out.length = s.taken
  records : s.desk.records.Perm out.reduceOption
  booked : ∀ n line o, lines[n]? = some line → out[n]? = some o → Booked ids s n line o

theorem books_start : Books ids lines (start lines) [] where
  input := rfl
  read := Nat.zero_le _
  idle _ _ := ⟨rfl, rfl, rfl⟩
  length := rfl
  records := .refl _
  booked _ _ _ _ h := by cases h

/-- A job that is under way is one of an accepted line, which has no record yet. -/
theorem Books.job (hs : Books ids lines s out) {jobId : String} {talk : Retry.Talk KeeperError Outcome}
    (hj : s.desk.jobs.get? n = some ⟨jobId, item, talk⟩) :
    jobId = ids n ∧ s.Trying n item talk ∧
      ∃ line, lines[n]? = some line ∧ out[n]? = some none ∧ Intake.ofLine line = .accepted item := by
  have hn : n < s.taken := by
    by_contra hge
    rw [(hs.idle n (Nat.le_of_not_lt hge)).job] at hj
    cases hj
  obtain ⟨line, hline⟩ : ∃ line, lines[n]? = some line := ⟨_, List.getElem?_eq_getElem (Nat.lt_of_lt_of_le hn hs.read)⟩
  obtain ⟨o, hout⟩ : ∃ o, out[n]? = some o := ⟨_, List.getElem?_eq_getElem (by rw [hs.length]; exact hn)⟩
  cases hs.booked n line o hline hout with
  | blank _ hi | rejected _ hi =>
    rw [hi.job] at hj
    cases hj
  | working hl hj' ht =>
    rw [hj] at hj'
    cases hj'
    exact ⟨rfl, ht, _, hline, hout, hl⟩
  | reported _ hj' =>
    rw [hj] at hj'
    cases hj'

/-- A step that reads no line keeps the books if it keeps the entry of the line that it concerns. -/
theorem Books.of_steps (hs : Books ids lines s out) (h : Steps k ids s m s') {out' : List (Option JobRecord)}
    (hinput : s'.input = s.input) (htaken : s'.taken = s.taken) (hn : ∀ n, m.line? s = some n → n < s.taken)
    (hlen : out'.length = out.length) (hrecords : s'.desk.records.Perm out'.reduceOption)
    (hsame : ∀ n, m.line? s ≠ some n → out'[n]? = out[n]?)
    (hbooked : ∀ n line o, m.line? s = some n → lines[n]? = some line → out'[n]? = some o → Booked ids s' n line o) :
    Books ids lines s' out' := by
  constructor
  case input => rw [hinput, htaken]; exact hs.input
  case read => rw [htaken]; exact hs.read
  case idle =>
    intro i hi
    rw [htaken] at hi
    refine (hs.idle i hi).of_same (same_of_steps h fun he => ?_)
    exact absurd (hn i he) (Nat.not_lt.2 hi)
  case length => rw [hlen, htaken]; exact hs.length
  case records => exact hrecords
  case booked =>
    intro i line o hline ho
    by_cases he : m.line? s = some i
    · exact hbooked i line o he hline ho
    · rw [hsame i he] at ho
      exact (hs.booked i line o hline ho).of_same (same_of_steps h he)

/-- The record of a job takes its place among the others. -/
theorem perm_set (h : out[n]? = some none) (r : JobRecord) :
    (out.set n (some r)).reduceOption.Perm (out.reduceOption ++ [r]) := by
  obtain ⟨hn, hnone⟩ := List.getElem?_eq_some_iff.1 h
  have hsplit : out = out.take n ++ none :: out.drop (n + 1) := by
    rw [← hnone, ← List.drop_eq_getElem_cons, List.take_append_drop]
  rw [List.set_eq_take_append_cons_drop, if_pos hn]
  conv_rhs => rw [hsplit]
  simp only [List.reduceOption_append, List.reduceOption_cons_of_some, List.reduceOption_cons_of_none, List.append_assoc]
  exact (List.perm_append_singleton r _).symm.append_left _

/-- A line that is read has its record at once, or becomes a job, or is passed over. -/
theorem booked_read (hi : s.Idle n) (hd : s'.desk = s.desk.read n (ids n) line) (hp : s'.pending = s.pending)
    (ha : s'.attempts = s.attempts) :
    ∃ o, Booked ids s' n line o ∧ s'.desk.records = s.desk.records ++ o.toList := by
  have hpending : s'.pending.get? n = none := by rw [hp, hi.pending]
  have hattempts : s'.attemptsOf n = [] := by rw [attemptsOf, ha]; exact hi.attempts
  rcases Desk.read_cases s.desk n (ids n) line with ⟨hl, hr⟩ | ⟨e, hl, hr⟩ | ⟨item, hl, hr⟩
  · have hjob : s'.desk.jobs.get? n = none := by rw [hd, hr, hi.job]
    exact ⟨none, .blank hl ⟨hjob, hpending, hattempts⟩, by simp [hd, hr]⟩
  · have hjob : s'.desk.jobs.get? n = none := by rw [hd, hr]; exact hi.job
    exact ⟨_, .rejected hl ⟨hjob, hpending, hattempts⟩, by simp [hd, hr]⟩
  · have hjob : s'.desk.jobs.get? n = some ⟨ids n, item, Retry.attempts item.maxRetries.toNat 0⟩ := by
      rw [hd, hr, Table.get?_set_self]
    exact ⟨none, .working hl hjob (.ready hpending (by simp [hattempts])), by simp [hd, hr]⟩

theorem of_read (h : Steps k ids s .read s') :
    ∃ line rest, s.input = line :: rest ∧ s'.input = rest ∧ s'.taken = s.taken + 1 ∧
      s'.desk = s.desk.read s.taken (ids s.taken) line ∧ s'.pending = s.pending ∧ s'.attempts = s.attempts := by
  cases h with
  | work hm => cases hm
  | read _ hinput => exact ⟨_, _, hinput, rfl, rfl, rfl, rfl, rfl⟩

theorem books_read (hs : Books ids lines s out) (h : Steps k ids s .read s') : ∃ out', Books ids lines s' out' := by
  have hsame {i : Nat} (hi : i ≠ s.taken) : Same s s' i := same_of_steps h fun he => hi (Option.some.inj he).symm
  obtain ⟨line, rest, hinput, hinput', htaken, hd, hp, ha⟩ := of_read h
  have hdrop : lines.drop s.taken = line :: rest := hs.input.symm.trans hinput
  have hlt : s.taken < lines.length := by
    by_contra hge
    rw [List.drop_eq_nil_of_le (Nat.le_of_not_lt hge)] at hdrop
    cases hdrop
  rw [List.drop_eq_getElem_cons hlt] at hdrop
  obtain ⟨hline, hrest⟩ := List.cons.inj hdrop
  obtain ⟨o, hb, hrecords⟩ := booked_read (hs.idle s.taken (Nat.le_refl _)) hd hp ha
  refine ⟨out ++ [o], ?_⟩
  constructor
  case input => rw [hinput', htaken, hrest]
  case read => rw [htaken]; exact hlt
  case idle =>
    intro i hi
    rw [htaken] at hi
    exact (hs.idle i (Nat.le_of_succ_le hi)).of_same (hsame (Nat.ne_of_gt hi))
  case length => simp [hs.length, htaken]
  case records =>
    rw [List.reduceOption_append, List.reduceOption_singleton, hrecords]
    exact hs.records.append_right _
  case booked =>
    intro i l o' hl ho
    by_cases hi : i = s.taken
    · subst hi
      rw [List.getElem?_eq_getElem hlt, hline] at hl
      rw [← hs.length, List.getElem?_concat_length] at ho
      cases hl
      cases ho
      exact hb
    · have hlen : i < out.length := by
        have hlt' := (List.getElem?_eq_some_iff.1 ho).1
        rw [List.length_append, List.length_singleton] at hlt'
        have hlength := hs.length
        omega
      rw [List.getElem?_append_left hlen] at ho
      exact (hs.booked i l o' hl ho).of_same (hsame hi)

/-- A step of a job keeps the books if it leaves the job where its attempts allow it. -/
theorem Books.of_working (hs : Books ids lines s out) (h : Steps k ids s m s') (hn : m.line? s = some n)
    {jobId : String} {talk talk' : Retry.Talk KeeperError Outcome}
    (hj : s.desk.jobs.get? n = some ⟨jobId, item, talk⟩) (hinput : s'.input = s.input) (htaken : s'.taken = s.taken)
    (hrecords : s'.desk.records = s.desk.records) (hj' : s'.desk.jobs.get? n = some ⟨jobId, item, talk'⟩)
    (ht : s'.Trying n item talk') : Books ids lines s' out := by
  obtain ⟨hid, -, line, hline, hout, hl⟩ := hs.job hj
  cases hid
  have hlt : n < s.taken := by
    rw [← hs.length]
    exact (List.getElem?_eq_some_iff.1 hout).1
  refine hs.of_steps h hinput htaken ?_ rfl (hrecords ▸ hs.records) (fun _ _ => rfl) ?_
  · rintro i hi
    rw [hn] at hi
    cases hi
    exact hlt
  · intro i l o hi hl' ho
    rw [hn] at hi
    cases hi
    rw [hline] at hl'
    rw [hout] at ho
    cases hl'
    cases ho
    exact .working hl hj' ht

/-- A job that is put back keeps the books if its attempts allow it. -/
theorem Books.of_put (hs : Books ids lines s out) (h : Steps k ids s m s') (hn : m.line? s = some n)
    {jobId : String} {talk talk' : Retry.Talk KeeperError Outcome}
    (hj : s.desk.jobs.get? n = some ⟨jobId, item, talk⟩) (hinput : s'.input = s.input) (htaken : s'.taken = s.taken)
    (hd : s'.desk = s.desk.put n ⟨jobId, item, talk'⟩) (ht : s'.Trying n item talk') : Books ids lines s' out := by
  rw [Desk.put_of_none ht.result?] at hd
  exact hs.of_working h hn hj hinput htaken (by rw [hd]) (by rw [hd]; exact Table.get?_set_self ..) ht

/-- A step with which the attempts of a job come to their end keeps the books. -/
theorem Books.of_reported (hs : Books ids lines s out) (h : Steps k ids s m s') (hn : m.line? s = some n)
    {jobId : String} {talk : Retry.Talk KeeperError Outcome} {result : Except KeeperError Outcome}
    (hj : s.desk.jobs.get? n = some ⟨jobId, item, talk⟩) (hinput : s'.input = s.input) (htaken : s'.taken = s.taken)
    (hd : s'.desk = s.desk.put n ⟨jobId, item, .done result⟩) (hp : s'.pending.get? n = none)
    (hr : s'.lastResult? n = some result) (hb : (s'.attemptsOf n).length ≤ item.maxRetries.toNat + 1) :
    ∃ out', Books ids lines s' out' := by
  obtain ⟨hid, -, line, hline, hout, hl⟩ := hs.job hj
  cases hid
  have hlt : n < out.length := (List.getElem?_eq_some_iff.1 hout).1
  have hj' : s'.desk.jobs.get? n = none := by
    rw [hd]
    exact Table.get?_erase_self ..
  have hrecords : s'.desk.records = s.desk.records ++ [⟨ids n, some item.action, result⟩] := by
    rw [hd]
    rfl
  refine ⟨out.set n (some ⟨ids n, some item.action, result⟩), hs.of_steps h hinput htaken ?_ ?_ ?_ ?_ ?_⟩
  · rintro i hi
    rw [hn] at hi
    cases hi
    rw [← hs.length]
    exact hlt
  · simp
  · rw [hrecords]
    exact (hs.records.append_right _).trans (perm_set hout _).symm
  · intro i hi
    rw [List.getElem?_set_ne]
    rintro rfl
    exact hi hn
  · intro i l o hi hl' ho
    rw [hn] at hi
    cases hi
    rw [hline] at hl'
    rw [List.getElem?_set_self hlt] at ho
    cases hl'
    cases ho
    exact .reported hl hj' hp hr hb

theorem line?_of_work {fm : Submission.Floor.Move} (h : m.work? = some fm) : m.line? s = none := by
  cases m with
  | go | stop | close => rfl
  | read | attempt | report | resume | shutdown | quit => cases h

/-- A step of a submission, and the beginning of the end, leave the books as they are. -/
theorem Books.of_other (hs : Books ids lines s out) (h : Steps k ids s m s') (hn : m.line? s = none)
    (hinput : s'.input = s.input) (htaken : s'.taken = s.taken) (hd : s'.desk = s.desk) : Books ids lines s' out :=
  hs.of_steps h hinput htaken (fun _ hi => by rw [hn] at hi; cases hi) rfl (by rw [hd]; exact hs.records)
    (fun _ _ => rfl) fun _ _ _ hi => by rw [hn] at hi; cases hi

theorem books_of_steps (hs : Books ids lines s out) (h : Steps k ids s m s') : ∃ out', Books ids lines s' out' := by
  have hstep := h
  cases h with
  | read => exact books_read hs hstep
  | work hm => exact ⟨out, hs.of_other hstep (line?_of_work hm) rfl rfl rfl⟩
  | shutdown => exact ⟨out, hs.of_other hstep rfl rfl rfl rfl⟩
  | @attempt n t jobId item retry stop next f hj hp hf =>
    obtain ⟨left, retry', htalk, hb⟩ := (hs.job hj).2.1.of_attempt hp
    refine ⟨out, hs.of_working hstep rfl hj rfl rfl rfl hj ?_⟩
    rw [← htalk]
    refine .pending (Table.get?_set_self ..) ?_ ?_
    · rw [attemptsOf_append rfl]
      simp
    · rw [attemptsOf_append rfl]
      simp
      omega
  | @report n t jobId item retry stop next result hj hp hr =>
    obtain ⟨left, retry', htalk, hl, hb⟩ := (hs.job hj).2.1.of_pending hp
    have hlast : s.lastResult? n = some result := by
      rw [Shift.lastResult?, hl]
      exact hr
    rcases Retry.after_attempt htalk result with hdone | ⟨left', e, hleft, hresult, hpause⟩
    · refine hs.of_reported hstep rfl hj rfl rfl (by rw [hdone]) (Table.get?_erase_self ..) hlast ?_
      exact Nat.le_of_add_right_le (Nat.le_of_eq hb)
    · subst hleft hresult
      refine ⟨out, hs.of_put hstep rfl hj rfl rfl (by rw [hpause]) ?_⟩
      exact .pausing (Table.get?_erase_self ..) hlast (Nat.succ.inj hb)
  | @resume n jobId item ms stop next hc hj =>
    obtain ⟨left, retry', e, -, hnext, hp, hr, hb⟩ := (hs.job hj).2.1.of_pause
    exact ⟨out, hs.of_put hstep rfl hj rfl rfl (by rw [hnext]) (.ready hp hb)⟩
  | @quit n jobId item ms result next hc hj =>
    obtain ⟨left, retry', e, hstop, -, hp, hr, hb⟩ := (hs.job hj).2.1.of_pause
    cases hstop
    exact hs.of_reported hstep rfl hj rfl rfl rfl hp hr (Nat.le_succ_of_le (Nat.le_of_add_right_le (Nat.le_of_eq hb)))

end Books

end Shift

end OrderKeeper
