import OrderKeeper.Proofs.Keeper.Completion

/-!
# One record for every line

When nothing is left to do, every line that is not blank has its record, and it has one (`dispatched_of_run`): a line that
is no work item was answered with what is wrong with it and never came to a submission, and any other line with what the
last of its attempts has handed back, after one attempt at least and no more than its action allows.
-/

namespace OrderKeeper

open Nonce (Ticket)
open Submission (Answers)

/-! ## Lines -/

namespace Intake

variable {line : String}

theorem ofLine_eq_blank (h : ofLine line = .blank) : trimBlank line.toList = [] := by
  unfold ofLine at h
  split at h
  · exact List.isEmpty_iff.1 ‹_›
  · split at h <;> cases h

theorem ofLine_eq_rejected {e : KeeperError} (h : ofLine line = .rejected e) :
    trimBlank line.toList ≠ [] ∧ WorkItem.parse line = .error e := by
  unfold ofLine at h
  split at h
  · cases h
  · split at h <;> cases h
    exact ⟨fun hb => ‹¬_› (List.isEmpty_iff.2 hb), ‹_›⟩

theorem ofLine_eq_accepted {item : WorkItem} (h : ofLine line = .accepted item) :
    trimBlank line.toList ≠ [] ∧ WorkItem.parse line = .ok item := by
  unfold ofLine at h
  split at h
  · cases h
  · split at h <;> cases h
    exact ⟨fun hb => ‹¬_› (List.isEmpty_iff.2 hb), ‹_›⟩

end Intake

/-! ## Records -/

/-- How a record is written: the action is null if there is none, and there is an outcome or an error, as it has come. -/
structure JobRecord.Written (r : JobRecord) : Prop where
  action : Json.find? r.findings "action" = some (Json.option Action.toJson r.action)
  outcome : Json.find? r.findings "outcome" = r.result.toOption.map Outcome.toJson
  error : (Json.find? r.findings "error").isSome = !(Json.find? r.findings "outcome").isSome

theorem JobRecord.written (r : JobRecord) : r.Written := by
  obtain ⟨jobId, action, result⟩ := r
  cases result with
  | ok o => exact ⟨rfl, rfl, rfl⟩
  | error e => exact ⟨rfl, rfl, rfl⟩

/-! ## Accounts of lines -/

namespace Shift

/-- What the attempts of an accepted line have come to. -/
structure Worked (k : Keeper) (s : Shift) (n : Nat) (item : WorkItem) (result : Except KeeperError Outcome) : Prop where
  /-- The result is what the last of them has handed back. -/
  last : s.lastResult? n = some result
  some_attempt : 1 ≤ (s.attemptsOf n).length
  budget : (s.attemptsOf n).length ≤ item.maxRetries.toNat + 1
  execute : item.action = .execute → (s.attemptsOf n).length = 1
  cancel : item.action = .cancel → (s.attemptsOf n).length ≤ 6
  /-- Each of them is a submission of the work item. -/
  each : ∀ t ∈ s.attemptsOf n, ∃ task, s.floor.tasks.get? t = some task ∧ task.brief = k.brief item

/-- What a line has come to, and its record. -/
inductive Accounted (k : Keeper) (ids : Nat → String) (s : Shift) (n : Nat) (line : String) : Option JobRecord → Prop where
  | blank : trimBlank line.toList = [] → s.attemptsOf n = [] → Accounted k ids s n line none
  | rejected {e} : trimBlank line.toList ≠ [] → WorkItem.parse line = .error e → s.attemptsOf n = [] →
      Accounted k ids s n line (some ⟨ids n, none, .error e⟩)
  | worked {item result} : trimBlank line.toList ≠ [] → WorkItem.parse line = .ok item → Worked k s n item result →
      Accounted k ids s n line (some ⟨ids n, some item.action, result⟩)

/-- What is true of the records of a shift in a state `s`. -/
structure Dispatched (k : Keeper) (ids : Nat → String) (lines : List String) (s : Shift) : Prop where
  /-- The records are those of lines that were read, one each at most, in some order; when nothing is left to do, no line
  is without its account. -/
  records : ∃ out : List (Option JobRecord), s.desk.records.Perm out.reduceOption ∧
    (∀ n r, out[n]? = some (some r) → ∃ line, lines[n]? = some line ∧ Accounted k ids s n line (some r)) ∧
    (s.isDone = true → out.length = lines.length ∧
      ∀ n line o, lines[n]? = some line → out[n]? = some o → Accounted k ids s n line o)
  written : ∀ r ∈ s.desk.records, r.Written
  /-- Every submission is an attempt at a work item that was accepted, and has a ticket of its own. -/
  submitted : (s.attempts.map (·.2)).Nodup ∧ ∀ t task, s.floor.tasks.get? t = some task → ∃ n line item,
    t ∈ s.attemptsOf n ∧ lines[n]? = some line ∧ WorkItem.parse line = .ok item ∧ task.brief = k.brief item
  /-- If it was not told to close, it can come to where nothing is left to do, whatever is answered from now on. -/
  completes : s.closing = false → ∀ x, ∃ ms s', (∀ m ∈ ms, Move.Ordinary x m) ∧ s.run? k ids ms = some s' ∧
    s'.isDone = true

section Dispatched

variable {k : Keeper} {ids : Nat → String} {lines : List String} {s : Shift} {n : Nat} {line : String}
  {item : WorkItem} {result : Except KeeperError Outcome} {ms : List Move}

/-- A line that was accepted is the one that its attempts were made for. -/
theorem Attributed.of_mem (ha : Attributed k lines s) (hline : lines[n]? = some line)
    (hl : Intake.ofLine line = .accepted item) {t : Ticket} (ht : t ∈ s.attemptsOf n) :
    ∃ task, s.floor.tasks.get? t = some task ∧ task.brief = k.brief item := by
  obtain ⟨line', item', task, hat⟩ := ha.each n t (mem_attemptsOf.1 ht)
  have hsame := hat.given
  rw [hline] at hsame
  cases hsame
  have hitem := hat.accepted
  rw [hl] at hitem
  cases hitem
  exact ⟨task, hat.begun, hat.brief⟩

theorem worked_of_reported (ha : Attributed k lines s) (hline : lines[n]? = some line)
    (hl : Intake.ofLine line = .accepted item) (hr : s.lastResult? n = some result)
    (hb : (s.attemptsOf n).length ≤ item.maxRetries.toNat + 1) : Worked k s n item result := by
  have hpos : 1 ≤ (s.attemptsOf n).length := by
    obtain ⟨t, ht, -⟩ := Option.bind_eq_some_iff.1 hr
    exact List.length_pos_of_mem (List.mem_of_getLast? ht)
  refine ⟨hr, hpos, hb, fun he => ?_, fun hc => ?_, fun t ht => ha.of_mem hline hl ht⟩
  · rw [WorkItem.maxRetries, he] at hb
    exact Nat.le_antisymm hb hpos
  · rw [WorkItem.maxRetries, hc] at hb
    exact hb

theorem Booked.accounted {o : Option JobRecord} (hb : Booked ids s n line o) (ha : Attributed k lines s)
    (hline : lines[n]? = some line) (ho : o = none → s.desk.jobs = []) : Accounted k ids s n line o := by
  cases hb with
  | blank hl hi => exact .blank (Intake.ofLine_eq_blank hl) hi.attempts
  | rejected hl hi =>
    obtain ⟨hne, hparse⟩ := Intake.ofLine_eq_rejected hl
    exact .rejected hne hparse hi.attempts
  | working _ hj =>
    rw [ho rfl] at hj
    cases hj
  | reported hl _ _ hr hb =>
    obtain ⟨hne, hparse⟩ := Intake.ofLine_eq_accepted hl
    exact .worked hne hparse (worked_of_reported ha hline hl hr hb)

/-- **However jobs and submissions go side by side and whatever is answered to them, every line that is not blank gets one
record, which says what has become of it.** -/
theorem dispatched_of_run (h : (start lines).run? k ids ms = some s) : Dispatched k ids lines s := by
  have hs := consistent_of_run h
  have ha := hs.attributed
  obtain ⟨out, hb⟩ := hs.books
  constructor
  case records =>
    refine ⟨out, hb.records, fun n r hr => ?_, fun hdone => ?_⟩
    · have hn : n < lines.length := by
        refine Nat.lt_of_lt_of_le ?_ hb.read
        rw [← hb.length]
        exact (List.getElem?_eq_some_iff.1 hr).1
      have hline : lines[n]? = some lines[n] := List.getElem?_eq_getElem hn
      exact ⟨_, hline, (hb.booked n _ _ hline hr).accounted ha hline (fun ho => by cases ho)⟩
    · obtain ⟨hinput, hjobs⟩ := Bool.and_eq_true_iff.1 hdone
      have hall : lines.length ≤ s.taken := by
        rw [← List.drop_eq_nil_iff, ← hb.input]
        exact List.isEmpty_iff.1 hinput
      refine ⟨hb.length.trans (Nat.le_antisymm hb.read hall), fun n line o hline ho => ?_⟩
      exact (hb.booked n line o hline ho).accounted ha hline fun _ => List.isEmpty_iff.1 hjobs
  case written => exact fun r _ => r.written
  case submitted =>
    refine ⟨ha.distinct, fun t task ht => ?_⟩
    obtain ⟨n, hn⟩ := ha.all t task ht
    obtain ⟨line, item, task', hat⟩ := ha.each n t hn
    have hsame := hat.begun
    rw [ht] at hsame
    cases hsame
    exact ⟨n, line, item, mem_attemptsOf.2 hn, hat.given, (Intake.ofLine_eq_accepted hat.accepted).2, hat.brief⟩
  case completes =>
    intro hc x
    obtain ⟨s', hleads, hdone⟩ := leads_to_end (x := x) hs hc
    obtain ⟨ms, hms, hrun⟩ := hleads.run
    exact ⟨ms, s', hms, hrun, hdone⟩

/-! ## A shift to look at -/

namespace Sample

/-- A keeper with the key of account 7 on one network. -/
def keeper : Keeper where
  registry := ⟨[("test", ⟨"test", 1, { scheme := "http", path := "/" }⟩)]⟩
  keyring := ⟨[(7, ⟨1, by decide, by decide⟩)]⟩
  settings := { maxEscalations := 1 }
  jobTimeout := 60000

/-- A cancellation of an order of account 2 by keeper 7. -/
def cancellation : String :=
  "\x7b\"type\":\"cancel\",\"network\":\"test\",\"contractAddress\":\"0x0000000000000000000000000000000000000001\"," ++
    "\"keeperAddress\":\"0x0000000000000000000000000000000000000007\"," ++
    "\"order\":\x7b\"account\":\"0x0000000000000000000000000000000000000002\",\"index\":\"0x0\",\"orderType\":\"0x0\"\x7d\x7d"

/-- The same answers, but for those of the ledger. -/
def replying (x : Answers) (ledger : (call : LedgerCall) → Except Fault call.Answer) : Answers := { x with ledger }

/-- A ledger that cannot be reached. -/
def unreachable : Answers := replying (Submission.Sample.answers none) fun _ => .error (.rpc 1 "" "" (.transport ""))

/-- A ledger on which there is nothing to do. -/
def idle : Answers :=
  replying (Submission.Sample.answers none) fun
    | .call _ => .ok (List.replicate 63 0 ++ [64] ++ List.replicate 32 0)
    | c => (Submission.Sample.answers none).ledger c

/-- One attempt of the third line, in which all that is asked is whether there is something to do. -/
def attempt (t : Ticket) (x : Answers) : List Move :=
  .attempt 2 t :: List.replicate 3 (.go t x) ++ [.close t, .report 2]

/-- A blank line, one that is no work item, and a cancellation whose first attempt does not reach its ledger. -/
def input : List String := [" ", "cancel it", cancellation]

/-- Three lines are read, and the last of them is attempted twice. -/
def moves : List Move := List.replicate 3 .read ++ attempt 0 unreachable ++ [.resume 2] ++ attempt 1 idle

end Sample

/-- Of three lines, one is blank, one is rejected and one is attempted twice. -/
theorem dispatched_of_three_lines : ∃ s, (start Sample.input).run? Sample.keeper toString Sample.moves = some s ∧
    s.isDone = true ∧ s.desk.records.map JobRecord.jobId = ["1", "2"] ∧ s.attempts = [(2, 0), (2, 1)] ∧
      Dispatched Sample.keeper toString Sample.input s := by
  have h : ((start Sample.input).run? Sample.keeper toString Sample.moves).map (fun s =>
      (s.isDone, s.desk.records.map JobRecord.jobId, s.attempts)) = some (true, ["1", "2"], [(2, 0), (2, 1)]) := by
    decide +kernel
  obtain ⟨s, hs, h⟩ := Option.map_eq_some_iff.1 h
  simp only [Prod.mk.injEq] at h
  exact ⟨s, hs, h.1, h.2.1, h.2.2, dispatched_of_run hs⟩

end Dispatched

end Shift

end OrderKeeper
