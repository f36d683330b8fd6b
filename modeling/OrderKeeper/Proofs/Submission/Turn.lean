import OrderKeeper.Proofs.Nonce.Move
import OrderKeeper.Submission.Floor

/-!
# One step of a submission

- `Task.Turns` lists what the next step of a submission can be (`turns_of_turn?`).
- A step of one submission concerns no other one and no other request (`apply_cases`, `task_of_apply`,
  `request_of_apply`).
- What every step keeps, every run keeps (`run_induction`).
-/

namespace OrderKeeper.Submission

open Nonce (Ticket Key Stage Allocator)

variable {b : Brief} {x : Answers} {stage : Option Stage}

/-- The course of a submission from some point on. -/
abbrev Rest := Talk KeeperError (Except KeeperError Outcome)

/-- Where a watch stands once it has its answer. -/
def Standing.ofWatch (talk : Rest) (next : Except WaitFailure Receipt → Rest) : Watch.State → Standing
  | .ended r => .underWay (next r) .idle
  | state => .underWay talk (.watch state)

/-- What a submission can do next, at a stage of its request: what its request does, what is seen, and where the
submission stands then. -/
inductive Task.Turns (b : Brief) :
    Option Stage → Standing → Option Nonce.Step → Option Event → Standing → Prop where
  | finish {stage r} : Turns b stage (.underWay (.done r) .idle) none none (.closing (.finished r))
  | call {stage c stop next} : Turns b stage (.underWay (.ask (.ledger c) stop next) .idle) none (some (.called c))
      (.underWay (.ask (.ledger c) stop next) .reply)
  | reply {stage c stop next} (a : Except Fault c.Answer) :
      Turns b stage (.underWay (.ask (.ledger c) stop next) .reply) none (some (.replied c a))
        (.underWay (next a) .idle)
  | sign {stage o t stop next} (a : Except Fault SignedTransaction) : (∀ s, a = .ok s → s.transaction = t) →
      Turns b stage (.underWay (.ask (.sign o t) stop next) .idle) none none (.underWay (next a) .idle)
  | pause {stage ms stop next} : Turns b stage (.underWay (.ask (.pause ms) stop next) .idle) none none
      (.underWay (next ()) .idle)
  | request {stage keeper stop next} : Turns b stage (.underWay (.ask (.lease keeper) stop next) .idle)
      (some (.begin ⟨b.chainId, keeper⟩)) (some (.requested keeper)) (.underWay (.ask (.lease keeper) stop next) .lease)
  | join {keeper stop next} : Turns b (some .arriving) (.underWay (.ask (.lease keeper) stop next) .lease)
      (some .join) none (.underWay (.ask (.lease keeper) stop next) .lease)
  | recheck {keeper stop next} : Turns b (some .waiting) (.underWay (.ask (.lease keeper) stop next) .lease)
      (some .recheck) none (.underWay (.ask (.lease keeper) stop next) .lease)
  | ask {keeper stop next} : Turns b (some .admitted) (.underWay (.ask (.lease keeper) stop next) .lease)
      (some .ask) (some (.called (.pendingNonce keeper))) (.underWay (.ask (.lease keeper) stop next) .lease)
  | answer {keeper stop next} (p : UInt64) :
      Turns b (some .querying) (.underWay (.ask (.lease keeper) stop next) .lease) (some (.answer p))
        (some (.replied (.pendingNonce keeper) (.ok p))) (.underWay (.ask (.lease keeper) stop next) .lease)
  | fail {keeper stop next} (f : Fault) : Turns b (some .querying) (.underWay (.ask (.lease keeper) stop next) .lease)
      (some .fail) (some (.replied (.pendingNonce keeper) (.error f))) (.underWay (next (.error f)) .idle)
  | settle {keeper stop next p} : Turns b (some (.answered p)) (.underWay (.ask (.lease keeper) stop next) .lease)
      (some .settle) none (.underWay (.ask (.lease keeper) stop next) .lease)
  | leave {keeper stop next n} : Turns b (some (.settled n)) (.underWay (.ask (.lease keeper) stop next) .lease)
      (some .leave) none (.underWay (.ask (.lease keeper) stop next) .lease)
  | take {keeper stop next n} : Turns b (some (.leased n)) (.underWay (.ask (.lease keeper) stop next) .lease)
      none none (.underWay (next (.ok n)) .idle)
  | look {stage w stop next} : Turns b stage (.underWay (.ask (.watch w) stop next) .idle) none
      (some (.called (.receipt w.hash))) (.underWay (.ask (.watch w) stop next) (.watch Watch.start))
  | judge {stage w stop next polls} (a : Except Fault (Option Receipt)) :
      Turns b stage (.underWay (.ask (.watch w) stop next) (.watch (.looking polls))) none
        (some (.replied (.receipt w.hash) a)) (.ofWatch (.ask (.watch w) stop next) next (w.answer polls a))
  | wake {stage w stop next polls} :
      Turns b stage (.underWay (.ask (.watch w) stop next) (.watch (.pausing polls))) none
        (some (.called (.receipt w.hash))) (.underWay (.ask (.watch w) stop next) (.watch (.looking polls)))
  | stop {stage q e next w} : canLetGo stage = true → Turns b stage (.underWay (.ask q (some e) next) w) none none
      (.closing (.stopped e))
  | drop {stage talk w} : canLetGo stage = true → Turns b stage (.underWay talk w) none none (.closing .dropped)
  | close {e} : Turns b none (.closing e) none none (.ended e)
  | release {e n} : Turns b (some (.leased n)) (.closing e) (some .release) (some .released) (.ended e)
  | abandon {e st} : (∀ n, st ≠ .leased n) → Turns b (some st) (.closing e) (some .abandon) none (.ended e)

namespace Task

theorem turns_of_goTurn? {talk : Rest} {w : Wait} {turn : Turn} (h : goTurn? b x stage talk w = some turn) :
    Turns b stage (.underWay talk w) turn.step turn.event turn.standing := by
  unfold goTurn? at h
  split at h
  case h_1 => cases h; exact .finish
  case h_2 => cases h; exact .call
  case h_3 => cases h; exact .reply _
  case h_4 => cases h; exact .sign _ fun _ => x.faithful
  case h_5 => cases h; exact .pause
  case h_6 => cases h; exact .request
  case h_7 =>
    obtain ⟨st, rfl, rfl⟩ := Option.map_eq_some_iff.1 h
    cases st with
    | arriving => exact .join
    | waiting => exact .recheck
    | admitted => exact .ask
    | querying =>
      rw [leaseTurn]
      cases x.ledger (.pendingNonce _) with
      | ok p => exact .answer p
      | error f => exact .fail f
    | answered p => exact .settle
    | settled n => exact .leave
    | leased n => exact .take
  case h_8 => cases h; exact .look
  case h_9 w stop next polls =>
    have hj : Turns b stage (.underWay (.ask (.watch w) stop next) (.watch (.looking polls))) none
        (some (.replied (.receipt w.hash) (x.ledger (.receipt w.hash))))
        (.ofWatch (.ask (.watch w) stop next) next (w.answer polls (x.ledger (.receipt w.hash)))) := .judge _
    revert hj h
    cases w.answer polls (x.ledger (.receipt w.hash)) <;> intro h hj <;> cases h <;> exact hj
  case h_10 => cases h; exact .wake
  case h_11 => cases h

theorem turns_of_turn? {task : Task} {act : Act} {turn : Turn} (h : task.turn? stage act = some turn) :
    Turns task.brief stage task.standing turn.step turn.event turn.standing := by
  obtain ⟨brief, log, standing⟩ := task
  unfold turn? at h
  split at h
  · cases h
  · split at h
    · rename_i hs
      cases hs
      exact turns_of_goTurn? h
    · cases h
  · split at h
    · rename_i hs
      cases hs
      split at h
      · cases h; exact .stop ‹_›
      · cases h
    · cases h
  · split at h
    · rename_i hs
      cases hs
      split at h
      · cases h; exact .drop ‹_›
      · cases h
    · cases h
  · split at h
    · rename_i hs
      cases hs
      cases h
      exact .close
    · rename_i hs
      cases hs
      cases h
      exact .release
    · rename_i hn hs
      cases hs
      cases h
      exact .abandon fun n => hn n
    · cases h

end Task

namespace Floor

variable {f g : Floor} {m : Move} {t u : Ticket} {task : Task}

/-! ## Steps of a floor -/

/-- How the stage of a request changes with a turn: not at all, or by a step on some slot. -/
def Carries (t : Ticket) (stage : Option Stage) : Option Nonce.Step → Option Stage → Prop
  | none, stage' => stage' = stage
  | some x, stage' => ∃ k s s', Nonce.Slot.Steps k t s stage x s' stage'

theorem carries_of_carry? {x : Option Nonce.Step} {a : Allocator} (h : f.carry? t x = some a) :
    Carries t (f.allocator.stage? t) x (a.stage? t) := by
  cases x with
  | none => cases h; rfl
  | some x =>
    obtain ⟨k, stage, s', stage', hr, hs, rfl⟩ := Allocator.apply_cases (m := ⟨t, x⟩) h
    rw [Allocator.stage?_eq hr, Allocator.stage?_eq Allocator.request_put_self]
    exact ⟨k, _, s', hs⟩

/-- What a turn leaves of its submission. -/
theorem task_record (f : Floor) (t : Ticket) (task : Task) (turn : Turn) (a : Allocator) :
    (f.record t task turn a).tasks.get? t = some { task with
      log := task.log ++ (turn.event.toList ++ (issued? (f.allocator.stage? t) (a.stage? t)).toList.map Event.leased)
      standing := turn.standing } :=
  Table.get?_set_self ..

/-- A step begins a submission, or makes the next step of one. -/
theorem turn_of_apply (h : f.apply m = some g) :
    (∃ b, f.tasks.get? m.ticket = none ∧ m.act = .enter b ∧
      g = { f with tasks := f.tasks.set m.ticket { brief := b, standing := .underWay b.course .idle } }) ∨
    ∃ task turn a, f.tasks.get? m.ticket = some task ∧
      task.turn? (f.allocator.stage? m.ticket) m.act = some turn ∧
      f.carry? m.ticket turn.step = some a ∧ g = f.record m.ticket task turn a := by
  unfold apply at h
  split at h
  · rename_i hf hm
    cases h
    exact .inl ⟨_, hf, hm, rfl⟩
  · cases h
  · rename_i hf
    obtain ⟨turn, hturn, h⟩ := Option.bind_eq_some_iff.1 h
    obtain ⟨a, ha, rfl⟩ := Option.map_eq_some_iff.1 h
    exact .inr ⟨_, turn, a, hf, hturn, ha, rfl⟩

/-- A submission can begin under a ticket that stands for none. -/
theorem apply_enter {b : Brief} (ht : f.tasks.get? t = none) : f.apply ⟨t, .enter b⟩ =
    some { f with tasks := f.tasks.set t { brief := b, standing := .underWay b.course .idle } } := by
  rw [apply, ht]

/-- A turn of a submission can be made if its step can be carried out. -/
theorem apply_of_turn? {act : Act} {turn : Turn} {a : Allocator} (ht : f.tasks.get? t = some task)
    (hturn : task.turn? (f.allocator.stage? t) act = some turn) (ha : f.carry? t turn.step = some a) :
    f.apply ⟨t, act⟩ = some (f.record t task turn a) := by
  rw [apply, ht]
  change (task.turn? (f.allocator.stage? t) act).bind _ = _
  rw [hturn, Option.bind_some, ha]
  rfl

/-- A step begins a submission, or is a turn of one. -/
theorem apply_cases (h : f.apply m = some g) :
    (∃ b, f.tasks.get? m.ticket = none ∧ m.act = .enter b ∧
      g = { f with tasks := f.tasks.set m.ticket { brief := b, standing := .underWay b.course .idle } }) ∨
    ∃ task turn a, f.tasks.get? m.ticket = some task ∧
      Task.Turns task.brief (f.allocator.stage? m.ticket) task.standing turn.step turn.event turn.standing ∧
      f.carry? m.ticket turn.step = some a ∧ g = f.record m.ticket task turn a := by
  rcases turn_of_apply h with hb | ⟨task, turn, a, ht, hturn, ha, hg⟩
  · exact .inl hb
  · exact .inr ⟨task, turn, a, ht, Task.turns_of_turn? hturn, ha, hg⟩

/-- A step concerns the submission of its ticket alone. -/
theorem task_of_apply (h : f.apply m = some g) (ht : m.ticket ≠ t) : g.tasks.get? t = f.tasks.get? t := by
  rcases apply_cases h with ⟨b, -, -, rfl⟩ | ⟨task, turn, a, -, -, -, rfl⟩ <;>
    exact Table.get?_set_of_ne _ _ ht

/-- A step concerns the request of its ticket alone. -/
theorem request_of_apply (h : f.apply m = some g) (ht : m.ticket ≠ t) :
    g.allocator.requests.get? t = f.allocator.requests.get? t := by
  rcases apply_cases h with ⟨b, -, -, rfl⟩ | ⟨task, turn, a, -, -, ha, rfl⟩
  · rfl
  · cases hs : turn.step with
    | none =>
      rw [hs] at ha
      cases ha
      rfl
    | some s =>
      rw [hs] at ha
      exact Allocator.request_of_apply (m := ⟨m.ticket, s⟩) ha ht

/-- A step writes to the end of logs. -/
theorem log_of_apply (h : f.apply m = some g) (ht : f.tasks.get? t = some task) :
    ∃ task' seen, g.tasks.get? t = some task' ∧ task'.brief = task.brief ∧ task'.log = task.log ++ seen := by
  by_cases hm : m.ticket = t
  · subst hm
    rcases apply_cases h with ⟨b, hnone, -, -⟩ | ⟨task₀, turn, a, ht₀, -, -, rfl⟩
    · rw [ht] at hnone
      cases hnone
    · rw [ht] at ht₀
      cases ht₀
      exact ⟨_, _, task_record .., rfl, rfl⟩
  · exact ⟨task, [], by rw [task_of_apply h hm, ht], rfl, (List.append_nil _).symm⟩

/-! ## Runs -/

@[simp] theorem run?_nil : f.run? [] = some f := rfl

theorem run?_cons {ms : List Move} : f.run? (m :: ms) = some g ↔ ∃ e, f.apply m = some e ∧ e.run? ms = some g := by
  simp only [run?, List.foldlM_cons]
  cases f.apply m <;> simp [bind, Option.bind]

theorem run?_append {ns : List Move} : ∀ {ms : List Move} {f : Floor}, f.run? ms = some g →
    f.run? (ms ++ ns) = g.run? ns
  | [], _, h => by cases h; rfl
  | m :: ms, f, h => by
    obtain ⟨e, he, h⟩ := run?_cons.1 h
    rw [← run?_append h, List.cons_append]
    simp only [run?, List.foldlM_cons, he]
    rfl

theorem run?_concat {ms : List Move} {k : Floor} (h : f.run? ms = some g) (hk : g.apply m = some k) :
    f.run? (ms ++ [m]) = some k :=
  (run?_append h).trans (run?_cons.2 ⟨k, hk, rfl⟩)

/-- What every step keeps, every run keeps. -/
theorem run_induction {P : Floor → Prop} (step : ∀ {f m g}, P f → Floor.apply f m = some g → P g) :
    ∀ {ms : List Move} {f g : Floor}, P f → f.run? ms = some g → P g
  | [], _, _, hf, h => by cases h; exact hf
  | _ :: _, _, _, hf, h => by
    obtain ⟨e, he, h⟩ := run?_cons.1 h
    exact run_induction step (step hf he) h

theorem log_of_run : ∀ {ms : List Move} {f : Floor} {task : Task}, f.run? ms = some g → f.tasks.get? t = some task →
    ∃ task' seen, g.tasks.get? t = some task' ∧ task'.brief = task.brief ∧ task'.log = task.log ++ seen
  | [], _, task, h, ht => by cases h; exact ⟨task, [], ht, rfl, (List.append_nil _).symm⟩
  | m :: ms, _, _, h, ht => by
    obtain ⟨e, he, h⟩ := run?_cons.1 h
    obtain ⟨task₁, seen₁, ht₁, hb₁, hl₁⟩ := log_of_apply he ht
    obtain ⟨task₂, seen₂, ht₂, hb₂, hl₂⟩ := log_of_run h ht₁
    exact ⟨task₂, seen₁ ++ seen₂, ht₂, hb₂.trans hb₁, by rw [hl₂, hl₁, List.append_assoc]⟩

/-- What is no submission after a run was none before. -/
theorem no_task_of_run {ms : List Move} (h : f.run? ms = some g) (ht : g.tasks.get? t = none) :
    f.tasks.get? t = none := by
  cases hf : f.tasks.get? t with
  | none => rfl
  | some task =>
    obtain ⟨task', seen, hg, -⟩ := log_of_run h hf
    rw [ht] at hg
    cases hg

/-- A run concerns the submissions and requests of its own tickets alone. -/
theorem beside_of_run : ∀ {ms : List Move} {f : Floor}, f.run? ms = some g → (∀ m ∈ ms, m.ticket ≠ t) →
    g.tasks.get? t = f.tasks.get? t ∧ g.allocator.requests.get? t = f.allocator.requests.get? t
  | [], _, h, _ => by cases h; exact ⟨rfl, rfl⟩
  | m :: ms, _, h, hms => by
    obtain ⟨e, he, h⟩ := run?_cons.1 h
    obtain ⟨ht, hr⟩ := beside_of_run h fun m hm => hms m (List.mem_cons_of_mem _ hm)
    have hm := hms m List.mem_cons_self
    exact ⟨ht.trans (task_of_apply he hm), hr.trans (request_of_apply he hm)⟩

end Floor

/-! ## A run to look at -/

namespace Sample

/-- The answer to an upkeep check that says that there is something to do. -/
def executable : Bytes := List.replicate 31 0 ++ [1] ++ List.replicate 31 0 ++ [64] ++ List.replicate 32 0

/-- A ledger that grants everything, and answers look-ups in one way. -/
def answers (found : Option Receipt) : Answers where
  ledger
    | .pendingNonce _ => .ok 10
    | .baseFee => .ok (some 1)
    | .priorityFee | .gasPrice => .ok 1
    | .estimateGas _ => .ok 21000
    | .call _ => .ok executable
    | .send x => .ok x.hash
    | .receipt _ => .ok found
  signer _ t := .ok ⟨t, ⟨0, 0, false⟩, 5⟩
  faithful h := by cases h; rfl

/-- A ledger that refuses broadcasts as if it held them, and finds nothing. -/
def refusing : Answers where
  ledger
    | .send _ => .error (.rpc 1 "" "" (.errorResponse ⟨0, "already known", none⟩))
    | c => (answers none).ledger c
  signer := (answers none).signer
  faithful := (answers none).faithful

/-- A ledger on which nothing is left to do: a broadcast gets no price. -/
def executed : Answers where
  ledger
    | .estimateGas _ => .error (.rpc 1 "" "" (.errorResponse ⟨3, "execution reverted", none⟩))
    | c => (answers none).ledger c
  signer := (answers none).signer
  faithful := (answers none).faithful

/-- A cancellation of an order of account 2 by keeper 7, in some mode. -/
def brief (mode : Mode) : Brief where
  settings := { maxEscalations := 1 }
  chainOf network := .ok ⟨network, 1⟩
  hasKey _ := true
  item := ⟨.cancel, ⟨"test", 1, 7⟩, .cancel ⟨2, 0, 0, 0⟩ 7, .none, some mode⟩

/-- A submission makes steps in a row. -/
def goes (t : Ticket) (n : Nat) (found : Option Receipt) : List Floor.Move := List.replicate n ⟨t, .go (answers found)⟩

/-- An escalation of two broadcasts, neither of which is found. -/
def escalation : List Floor.Move := ⟨0, .enter (brief .optimized)⟩ :: goes 0 31 none

/-- The same, up to the second broadcast, which is not answered. -/
def resending : List Floor.Move := ⟨0, .enter (brief .optimized)⟩ :: goes 0 26 none

/-- The same, but for the look-up after the second broadcast, which finds it included. -/
def inclusion : List Floor.Move :=
  ⟨0, .enter (brief .optimized)⟩ :: goes 0 27 none ++ goes 0 4 (some ⟨5, some 1, true, 21000⟩)

/-- A broadcast that was refused and is looked for in vain. -/
def search : List Floor.Move := ⟨0, .enter (brief .simple)⟩ :: List.replicate 80 ⟨0, .go refusing⟩

end Sample

end OrderKeeper.Submission
