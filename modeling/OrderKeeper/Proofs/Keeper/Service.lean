import OrderKeeper.Keeper.Service
import OrderKeeper.Proofs.Keeper.Completion

/-!
# A keeper without a network is a shift

What a keeper writes while no network can be reached (`Keeper.records`) is what a shift writes in which one job after the
other is carried to its end, every call of the ledger fails, and every request for a lease is refused (`exists_shift`).
So whatever holds of the records of all shifts holds of what the keeper writes.
-/

namespace OrderKeeper

open Nonce (Ticket Key Stage Allocator)
open Submission (Answers Floor Brief Standing Wait)

/-! ## An allocator without leases -/

namespace Nonce.Allocator

variable {a : Allocator} {t : Ticket} {k : Key} {s s' : Slot} {st : Stage} {stage' : Option Stage}

/-- Nobody has a lease or waits for one. -/
structure Quiet (a : Allocator) : Prop where
  requests : ∀ t, a.requests.get? t = none
  slots : ∀ k, (a.slot k).activeLeases = 0 ∧ (a.slot k).gate = []

theorem quiet_empty : Quiet {} := ⟨fun _ => rfl, fun _ => ⟨rfl, rfl⟩⟩

theorem put_put : (a.put t k s (some st)).put t k s' stage' = a.put t k s' stage' := by
  cases stage' <;> simp [put]

theorem apply_put {x : Step} (h : s.step? t (some st) x = some (s', stage')) :
    (a.put t k s (some st)).apply ⟨t, x⟩ = some (a.put t k s' stage') := by
  have ha := apply_of_step? (a := a.put t k s (some st)) request_put_some (by rw [slot_put_self]; exact h)
  rwa [put_put] at ha

theorem Quiet.apply_begin (ha : a.Quiet) (t : Ticket) (k : Key) :
    a.apply ⟨t, .begin k⟩ = some (a.put t k (a.slot k) (some .arriving)) := by
  have hsite : a.site? ⟨t, .begin k⟩ = some (k, none) := by rw [site?, ha.requests t]
  rw [apply, hsite]
  dsimp only
  rw [Slot.step?_begin, Slot.issueNext?, if_pos (ha.slots k).1]
  rfl

/-- A request that has come and gone leaves nobody behind. -/
theorem Quiet.put (ha : a.Quiet) (hl : s.activeLeases = 0) (hg : s.gate = []) : (a.put t k s none).Quiet := by
  constructor
  case requests =>
    intro u
    by_cases hu : t = u
    · subst hu
      exact request_put_self
    · rw [request_put_of_ne hu, ha.requests u]
  case slots =>
    intro j
    by_cases hj : k = j
    · subst hj
      rw [slot_put_self]
      exact ⟨hl, hg⟩
    · rw [slot_put_of_ne hj]
      exact ha.slots j

end Nonce.Allocator

/-! ## Submissions without a network -/

namespace Submission

variable {f : Floor} {t : Ticket} {b : Brief} {a a' : Allocator} {x : Answers} {fault : Fault} {k : Keeper}

/-- Where a submission stands, and what its allocator is. -/
structure At (f : Floor) (t : Ticket) (b : Brief) (a : Allocator) (st : Standing) : Prop where
  allocator : f.allocator = a
  task : ∃ log, f.tasks.get? t = some ⟨b, log, st⟩

/-- A step that leaves the allocator alone can be made. -/
theorem At.go {talk : Rest} {wait : Wait} {event : Option Event} {st : Standing} (h : At f t b a (.underWay talk wait))
    (hturn : Task.goTurn? b x (a.stage? t) talk wait = some ⟨none, event, st⟩) :
    ∃ g, f.apply ⟨t, .go x⟩ = some g ∧ At g t b a st := by
  obtain ⟨log, ht⟩ := h.task
  have hgo : f.apply ⟨t, .go x⟩ = some (f.record t _ ⟨none, event, st⟩ f.allocator) :=
    Floor.apply_of_turn? ht (by rw [h.allocator]; exact hturn) rfl
  exact ⟨_, hgo, h.allocator, _, Floor.task_record ..⟩

/-- A step that the allocator allows can be made. -/
theorem At.request {talk : Rest} {wait : Wait} {y : Nonce.Step} {event : Option Event} {st : Standing}
    (h : At f t b a (.underWay talk wait))
    (hturn : Task.goTurn? b x (a.stage? t) talk wait = some ⟨some y, event, st⟩) (ha : a.apply ⟨t, y⟩ = some a') :
    ∃ g, f.apply ⟨t, .go x⟩ = some g ∧ At g t b a' st := by
  obtain ⟨log, ht⟩ := h.task
  have hcarry : f.carry? t (some y) = some a' := by
    rw [Floor.carry?, h.allocator]
    exact ha
  have hgo : f.apply ⟨t, .go x⟩ = some (f.record t _ ⟨some y, event, st⟩ a') :=
    Floor.apply_of_turn? ht (by rw [h.allocator]; exact hturn) hcarry
  exact ⟨_, hgo, rfl, _, Floor.task_record ..⟩

section Refusal

variable {keeper : Address} {stop : Option KeeperError} {next : Except Fault UInt64 → Rest} {key : Key}
  {s s' : Nonce.Slot} {st : Stage} {stage' : Option Stage}

/-- A request makes its next step. -/
theorem At.advance {y : Nonce.Step} {event : Option Event} {standing : Standing}
    (h : At f t b (a.put t key s (some st)) (.underWay (.ask (.lease keeper) stop next) .lease))
    (hturn : Task.leaseTurn x keeper (.ask (.lease keeper) stop next) next st = ⟨some y, event, standing⟩)
    (hs : s.step? t (some st) y = some (s', stage')) :
    ∃ g, f.apply ⟨t, .go x⟩ = some g ∧ At g t b (a.put t key s' stage') standing := by
  have hstage : (a.put t key s (some st)).stage? t = some st := Allocator.stage?_eq Allocator.request_put_self
  have hgo : Task.goTurn? b x ((a.put t key s (some st)).stage? t) (.ask (.lease keeper) stop next) .lease =
      some ⟨some y, event, standing⟩ := by
    rw [Task.goTurn?, hstage, Option.map_some, hturn]
  exact h.request hgo (Allocator.apply_put hs)

/-- A request for a lease is refused where the ledger cannot be reached, and leaves nobody behind. -/
theorem goes_refused (hx : ∀ c, x.ledger c = .error fault)
    (h : At f t b a (.underWay (.ask (.lease keeper) stop next) .idle)) (ha : a.Quiet) :
    ∃ g a', Floor.Goes x t f g ∧ At g t b a' (.underWay (next (.error fault)) .idle) ∧ a'.Quiet := by
  obtain ⟨hactive, hgate⟩ := ha.slots ⟨b.chainId, keeper⟩
  obtain ⟨g₁, h₁, hg₁⟩ := h.request (x := x) rfl (ha.apply_begin t ⟨b.chainId, keeper⟩)
  generalize a.slot ⟨b.chainId, keeper⟩ = s at hactive hgate hg₁
  -- it joins the gate, which it finds free, and there is no lease to follow
  have hrecheck : (s.join t).step? t (some .waiting) .recheck = some (s.join t, some .admitted) := by
    have hadmits : (s.join t).admits t = true := by simp [Nonce.Slot.admits, Nonce.Slot.join, hgate]
    have hissue : (s.join t).issueNext? = none := if_pos hactive
    rw [Nonce.Slot.step?_recheck, if_pos hadmits, hissue]
  obtain ⟨g₂, h₂, hg₂⟩ := hg₁.advance (x := x) rfl rfl
  obtain ⟨g₃, h₃, hg₃⟩ := hg₂.advance (x := x) rfl hrecheck
  obtain ⟨g₄, h₄, hg₄⟩ := hg₃.advance (x := x) rfl rfl
  have hfail : Task.leaseTurn x keeper (.ask (.lease keeper) stop next) next .querying =
      ⟨some .fail, some (.replied (.pendingNonce keeper) (.error fault)), .underWay (next (.error fault)) .idle⟩ := by
    simp [Task.leaseTurn, hx]
  obtain ⟨g₅, h₅, hg₅⟩ := hg₄.advance hfail rfl
  refine ⟨g₅, _, .step .go h₁ (.step .go h₂ (.step .go h₃ (.step .go h₄ (.step .go h₅ .refl)))), hg₅, ?_⟩
  exact ha.put hactive (by simp [Nonce.Slot.leave, Nonce.Slot.join, hgate])

end Refusal

/-- **While no network can be reached, a submission comes to what its course says by itself.** -/
theorem goes_answered (hx : ∀ c, x.ledger c = .error fault) (hsign : x.signer = k.keyring.sign) {talk : Rest} :
    ∀ {f : Floor} {a : Allocator}, At f t b a (.underWay talk .idle) → a.Quiet →
      ∃ g a', Floor.Goes x t f g ∧
        At g t b a' (.underWay (.done (talk.answered (k.withoutNetwork fault))) .idle) ∧ a'.Quiet := by
  induction talk with
  | done r => exact fun h ha => ⟨_, _, .refl, h, ha⟩
  | ask q stop next ih =>
    intro f a h ha
    -- an answer in some steps, and the rest of the course
    have goOn {g : Floor} {a' : Allocator} {answer : q.Answer} (hanswer : answer = k.withoutNetwork fault q)
        (hgoes : Floor.Goes x t f g) (hg : At g t b a' (.underWay (next answer) .idle)) (ha' : a'.Quiet) :
        ∃ g a', Floor.Goes x t f g ∧ At g t b a'
          (.underWay (.done ((Dialogue.ask q stop next).answered (k.withoutNetwork fault))) .idle) ∧ a'.Quiet := by
      subst hanswer
      obtain ⟨g', a'', hgoes', hg', ha''⟩ := ih _ hg ha'
      exact ⟨g', a'', hgoes.trans hgoes', hg', ha''⟩
    cases q with
    | ledger c =>
      obtain ⟨g, hgo, hg⟩ := h.go (x := x) rfl
      obtain ⟨g', hgo', hg'⟩ := hg.go (x := x) rfl
      exact goOn (hx c) (.step .go hgo (.step .go hgo' .refl)) hg' ha
    | sign o u =>
      obtain ⟨g, hgo, hg⟩ := h.go (x := x) rfl
      have hanswer : x.signer o u = k.withoutNetwork fault (.sign o u) := by
        rw [hsign]
        rfl
      exact goOn hanswer (.step .go hgo .refl) hg ha
    | pause ms =>
      obtain ⟨g, hgo, hg⟩ := h.go (x := x) rfl
      exact goOn rfl (.step .go hgo .refl) hg ha
    | lease keeper =>
      obtain ⟨g, a', hgoes, hg, ha'⟩ := goes_refused hx h ha
      exact goOn rfl hgoes hg ha'
    | watch w =>
      obtain ⟨g, hgo, hg⟩ := h.go (x := x) rfl
      have hlook : Task.goTurn? b x (a.stage? t) (.ask (.watch w) stop next) (.watch Watch.start) =
          some ⟨none, some (.replied (.receipt w.hash) (.error fault)),
            .underWay (next (.error (.queryFailed w.hash fault))) .idle⟩ := by
        simp [Task.goTurn?, Watch.start, hx, Watch.answer, Receipt.judge]
      obtain ⟨g', hgo', hg'⟩ := hg.go hlook
      exact goOn rfl (.step .go hgo (.step .go hgo' .refl)) hg' ha

/-- A submission hands back what its course says by itself. -/
theorem goes_result (hx : ∀ c, x.ledger c = .error fault) (hsign : x.signer = k.keyring.sign)
    (ht : f.tasks.get? t = none) (ha : f.allocator.Quiet) :
    ∃ g g', f.apply ⟨t, .enter b⟩ = some g ∧ Floor.Goes x t g g' ∧
      g'.result? t = some (b.course.answered (k.withoutNetwork fault)) ∧ g'.allocator.Quiet := by
  have hg := Floor.apply_enter (b := b) ht
  generalize hfloor : ({ f with tasks := f.tasks.set t ⟨b, [], .underWay b.course .idle⟩ } : Floor) = g at hg
  have hat : At g t b f.allocator (.underWay b.course .idle) := by
    subst hfloor
    exact ⟨rfl, [], Table.get?_set_self ..⟩
  obtain ⟨g₁, a, hgoes, h₁, ha₁⟩ := goes_answered hx hsign hat ha
  generalize b.course.answered (k.withoutNetwork fault) = r at h₁
  obtain ⟨g₂, hgo, h₂⟩ := h₁.go (x := x) rfl
  -- nothing is left to give back
  obtain ⟨log, htask⟩ := h₂.task
  have hstage : g₂.allocator.stage? t = none := by
    rw [h₂.allocator, Allocator.stage?, ha₁.requests t]
    rfl
  have hclose : g₂.apply ⟨t, .close⟩ = some (g₂.record t _ ⟨none, none, .ended (.finished r)⟩ g₂.allocator) :=
    Floor.apply_of_turn? htask (by rw [hstage]; rfl) rfl
  refine ⟨g, _, hg, hgoes.trans (.step .go hgo (.step .close hclose .refl)), ?_, ?_⟩
  · rw [Floor.result?, Floor.task_record]
    rfl
  · change g₂.allocator.Quiet
    rw [h₂.allocator]
    exact ha₁

end Submission

/-! ## Jobs without a network -/

/-- How ledgers and the signer of a keeper answer while no network can be reached. -/
def Keeper.silence (k : Keeper) (fault : Fault) : Answers where
  ledger _ := .error fault
  signer := k.keyring.sign
  faithful := Keyring.transaction_of_sign

namespace Desk

variable {d : Desk} {n : Nat} {j j' : Job}

/-- A job that is put back is found. -/
theorem get?_put_self (h : j.talk.result? = none) : (d.put n j).jobs.get? n = some j := by
  rw [put_of_none h]
  exact Table.get?_set_self ..

/-- A job that is put back again, or whose record is put out, need not have been put back before. -/
theorem put_put (h : j.talk.result? = none) : (d.put n j).put n j' = d.put n j' := by
  rw [put_of_none h]
  unfold put
  cases j'.record? <;> simp

end Desk

namespace Shift

variable (k : Keeper) (ids : Nat → String) {s : Shift} {j : Job} {n : Nat}

/-- A keeper that was not told to close, and at which no attempt goes on. -/
structure Rests (s : Shift) : Prop where
  closing : s.closing = false
  pending : s.pending = []
  quiet : s.floor.allocator.Quiet

/-- One attempt of a job, from its beginning to its report. -/
theorem leads_attempt {retry : UInt32} {stop : Option (Except KeeperError Outcome)}
    {next : Except (Verdict KeeperError) Outcome → Retry.Talk KeeperError Outcome} (hs : s.Rests)
    (hj : s.desk.jobs.get? n = some { j with talk := .ask (.attempt retry) stop next }) :
    ∃ s', Leads k ids (k.silence (k.unreachable j.item.target.network)) s s' ∧ s'.Rests ∧ s'.input = s.input ∧
      s'.desk = s.desk.put n { j with talk := next (k.attemptWithoutNetwork j.item) } := by
  obtain ⟨t, ht⟩ := exists_fresh s.floor
  obtain ⟨f, g, hf, hgoes, hr, hquiet⟩ := Submission.goes_result (x := k.silence (k.unreachable j.item.target.network))
    (k := k) (b := k.brief j.item) (fun _ => rfl) rfl ht hs.quiet
  let s₁ : Shift := { s with floor := f, pending := s.pending.set n t, attempts := s.attempts ++ [(n, t)] }
  have hattempt : s.apply k ids (.attempt n t) = some s₁ := apply_attempt k ids hj (by rw [hs.pending]; rfl) hf
  have hwork : Leads k ids (k.silence (k.unreachable j.item.target.network)) s₁ { s₁ with floor := g } :=
    leads_of_goes hgoes rfl
  have hreport := apply_report k ids (s := { s₁ with floor := g }) hj (Table.get?_set_self ..) hr
  refine ⟨_, .step .attempt hattempt (hwork.trans (.step .report hreport .refl)), ⟨hs.closing, ?_, hquiet⟩, rfl, rfl⟩
  simp [s₁, hs.pending, Table.set, Table.erase]

/-- **While no network can be reached, a job comes to what its retries say by themselves.** -/
theorem leads_answered {talk : Retry.Talk KeeperError Outcome} : ∀ {s : Shift} {d : Desk}, s.Rests →
    s.desk = d.put n { j with talk } →
    ∃ s', Leads k ids (k.silence (k.unreachable j.item.target.network)) s s' ∧ s'.Rests ∧ s'.input = s.input ∧
      s'.desk = d.put n { j with talk := .done (talk.answered (k.answerWithoutNetwork j)) } := by
  induction talk with
  | done r => exact fun hs hd => ⟨_, .refl, hs, rfl, hd⟩
  | ask q stop next ih =>
    intro s d hs hd
    have hj : s.desk.jobs.get? n = some { j with talk := .ask q stop next } := by
      rw [hd]
      exact Desk.get?_put_self rfl
    have hput (talk' : Retry.Talk KeeperError Outcome) : s.desk.put n { j with talk := talk' } =
        d.put n { j with talk := talk' } := by
      rw [hd]
      exact Desk.put_put rfl
    cases q with
    | attempt retry =>
      obtain ⟨s₁, hleads, hs₁, hinput, hd₁⟩ := leads_attempt k ids hs hj
      obtain ⟨s', hleads', hs', hinput', hd'⟩ := ih _ hs₁ (hd₁.trans (hput _))
      exact ⟨s', hleads.trans hleads', hs', hinput'.trans hinput, hd'⟩
    | pause ms =>
      have hresume := apply_resume k ids hs.closing hj
      have hs₁ : Rests { s with desk := s.desk.put n { j with talk := next () } } := ⟨hs.closing, hs.pending, hs.quiet⟩
      obtain ⟨s', hleads', hs', hinput', hd'⟩ := ih () hs₁ (hput _)
      exact ⟨s', .step .resume hresume hleads', hs', hinput', hd'⟩

/-! ## Whole inputs -/

/-- All jobs are settled, one after the other. -/
theorem run_settle : ∀ {jobs : Table Nat Job} {records : List JobRecord} {s : Shift}, s.Rests →
    s.desk = ⟨jobs, records⟩ → jobs.keys.Nodup → (∀ e ∈ jobs, e.2.talk.result? = none) →
    ∃ ms s', s.run? k ids ms = some s' ∧ s'.input = s.input ∧ s'.desk = s.desk.settle k.answerWithoutNetwork
  | [], records, s, _, hd, _, _ => ⟨[], s, rfl, rfl, by simp [hd, Desk.settle]⟩
  | (n, j) :: jobs, records, s, hs, hd, hkeys, htalks => by
    obtain ⟨hn, hkeys⟩ := List.nodup_cons.1 hkeys
    have hj : j.talk.result? = none := htalks _ List.mem_cons_self
    have hput : s.desk = s.desk.put n j := by
      rw [Desk.put_of_none hj, hd]
      simp [Table.set]
    obtain ⟨s₁, hleads, hs₁, hinput, hd₁⟩ := leads_answered k ids (j := j) hs hput
    obtain ⟨ms, -, hrun⟩ := hleads.run
    have herase : Table.erase jobs n = jobs := Table.erase_of_get?_eq_none (Table.get?_eq_none_iff.2 hn)
    have hd₁' : s₁.desk = ⟨jobs, records ++ [j.recordOf (j.talk.answered (k.answerWithoutNetwork j))]⟩ := by
      rw [hd₁, hd]
      simp [Desk.put, Job.record?, Dialogue.result?, Table.erase, herase, Job.recordOf]
    obtain ⟨ms', s', hrun', hinput', hd'⟩ := run_settle hs₁ hd₁' hkeys fun e he => htalks e (List.mem_cons_of_mem _ he)
    refine ⟨ms ++ ms', s', (run?_append hrun).trans hrun', hinput'.trans hinput, ?_⟩
    rw [hd', hd₁', hd]
    simp [Desk.settle]

/-- Every job waits for its first attempt, under a number of its own. -/
structure Fresh (d : Desk) : Prop where
  keys : d.jobs.keys.Nodup
  talks : ∀ e ∈ d.jobs, e.2.talk.result? = none

theorem Fresh.read {d : Desk} (hd : Fresh d) (n : Nat) (jobId line : String) : Fresh (d.read n jobId line) := by
  rcases d.read_cases n jobId line with ⟨-, h⟩ | ⟨e, -, h⟩ | ⟨item, -, h⟩
  · rw [h]
    exact hd
  · rw [h]
    exact ⟨hd.keys, hd.talks⟩
  · rw [h]
    refine ⟨Table.nodup_keys_set hd.keys _ _, fun e he => ?_⟩
    rcases List.mem_cons.1 ((Table.set_perm hd.keys _ _).mem_iff.1 he) with rfl | he
    · exact Retry.result?_attempts
    · exact hd.talks e (Table.mem_erase.1 he).1

/-- All lines are read, one after the other. -/
theorem run_readAll : ∀ {lines : List String} {s : Shift}, s.Rests → s.input = lines → Fresh s.desk →
    ∃ ms s', s.run? k toString ms = some s' ∧ s'.Rests ∧ s'.input = [] ∧ s'.desk = s.desk.readAll s.taken lines ∧
      Fresh s'.desk
  | [], s, hs, hinput, hd => ⟨[], s, rfl, hs, hinput, rfl, hd⟩
  | line :: rest, s, hs, hinput, hd => by
    have hread : s.apply k toString .read = some
        { s with input := rest, taken := s.taken + 1, desk := s.desk.read s.taken (toString s.taken) line } := by
      simp [apply, hinput, hs.closing]
    obtain ⟨ms, s', hrun, hs', hinput', hdesk, hd'⟩ := run_readAll (s := { s with
      input := rest, taken := s.taken + 1, desk := s.desk.read s.taken (toString s.taken) line })
      ⟨hs.closing, hs.pending, hs.quiet⟩ rfl (hd.read ..)
    exact ⟨.read :: ms, s', run?_cons.2 ⟨_, hread, hrun⟩, hs', hinput', hdesk, hd'⟩

/-- **What a keeper writes without a network is what some shift writes by its end.** -/
theorem exists_shift (input : String) : ∃ ms s,
    (start (inputLines input)).run? k toString ms = some s ∧ s.isDone = true ∧ s.desk.records = k.records input := by
  obtain ⟨ms, s, hrun, hs, hinput, hdesk, hd⟩ := run_readAll k (s := start (inputLines input))
    ⟨rfl, rfl, Nonce.Allocator.quiet_empty⟩ rfl ⟨List.nodup_nil, List.forall_mem_nil _⟩
  obtain ⟨ms', s', hrun', hinput', hdesk'⟩ := run_settle k toString hs rfl hd.keys hd.talks
  refine ⟨ms ++ ms', s', (run?_append hrun).trans hrun', ?_, ?_⟩
  · rw [isDone, hinput', hinput, hdesk']
    rfl
  · rw [hdesk', hdesk]
    rfl

end Shift

end OrderKeeper
