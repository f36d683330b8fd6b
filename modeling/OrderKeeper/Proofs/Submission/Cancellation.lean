import OrderKeeper.Proofs.Rehearsal.Session
import OrderKeeper.Proofs.Submission.Knowledge
import OrderKeeper.Proofs.Submission.Leasing

/-!
# Cancelled submissions

Wherever a submission waits when it is cancelled (`yields_of_run`), it ends at once: nothing more is called or signed,
its lease is given back, and its error tells of a hash just if one of its broadcasts has given one.
-/

namespace OrderKeeper

/-! ## Polls after a cancellation -/

/-- A dialogue that is cancelled ends at once and leaves its surroundings alone. -/
theorem Dialogue.poll_of_stopped? {W Q R α S : Type} {A : Q → Type} {d : Dialogue Q A R α} {r : R}
    (e : Surroundings W Q A S) {cancelled : W → Bool} (begun : Option S) {w : W} (h : d.stopped? = some r)
    (hw : cancelled w = true) : d.poll e cancelled begun w = (w, .ready (.error r)) := by
  cases d with
  | done a => cases h
  | ask q stop next =>
    cases h
    exact Dialogue.poll_of_stop (by simp [hw])

namespace Rehearsal

open Nonce (Ticket Allocator)

/-- What is dropped stands for nothing any more. -/
theorem request_attempt_drop {a : Allocator} {t : Ticket} (h : Submission.canLetGo (a.stage? t) = true) :
    (a.attempt t [.release, .abandon]).requests.get? t = none := by
  have gone {x : Nonce.Step} {b : Allocator} (hx : x = .release ∨ x = .abandon) (ha : a.apply ⟨t, x⟩ = some b) :
      b.requests.get? t = none := by
    obtain ⟨k, stage, s', stage', -, hs, rfl⟩ := Allocator.apply_cases ha
    rw [Allocator.request_put_self]
    rcases hx with rfl | rfl
    · cases hs
      rfl
    · cases hs
      rfl
  rcases attempt_drop_cases h with ⟨hs, ha⟩ | ⟨n, -, ha⟩ | ⟨st, -, -, ha⟩
  · rw [ha]
    exact Option.map_eq_none_iff.1 hs
  · exact gone (.inl rfl) ha
  · exact gone (.inr rfl) ha

theorem Session.poll_of_stopped? (settings : Settings) {cancelled : World → Bool} {w : World} {s : Session}
    {e : KeeperError} (h : s.course.talk.stopped? = some e) (hw : cancelled w = true) :
    s.poll settings cancelled w = (s.finish settings (.error e) w, .ready (.error e.verdict)) := by
  have hpoll : s.course.poll s.place.submission cancelled w = (w, .ready (.error e)) :=
    Dialogue.poll_of_stopped? _ _ h hw
  rw [Session.poll, hpoll]
  rfl

end Rehearsal

namespace Submission

open Nonce (Ticket Stage Allocator)

/-! ## Waiting -/

/-- Whether a submission waits for something: for its ledger, its signer, its lease or the end of a pause. -/
def Standing.isSuspended (stage : Option Stage) : Standing → Bool
  -- the stages at which a request cannot let go are left in the same moment
  | underWay (.ask ..) .lease => canLetGo stage
  | underWay (.ask ..) _ => true
  | underWay (.done _) _ | closing _ | ended _ => false

theorem Sound.canLetGo {f : Floor} {t : Ticket} {task : Task} (hf : Sound f) (ht : f.tasks.get? t = some task)
    (hs : task.standing.isSuspended (f.allocator.stage? t) = true) :
    Submission.canLetGo (f.allocator.stage? t) = true := by
  obtain ⟨τ, -, hacc⟩ := hf.accounts.task t task ht
  cases ha : task.standing.awaitsLease with
  | false => exact hacc.calm ha
  | true =>
    generalize task.standing = st at hs ha
    cases st with
    | underWay talk wait =>
      cases wait with
      | lease =>
        cases talk with
        | done r => cases hs
        | ask q stop next => exact hs
      | idle | reply | watch => cases ha
    | closing | ended => cases ha

/-! ## The hash that is told -/

/-- A hash is told just if a broadcast has given one, and it is one of those. -/
structure Reports (log : List Event) (hash : Option Hash) : Prop where
  isSome : hash.isSome = true ↔ obtained log ≠ []
  mem : ∀ h, hash = some h → h ∈ obtained log

section Reports

variable {b : Brief} {log seen : List Event} {s : Station} {h : Hash}

theorem reports_none (ho : obtained log = []) : Reports log none := by
  constructor
  · simp [ho]
  · intro h hh
    cases hh

theorem reports_some (hm : h ∈ obtained log) : Reports log (some h) := by
  constructor
  · simp [List.ne_nil_of_mem hm]
  · rintro _ ⟨⟩
    exact hm

theorem Reports.append {hash : Option Hash} (hr : Reports log hash) (hs : obtained seen = []) :
    Reports (log ++ seen) hash := by
  have hall : obtained (log ++ seen) = obtained log := by simp [hs]
  constructor
  · rw [hall]
    exact hr.isSome
  · rw [hall]
    exact hr.mem

/-- Before its broadcast, a round tells of the last of the hashes before it. -/
theorem Round.Due.reports {r : Round} (hd : r.Due b log) : Reports log r.hashes.head? := by
  cases hh : r.hashes with
  | nil =>
    refine reports_none (List.eq_nil_iff_forall_not_mem.2 fun x hx => ?_)
    rw [← hd.hashes, hh] at hx
    cases hx
  | cons x others =>
    refine reports_some ((hd.hashes x).1 ?_)
    rw [hh]
    exact List.mem_cons_self

theorem Station.reports_of_knows (hk : Station.Knows b log s) (ho : ∀ r, s ≠ .ended r) : Reports log s.hash? := by
  cases s with
  | outset | cleared | leased | based | quoting => exact reports_none hk.2
  | requoting _ r => exact Round.Due.reports hk
  | signing _ _ round | sending _ _ round =>
    cases round with
    | none => exact reports_none hk.2.2
    | some r => exact Round.Due.reports hk
  | watching _ sent =>
    obtain ⟨-, before, x, a, rfl, -, -, ha⟩ := hk
    exact reports_some (by simp [obtained_of_judge ha])
  | pausing _ _ r hash => exact reports_some hk.last.mem_obtained
  | looking _ _ r hash looked others =>
    exact reports_some ((hk.1.hashes looked).1 (hk.2 looked List.mem_cons_self))
  | ended r => exact absurd rfl (ho r)

/-- No broadcast is answered in the middle of a question. -/
theorem obtained_of_midway {q : Question} {wait : Wait} {stage : Option Stage} (hm : Midway q wait stage seen) :
    obtained seen = [] := by
  cases hm with
  | granted _ ht => exact (ht.unsent rfl).obtained
  | looking hl => exact (hl.unsent.append ⟨rfl, rfl⟩).obtained
  | pausing hl => exact hl.unsent.obtained
  | _ => rfl

end Reports

/-! ## After a stop -/

/-- Of a submission that has ended, at most the release of its lease is seen any more. -/
inductive Rested (log : List Event) (exit : Exit) : List Event → Standing → Prop where
  | closing : Rested log exit log (.closing exit)
  | ended : Rested log exit log (.ended exit)
  | released : Rested log exit (log ++ [.released]) (.ended exit)

section Rested

variable {b : Brief} {log l : List Event} {exit : Exit} {f g : Floor} {t : Ticket} {m : Floor.Move} {task : Task}

theorem rested_of_turns {stage stage' : Option Stage} {st st' : Standing} {x : Option Nonce.Step}
    {event : Option Event} (h : Rested log exit l st) (hT : Task.Turns b stage st x event st')
    (hx : Floor.Carries t stage x stage') :
    Rested log exit (l ++ (event.toList ++ (issued? stage stage').toList.map .leased)) st' := by
  cases h with
  | ended | released => cases hT
  | closing =>
    cases hT with
    | close =>
      cases hx
      rw [Law.issued?_self]
      simpa using Rested.ended
    | release =>
      obtain ⟨k, r, r', hr⟩ := hx
      cases hr
      simpa [issued?, Stage.nonce?] using Rested.released
    | abandon =>
      obtain ⟨k, r, r', hr⟩ := hx
      cases hr
      rw [Law.issued?_none]
      simpa using Rested.ended

/-- One that has ended asks for no signature. -/
theorem Rested.signing? {act : Act} (h : Rested log exit l task.standing) : task.signing? act = none := by
  refine signing?_eq_none fun o u stop next hs => ?_
  rw [hs] at h
  cases h

theorem rested_apply (ht : f.tasks.get? t = some task) (hr : Rested log exit task.log task.standing)
    (h : f.apply m = some g) : f.signing? t m = none ∧
      ∃ task', g.tasks.get? t = some task' ∧ Rested log exit task'.log task'.standing := by
  by_cases hm : m.ticket = t
  · subst hm
    refine ⟨by simp [Floor.signing?, ht, hr.signing?], ?_⟩
    obtain ⟨b, hnone, -, -⟩ | ⟨task₀, turn, a, ht₀, hturn, ha, rfl⟩ := Floor.turn_of_apply h
    · rw [ht] at hnone
      cases hnone
    · rw [ht] at ht₀
      cases ht₀
      have hrest := rested_of_turns hr (Task.turns_of_turn? hturn) (Floor.carries_of_carry? ha)
      exact ⟨_, Floor.task_record .., hrest⟩
  · refine ⟨by simp [Floor.signing?, hm], task, ?_, hr⟩
    rw [Floor.task_of_apply h hm]
    exact ht

theorem rested_run : ∀ {ms : List Floor.Move} {f : Floor} {task : Task}, f.tasks.get? t = some task →
    Rested log exit task.log task.standing → f.run? ms = some g → f.signings t ms = [] ∧
      ∃ task', g.tasks.get? t = some task' ∧ Rested log exit task'.log task'.standing
  | [], _, task, ht, hr, h => by
    cases h
    exact ⟨rfl, task, ht, hr⟩
  | m :: ms, f, _, ht, hr, h => by
    obtain ⟨e, he, h⟩ := Floor.run?_cons.1 h
    obtain ⟨hs, task', ht', hr'⟩ := rested_apply ht hr he
    obtain ⟨hss, hrest⟩ := rested_run ht' hr' h
    refine ⟨?_, hrest⟩
    simp [Floor.signings, he, hs, hss]

end Rested

/-! ## Cancellations -/

/-- What a cancellation makes of a submission that waits. -/
structure Yields (f : Floor) (t : Ticket) (task : Task) (talk : Rest) (stage : String) (hash : Option Hash) : Prop where
  stopped : talk.stopped? = some (.cancelled stage hash)
  verdict : (KeeperError.cancelled stage hash).verdict = .nack (.cancelled stage hash) (some 5000)
  reports : Reports task.log hash
  /-- Whatever it waits for and in whatever surroundings, it ends at once, and nothing is asked of them. -/
  poll : ∀ {W S : Type} (e : Surroundings W Question Question.Answer S) (cancelled : W → Bool) (begun : Option S)
    (w : W), cancelled w = true → talk.poll e cancelled begun w = (w, .ready (.error (.cancelled stage hash)))
  /-- Its session answers with the verdict in the same moment, and keeps nothing at the allocator. -/
  session : ∀ (settings : Settings) (cancelled : Rehearsal.World → Bool) (s : Rehearsal.Session) (w : Rehearsal.World),
    s.course.talk = talk → s.place.ticket = t → w.allocator = f.allocator → cancelled w = true →
      ∃ w', s.poll settings cancelled w = (w', .ready (.error (.nack (.cancelled stage hash) (some 5000)))) ∧
        w'.now = w.now ∧ w'.log = w.log ∧ w'.ledgers = w.ledgers ∧ w'.signings = w.signings ∧
          w'.allocator.requests.get? t = none
  /-- It can be stopped and closed. -/
  closes : ∃ g task', f.run? [⟨t, .stop⟩, ⟨t, .close⟩] = some g ∧ g.tasks.get? t = some task' ∧
    task'.standing = .ended (.stopped (.cancelled stage hash))
  /-- Whatever others do after the stop, it calls and signs nothing more, and when it is over, it has no lease. -/
  after : ∀ ns g, f.run? (⟨t, .stop⟩ :: ns) = some g → f.signings t (⟨t, .stop⟩ :: ns) = [] ∧
    ∃ task', g.tasks.get? t = some task' ∧
      Rested task.log (.stopped (.cancelled stage hash)) task'.log task'.standing ∧
        (task'.standing.isOver = true → g.allocator.requests.get? t = none)

section Yields

variable {f : Floor} {t : Ticket} {task : Task} {ms : List Floor.Move} {chain : ChainInfo}

/-- A submission that knows its network and has the key of its keeper waits before it starts. -/
theorem isSuspended_course {b : Brief} {stage : Option Stage} (hn : b.chainOf b.item.target.network = .ok chain)
    (hk : b.hasKey b.item.target.keeper = true) : (Standing.underWay b.course .idle).isSuspended stage = true := by
  have hm := Station.minds_course b
  rw [Station.start_of_known hn hk] at hm
  cases hc : b.course with
  | done r =>
    rw [hc] at hm
    cases hm
  | ask q stop next => rfl

/-- Where a submission waits, a cancellation has a result, which tells of its broadcasts. -/
theorem stop_of_narrated {b : Brief} {stage : Option Stage} {log : List Event} {ss : List Signing} {st : Standing}
    (h : Narrated b stage log ss st) (hs : st.isSuspended stage = true) :
    ∃ q during hash, ∃ (next : q.Answer → Rest) (wait : Wait),
      st = .underWay (.ask q (some (.cancelled during hash)) next) wait ∧ Reports log hash := by
  cases h with
  | asking hv hG hnext hm =>
    obtain ⟨during, rfl⟩ := Station.stop_of_goes hG
    have ho := Station.not_over_of_goes hG
    have hreports := Station.reports_of_knows (Station.knows_of_visits hv ho) ho
    exact ⟨_, during, _, _, _, rfl, hreports.append (obtained_of_midway hm)⟩
  | ready => cases hs
  | closing | ended | released => cases hs

/-- A stop is possible wherever something can be let go. -/
theorem apply_stop {q : Question} {e : KeeperError} {next : q.Answer → Rest} {wait : Wait}
    (ht : f.tasks.get? t = some task) (hs : task.standing = .underWay (.ask q (some e) next) wait)
    (hgo : canLetGo (f.allocator.stage? t) = true) :
    f.apply ⟨t, .stop⟩ = some (f.record t task { standing := .closing (.stopped e) } f.allocator) := by
  have hturn : task.turn? (f.allocator.stage? t) .stop = some { standing := .closing (.stopped e) } := by
    simp [Task.turn?, hs, hgo]
  rw [Floor.apply, ht]
  change (task.turn? (f.allocator.stage? t) .stop).bind _ = _
  rw [hturn]
  rfl

/-- After a stop, nothing is called or signed. -/
theorem rested_of_stop {q : Question} {e : KeeperError} {next : q.Answer → Rest} {wait : Wait} {g : Floor}
    {ns : List Floor.Move} (ht : f.tasks.get? t = some task)
    (hs : task.standing = .underWay (.ask q (some e) next) wait) (hgo : canLetGo (f.allocator.stage? t) = true)
    (h : f.run? (⟨t, .stop⟩ :: ns) = some g) : f.signings t (⟨t, .stop⟩ :: ns) = [] ∧
      ∃ task', g.tasks.get? t = some task' ∧ Rested task.log (.stopped e) task'.log task'.standing := by
  obtain ⟨k, hk, h⟩ := Floor.run?_cons.1 h
  have hnone : f.signing? t ⟨t, .stop⟩ = none := by
    simp [Floor.signing?, ht, Task.signing?]
  obtain ⟨task', ht', hr⟩ : ∃ task', k.tasks.get? t = some task' ∧
      Rested task.log (.stopped e) task'.log task'.standing := by
    cases (apply_stop ht hs hgo).symm.trans hk
    refine ⟨_, Floor.task_record .., ?_⟩
    simpa [Law.issued?_self] using Rested.closing
  obtain ⟨hsigned, hrest⟩ := rested_run ht' hr h
  refine ⟨?_, hrest⟩
  simp [Floor.signings, hk, hnone, hsigned]

/-- **Wherever a submission waits when it is cancelled, and before it starts, it ends at once, tells of its broadcasts,
and leaves nothing behind.** -/
theorem yields_of_run (h : Floor.run? {} ms = some f) (ht : f.tasks.get? t = some task)
    (hn : task.brief.chainOf task.brief.item.target.network = .ok chain)
    (hk : task.brief.hasKey task.brief.item.target.keeper = true)
    (hs : task.standing.isSuspended (f.allocator.stage? t) = true ∨
      task.standing = .underWay task.brief.course .idle) :
    ∃ talk wait stage hash, task.standing = .underWay talk wait ∧ Yields f t task talk stage hash := by
  have hsuspended : task.standing.isSuspended (f.allocator.stage? t) = true := by
    rcases hs with hs | hs
    · exact hs
    · rw [hs]
      exact isSuspended_course hn hk
  have hsound := sound_of_run h
  have hgo := hsound.canLetGo ht hsuspended
  obtain ⟨q, stage, hash, next, wait, hst, hreports⟩ := stop_of_narrated (narrated_of_run h ht) hsuspended
  refine ⟨.ask q (some (.cancelled stage hash)) next, wait, stage, hash, hst, ?_⟩
  constructor
  case stopped => rfl
  case verdict => rfl
  case reports => exact hreports
  case poll =>
    intro W S e cancelled begun w hw
    exact Dialogue.poll_of_stopped? e begun rfl hw
  case session =>
    intro settings cancelled s w htalk hplace halloc hw
    have hstopped : s.course.talk.stopped? = some (.cancelled stage hash) := by
      rw [htalk]
      rfl
    refine ⟨_, Rehearsal.Session.poll_of_stopped? settings hstopped hw, rfl, rfl, rfl, rfl, ?_⟩
    change (w.allocator.attempt s.place.ticket [.release, .abandon]).requests.get? t = none
    rw [hplace, halloc]
    exact Rehearsal.request_attempt_drop hgo
  case closes =>
    have hstop := apply_stop ht hst hgo
    have hsound' := sound_apply hsound hstop
    obtain ⟨g, task', hg, htask', hended⟩ := hsound'.closes (Floor.task_record ..) rfl
    exact ⟨g, task', Floor.run?_cons.2 ⟨_, hstop, Floor.run?_cons.2 ⟨g, hg, rfl⟩⟩, htask', hended⟩
  case after =>
    intro ns g hg
    have hleased := leased_of_run ((Floor.run?_append h).trans hg)
    obtain ⟨hsigned, task', ht', hr⟩ := rested_of_stop ht hst hgo hg
    exact ⟨hsigned, task', ht', hr, fun ho => ((hleased.each t task' ht').released ho).2⟩

/-- An escalation is cancelled while its second broadcast is under way, and tells of the first. -/
theorem yields_of_second_broadcast :
    ∃ f task, Floor.run? {} Sample.resending = some f ∧ f.tasks.get? 0 = some task ∧
      (sends task.log).length = 2 ∧ obtained task.log = [5] ∧
      ∃ talk wait stage hash, task.standing = .underWay talk wait ∧ Yields f 0 task talk stage hash := by
  have h : ((Floor.run? {} Sample.resending).bind fun f => (f.tasks.get? 0).map fun task =>
      ((sends task.log).length, obtained task.log, (task.brief.chainOf task.brief.item.target.network).toOption,
        task.brief.hasKey task.brief.item.target.keeper, task.standing.isSuspended (f.allocator.stage? 0))) =
          some (2, [5], some ⟨"test", 1⟩, true, true) := by
    decide +kernel
  obtain ⟨f, hf, h⟩ := Option.bind_eq_some_iff.1 h
  obtain ⟨task, ht, h⟩ := Option.map_eq_some_iff.1 h
  simp only [Prod.mk.injEq] at h
  obtain ⟨hsends, hobtained, hchain, hk, hs⟩ := h
  cases hn : task.brief.chainOf task.brief.item.target.network with
  | error e =>
    rw [hn] at hchain
    cases hchain
  | ok chain => exact ⟨f, task, hf, ht, hsends, hobtained, yields_of_run hf ht hn hk (.inl hs)⟩

end Yields

end Submission

end OrderKeeper
