import OrderKeeper.Proofs.Submission.Station
import OrderKeeper.Submission.History

/-!
# Submissions as histories of stations

- `Tells` says what is seen of a question and its answer, and `Midway` what is seen of a question that still waits.
- `Visits` are the logs and signatures that lead to a station, one answered question after the other.
- In every state that a floor can get to, each submission is at a station to which its log and its signatures have led,
  perhaps in the middle of a question, or it ended there (`narrated_of_run`). What holds of all visits holds thereby of
  all submissions, whatever the others do.
-/

namespace OrderKeeper.Submission

open Nonce (Ticket Stage Allocator)
open Dialogue

/-! ## Questions in a log -/

/-- A call and its answer. -/
def exchange (c : LedgerCall) (a : Except Fault c.Answer) : List Event := [.called c, .replied c a]

/-- What is seen of the look-ups of a watch, all of which let it go on. -/
inductive Looked (w : Watch) : Nat → List Event → Prop where
  | none : Looked w 0 []
  | more {n seen a} : Looked w n seen → w.answer n a = .pausing (n + 1) →
      Looked w (n + 1) (seen ++ exchange (.receipt w.hash) a)

/-- What is seen of a question that is answered. -/
inductive Tells : (q : Question) → q.Answer → List Event → Prop where
  | ledger {c} (a : Except Fault c.Answer) : Tells (.ledger c) a (exchange c a)
  /-- The lease follows another one. -/
  | follow {keeper} (n : UInt64) : Tells (.lease keeper) (.ok n) [.requested keeper, .leased n]
  | sync {keeper} (n : UInt64) :
      Tells (.lease keeper) (.ok n) (.requested keeper :: exchange (.pendingNonce keeper) (.ok n) ++ [.leased n])
  | refuse {keeper} (f : Fault) :
      Tells (.lease keeper) (.error f) (.requested keeper :: exchange (.pendingNonce keeper) (.error f))
  | sign {o t} (a : Except Fault SignedTransaction) : (∀ x, a = .ok x → x.transaction = t) → Tells (.sign o t) a []
  | pause {ms} : Tells (.pause ms) () []
  | watch {w n seen a r} : Looked w n seen → w.answer n a = .ended r →
      Tells (.watch w) r (seen ++ exchange (.receipt w.hash) a)

/-- What is seen of a question that waits for its answer, by the stage of the request for a lease. -/
inductive Midway : Question → Wait → Option Stage → List Event → Prop where
  | idle {q stage} : Midway q .idle stage []
  | reply {c stage} : Midway (.ledger c) .reply stage [.called c]
  | queued {keeper stage} : (stage = .arriving ∨ stage = .waiting ∨ stage = .admitted) →
      Midway (.lease keeper) .lease (some stage) [.requested keeper]
  | querying {keeper} :
      Midway (.lease keeper) .lease (some .querying) [.requested keeper, .called (.pendingNonce keeper)]
  | answered {keeper p} :
      Midway (.lease keeper) .lease (some (.answered p)) (.requested keeper :: exchange (.pendingNonce keeper) (.ok p))
  | granted {keeper stage n seen} : (stage = .settled n ∨ stage = .leased n) → Tells (.lease keeper) (.ok n) seen →
      Midway (.lease keeper) .lease (some stage) seen
  | looking {w n stage seen} : Looked w n seen →
      Midway (.watch w) (.watch (.looking n)) stage (seen ++ [.called (.receipt w.hash)])
  | pausing {w n stage seen} : Looked w n seen → Midway (.watch w) (.watch (.pausing n)) stage seen

/-- What a question and its answer add to the signatures. -/
def signed : (q : Question) → q.Answer → List Signing
  | .sign o t, a => [⟨o, t, a⟩]
  | .ledger _, _ | .lease _, _ | .pause _, _ | .watch _, _ => []

/-! ## Histories -/

/-- The logs and signatures that lead to a station. -/
inductive Visits (b : Brief) : List Event → List Signing → Station → Prop where
  | start : Visits b [] [] (.start b)
  | answer {log ss s q e f a seen} : Visits b log ss s → Station.Goes b s q e f → Tells q a seen →
      Visits b (log ++ seen) (ss ++ signed q a) (f a)

/-- The logs and signatures with which a submission ends: at its last station, or in the middle of a question. -/
inductive Ends (b : Brief) : List Event → List Signing → Exit → Prop where
  | finished {log ss r} : Visits b log ss (.ended r) → Ends b log ss (.finished r)
  | stopped {log ss s q e f wait stage seen} : Visits b log ss s → Station.Goes b s q e f →
      Midway q wait stage seen → Ends b (log ++ seen) ss (.stopped e)
  | dropped {log ss s q e f wait stage seen} : Visits b log ss s → Station.Goes b s q e f →
      Midway q wait stage seen → Ends b (log ++ seen) ss .dropped
  /-- It was given up although nothing was left to do. -/
  | late {log ss r} : Visits b log ss (.ended r) → Ends b log ss .dropped

/-- A submission is where its log and its signatures have led it. -/
inductive Narrated (b : Brief) (stage : Option Stage) : List Event → List Signing → Standing → Prop where
  | ready {log ss r} : Visits b log ss (.ended r) → Narrated b stage log ss (.underWay (.done r) .idle)
  | asking {log ss s q e f next wait seen} : Visits b log ss s → Station.Goes b s q e f →
      (∀ a, (next a).Minds (Station.care b) Station.IsOver (f a)) → Midway q wait stage seen →
      Narrated b stage (log ++ seen) ss (.underWay (.ask q (some e) next) wait)
  | closing {log ss exit} : Ends b log ss exit → Narrated b stage log ss (.closing exit)
  | ended {log ss exit} : Ends b log ss exit → Narrated b stage log ss (.ended exit)
  /-- The release of its lease is the last that is seen. -/
  | released {log ss exit} : Ends b log ss exit → Narrated b stage (log ++ [.released]) ss (.ended exit)

section Narrated

variable {b : Brief} {stage stage' : Option Stage} {log : List Event} {ss : List Signing} {s : Station}

/-- From a station on, a careful course is narrated. -/
theorem narrated_of_minds {talk : Rest} (hv : Visits b log ss s)
    (h : talk.Minds (Station.care b) Station.IsOver s) : Narrated b stage log ss (.underWay talk .idle) := by
  cases talk with
  | done r =>
    cases h
    exact .ready hv
  | ask q stop next =>
    obtain ⟨e, f, rfl, hG, hnext⟩ := h
    have hn : Narrated b stage (log ++ []) ss (.underWay (.ask q (some e) next) .idle) :=
      .asking hv hG hnext .idle
    rwa [List.append_nil] at hn

/-- The answer to the question of a station leads to the next one. -/
theorem narrated_of_answer {q : Question} {e : KeeperError} {f : q.Answer → Station} {next : q.Answer → Rest}
    {a : q.Answer} {seen : List Event} (hv : Visits b log ss s) (hG : Station.Goes b s q e f)
    (hnext : ∀ a, (next a).Minds (Station.care b) Station.IsOver (f a)) (ht : Tells q a seen) :
    Narrated b stage (log ++ seen) (ss ++ signed q a) (.underWay (next a) .idle) :=
  narrated_of_minds (.answer hv hG ht) (hnext a)

/-- The signer's answer leads to the next station. -/
theorem narrated_of_signature {o : SigningOptions} {u : Transaction} {stop : Option KeeperError}
    {next : Except Fault SignedTransaction → Rest} {a : Except Fault SignedTransaction}
    (h : Narrated b stage log ss (.underWay (.ask (.sign o u) stop next) .idle))
    (ha : ∀ x, a = .ok x → x.transaction = u) :
    Narrated b stage log (ss ++ [⟨o, u, a⟩]) (.underWay (next a) .idle) := by
  cases h with
  | @asking log _ _ _ _ _ _ _ _ hv hG hnext hm =>
    cases hm
    have hn : Narrated b stage (log ++ []) (ss ++ signed (.sign o u) a) (.underWay (next a) .idle) :=
      narrated_of_answer hv hG hnext (.sign a ha)
    simpa [signed] using hn

/-- What a turn does to a submission is narrated, unless the signer answers. -/
theorem narrated_of_turns {t : Ticket} {st st' : Standing} {x : Option Nonce.Step} {event : Option Event}
    (hT : Task.Turns b stage st x event st') (hx : Floor.Carries t stage x stage') (h : Narrated b stage log ss st)
    (hs : ∀ o u stop next talk w, st = .underWay (.ask (.sign o u) stop next) .idle → st' ≠ .underWay talk w) :
    Narrated b stage' (log ++ (event.toList ++ (issued? stage stage').toList.map .leased)) ss st' := by
  cases hT with
  | finish =>
    cases hx
    rw [Law.issued?_self]
    cases h with
    | ready hv => simpa using Narrated.closing (.finished hv)
  | call =>
    cases hx
    rw [Law.issued?_self]
    cases h with
    | asking hv hG hnext hm =>
      cases hm
      simpa using Narrated.asking hv hG hnext .reply
  | reply a =>
    cases hx
    rw [Law.issued?_self]
    cases h with
    | asking hv hG hnext hm =>
      cases hm
      simpa [exchange, signed] using narrated_of_answer hv hG hnext (.ledger a)
  | sign a ha => exact absurd rfl (hs _ _ _ _ _ _ rfl)
  | pause =>
    cases hx
    rw [Law.issued?_self]
    cases h with
    | asking hv hG hnext hm =>
      cases hm
      simpa [signed] using narrated_of_answer hv hG hnext .pause
  | request =>
    obtain ⟨k, r, r', hr⟩ := hx
    cases h with
    | asking hv hG hnext hm =>
      cases hm
      cases hr with
      | follow => simpa [issued?, Stage.nonce?] using Narrated.asking hv hG hnext (.granted (.inr rfl) (.follow _))
      | arrive => simpa [issued?, Stage.nonce?] using Narrated.asking hv hG hnext (.queued (.inl rfl))
  | join =>
    obtain ⟨k, r, r', hr⟩ := hx
    cases hr
    cases h with
    | asking hv hG hnext hm =>
      cases hm with
      | queued _ => simpa [issued?, Stage.nonce?] using Narrated.asking hv hG hnext (.queued (.inr (.inl rfl)))
      | granted hst _ => simp at hst
  | recheck =>
    obtain ⟨k, r, r', hr⟩ := hx
    cases h with
    | asking hv hG hnext hm =>
      cases hm with
      | queued _ =>
        cases hr with
        | followLate =>
          simpa [issued?, Stage.nonce?] using Narrated.asking hv hG hnext (.granted (.inl rfl) (.follow _))
        | enter => simpa [issued?, Stage.nonce?] using Narrated.asking hv hG hnext (.queued (.inr (.inr rfl)))
      | granted hst _ => simp at hst
  | ask =>
    obtain ⟨k, r, r', hr⟩ := hx
    cases hr
    cases h with
    | asking hv hG hnext hm =>
      cases hm with
      | queued _ => simpa [issued?, Stage.nonce?] using Narrated.asking hv hG hnext .querying
      | granted hst _ => simp at hst
  | answer p =>
    obtain ⟨k, r, r', hr⟩ := hx
    cases hr
    cases h with
    | asking hv hG hnext hm =>
      cases hm with
      | queued hst => simp at hst
      | querying => simpa [issued?, Stage.nonce?, exchange] using Narrated.asking hv hG hnext (.answered (p := p))
      | granted hst _ => simp at hst
  | fail f =>
    obtain ⟨k, r, r', hr⟩ := hx
    cases hr
    cases h with
    | asking hv hG hnext hm =>
      cases hm with
      | queued hst => simp at hst
      | querying => simpa [issued?, Stage.nonce?, exchange, signed] using narrated_of_answer hv hG hnext (.refuse f)
      | granted hst _ => simp at hst
  | settle =>
    obtain ⟨k, r, r', hr⟩ := hx
    cases hr
    cases h with
    | asking hv hG hnext hm =>
      cases hm with
      | queued hst => simp at hst
      | answered =>
        simpa [issued?, Stage.nonce?, exchange] using Narrated.asking hv hG hnext (.granted (.inl rfl) (.sync _))
      | granted hst _ => simp at hst
  | leave =>
    obtain ⟨k, r, r', hr⟩ := hx
    cases hr
    cases h with
    | asking hv hG hnext hm =>
      cases hm with
      | queued hst => simp at hst
      | granted hst ht =>
        obtain hst | hst := hst
        · cases hst
          simpa [issued?, Stage.nonce?] using Narrated.asking hv hG hnext (.granted (.inr rfl) ht)
        · cases hst
  | take =>
    cases hx
    rw [Law.issued?_self]
    cases h with
    | asking hv hG hnext hm =>
      cases hm with
      | queued hst => simp at hst
      | granted hst ht =>
        obtain hst | hst := hst
        · cases hst
        · cases hst
          simpa [signed] using narrated_of_answer hv hG hnext ht
  | look =>
    cases hx
    rw [Law.issued?_self]
    cases h with
    | asking hv hG hnext hm =>
      cases hm
      simpa [Watch.start] using Narrated.asking hv hG hnext (.looking .none)
  | judge a =>
    cases hx
    rw [Law.issued?_self]
    cases h with
    | asking hv hG hnext hm =>
      cases hm with
      | looking hl =>
        obtain ⟨r, ha⟩ | ha := Law.answer_cases _ _ a
        · rw [ha]
          simpa [exchange, signed, Standing.ofWatch] using narrated_of_answer hv hG hnext (.watch hl ha)
        · rw [ha]
          simpa [exchange, Standing.ofWatch] using Narrated.asking hv hG hnext (.pausing (.more hl ha))
  | wake =>
    cases hx
    rw [Law.issued?_self]
    cases h with
    | asking hv hG hnext hm =>
      cases hm with
      | pausing hl => simpa using Narrated.asking hv hG hnext (.looking hl)
  | stop =>
    cases hx
    rw [Law.issued?_self]
    cases h with
    | asking hv hG hnext hm => simpa using Narrated.closing (.stopped hv hG hm)
  | drop =>
    cases hx
    rw [Law.issued?_self]
    cases h with
    | ready hv => simpa using Narrated.closing (.late hv)
    | asking hv hG hnext hm => simpa using Narrated.closing (.dropped hv hG hm)
  | close =>
    cases hx
    rw [Law.issued?_self]
    cases h with
    | closing he => simpa using Narrated.ended he
  | release =>
    obtain ⟨k, r, r', hr⟩ := hx
    cases hr
    cases h with
    | closing he => simpa [issued?, Stage.nonce?] using Narrated.released he
  | abandon =>
    obtain ⟨k, r, r', hr⟩ := hx
    cases hr
    rw [Law.issued?_none]
    cases h with
    | closing he => simpa using Narrated.ended he

end Narrated

/-! ## Histories that go on -/

section Visits

variable {b : Brief} {stage : Option Stage} {log : List Event} {ss : List Signing} {s : Station}

/-- What is seen in the middle of a question is a beginning of what is seen of some answer to it. -/
theorem exists_visits_of_midway {q : Question} {e : KeeperError} {f : q.Answer → Station} {wait : Wait}
    {seen : List Event} (hv : Visits b log ss s) (hG : Station.Goes b s q e f) (hm : Midway q wait stage seen) :
    ∃ rest s', Visits b (log ++ seen ++ rest) ss s' := by
  -- any answer will do, but the one of a lease must not be another than was seen
  have extend {a : q.Answer} {all : List Event} (ht : Tells q a all) (hs : signed q a = []) {rest : List Event}
      (hall : all = seen ++ rest) : ∃ rest s', Visits b (log ++ seen ++ rest) ss s' := by
    have hv' := Visits.answer hv hG ht
    rw [hs, List.append_nil, hall, ← List.append_assoc] at hv'
    exact ⟨rest, _, hv'⟩
  cases hm with
  | idle => exact ⟨[], s, by simpa using hv⟩
  | reply => exact extend (.ledger (.error (.validation ""))) rfl rfl
  | queued => exact extend (.refuse (.validation "")) rfl rfl
  | querying => exact extend (.refuse (.validation "")) rfl rfl
  | answered => exact extend (.sync _) rfl rfl
  | granted _ ht => exact extend ht rfl (List.append_nil _).symm
  | looking hl => exact extend (.watch hl (a := .error (.validation "")) rfl) rfl (by simp [exchange]; rfl)
  | pausing hl => exact extend (.watch hl (a := .error (.validation "")) rfl) rfl rfl

/-- A submission's log, but for the release of its lease, is a beginning of one that leads to a station. -/
theorem exists_visits_of_narrated {st : Standing} (h : Narrated b stage log ss st) :
    ∃ l rest s, Visits b (l ++ rest) ss s ∧ (log = l ∨ log = l ++ [.released]) := by
  have ended {log : List Event} {exit : Exit} (he : Ends b log ss exit) : ∃ rest s, Visits b (log ++ rest) ss s := by
    cases he with
    | finished hv | late hv => exact ⟨[], _, by simpa using hv⟩
    | stopped hv hG hm | dropped hv hG hm => exact exists_visits_of_midway hv hG hm
  cases h with
  | ready hv => exact ⟨log, [], _, by simpa using hv, .inl rfl⟩
  | asking hv hG _ hm =>
    obtain ⟨rest, s, hv⟩ := exists_visits_of_midway hv hG hm
    exact ⟨_, rest, s, hv, .inl rfl⟩
  | closing he | ended he =>
    obtain ⟨rest, s, hv⟩ := ended he
    exact ⟨_, rest, s, hv, .inl rfl⟩
  | released he =>
    obtain ⟨rest, s, hv⟩ := ended he
    exact ⟨_, rest, s, hv, .inr rfl⟩

/-- A submission that has ended did so at a station or in the middle of a question, and may have released its lease
since. -/
theorem ends_of_narrated {st : Standing} {exit : Exit} (h : Narrated b stage log ss st) (he : st.exit? = some exit) :
    ∃ l, Ends b l ss exit ∧ (log = l ∨ log = l ++ [.released]) := by
  cases h with
  | ready | asking => cases he
  | closing h | ended h =>
    cases he
    exact ⟨_, h, .inl rfl⟩
  | released h =>
    cases he
    exact ⟨_, h, .inr rfl⟩

end Visits

/-! ## Histories on a floor -/

section Floor

variable {f g : Floor} {t : Ticket} {m : Floor.Move} {ss : List Signing}

/-- A submission that waits for its signer goes on with the answer that it gets, or ends. -/
theorem turn_of_sign {task : Task} {stage : Option Stage} {act : Act} {turn : Turn} {o : SigningOptions}
    {u : Transaction} {stop : Option KeeperError} {next : Except Fault SignedTransaction → Rest}
    (h : task.turn? stage act = some turn) (hs : task.standing = .underWay (.ask (.sign o u) stop next) .idle) :
    (∃ x, task.signing? act = some ⟨o, u, x.signer o u⟩ ∧ act = .go x ∧
      turn = { standing := .underWay (next (x.signer o u)) .idle }) ∨
    (task.signing? act = none ∧ ∃ e, turn.standing = .closing e) := by
  obtain ⟨b, log, st⟩ := task
  change st = _ at hs
  subst hs
  cases act with
  | enter b => cases h
  | go x =>
    cases h
    exact .inl ⟨x, rfl, rfl, rfl⟩
  | stop =>
    refine .inr ⟨rfl, ?_⟩
    simp only [Task.turn?] at h
    split at h
    · split at h
      · cases h; exact ⟨_, rfl⟩
      · cases h
    · cases h
  | drop =>
    refine .inr ⟨rfl, ?_⟩
    simp only [Task.turn?] at h
    split at h
    · cases h; exact ⟨_, rfl⟩
    · cases h
  | close => cases h

/-- Nothing else asks for a signature. -/
theorem signing?_eq_none {task : Task} {act : Act}
    (hs : ∀ o u stop next, task.standing ≠ .underWay (.ask (.sign o u) stop next) .idle) :
    task.signing? act = none := by
  unfold Task.signing?
  split
  · split
    · exact absurd ‹_› (hs _ _ _ _)
    · rfl
  · rfl

/-- The submission of a ticket, if there is one, is narrated. -/
structure Narrates (f : Floor) (t : Ticket) (ss : List Signing) : Prop where
  task : ∀ task, f.tasks.get? t = some task →
    Narrated task.brief (f.allocator.stage? t) task.log ss task.standing
  unsigned : f.tasks.get? t = none → ss = []

theorem narrates_apply (hf : Narrates f t ss) (h : f.apply m = some g) :
    Narrates g t (ss ++ (f.signing? t m).toList) := by
  by_cases hm : m.ticket = t
  · subst hm
    obtain ⟨b, hnone, -, rfl⟩ | ⟨task, turn, a, htask, hturn, ha, rfl⟩ := Floor.turn_of_apply h
    · have hss := hf.unsigned hnone
      have hsig : f.signing? m.ticket m = none := by simp [Floor.signing?, hnone]
      constructor
      case task =>
        intro task ht
        rw [Table.get?_set_self] at ht
        cases ht
        rw [hsig, hss]
        exact narrated_of_minds .start (Station.minds_course b)
      case unsigned =>
        intro hn
        rw [Table.get?_set_self] at hn
        cases hn
    · have hsig : f.signing? m.ticket m = task.signing? m.act := by simp [Floor.signing?, htask]
      have hx := Floor.carries_of_carry? ha
      have hT := Task.turns_of_turn? hturn
      have hn := hf.task task htask
      constructor
      case task =>
        intro task' ht
        rw [Floor.task_record] at ht
        cases ht
        rw [hsig]
        change Narrated task.brief (a.stage? m.ticket) _ _ turn.standing
        by_cases hsign : ∃ o u stop next, task.standing = .underWay (.ask (.sign o u) stop next) .idle
        · obtain ⟨o, u, stop, next, hs⟩ := hsign
          obtain ⟨x, hx', -, rfl⟩ | ⟨hx', e, he⟩ := turn_of_sign hturn hs
          · cases ha
            rw [hs] at hn
            rw [hx', Law.issued?_self]
            simpa using narrated_of_signature hn fun y hy => x.faithful hy
          · rw [hx']
            have hn' := narrated_of_turns hT hx hn fun _ _ _ _ _ _ _ hu => by rw [he] at hu; cases hu
            simpa using hn'
        · rw [signing?_eq_none fun o u stop next hs => hsign ⟨o, u, stop, next, hs⟩]
          have hn' := narrated_of_turns hT hx hn fun o u stop next _ _ hs => absurd ⟨o, u, stop, next, hs⟩ hsign
          simpa using hn'
      case unsigned =>
        intro hnone
        rw [Floor.task_record] at hnone
        cases hnone
  · have hsig : f.signing? t m = none := by simp [Floor.signing?, hm]
    have hstage : g.allocator.stage? t = f.allocator.stage? t := by
      rw [Allocator.stage?, Floor.request_of_apply h hm, ← Allocator.stage?]
    constructor
    case task =>
      intro task ht
      rw [Floor.task_of_apply h hm] at ht
      rw [hsig, hstage]
      simpa using hf.task task ht
    case unsigned =>
      intro hnone
      rw [Floor.task_of_apply h hm] at hnone
      rw [hsig, hf.unsigned hnone]
      rfl

theorem narrates_run : ∀ {ms : List Floor.Move} {f : Floor} {ss : List Signing}, Narrates f t ss →
    f.run? ms = some g → Narrates g t (ss ++ f.signings t ms)
  | [], f, ss, hf, h => by
    cases h
    simpa [Floor.signings] using hf
  | m :: ms, f, ss, hf, h => by
    obtain ⟨e, he, h⟩ := Floor.run?_cons.1 h
    have hg := narrates_run (narrates_apply hf he) h
    simpa [Floor.signings, he] using hg

/-- **Every submission is where its log and its signatures have led it.** -/
theorem narrated_of_run {ms : List Floor.Move} {task : Task} (h : Floor.run? {} ms = some f)
    (ht : f.tasks.get? t = some task) :
    Narrated task.brief (f.allocator.stage? t) task.log (Floor.signings {} t ms) task.standing := by
  have hn : Narrates f t ([] ++ Floor.signings {} t ms) :=
    narrates_run ⟨(fun _ ht => by cases ht), fun _ => rfl⟩ h
  exact hn.task task ht

end Floor

end OrderKeeper.Submission
