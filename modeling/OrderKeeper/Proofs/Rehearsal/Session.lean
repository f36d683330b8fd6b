import OrderKeeper.Proofs.Rehearsal.Moments
import OrderKeeper.Proofs.Rehearsal.Poll
import OrderKeeper.Rehearsal.Run

/-!
# Rehearsals of submissions

Submissions that are rehearsed side by side are submissions of one floor, each under the ticket of its session.
Whatever the ledgers, the signer and the cancellations are scripted to do, the allocator and the results at the end
are those of a run of the floor (`exists_run_of_run`); so what is true of every run of a floor is true of every
rehearsal.
-/

namespace OrderKeeper.Rehearsal

open Nonce (Ticket Stage Allocator)
open Submission (Floor Task Turn Brief Exit)

variable {p : Place} {b : Brief} {w w' : World} {f g : Floor}

/-! ## The beginning and the end of a submission -/

/-- What a submission in a world starts from. -/
def World.brief (w : World) (settings : Settings) (item : WorkItem) : Brief where
  settings
  chainOf := w.chainOf
  hasKey := w.signer.hasKey
  item

theorem chainId_brief (b : Brief) : b.chainId =
    ((b.chainOf b.item.target.network).toOption.getD ⟨b.item.target.network, 0⟩).chainId := by
  rw [Brief.chainId]
  cases b.chainOf b.item.target.network <;> rfl

/-- A session under a fresh ticket is a new submission. -/
theorem mirrors_begin (settings : Settings) (item : WorkItem) (h : Matches w f) :
    CanReach w.tickets f (Mirrors (Session.begin settings item w.takeTicket.2 w.takeTicket.1).place
      (w.takeTicket.1.brief settings item) w.takeTicket.1
      (.underWay (Session.begin settings item w.takeTicket.2 w.takeTicket.1).course.talk .idle)) := by
  have hnone := h.fresh w.tickets (Nat.le_refl _)
  have happly : f.apply ⟨w.tickets, .enter (w.takeTicket.1.brief settings item)⟩ = some { f with
      tasks := f.tasks.set w.tickets
        { brief := w.takeTicket.1.brief settings item,
          standing := .underWay (w.takeTicket.1.brief settings item).course .idle } } := by
    rw [Floor.apply, hnone]
  refine ⟨[⟨w.tickets, _⟩], _, Floor.run?_cons.2 ⟨_, happly, rfl⟩, (fun m hm => by rw [List.mem_singleton.1 hm]), ?_⟩
  refine ⟨⟨Submission.sound_apply h.sound happly, h.allocator, h.faithful, fun t ht => ?_⟩, ?_, [],
    Table.get?_set_self ..⟩
  · have hne : w.tickets ≠ t := Nat.ne_of_lt ht
    exact (Table.get?_set_of_ne _ _ hne).trans (h.fresh t (Nat.le_of_succ_le ht))
  · exact chainId_brief (w.takeTicket.1.brief settings item)

/-- What is dropped is released or given up, if there is anything. -/
theorem attempt_drop_cases {a : Allocator} {t : Ticket} (h : Submission.canLetGo (a.stage? t) = true) :
    (a.stage? t = none ∧ a.attempt t [.release, .abandon] = a) ∨
    (∃ n, a.stage? t = some (.leased n) ∧ a.apply ⟨t, .release⟩ = some (a.attempt t [.release, .abandon])) ∨
    ∃ st, a.stage? t = some st ∧ (∀ n, st ≠ .leased n) ∧
      a.apply ⟨t, .abandon⟩ = some (a.attempt t [.release, .abandon]) := by
  rw [Allocator.stage?] at h ⊢
  cases hr : a.requests.get? t with
  | none =>
    refine .inl ⟨rfl, ?_⟩
    rw [Allocator.attempt_of_eq_none (Allocator.apply_eq_none_of_request (x := .release) hr (by simp)),
      Allocator.attempt_of_eq_none (Allocator.apply_eq_none_of_request (x := .abandon) hr (by simp))]
    rfl
  | some r =>
    obtain ⟨k, st⟩ := r
    rw [hr] at h
    have given (hst : st = .waiting ∨ st = .querying ∨ ∃ n, st = .answered n) (hn : ∀ n, st ≠ .leased n)
        (hs : ∀ {s s' : Nonce.Slot} {stage' : Option Stage}, ¬Nonce.Slot.Steps k t s (some st) .release s' stage') :
        ∃ st', some st = some st' ∧ (∀ n, st' ≠ .leased n) ∧
          a.apply ⟨t, .abandon⟩ = some (a.attempt t [.release, .abandon]) := by
      have ha := Allocator.apply_abandon hr hst
      rw [Allocator.attempt_of_eq_none (Allocator.apply_eq_none hr hs), Allocator.attempt_of_apply ha]
      exact ⟨st, rfl, hn, ha⟩
    cases st with
    | leased n =>
      have ha := Allocator.apply_release hr
      rw [Allocator.attempt_of_apply ha,
        Allocator.attempt_of_eq_none
          (Allocator.apply_eq_none_of_request (x := .abandon) Allocator.request_put_self (by simp))]
      exact .inr (.inl ⟨n, rfl, ha⟩)
    | waiting => exact .inr (.inr (given (.inl rfl) (by simp) fun hs => by cases hs))
    | querying => exact .inr (.inr (given (.inr (.inl rfl)) (by simp) fun hs => by cases hs))
    | answered n => exact .inr (.inr (given (.inr (.inr ⟨n, rfl⟩)) (by simp) fun hs => by cases hs))
    | arriving | admitted | settled => cases h

/-- What a submission that has ended stands for is dropped. -/
theorem canReach_close {e : Exit} (h : Mirrors p b w (.closing e) f) :
    CanReach p.ticket f (Mirrors p b (w.drop p.ticket) (.ended e)) := by
  obtain ⟨log, ht⟩ := h.task
  obtain ⟨τ, -, hacc⟩ := h.sound.accounts.task _ _ ht
  have hgo := hacc.calm rfl
  rw [h.allocator] at hgo
  rcases attempt_drop_cases hgo with ⟨hs, ha⟩ | ⟨n, hs, ha⟩ | ⟨st, hs, hn, ha⟩
  · exact follows_of_turn { standing := .ended e } (fun _ => .close) (fun _ _ _ => by rw [hs]; rfl) ha (.attempt ..) f h
  · exact follows_of_turn { step := some .release, event := some .released, standing := .ended e } (fun _ => .close)
      (fun _ _ _ => by rw [hs]; rfl) ha (.attempt ..) f h
  · refine follows_of_turn { step := some .abandon, standing := .ended e } (fun _ => .close) (fun _ _ _ => ?_) ha
      (.attempt ..) f h
    rw [hs]
    cases st with
    | leased n => exact absurd rfl (hn n)
    | arriving | waiting | admitted | querying | answered | settled => rfl

/-- A submission that is given up drops what it stands for. -/
theorem canReach_abandon {talk : Submission.Rest} {begun : Option Wait} {wait : Submission.Wait}
    (h : Mirrors p b w (.underWay talk wait) f) (ha : p.Awaits w talk begun wait) :
    CanReach p.ticket f (Mirrors p b (w.drop p.ticket) (.ended .dropped)) := by
  have hgo := h.canLetGo ha
  have hdrop : Follows p b w (.underWay talk wait) w (.closing .dropped) :=
    follows_of_turn { standing := .closing .dropped } (fun _ => .drop) (fun _ _ _ => by exact if_pos hgo) rfl .refl
  exact (hdrop f h).trans fun g hg => canReach_close hg

/-! ## Polls of a session -/

/-- What a rehearsal shows of a submission that has ended. -/
def shown? : Exit → Option (Except (Verdict KeeperError) Outcome)
  | .finished r => some (r.mapError KeeperError.verdict)
  | .stopped e => some (.error e.verdict)
  | .dropped => none

/-- A floor mirrors what a poll of a session shows: the submission is over, or waits as in the rehearsal. -/
def Session.Shows (p : Place) (b : Brief) :
    World × Polled Session (Except (Verdict KeeperError) Outcome) → Floor → Prop
  | (w, .ready r), f => ∃ e, Mirrors p b w (.ended e) f ∧ shown? e = some r
  | (w, .waiting s _), f => s.place = p ∧ ∃ wait, Mirrors p b w (.underWay s.course.talk wait) f ∧
      p.Awaits w s.course.talk s.course.begun wait

/-- A poll of a session is steps of its submission. -/
theorem Session.canReach_poll (settings : Settings) (cancelled : World → Bool) {s : Session} {wait : Submission.Wait}
    (h : Mirrors s.place b w (.underWay s.course.talk wait) f)
    (ha : s.place.Awaits w s.course.talk s.course.begun wait) :
    CanReach s.place.ticket f (Session.Shows s.place b (s.poll settings cancelled w)) := by
  refine (Rehearsal.canReach_poll cancelled h ha).trans fun g hg => ?_
  rw [Session.poll]
  cases hr : s.course.poll s.place.submission cancelled w with
  | mk w' shown =>
    change Rehearsal.Shows s.place b (s.course.poll s.place.submission cancelled w) g at hg
    rw [hr] at hg
    cases shown with
    | waiting c wake => exact .refl ⟨rfl, hg⟩
    | ready r =>
      have recorded (e : Exit) (r : Except KeeperError Outcome) (hg : Mirrors s.place b w' (.closing e) g)
          (he : shown? e = some (r.mapError KeeperError.verdict)) :
          CanReach s.place.ticket g (Session.Shows s.place b
            (s.finish settings r w', .ready (r.mapError KeeperError.verdict))) :=
        (canReach_close hg).trans fun k hk => .refl ⟨e, ⟨hk.toMatches.of_alike rfl ⟨rfl, rfl⟩, hk.chain, hk.task⟩, he⟩
      cases r with
      | ok r => exact recorded _ _ hg rfl
      | error e => exact recorded _ (.error e) hg rfl

/-! ## Acts -/

/-- What a submission gives as an act. -/
abbrev Result := Except KeeperError (Except (Verdict KeeperError) Outcome)

section Acts

variable {settings : Settings} {item : Except KeeperError WorkItem} {act : Standing Result} {owner : Option Ticket}

/-- Where an act of a rehearsal stands on a floor, and under which ticket, if it has begun. -/
inductive Stood (settings : Settings) (w : World) (f : Floor) :
    Except KeeperError WorkItem → Standing Result → Option Ticket → Prop where
  | unstarted {item startAt token limit start} :
      Stood settings w f item (.unstarted (Act.submission settings item startAt token limit) start) none
  | unread {e} : Stood settings w f (.error e) (.finished (.error e)) none
  | running {item startAt token limit start wake w₀ wait} {s : Session} :
      Mirrors s.place (World.brief w₀ settings item) w (.underWay s.course.talk wait) f →
      s.place.Awaits w s.course.talk s.course.begun wait →
      Stood settings w f (.ok item)
        (.running (Act.submission settings (.ok item) startAt token limit) start (.ok s) wake) (some s.place.ticket)
  | finished {item t w₀ log e r} : f.tasks.get? t = some ⟨World.brief w₀ settings item, log, .ended e⟩ →
      shown? e = some r → Stood settings w f (.ok item) (.finished (.ok r)) (some t)
  | abandoned {item t w₀ log} : f.tasks.get? t = some ⟨World.brief w₀ settings item, log, .ended .dropped⟩ →
      Stood settings w f (.ok item) .abandoned (some t)

theorem Stood.exists_task {t : Ticket} (h : Stood settings w f item act (some t)) :
    ∃ task, f.tasks.get? t = some task := by
  cases h with
  | running hm => exact ⟨_, hm.task.choose_spec⟩
  | finished ht => exact ⟨_, ht⟩
  | abandoned ht => exact ⟨_, ht⟩

theorem Place.Awaits.of_request_eq {talk : Submission.Rest} {begun : Option Wait} {wait : Submission.Wait}
    (h : p.Awaits w talk begun wait)
    (hr : w'.allocator.requests.get? p.ticket = w.allocator.requests.get? p.ticket) : p.Awaits w' talk begun wait := by
  cases h with
  | gate h hs => exact .gate (hr.trans h) hs
  | nonce h => exact .nonce (hr.trans h)
  | fresh => exact .fresh
  | call => exact .call
  | sign => exact .sign
  | pause => exact .pause
  | start => exact .start
  | look => exact .look
  | rest => exact .rest

/-- An act stands where it stood while a floor makes steps under other tickets. -/
theorem Stood.of_run {ms : List Floor.Move} (h : Stood settings w f item act owner) (hf : Matches w f)
    (hg : Matches w' g) (hr : f.run? ms = some g) (hms : ∀ m ∈ ms, owner ≠ some m.ticket) :
    Stood settings w' g item act owner := by
  have hbeside {t : Ticket} (ht : owner = some t) := Floor.beside_of_run hr fun m hm hmt => hms m hm (hmt ▸ ht)
  cases h with
  | unstarted => exact .unstarted
  | unread => exact .unread
  | running hm ha =>
    obtain ⟨htask, hreq⟩ := hbeside rfl
    rw [hg.allocator, hf.allocator] at hreq
    exact .running ⟨hg, hm.chain, by rw [htask]; exact hm.task⟩ (ha.of_request_eq hreq)
  | finished ht he => exact .finished ((hbeside rfl).1.trans ht) he
  | abandoned ht => exact .abandoned ((hbeside rfl).1.trans ht)

theorem pollRunning_of_ready {α : Type} {act : Act α} {start : Nat} {state : act.State} {a : α}
    (h : act.poll (act.token.isCancelled start) w state = (w', .ready a)) :
    Standing.pollRunning act start state w = (w', .finished a) := by
  rw [Standing.pollRunning, h]

theorem pollRunning_of_waiting {α : Type} {act : Act α} {start : Nat} {state state' : act.State} {wake : Option Nat}
    (h : act.poll (act.token.isCancelled start) w state = (w', .waiting state' wake)) :
    Standing.pollRunning act start state w =
      if act.limit.any fun n => start + n ≤ w'.now then (act.abandon state' w', .abandoned)
      else (w', .running act start state' wake) := by
  rw [Standing.pollRunning, h]

/-- A floor matches what a poll of an act gives. -/
def Given (settings : Settings) (item : Except KeeperError WorkItem) (owner : Option Ticket)
    (r : World × Standing Result) (f : Floor) : Prop :=
  Matches r.1 f ∧ Stood settings r.1 f item r.2 owner

/-- A poll of an act that has begun is steps of its submission. -/
theorem canReach_pollRunning {item : WorkItem} {startAt start limit : Nat} {token : Token} {w₀ : World} {s : Session}
    {wait : Submission.Wait} (h : Mirrors s.place (World.brief w₀ settings item) w (.underWay s.course.talk wait) f)
    (ha : s.place.Awaits w s.course.talk s.course.begun wait) :
    CanReach s.place.ticket f (Given settings (.ok item) (some s.place.ticket)
      (Standing.pollRunning (Act.submission settings (.ok item) startAt token limit) start (.ok s) w)) := by
  refine (Session.canReach_poll settings (token.isCancelled start) h ha).trans fun g hg => ?_
  have hact : (Act.submission settings (.ok item) startAt token limit).poll (token.isCancelled start) w (.ok s) =
      ((s.poll settings (token.isCancelled start) w).1,
        (mapPolled .ok (s.poll settings (token.isCancelled start) w).2).mapState .ok) := rfl
  revert hg hact
  obtain ⟨w', r | ⟨s', wake⟩⟩ := s.poll settings (token.isCancelled start) w
  · rintro ⟨e, hm, he⟩ hact
    obtain ⟨log, ht⟩ := hm.task
    rw [pollRunning_of_ready hact]
    exact .refl ⟨hm.toMatches, .finished ht he⟩
  · rintro ⟨hp, wait', hm, ha'⟩ hact
    rw [pollRunning_of_waiting hact]
    rw [← hp] at hm ha' ⊢
    split
    · refine (canReach_abandon hm ha').trans fun k hk => ?_
      obtain ⟨log, ht⟩ := hk.task
      exact .refl ⟨hk.toMatches, .abandoned ht⟩
    · exact .refl ⟨hm.toMatches, .running hm ha'⟩

/-- A poll of an act is steps under the ticket that it has, or has from then on. -/
theorem given_poll (h : Stood settings w f item act owner) (hf : Matches w f) :
    ∃ ms g owner', f.run? ms = some g ∧ Given settings item owner' (act.poll w) g ∧
      (∀ m ∈ ms, owner' = some m.ticket) ∧ ∀ t, owner' = some t → owner = some t ∨ f.tasks.get? t = none := by
  have quiet {owner : Option Ticket} (h : Stood settings w f item act owner) (hw : act.poll w = (w, act)) :
      ∃ ms g owner', f.run? ms = some g ∧ Given settings item owner' (act.poll w) g ∧
        (∀ m ∈ ms, owner' = some m.ticket) ∧ ∀ t, owner' = some t → owner = some t ∨ f.tasks.get? t = none := by
    rw [hw]
    exact ⟨[], f, owner, rfl, ⟨hf, h⟩, (fun m hm => by cases hm), fun t ht => .inl ht⟩
  cases h with
  | unread => exact quiet .unread rfl
  | finished ht he => exact quiet (.finished ht he) rfl
  | abandoned ht => exact quiet (.abandoned ht) rfl
  | running hm ha =>
    obtain ⟨ms, g, hg, hms, hgiven⟩ := canReach_pollRunning hm ha
    exact ⟨ms, g, _, hg, hgiven, fun m hm => by rw [hms m hm], fun t ht => .inl ht⟩
  | unstarted =>
    rename_i startAt token limit start
    rw [Standing.poll]
    split
    · cases item with
      | error e => exact ⟨[], f, none, rfl, ⟨hf, .unread⟩, (fun m hm => by cases hm), fun t ht => by cases ht⟩
      | ok item =>
        obtain ⟨ms, g, hg, hms, hgiven⟩ := (mirrors_begin settings item hf).trans fun k hk =>
          canReach_pollRunning hk .fresh
        exact ⟨ms, g, some w.tickets, hg, hgiven, fun m hm => by rw [hms m hm],
          fun t ht => .inr (by cases ht; exact hf.fresh _ (Nat.le_refl _))⟩
    · exact ⟨[], f, none, rfl, ⟨hf, .unstarted⟩, (fun m hm => by cases hm), fun t ht => by cases ht⟩

end Acts

/-! ## Rehearsals -/

section Rehearsals

variable {settings : Settings} {items : List (Except KeeperError WorkItem)} {acts : List (Standing Result)}
  {tickets : List Ticket}

/-- Where all acts of a rehearsal stand on a floor, each under a ticket of its own. -/
inductive Staged (settings : Settings) (w : World) (f : Floor) :
    List (Except KeeperError WorkItem) → List (Standing Result) → List Ticket → Prop where
  | nil : Staged settings w f [] [] []
  | cons {item items act acts owner tickets} : Stood settings w f item act owner →
      (∀ t, owner = some t → t ∉ tickets) → Staged settings w f items acts tickets →
      Staged settings w f (item :: items) (act :: acts) (owner.toList ++ tickets)

theorem Staged.exists_task (h : Staged settings w f items acts tickets) :
    ∀ t ∈ tickets, ∃ task, f.tasks.get? t = some task := by
  induction h with
  | nil => exact fun t ht => by cases ht
  | cons hs _ _ ih =>
    intro t ht
    rcases List.mem_append.1 ht with ht | ht
    · exact Stood.exists_task (Option.mem_toList.1 ht ▸ hs)
    · exact ih t ht

theorem Staged.of_run {ms : List Floor.Move} (h : Staged settings w f items acts tickets) (hf : Matches w f)
    (hg : Matches w' g) (hr : f.run? ms = some g) (hms : ∀ m ∈ ms, m.ticket ∉ tickets) :
    Staged settings w' g items acts tickets := by
  induction h with
  | nil => exact .nil
  | cons hs hn _ ih =>
    refine .cons (hs.of_run hf hg hr fun m hm ho => ?_) hn (ih fun m hm ht => ?_)
    · exact hms m hm (List.mem_append_left _ (Option.mem_toList.2 ho))
    · exact hms m hm (List.mem_append_right _ ht)

/-- All acts are polled in steps under their tickets. -/
theorem staged_pollAll (h : Staged settings w f items acts tickets) (hf : Matches w f) :
    ∃ ms g tickets', f.run? ms = some g ∧ Matches (pollAll w acts).1 g ∧
      Staged settings (pollAll w acts).1 g items (pollAll w acts).2 tickets' ∧ (∀ m ∈ ms, m.ticket ∈ tickets') ∧
      ∀ t ∈ tickets', t ∈ tickets ∨ f.tasks.get? t = none := by
  induction acts generalizing w f items tickets with
  | nil =>
    cases h
    exact ⟨[], f, [], rfl, hf, .nil, (fun m hm => by cases hm), fun t ht => .inl ht⟩
  | cons act acts ih =>
    cases h with
    | cons hs hn htail =>
      rename_i item items owner tickets
      obtain ⟨ms, g, owner', hg, ⟨hmg, hsg⟩, hms, hnew⟩ := given_poll hs hf
      -- the ticket of the act that was polled is none of the others
      have hapart (t : Ticket) (ho : owner' = some t) : t ∉ tickets := by
        intro ht
        rcases hnew t ho with ho | hfresh
        · exact hn t ho ht
        · obtain ⟨task, htask⟩ := htail.exists_task t ht
          rw [hfresh] at htask
          cases htask
      have htail' := htail.of_run hf hmg hg fun m hm ht => hapart _ (hms m hm) ht
      obtain ⟨ns, e, tickets', he, hme, hse, hns, hnews⟩ := ih htail' hmg
      have hapart' (t : Ticket) (ho : owner' = some t) : t ∉ tickets' := by
        intro ht
        rcases hnews t ht with ht | hfresh
        · exact hapart t ho ht
        · subst ho
          obtain ⟨task, htask⟩ := hsg.exists_task
          rw [hfresh] at htask
          cases htask
      have hhead := hsg.of_run hmg hme he fun n hn' ho => hapart' _ ho (hns n hn')
      refine ⟨ms ++ ns, e, owner'.toList ++ tickets', (Floor.run?_append hg).trans he, hme, .cons hhead hapart' hse,
        fun m hm => ?_, fun t ht => ?_⟩
      · rcases List.mem_append.1 hm with hm | hm
        · exact List.mem_append_left _ (Option.mem_toList.2 (hms m hm))
        · exact List.mem_append_right _ (hns m hm)
      · rcases List.mem_append.1 ht with ht | ht
        · rcases hnew t (Option.mem_toList.1 ht) with ho | hfresh
          · exact .inl (List.mem_append_left _ (Option.mem_toList.2 ho))
          · exact .inr hfresh
        · rcases hnews t ht with ht | hfresh
          · exact .inl (List.mem_append_right _ ht)
          · exact .inr (Floor.no_task_of_run hg hfresh)

/-- A floor has come in a run to where a rehearsal is. -/
def IsRun (settings : Settings) (items : List (Except KeeperError WorkItem))
    (r : World × List (Standing Result)) : Prop :=
  ∃ ms f tickets, Floor.run? {} ms = some f ∧ Matches r.1 f ∧ Staged settings r.1 f items r.2 tickets

theorem isRun_pollAll (h : IsRun settings items (w, acts)) : IsRun settings items (pollAll w acts) := by
  obtain ⟨ms, f, tickets, hf, hm, hs⟩ := h
  obtain ⟨ns, g, tickets', hg, hmg, hsg, -, -⟩ := staged_pollAll hs hm
  exact ⟨ms ++ ns, g, tickets', (Floor.run?_append hf).trans hg, hmg, hsg⟩

/-- A floor knows of no time. -/
theorem isRun_now (h : IsRun settings items (w, acts)) (now : Nat) :
    IsRun settings items ({ w with now := now }, acts) := by
  obtain ⟨ms, f, tickets, hf, hm, hs⟩ := h
  have hm' : Matches { w with now := now } f := hm.of_alike rfl ⟨rfl, rfl⟩
  exact ⟨ms, f, tickets, hf, hm', hs.of_run hm hm' Floor.run?_nil nofun⟩

theorem isRun_runFrom (h : IsRun settings items (w, acts)) (fuel : Nat) :
    IsRun settings items (runFrom fuel w acts) :=
  @runFrom_induction _ (fun w acts => IsRun settings items (w, acts)) _ _ (fun h => isRun_pollAll h)
    (fun now h => isRun_now h now) h fuel

/-- An act that is rehearsed: a submission, the time of its start, its token, and its limit. -/
structure Booking where
  item : Except KeeperError WorkItem
  startAt : Nat := 0
  token : Token := {}
  limit : Nat

/-- The act that is booked. -/
def Booking.act (settings : Settings) (x : Booking) : Act Result :=
  .submission settings x.item x.startAt x.token x.limit

theorem staged_unstarted (settings : Settings) (w : World) (f : Floor) : ∀ bookings : List Booking,
    Staged settings w f (bookings.map Booking.item)
      (bookings.map fun x => .unstarted (x.act settings) (w.now + (x.act settings).startAt)) []
  | [] => .nil
  | x :: bookings => by
    have h : Stood settings w f x.item (.unstarted (x.act settings) (w.now + (x.act settings).startAt)) none :=
      .unstarted
    exact .cons h nofun (staged_unstarted settings w f bookings)

theorem Staged.getElem? (h : Staged settings w f items acts tickets) {i : Nat} {act : Standing Result}
    (hi : acts[i]? = some act) : ∃ item owner, items[i]? = some item ∧ Stood settings w f item act owner := by
  induction h generalizing i with
  | nil => cases hi
  | cons hs _ _ ih =>
    cases i with
    | zero =>
      cases hi
      exact ⟨_, _, rfl, hs⟩
    | succ i => exact ih hi

/-- **A rehearsal of submissions is a run of a floor.** The allocator at its end is that of the floor, and every
result of a submission that could be read is how that submission ended on the floor. -/
theorem exists_run_of_run (settings : Settings) (bookings : List Booking) (hs : w.signer.IsFaithful)
    (ha : w.allocator = {}) :
    ∃ ms f, Floor.run? {} ms = some f ∧ f.allocator = (run w (bookings.map (Booking.act settings))).1.allocator ∧
      ∀ (i : Nat) (r : Except (Verdict KeeperError) Outcome),
        (run w (bookings.map (Booking.act settings))).2[i]? = some (some (.ok r)) →
        ∃ x item t w₀ log e, bookings[i]? = some x ∧ x.item = .ok item ∧
          f.tasks.get? t = some ⟨World.brief w₀ settings item, log, .ended e⟩ ∧ shown? e = some r := by
  have hempty : Matches w {} := ⟨Submission.sound_empty, ha.symm, hs, fun _ _ => rfl⟩
  have hbegin : IsRun settings (bookings.map Booking.item)
      (w, (bookings.map (Booking.act settings)).map fun t => .unstarted t (w.now + t.startAt)) := by
    rw [List.map_map]
    exact ⟨[], {}, [], rfl, hempty, staged_unstarted ..⟩
  obtain ⟨ms, f, tickets, hf, hm, hstaged⟩ := isRun_runFrom hbegin maxMoments
  refine ⟨ms, f, hf, hm.allocator, fun i r hr => ?_⟩
  change (List.map Standing.result? _)[i]? = _ at hr
  rw [List.getElem?_map] at hr
  obtain ⟨act, hact, hres⟩ := Option.map_eq_some_iff.1 hr
  obtain ⟨item, owner, hitem, hstood⟩ := hstaged.getElem? hact
  rw [List.getElem?_map] at hitem
  obtain ⟨x, hx, hxi⟩ := Option.map_eq_some_iff.1 hitem
  cases hstood with
  | unstarted | unread | running | abandoned => cases hres
  | finished ht he =>
    cases hres
    exact ⟨x, _, _, _, _, _, hx, hxi, ht, he⟩

end Rehearsals

end OrderKeeper.Rehearsal
