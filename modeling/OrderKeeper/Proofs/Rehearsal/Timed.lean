import OrderKeeper.Proofs.Dialogue.Timed
import OrderKeeper.Proofs.Rehearsal.Moments
import OrderKeeper.Proofs.Rehearsal.Session

/-!
# Rehearsals of dialogues in time

A dialogue whose surroundings keep to conditions (`View.KeepsTo`) goes in a rehearsal as it goes in time under these
conditions: it comes to the same result at the same time, having put the same questions (`Staging.runOne_act`). The proof
follows the moments at which the time of the rehearsal stops. At each of them the dialogue stands where its timeline has
it (`View.Awaiting`), and a moment passes only for an answer that is due or for the cancellation, so that a rehearsal has
enough of them.
-/

namespace OrderKeeper.Rehearsal

open Dialogue (Conditions Put Reply Timeline)

variable {Q R α β S : Type} {A : Q → Type}

/-- A dialogue as an act that is not given up. -/
def Act.ofDialogue (d : Dialogue Q A R α) (e : (World → Bool) → Surroundings World Q A S) (finish : Except R α → β)
    (token : Token) : Act β where
  State := Course Q A R α S
  token
  begin w := (w, ⟨d, none⟩)
  poll cancelled w x :=
    let (w, p) := x.poll (e cancelled) cancelled w
    (w, mapPolled finish p)
  abandon _ w := w

/-- Whether a dialogue was cancelled from within by what came of its questions. -/
def cancelledIn (ps : List (Put Q A)) : Bool := ps.any fun p => p.reply?.any Reply.cancels

theorem cancelledIn_append (ps : List (Put Q A)) (q : Q) (t : Nat) (y : Reply (A q)) :
    cancelledIn (ps ++ [⟨q, t, some y⟩]) = (cancelledIn ps || y.cancels) := by
  simp [cancelledIn]

theorem cancelledIn_append_awaited (ps : List (Put Q A)) (q : Q) (t : Nat) :
    cancelledIn (ps ++ [⟨q, t, none⟩]) = cancelledIn ps := by
  simp [cancelledIn]

/-- How a world shows which questions have been put. -/
structure View (Q : Type) (A : Q → Type) (S : Type) where
  /-- Each of the questions has been answered. -/
  Idle : List (Put Q A) → World → Prop
  /-- After these questions, one more was put at a time, and is awaited in a state. -/
  Awaits : List (Put Q A) → (q : Q) → Nat → S → World → Prop

namespace View

/-- Surroundings that keep to conditions. -/
structure KeepsTo (v : View Q A S) (e : Surroundings World Q A S) (c : Conditions Q A) : Prop where
  idle_at {ps w} : v.Idle ps w → ∀ now, v.Idle ps { w with now := now }
  awaits_at {ps q t s w} : v.Awaits ps q t s w → ∀ now, v.Awaits ps q t s { w with now := now }
  idle_cancelled {ps w} : v.Idle ps w → w.cancelled = cancelledIn ps
  awaits_cancelled {ps q t s w} : v.Awaits ps q t s w → w.cancelled = cancelledIn ps
  begins {ps w} (q : Q) : v.Idle ps w →
    (e.begin w q).1.now = w.now ∧ v.Awaits ps q w.now (e.begin w q).2 (e.begin w q).1
  waits {ps q t s w} : v.Awaits ps q t s w → w.now < t + (c.reply q t).takes →
    ∃ s', e.poll w q s = (w, .waiting s' (some (t + (c.reply q t).takes))) ∧ v.Awaits ps q t s' w
  answers {ps q t s w} : v.Awaits ps q t s w → w.now = t + (c.reply q t).takes →
    ∃ w', e.poll w q s = (w', .ready (c.reply q t).answer) ∧ w'.now = w.now ∧
      v.Idle (ps ++ [⟨q, t, some (c.reply q t)⟩]) w'

/-- The world shows all questions of a timeline, at the time at which it ends. -/
def Ended (v : View Q A S) (x : Timeline Q A R α) (w : World) : Prop :=
  x.endedAt = w.now ∧ (v.Idle x.puts w ∨ ∃ ps q t s, x.puts = ps ++ [⟨q, t, none⟩] ∧ v.Awaits ps q t s w)

/-- A dialogue with a timeline has had `m` answers and awaits one more, which is due at the time `due`. -/
inductive Awaiting (v : View Q A S) (c : Conditions Q A) (x : Timeline Q A R α) (m due : Nat) (w : World) :
    Course Q A R α S → Prop where
  | mk {ps q t s stop next} : v.Awaits ps q t s w → ps.length = m → t + (c.reply q t).takes = due →
      stop.filter (fun _ => c.isCancelled (cancelledIn ps) t) = none →
      x = ((Dialogue.ask q stop next).timed c (cancelledIn ps) t).after ps →
      Awaiting v c x m due w ⟨.ask q stop next, some s⟩

/-- How many moments there have been by the time `now` at which a dialogue is cancelled from outside. -/
def lateness (c : Conditions Q A) (now : Nat) : Nat := if (c.cancelledBy now).isSome then 1 else 0

section

variable {c : Conditions Q A} {k now now' : Nat}

theorem lateness_of_le (hk : c.cancelAt = some k) (h : k ≤ now) : lateness c now = 1 := by
  simp [lateness, Conditions.cancelledBy, hk, h]

theorem lateness_of_lt (hk : c.cancelAt = some k) (h : now < k) : lateness c now = 0 := by
  simp [lateness, Conditions.cancelledBy, hk, h]

theorem lateness_le_one (c : Conditions Q A) (now : Nat) : lateness c now ≤ 1 := by
  unfold lateness
  split <;> omega

theorem lateness_mono (c : Conditions Q A) (h : now ≤ now') : lateness c now ≤ lateness c now' := by
  cases hk : c.cancelAt with
  | none => simp [lateness, Conditions.cancelledBy, hk]
  | some k =>
    rcases Nat.lt_or_ge now k with hlt | hle
    · simp [lateness_of_lt hk hlt]
    · simp [lateness_of_le hk hle, lateness_of_le hk (Nat.le_trans hle h)]

end

/-- What a poll shows after `n` moments: the end of the timeline, or that its next answer is awaited. -/
def Shows (v : View Q A S) (c : Conditions Q A) (x : Timeline Q A R α) (n now : Nat) :
    World × Polled (Course Q A R α S) (Except R α) → Prop
  | (w, .ready r) => w.now = now ∧ x.result = r ∧ v.Ended x w
  | (w, .waiting y wake) => w.now = now ∧
      ∃ m due, wake = some due ∧ now < due ∧ n ≤ m + lateness c now ∧ v.Awaiting c x m due w y ∧
        (y.talk.stopped? = none ∨ c.cancelledBy now = none)

section

variable {v : View Q A S} {e : Surroundings World Q A S} {c : Conditions Q A} {cancelled : World → Bool}
  {x : Timeline Q A R α} {w w' : World} {ps : List (Put Q A)} {q : Q} {stop : Option R} {next : A q → Dialogue Q A R α}
  {begun : Option S} {s : S} {t n m due : Nat} {b : Bool} {y : Course Q A R α S}

theorem Awaiting.at (h : v.Awaiting c x m due w y) (hv : v.KeepsTo e c) (now : Nat) :
    v.Awaiting c x m due { w with now := now } y := by
  cases h with
  | mk ha hm hreply hstart hx => exact .mk (hv.awaits_at ha now) hm hreply hstart hx

theorem Awaiting.le_length_puts (h : v.Awaiting c x m due w y) : m ≤ x.puts.length := by
  cases h with
  | mk ha hm hreply hstart hx =>
    rw [hx, Timeline.puts_after, List.length_append, ← hm]
    exact Nat.le_add_right ..

/-! ## Polls -/

theorem cancelledBy_eq_none_of_filter (h : stop.filter (fun _ => c.isCancelled b t) = none) :
    stop = none ∨ c.cancelledBy t = none := by
  cases stop with
  | none => exact .inl rfl
  | some r =>
    have hlive : c.isCancelled b t = false := by simpa using h
    exact .inr (Conditions.isCancelled_eq_false.1 hlive).2

/-- A question that has been put and is not stopped is answered, and the dialogue goes on, or it is awaited. -/
theorem shows_put (hv : v.KeepsTo e c)
    (hnext : ∀ a ps w, v.Idle ps w → n ≤ ps.length + lateness c w.now →
      x = ((next a).timed c (cancelledIn ps) w.now).after ps →
      v.Shows c x n w.now ((next a).poll e cancelled none w))
    (hput : Dialogue.put e w q begun = (w', s)) (hnow : w'.now = w.now) (ha : v.Awaits ps q t s w')
    (hgoes : stop.filter (fun _ => cancelled w) = none) (hlive : stop = none ∨ c.cancelledBy w.now = none)
    (hstart : stop.filter (fun _ => c.isCancelled (cancelledIn ps) t) = none)
    (hx : x = ((Dialogue.ask q stop next).timed c (cancelledIn ps) t).after ps)
    (hlate : w.now ≤ t + (c.reply q t).takes)
    (hn : n ≤ ps.length + (if t + (c.reply q t).takes ≤ w.now then 1 else 0) + lateness c w.now) :
    v.Shows c x n w.now ((Dialogue.ask q stop next).poll e cancelled begun w) := by
  rcases Nat.lt_or_eq_of_le hlate with hearly | hdue
  · obtain ⟨s', hpoll, ha'⟩ := hv.waits ha (hnow ▸ hearly)
    rw [Dialogue.poll_of_waiting hgoes (by rw [hput]; exact hpoll)]
    rw [if_neg (Nat.not_le.2 hearly)] at hn
    exact ⟨hnow, ps.length, _, rfl, hearly, hn, .mk ha' rfl rfl hstart hx, hlive⟩
  · obtain ⟨w'', hpoll, hnow', hidle⟩ := hv.answers ha (hnow.trans hdue)
    rw [Dialogue.poll_of_ready hgoes (by rw [hput]; exact hpoll)]
    rw [if_pos (Nat.le_of_eq hdue.symm)] at hn
    rw [Dialogue.timed_of_answer hstart (hdue ▸ hlive), Timeline.after_after, ← cancelledIn_append, ← hdue,
      ← hnow, ← hnow'] at hx
    have hshows := hnext _ _ w'' hidle (by rw [List.length_append, hnow', hnow]; exact hn) hx
    rwa [hnow', hnow] at hshows

/-- A dialogue that puts its next question now. -/
theorem shows_idle (hv : v.KeepsTo e c) (hcancelled : ∀ w, cancelled w = c.isCancelled w.cancelled w.now)
    (d : Dialogue Q A R α) (hidle : v.Idle ps w) (hn : n ≤ ps.length + lateness c w.now)
    (hx : x = (d.timed c (cancelledIn ps) w.now).after ps) : v.Shows c x n w.now (d.poll e cancelled none w) := by
  induction d generalizing ps w with
  | done a =>
    subst hx
    exact ⟨rfl, rfl, rfl, .inl (by simpa [Dialogue.timed] using hidle)⟩
  | ask q stop next ih =>
    have hnow : cancelled w = c.isCancelled (cancelledIn ps) w.now := by rw [hcancelled, hv.idle_cancelled hidle]
    cases hstop : stop.filter fun _ => cancelled w with
    | some r =>
      rw [Dialogue.poll_of_stop hstop]
      rw [hnow] at hstop
      rw [Dialogue.timed_of_stop hstop] at hx
      subst hx
      exact ⟨rfl, rfl, rfl, .inl (by simpa using hidle)⟩
    | none =>
      obtain ⟨hbegun, ha⟩ := hv.begins q hidle
      have hstart : stop.filter (fun _ => c.isCancelled (cancelledIn ps) w.now) = none := hnow ▸ hstop
      exact shows_put hv (fun a ps w hidle hn hx => ih a hidle hn hx) rfl hbegun ha hstop
        (cancelledBy_eq_none_of_filter hstart) hstart hx (Nat.le_add_right ..) (by omega)

/-- A dialogue that is polled before or at the time at which its answer is due, and not after its cancellation. -/
theorem shows_awaiting (hv : v.KeepsTo e c) (hcancelled : ∀ w, cancelled w = c.isCancelled w.cancelled w.now)
    (h : v.Awaiting c x m due w y) (hdue : w.now ≤ due)
    (hlate : y.talk.stopped? = none ∨ ∀ k ∈ c.cancelAt, w.now ≤ k)
    (hn : n ≤ m + (if due ≤ w.now then 1 else 0) + lateness c w.now) :
    v.Shows c x n w.now (y.poll e cancelled w) := by
  cases h with
  | @mk ps q t s stop next ha hm hreply hstart hx =>
    have hnow : cancelled w = c.isCancelled (cancelledIn ps) w.now := by rw [hcancelled, hv.awaits_cancelled ha]
    subst hm hreply
    rw [Course.poll]
    cases hstop : stop.filter fun _ => cancelled w with
    | some r =>
      obtain ⟨rfl, hstopped⟩ := Option.filter_eq_some_iff.1 hstop
      rw [Dialogue.poll_of_stop hstop]
      have hlive : c.isCancelled (cancelledIn ps) t = false := by simpa using hstart
      -- it was not cancelled when the question was put, so the cancellation is that of this moment
      have hcut : c.cancelledBy (t + (c.reply q t).takes) = some w.now := by
        rw [hnow, Conditions.isCancelled_iff, (Conditions.isCancelled_eq_false.1 hlive).1] at hstopped
        obtain ⟨k, hk, hle⟩ := hstopped.resolve_left Bool.false_ne_true
        obtain rfl : k = w.now := Nat.le_antisymm hle (hlate.resolve_left (Option.some_ne_none r) k hk)
        exact Conditions.cancelledBy_eq_some.2 ⟨hk, hdue⟩
      rw [Dialogue.timed_of_cut hlive hcut] at hx
      subst hx
      exact ⟨rfl, rfl, rfl, .inr ⟨ps, q, t, s, rfl, ha⟩⟩
    | none =>
      have hlive : stop.filter (fun _ => c.isCancelled (cancelledIn ps) w.now) = none := hnow ▸ hstop
      exact shows_put hv (fun a ps w hidle hn hx => shows_idle hv hcancelled _ hidle hn hx) rfl rfl ha hstop
        (cancelledBy_eq_none_of_filter hlive) hstart hx hdue hn

end

end View

/-! ## Moments -/

/-- A dialogue that is rehearsed from the time `start` on. -/
structure Staging (Q : Type) (A : Q → Type) (R α β S : Type) where
  talk : Dialogue Q A R α
  surroundings : (World → Bool) → Surroundings World Q A S
  finish : Except R α → β
  token : Token
  start : Nat
  view : View Q A S
  reply : (q : Q) → Nat → Reply (A q)

namespace Staging

/-- The dialogue as an act. -/
def act (g : Staging Q A R α β S) : Act β := .ofDialogue g.talk g.surroundings g.finish g.token

/-- What the dialogue meets. -/
def conditions (g : Staging Q A R α β S) : Conditions Q A := ⟨g.reply, g.token.after?.map (g.start + ·)⟩

/-- The dialogue in time. -/
def timeline (g : Staging Q A R α β S) : Timeline Q A R α := g.talk.timed g.conditions false g.start

/-- Whether the dialogue is cancelled. -/
def cancelled (g : Staging Q A R α β S) : World → Bool := g.token.isCancelled g.start

theorem cancelled_eq (g : Staging Q A R α β S) (w : World) :
    g.cancelled w = g.conditions.isCancelled w.cancelled w.now := by
  cases hafter : g.token.after? <;>
    simp [cancelled, Token.isCancelled, Conditions.isCancelled, Conditions.cancelledBy, conditions, hafter,
      Option.isSome_filter]

/-- Where the act stands after `n` moments when it is about to be polled. What it waits for is not overdue. -/
inductive Before (g : Staging Q A R α β S) : Nat → World → Standing β → Prop where
  | unstarted {w} : w.now = g.start → g.view.Idle [] w → Before g 0 w (.unstarted g.act g.start)
  | running {n m due w y} : g.view.Awaiting g.conditions g.timeline m due w y → w.now ≤ due →
      (y.talk.stopped? = none ∨ ∀ k ∈ g.conditions.cancelAt, w.now ≤ k) →
      n ≤ m + (if due ≤ w.now then 1 else 0) + View.lateness g.conditions w.now →
      Before g n w (.running g.act g.start y (some due))
  | finished {n w} : g.view.Ended g.timeline w → Before g n w (.finished (g.finish g.timeline.result))

/-- Where the act stands after `n` moments when it has been polled. -/
inductive After (g : Staging Q A R α β S) : Nat → World → Standing β → Prop where
  | running {n m due w y} : g.view.Awaiting g.conditions g.timeline m due w y → w.now < due →
      (y.talk.stopped? = none ∨ g.conditions.cancelledBy w.now = none) →
      n ≤ m + View.lateness g.conditions w.now → After g n w (.running g.act g.start y (some due))
  | finished {n w} : g.view.Ended g.timeline w → After g n w (.finished (g.finish g.timeline.result))

variable {g : Staging Q A R α β S} {w : World} {n m due t : Nat} {y : Course Q A R α S} {s : Standing β}

/-- A poll of the act leaves it where its dialogue shows that it stands. -/
theorem after_pollRunning (h : g.view.Shows g.conditions g.timeline n w.now
    (y.poll (g.surroundings g.cancelled) g.cancelled w)) :
    g.After n (Standing.pollRunning g.act g.start y w).1 (Standing.pollRunning g.act g.start y w).2 := by
  cases hp : y.poll (g.surroundings g.cancelled) g.cancelled w with
  | mk w' p =>
    have hact : g.act.poll (g.act.token.isCancelled g.start) w y = (w', mapPolled g.finish p) := by
      change (Prod.fst (y.poll (g.surroundings g.cancelled) g.cancelled w),
        mapPolled g.finish (Prod.snd (y.poll (g.surroundings g.cancelled) g.cancelled w))) = _
      rw [hp]
    rw [hp] at h
    cases p with
    | ready r =>
      obtain ⟨-, rfl, hended⟩ := h
      rw [pollRunning_of_ready hact]
      exact .finished hended
    | waiting y' wake =>
      obtain ⟨hnow, m, due, rfl, hdue, hn, ha, hlive⟩ := h
      rw [pollRunning_of_waiting hact]
      rw [← hnow] at hdue hn hlive
      exact .running ha hdue hlive hn

theorem after_poll (hv : g.view.KeepsTo (g.surroundings g.cancelled) g.conditions) (h : g.Before n w s) :
    g.After n (s.poll w).1 (s.poll w).2 := by
  cases h with
  | unstarted hstart hidle =>
    rw [Standing.poll, if_pos (Nat.le_of_eq hstart.symm)]
    have hx : g.timeline = (g.talk.timed g.conditions (cancelledIn ([] : List (Put Q A))) w.now).after [] := by
      rw [hstart]
      rfl
    exact after_pollRunning (View.shows_idle hv g.cancelled_eq g.talk hidle (Nat.zero_le _) hx)
  | running ha hdue hlate hn => exact after_pollRunning (View.shows_awaiting hv g.cancelled_eq ha hdue hlate hn)
  | finished hended => exact .finished hended

theorem before_of_after (h : g.After n w s) : g.Before n w s := by
  cases h with
  | finished hended => exact .finished hended
  | running ha hdue hlive hn =>
    refine .running ha (Nat.le_of_lt hdue) ?_ (by omega)
    exact hlive.imp_right fun hnone k hk => Nat.le_of_lt (Conditions.cancelledBy_eq_none.1 hnone k hk)

theorem wake_running (hdue : w.now < due) : (Standing.running g.act g.start y (some due)).wake w.now =
    earlier (some due) (g.conditions.cancelAt.filter (w.now < ·)) := by
  have hlater : (some due).filter (fun t => decide (w.now < t)) = some due := by simpa using hdue
  have hnone (a : Option Nat) : earlier none a = a := by cases a <;> rfl
  simp only [Standing.wake, hlater]
  exact congrArg _ (hnone _)

/-- An act that waits wakes for its answer or for its cancellation, whichever comes first. -/
theorem of_wake_running (hdue : w.now < due)
    (ht : (Standing.running g.act g.start y (some due)).wake w.now = some t) :
    w.now < t ∧ t ≤ due ∧ (∀ k ∈ g.conditions.cancelAt, w.now < k → t ≤ k) ∧
      (t = due ∨ g.conditions.cancelAt = some t) := by
  rw [wake_running hdue] at ht
  cases hk : g.conditions.cancelAt with
  | none =>
    rw [hk] at ht
    cases ht
    exact ⟨hdue, Nat.le_refl _, nofun, .inl rfl⟩
  | some k =>
    by_cases hlater : w.now < k
    · rw [hk, Option.filter_some, if_pos (decide_eq_true hlater)] at ht
      have hmin : min due k = t := Option.some.inj ht
      refine ⟨?_, ?_, ?_, ?_⟩
      · omega
      · omega
      · rintro _ ⟨⟩ -
        omega
      · rw [Option.some.injEq]
        omega
    · rw [hk, Option.filter_some, if_neg (by simpa using hlater)] at ht
      cases ht
      refine ⟨hdue, Nat.le_refl _, ?_, .inl rfl⟩
      rintro _ ⟨⟩ hlater'
      exact absurd hlater' hlater

/-- The act is not polled too late: it stands still while the time moves to where it wakes. -/
theorem before_wake (hv : g.view.KeepsTo (g.surroundings g.cancelled) g.conditions) (h : g.After n w s)
    (ht : s.wake w.now = some t) : g.Before (n + 1) { w with now := max t w.now } s := by
  cases h with
  | finished hended => cases ht
  | running ha hdue hlive hn =>
    rename_i m due y
    obtain ⟨hnow, htdue, hcancel, hreason⟩ := of_wake_running hdue ht
    rw [Nat.max_eq_left (Nat.le_of_lt hnow)]
    refine .running (ha.at hv t) htdue ?_ ?_
    · refine hlive.imp_right fun hnone k hk => hcancel k hk (Conditions.cancelledBy_eq_none.1 hnone k hk)
    · change n + 1 ≤ m + (if due ≤ t then 1 else 0) + View.lateness g.conditions t
      rcases hreason with rfl | hk
      · have := View.lateness_mono g.conditions (Nat.le_of_lt hnow)
        rw [if_pos (Nat.le_refl _)]
        omega
      · rw [View.lateness_of_lt hk hnow] at hn
        rw [View.lateness_of_le hk (Nat.le_refl _)]
        omega

theorem keeps_before (hv : g.view.KeepsTo (g.surroundings g.cancelled) g.conditions) : Keeps g.Before g.After where
  poll := after_poll hv
  again := before_of_after
  wake := before_wake hv

/-- **A rehearsal of a dialogue is the dialogue in time.** There are enough moments for it, as every question takes one,
and the cancellation one more. -/
theorem runOne_act (hv : g.view.KeepsTo (g.surroundings g.cancelled) g.conditions) (hstart : w.now = g.start)
    (hidle : g.view.Idle [] w) (hmoments : g.timeline.puts.length + 2 < maxMoments) :
    (runOne w g.act).2 = some (g.finish g.timeline.result) ∧ g.view.Ended g.timeline (runOne w g.act).1 := by
  have hbefore : g.Before 0 w (.unstarted g.act g.start) := .unstarted hstart hidle
  obtain ⟨n, s, hs, hend⟩ := (keeps_before hv).runFrom hbefore maxMoments
  have hact : (runOne w g.act).2 = s.result? := by
    change ((runFrom maxMoments w [.unstarted g.act (w.now + 0)]).2.map Standing.result?).head?.join = _
    rw [Nat.add_zero, hstart, hs]
    rfl
  have hworld : (runOne w g.act).1 = (runFrom maxMoments w [.unstarted g.act g.start]).1 := by
    rw [← hstart]
    rfl
  rw [hact, hworld]
  generalize (runFrom maxMoments w [.unstarted g.act g.start]).1 = w' at hend ⊢
  rcases hend with ⟨hn, hb⟩ | ⟨ha, hover⟩
  · -- all moments have passed, which are more than the dialogue needs
    rw [Nat.zero_add] at hn
    subst hn
    cases hb with
    | finished hended => exact ⟨rfl, hended⟩
    | running ha _ _ hn =>
      have hm := ha.le_length_puts
      have hlate := View.lateness_le_one g.conditions w'.now
      split at hn <;> omega
  · cases ha with
    | finished hended => exact ⟨rfl, hended⟩
    | running ha hdue _ _ =>
      obtain hover | hwake := hover
      · cases hover
      · rw [wake_running hdue] at hwake
        obtain ⟨t, ht, -⟩ := earlier_le_left (Option.mem_some_self _) (g.conditions.cancelAt.filter (w'.now < ·))
        rw [hwake] at ht
        cases ht

end Staging

end OrderKeeper.Rehearsal
