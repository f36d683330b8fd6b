import OrderKeeper.Proofs.Receipt.Watch
import OrderKeeper.Proofs.Rehearsal.Moments
import OrderKeeper.Proofs.Rehearsal.Session

/-!
# Rehearsals of watches

A rehearsal jumps from one moment to the next at which something can go on; a watch in time (`Watch.after`) takes one
step after the other. Under the conditions that the ledger's script and the token lay down (`Outset.conditions`) they
are the same: the result, the time of the end and the log of a rehearsed watch are those of its course
(`Outset.course_of_runOne`), so what is true of every watch in time is true of every rehearsal.
-/

namespace OrderKeeper

theorem Watch.answer_ne_looking (w : Watch) (polls n : Nat) (a : Except Fault (Option Receipt)) :
    w.answer polls a ≠ .looking n := by
  rw [answer]
  cases Receipt.judge w.hash a with
  | error e => simp
  | ok receipt =>
    cases receipt with
    | some r => simp
    | none =>
      dsimp only
      split <;> simp

namespace Rehearsal

/-- How many look-ups a ledger has counted. -/
def Ledger.lookups (l : Ledger) : Nat := (l.calls.get? .receipt).getD 0

theorem Ledger.lookups_begin (l : Ledger) (hash : Hash) : (l.begin (.receipt hash)).1.lookups = l.lookups + 1 := by
  simp only [lookups, begin, methodOf, Table.get?_set_self, Option.getD_some]

/-- How the rehearsal of a watch begins: there is a ledger, nothing is cancelled yet, and two look-ups are some time
apart. -/
structure Outset where
  chain : ChainInfo
  watch : Watch
  token : Token
  world : World
  ledger : Ledger
  present : world.ledgers.get? chain.network = some ledger
  calm : world.cancelled = false
  paced : 0 < watch.interval.toNat

namespace Outset

variable {o : Outset} {w : World} {times : List Nat} {polls ready number k : Nat}

/-- The place of the watch. -/
def place (o : Outset) : Place := ⟨o.chain, 0⟩

/-- The time at which the token cancels the watch. -/
def cancelAt (o : Outset) : Option Nat := o.token.after?.map (o.world.now + ·)

/-- What the watch meets. -/
def conditions (o : Outset) : Watch.Conditions where
  reply polls begun :=
    let number := o.ledger.lookups + polls + 1
    let delay := o.ledger.delay number (.receipt o.watch.hash)
    (delay, o.ledger.reply (begun + delay) number (.receipt o.watch.hash))
  cancelAt := o.cancelAt

/-- The watch in time. -/
def course (o : Outset) (k : Nat) : Watch.Course := o.watch.after o.conditions o.world.now k

/-! ## Look-ups at the ledger -/

/-- Look-ups have been begun at some times, and nothing else was done. -/
structure Looked (o : Outset) (times : List Nat) (w : World) : Prop where
  log : w.log = (times.map fun t => (t, .ledger o.chain.chainId (.receipt o.watch.hash))).reverse ++ o.world.log
  calm : w.cancelled = false
  ledger : ∃ l, w.ledgers.get? o.chain.network = some l ∧ l = { o.ledger with calls := l.calls } ∧
    l.lookups = o.ledger.lookups + times.length

theorem looked_nil (o : Outset) : o.Looked [] o.world := ⟨rfl, o.calm, o.ledger, o.present, rfl, rfl⟩

/-- What was looked up does not depend on the time. -/
theorem Looked.at (h : o.Looked times w) (now : Nat) : o.Looked times { w with now := now } :=
  ⟨h.log, h.calm, h.ledger⟩

/-- A look-up is begun. -/
theorem Looked.beginCall (h : o.Looked times w) :
    ∃ w', o.place.beginCall w (.receipt o.watch.hash) =
        (w', w.now + (o.conditions.reply times.length w.now).1, o.ledger.lookups + times.length + 1) ∧
      w'.now = w.now ∧ o.Looked (times ++ [w.now]) w' := by
  obtain ⟨l, hl, hsame, hcount⟩ := h.ledger
  have hnumber : (l.begin (.receipt o.watch.hash)).2 = o.ledger.lookups + times.length + 1 := congrArg (· + 1) hcount
  have hdelay (number : Nat) : (l.begin (.receipt o.watch.hash)).1.delay number (.receipt o.watch.hash) =
      o.ledger.delay number (.receipt o.watch.hash) := by
    rw [hsame]
    rfl
  have hbegin : o.place.beginCall w (.receipt o.watch.hash) =
      ({ w.write (.ledger o.chain.chainId (.receipt o.watch.hash)) with
        ledgers := w.ledgers.set o.chain.network (l.begin (.receipt o.watch.hash)).1 },
        w.now + (o.conditions.reply times.length w.now).1, o.ledger.lookups + times.length + 1) := by
    rw [Place.beginCall]
    simp only [place, World.write, hl, hnumber, hdelay, conditions]
  refine ⟨_, hbegin, rfl, ?_, h.calm, (l.begin (.receipt o.watch.hash)).1, Table.get?_set_self .., ?_, ?_⟩
  · simp [World.write, h.log]
  · conv_lhs => rw [hsame]
    rfl
  · rw [Ledger.lookups_begin, hcount]
    simp [Nat.add_assoc]

/-- A look-up has its answer when the time of the answer has come. -/
theorem Looked.replyTo (h : o.Looked times w) {begun : Nat}
    (hnow : w.now = begun + (o.conditions.reply polls begun).1) :
    o.place.replyTo w (o.ledger.lookups + polls + 1) (.receipt o.watch.hash) = (o.conditions.reply polls begun).2 := by
  obtain ⟨l, hl, hsame, -⟩ := h.ledger
  simp only [Place.replyTo, place, hl]
  rw [hsame, hnow]
  rfl

/-! ## Polls of the watch -/

/-- The times at which the look-ups of the course were begun. -/
def begun (o : Outset) (k : Nat) : List Nat := (o.course k).looks.map (·.begun)

/-- A time comes before the watch is cancelled. -/
def Early (o : Outset) (t : Nat) : Prop := ∀ c ∈ o.cancelAt, t < c

/-- What the rehearsal waits for, and until when, while the watch in time stands where it does after `k` steps. -/
inductive Waits (o : Outset) (k : Nat) (w : World) : Wait → Nat → Prop where
  | look {polls ready : Nat} : (o.course k).state = .looking polls → o.Early (o.course k).now →
      o.Looked (o.begun k ++ [(o.course k).now]) w →
      ready = (o.course k).now + (o.conditions.reply polls (o.course k).now).1 →
      o.Waits k w (.look polls ready (o.ledger.lookups + polls + 1)) ready
  | rest {polls ready : Nat} : (o.course k).state = .pausing polls → o.Looked (o.begun k) w →
      ready = (o.course k).now + o.watch.interval.toNat → o.Waits k w (.rest polls ready) ready

/-- The watch in time has ended with a result, at the time of the world. -/
def Ends (o : Outset) (w : World) (r : Except WaitFailure Receipt) : Prop :=
  ∃ k, (o.course k).state = .ended r ∧ (o.course k).now = w.now ∧ o.Looked (o.begun k) w

/-- What a poll shows is where the watch in time stands at some step: it has ended, or it waits for what is to come. -/
def Shows (o : Outset) (now : Nat) : World × Polled Wait (Except WaitFailure Receipt) → Prop
  | (w, .ready r) => w.now = now ∧ o.Ends w r
  | (w, .waiting s wake) => w.now = now ∧
      ∃ k ready, o.Waits k w s ready ∧ wake = some ready ∧ (o.course k).now ≤ w.now ∧ w.now < ready

theorem Waits.calm {s : Wait} (h : o.Waits k w s ready) : w.cancelled = false := by
  cases h with
  | look _ _ hlooked _ => exact hlooked.calm
  | rest _ hlooked _ => exact hlooked.calm

theorem cancelledBy_eq_none {t : Nat} (h : o.Early t) : o.conditions.cancelledBy t = none := by
  cases hc : o.cancelAt with
  | none => simp [Watch.Conditions.cancelledBy, conditions, hc]
  | some c =>
    have := h c hc
    simp [Watch.Conditions.cancelledBy, conditions, hc]
    omega

/-- The watch in time gets its answer. -/
theorem course_answer (hx : (o.course k).state = .looking polls)
    (hready : ready = (o.course k).now + (o.conditions.reply polls (o.course k).now).1)
    (hearly : o.Early (o.course k).now) (hwhile : o.Early ready) :
    o.course (k + 1) = ⟨ready, (o.course k).looks ++
      [⟨(o.course k).now, some (ready, (o.conditions.reply polls (o.course k).now).2)⟩],
      o.watch.answer polls (o.conditions.reply polls (o.course k).now).2⟩ := by
  subst hready
  rw [course, Watch.after, ← course, Watch.step, hx]
  simp only [cancelledBy_eq_none hearly, cancelledBy_eq_none hwhile]

/-- The watch in time pauses no longer. -/
theorem course_wake (hx : (o.course k).state = .pausing polls)
    (hwhile : o.Early ((o.course k).now + o.watch.interval.toNat)) :
    o.course (k + 1) = ⟨(o.course k).now + o.watch.interval.toNat, (o.course k).looks, .looking polls⟩ := by
  rw [course, Watch.after, ← course, Watch.step, hx]
  simp only [cancelledBy_eq_none hwhile, Watch.wake]

theorem length_begun (hx : (o.course k).state = .looking polls) : (o.begun k).length = polls := by
  have hgoes := Watch.goes_after o.watch o.conditions o.world.now k
  rw [Watch.Course.Goes, ← course, hx] at hgoes
  rw [begun, List.length_map]
  exact hgoes.1.count

/-- A look-up that is under way. -/
theorem shows_look (fuel : Nat) (hx : (o.course k).state = .looking polls)
    (hlooked : o.Looked (o.begun k ++ [(o.course k).now]) w)
    (hready : ready = (o.course k).now + (o.conditions.reply polls (o.course k).now).1)
    (hearly : o.Early w.now) (hle : (o.course k).now ≤ w.now) (hlate : w.now ≤ ready) :
    o.Shows w.now (o.place.pollWatch o.watch (fuel + 2) w (.look polls ready (o.ledger.lookups + polls + 1))) := by
  have hbefore : o.Early (o.course k).now := fun c hc => Nat.lt_of_le_of_lt hle (hearly c hc)
  rw [Place.pollWatch]
  split
  · rename_i hdue
    obtain rfl : w.now = ready := Nat.le_antisymm hlate hdue
    have hstep := course_answer hx hready hbefore hearly
    have hbegun : o.begun (k + 1) = o.begun k ++ [(o.course k).now] := by
      rw [begun, hstep]
      simp [begun]
    rw [← hbegun] at hlooked
    rw [hlooked.replyTo hready]
    split
    · rename_i r hr
      exact ⟨rfl, ⟨k + 1, by rw [hstep, hr], by rw [hstep], hlooked⟩⟩
    · rename_i polls' hr
      have hpausing : (o.course (k + 1)).state = .pausing polls' := by rw [hstep, hr]
      have hnow : (o.course (k + 1)).now = w.now := by rw [hstep]
      have hpaced := o.paced
      rw [Place.pollWatch, if_neg (by omega)]
      exact ⟨rfl, k + 1, _, .rest hpausing hlooked (by rw [hnow]), rfl, hnow.le, by omega⟩
    · rename_i n hr
      exact absurd hr (Watch.answer_ne_looking _ _ _ _)
  · rename_i hdue
    exact ⟨rfl, k, ready, .look hx hbefore hlooked hready, rfl, hle, by omega⟩

/-- A look-up that begins now. -/
theorem shows_begin (fuel : Nat) (hx : (o.course k).state = .looking polls) (hlooked : o.Looked (o.begun k) w)
    (hearly : o.Early w.now) (hnow : (o.course k).now = w.now) (hdue : ready ≤ w.now) :
    o.Shows w.now (o.place.pollWatch o.watch (fuel + 3) w (.rest polls ready)) := by
  obtain ⟨w', hbegin, hnow', hlooked'⟩ := hlooked.beginCall
  rw [length_begun hx] at hbegin
  rw [Place.pollWatch, if_pos hdue, hbegin, ← hnow']
  rw [← hnow'] at hearly hnow
  refine shows_look fuel hx ?_ ?_ hearly hnow.le (Nat.le_add_right ..)
  · rw [hnow, hnow']
    exact hlooked'
  · rw [hnow]

/-- A pause. -/
theorem shows_rest (fuel : Nat) (hx : (o.course k).state = .pausing polls) (hlooked : o.Looked (o.begun k) w)
    (hready : ready = (o.course k).now + o.watch.interval.toNat) (hearly : o.Early w.now)
    (hle : (o.course k).now ≤ w.now) (hlate : w.now ≤ ready) :
    o.Shows w.now (o.place.pollWatch o.watch (fuel + 3) w (.rest polls ready)) := by
  by_cases hdue : ready ≤ w.now
  · have hnow : w.now = (o.course k).now + o.watch.interval.toNat := (Nat.le_antisymm hlate hdue).trans hready
    have hstep := course_wake hx (hnow ▸ hearly)
    have hlooked' : o.Looked (o.begun (k + 1)) w := by
      rw [begun, hstep]
      exact hlooked
    exact shows_begin fuel (by rw [hstep]) hlooked' hearly (by rw [hstep, hnow]) hdue
  · rw [Place.pollWatch, if_neg hdue]
    exact ⟨rfl, k, ready, .rest hx hlooked hready, rfl, hle, by omega⟩

/-- A watch that waits is polled before it is cancelled. -/
theorem shows_of_waits {s : Wait} (h : o.Waits k w s ready) (hearly : o.Early w.now) (hle : (o.course k).now ≤ w.now)
    (hlate : w.now ≤ ready) : o.Shows w.now (o.place.pollWatch o.watch Place.watchFuel w s) := by
  have hfuel : Place.watchFuel = 1999997 + 3 := rfl
  rw [hfuel]
  cases h with
  | look hx _ hlooked hready => exact shows_look _ hx hlooked hready hearly hle hlate
  | rest hx hlooked hready => exact shows_rest _ hx hlooked hready hearly hle hlate

theorem cancelledBy_eq_some {c t : Nat} (hc : o.cancelAt = some c) (h : c ≤ t) :
    o.conditions.cancelledBy t = some c := by
  simp [Watch.Conditions.cancelledBy, conditions, hc, h]

/-- A watch that waits is cancelled. -/
theorem ends_of_waits {s : Wait} (h : o.Waits k w s ready) (hc : o.cancelAt = some w.now)
    (hle : (o.course k).now ≤ w.now) (hlate : w.now ≤ ready) : o.Ends w o.watch.cancelled := by
  refine ⟨k + 1, ?_⟩
  cases h with
  | @look polls _ hx hbefore hlooked hready =>
    have hstep : o.course (k + 1) =
        ⟨w.now, (o.course k).looks ++ [⟨(o.course k).now, none⟩], .ended o.watch.cancelled⟩ := by
      rw [course, Watch.after, ← course, Watch.step, hx]
      simp only [cancelledBy_eq_none hbefore, cancelledBy_eq_some hc (hready ▸ hlate)]
    rw [begun, hstep]
    refine ⟨rfl, rfl, ?_⟩
    simpa [begun] using hlooked
  | @rest polls _ hx hlooked hready =>
    have hstep : o.course (k + 1) = ⟨w.now, (o.course k).looks, .ended o.watch.cancelled⟩ := by
      rw [course, Watch.after, ← course, Watch.step, hx]
      simp only [cancelledBy_eq_some hc (hready ▸ hlate), Nat.max_eq_left hle]
    rw [begun, hstep]
    exact ⟨rfl, rfl, hlooked⟩

/-! ## The rehearsal -/

/-- The watch as an act. -/
def act (o : Outset) (limit : Nat) : Act (Except WaitFailure Receipt) := .watch o.chain o.watch o.token limit

/-- The watch as a dialogue. -/
def talk (o : Outset) : Dialogue Submission.Question Submission.Question.Answer (Except WaitFailure Receipt)
    (Except WaitFailure Receipt) :=
  .ask (.watch o.watch) (some o.watch.cancelled) .done

variable {limit : Nat}

/-- The act and the watch in time stand at the same point, and nothing that either waits for is overdue. -/
inductive Runs (o : Outset) (limit : Nat) : World → Standing (Except WaitFailure Receipt) → Prop where
  | unstarted : o.Runs limit o.world (.unstarted (o.act limit) o.world.now)
  | running {w : World} {k ready : Nat} {s : Wait} : o.Waits k w s ready → (o.course k).now ≤ w.now → w.now ≤ ready →
      (∀ c ∈ o.cancelAt, w.now ≤ c) →
      o.Runs limit w (.running (o.act limit) o.world.now ⟨o.talk, some s⟩ (some ready))
  | finished {w : World} {r : Except WaitFailure Receipt} : o.Ends w r → o.Runs limit w (.finished r)
  | abandoned {w : World} : o.Runs limit w .abandoned

/-- The act runs, and does so still when the time has moved to where it can go on. -/
def Rests (o : Outset) (limit : Nat) (w : World) (s : Standing (Except WaitFailure Receipt)) : Prop :=
  o.Runs limit w s ∧ ∀ t, s.wake w.now = some t → o.Runs limit { w with now := max t w.now } s

/-- The token cancels at its time and after. -/
theorem isCancelled_iff (hcalm : w.cancelled = false) :
    o.token.isCancelled o.world.now w = true ↔ ∃ c ∈ o.cancelAt, c ≤ w.now := by
  cases hc : o.token.after? <;> simp [Token.isCancelled, hcalm, cancelAt, hc]

/-- An act that waits wakes no later than its token cancels it and than the answer that it waits for. -/
theorem wake_le {state : (o.act limit).State} {t : Nat}
    (ht : (Standing.running (o.act limit) o.world.now state (some ready)).wake w.now = some t) (hlate : w.now < ready)
    (hearly : o.Early w.now) : t ≤ ready ∧ ∀ c ∈ o.cancelAt, t ≤ c := by
  have first {x : Nat} (h : ∃ y, (Standing.running (o.act limit) o.world.now state (some ready)).wake w.now = some y ∧
      y ≤ x) : t ≤ x := by
    obtain ⟨y, hy, hle⟩ := h
    rw [ht] at hy
    cases hy
    exact hle
  refine ⟨first (earlier_le_left (Option.mem_filter_iff.2 ⟨rfl, by simpa using hlate⟩) _), fun c hc => first ?_⟩
  have hlater : c ∈ (o.cancelAt.filter (w.now < ·)) := Option.mem_filter_iff.2 ⟨hc, by simpa using hearly c hc⟩
  obtain ⟨y, hy, hyc⟩ := earlier_le_right (((o.act limit).limit.map (o.world.now + ·)).filter (w.now < ·)) hlater
  obtain ⟨x, hx, hxy⟩ := earlier_le_right ((some ready).filter (w.now < ·)) hy
  exact ⟨x, hx, hxy.trans hyc⟩

theorem Waits.at {s : Wait} (h : o.Waits k w s ready) (now : Nat) : o.Waits k { w with now := now } s ready := by
  cases h with
  | look hx hbefore hlooked hready => exact .look hx hbefore (hlooked.at now) hready
  | rest hx hlooked hready => exact .rest hx (hlooked.at now) hready

/-- A watch that waits for what is to come rests. -/
theorem rests_of_waits {s : Wait} (h : o.Waits k w s ready) (hle : (o.course k).now ≤ w.now) (hlate : w.now < ready)
    (hearly : o.Early w.now) : o.Rests limit w (.running (o.act limit) o.world.now ⟨o.talk, some s⟩ (some ready)) := by
  refine ⟨.running h hle hlate.le fun c hc => (hearly c hc).le, fun t ht => ?_⟩
  obtain ⟨hready, hcancel⟩ := wake_le ht hlate hearly
  refine .running (h.at _) (hle.trans (Nat.le_max_right ..)) (Nat.max_le.2 ⟨hready, hlate.le⟩) fun c hc => ?_
  exact Nat.max_le.2 ⟨hcancel c hc, (hearly c hc).le⟩

theorem rests_finished {r : Except WaitFailure Receipt} (h : o.Ends w r) : o.Rests limit w (.finished r) :=
  ⟨.finished h, fun _ ht => by cases ht⟩

theorem rests_abandoned (o : Outset) (limit : Nat) (w : World) : o.Rests limit w .abandoned :=
  ⟨.abandoned, fun _ ht => by cases ht⟩

/-- The act shows what its dialogue shows, whether that has come to its end or was cancelled. -/
theorem poll_act_ready {begun : Option Wait} {w' : World} {r : Except WaitFailure Receipt}
    (h : o.talk.poll o.place.submission (o.token.isCancelled o.world.now) begun w = (w', .ready (.ok r)) ∨
      o.talk.poll o.place.submission (o.token.isCancelled o.world.now) begun w = (w', .ready (.error r))) :
    (o.act limit).poll ((o.act limit).token.isCancelled o.world.now) w ⟨o.talk, begun⟩ = (w', .ready r) := by
  change (Prod.fst (o.talk.poll o.place.submission (o.token.isCancelled o.world.now) begun w),
    mapPolled _ (Prod.snd (o.talk.poll o.place.submission (o.token.isCancelled o.world.now) begun w))) = _
  rcases h with h | h
  · rw [h]
    rfl
  · rw [h]
    rfl

theorem poll_act_waiting {begun : Option Wait} {w' : World} {s : Wait} {wake : Option Nat}
    (h : o.talk.poll o.place.submission (o.token.isCancelled o.world.now) begun w =
      (w', .waiting ⟨o.talk, some s⟩ wake)) :
    (o.act limit).poll ((o.act limit).token.isCancelled o.world.now) w ⟨o.talk, begun⟩ =
      (w', .waiting ⟨o.talk, some s⟩ wake) := by
  change (Prod.fst (o.talk.poll o.place.submission (o.token.isCancelled o.world.now) begun w),
    mapPolled _ (Prod.snd (o.talk.poll o.place.submission (o.token.isCancelled o.world.now) begun w))) = _
  rw [h]
  rfl

/-- A poll of the act leaves it at rest, whether its question has been put already or is put now. -/
theorem rests_pollRunning (begun : Option Wait) (hcalm : w.cancelled = false)
    (hstop : (∃ c ∈ o.cancelAt, c ≤ w.now) → o.Ends w o.watch.cancelled)
    (hgo : o.Early w.now →
      o.Shows w.now (o.place.pollWatch o.watch Place.watchFuel w (begun.getD (.rest 0 w.now)))) :
    o.Rests limit (Standing.pollRunning (o.act limit) o.world.now ⟨o.talk, begun⟩ w).1
      (Standing.pollRunning (o.act limit) o.world.now ⟨o.talk, begun⟩ w).2 := by
  cases hcancelled : o.token.isCancelled o.world.now w with
  | true =>
    have htalk : o.talk.poll o.place.submission (o.token.isCancelled o.world.now) begun w =
        (w, .ready (.error o.watch.cancelled)) :=
      Dialogue.poll_of_stop (by simp [hcancelled])
    rw [pollRunning_of_ready (poll_act_ready (.inr htalk))]
    exact rests_finished (hstop ((isCancelled_iff hcalm).1 hcancelled))
  | false =>
    have hgoes : (some o.watch.cancelled).filter (fun _ => o.token.isCancelled o.world.now w) = none := by
      simp [hcancelled]
    have hearly : o.Early w.now := by
      intro c hc
      by_contra hle
      have hstopped : o.token.isCancelled o.world.now w = true := (isCancelled_iff hcalm).2 ⟨c, hc, by omega⟩
      simp [hcancelled] at hstopped
    have hput : Dialogue.put o.place.submission w (.watch o.watch) begun = (w, begun.getD (.rest 0 w.now)) := by
      cases begun <;> rfl
    have hshows := hgo hearly
    cases hpolled : o.place.pollWatch o.watch Place.watchFuel w (begun.getD (.rest 0 w.now)) with
    | mk w' shown =>
      rw [hpolled] at hshows
      cases shown with
      | ready r =>
        obtain ⟨-, hends⟩ := hshows
        have htalk : o.talk.poll o.place.submission (o.token.isCancelled o.world.now) begun w =
            (w', .ready (.ok r)) :=
          Dialogue.poll_of_ready hgoes (by rw [hput]; exact hpolled)
        rw [pollRunning_of_ready (poll_act_ready (.inl htalk))]
        exact rests_finished hends
      | waiting s wake =>
        obtain ⟨hnow, k, ready, hwaits, rfl, hle, hlate⟩ := hshows
        have htalk : o.talk.poll o.place.submission (o.token.isCancelled o.world.now) begun w =
            (w', .waiting ⟨o.talk, some s⟩ (some ready)) :=
          Dialogue.poll_of_waiting hgoes (by rw [hput]; exact hpolled)
        rw [pollRunning_of_waiting (poll_act_waiting htalk)]
        split
        · exact rests_abandoned o limit _
        · exact rests_of_waits hwaits hle hlate (hnow ▸ hearly)

/-- The watch is cancelled before its question is put. -/
theorem ends_world (h : ∃ c ∈ o.cancelAt, c ≤ o.world.now) : o.Ends o.world o.watch.cancelled := by
  obtain ⟨c, hc, hle⟩ := h
  refine ⟨1, ?_⟩
  have hstep : o.course 1 = ⟨o.world.now, [], .ended o.watch.cancelled⟩ := by
    change o.watch.step o.conditions ⟨o.world.now, [], .looking 0⟩ = _
    simp only [Watch.step, cancelledBy_eq_some hc hle]
  rw [begun, hstep]
  exact ⟨rfl, rfl, o.looked_nil⟩

/-- A poll of an act that runs leaves it at rest. -/
theorem rests_poll {s : Standing (Except WaitFailure Receipt)} (h : o.Runs limit w s) :
    o.Rests limit (s.poll w).1 (s.poll w).2 := by
  cases h with
  | unstarted =>
    rw [Standing.poll, if_pos (Nat.le_refl _)]
    have hbegin (hearly : o.Early o.world.now) :
        o.Shows o.world.now (o.place.pollWatch o.watch Place.watchFuel o.world (.rest 0 o.world.now)) :=
      shows_begin (k := 0) 1999997 rfl o.looked_nil hearly rfl (Nat.le_refl _)
    exact rests_pollRunning (w := o.world) none o.calm ends_world hbegin
  | running hwaits hle hlate hcancel =>
    refine rests_pollRunning (some _) hwaits.calm ?_ fun hearly => shows_of_waits hwaits hearly hle hlate
    rintro ⟨c, hc, hcle⟩
    obtain rfl : c = w.now := Nat.le_antisymm hcle (hcancel c hc)
    exact ends_of_waits hwaits hc hle hlate
  | finished hends => exact rests_finished hends
  | abandoned => exact rests_abandoned o limit _

/-- The act stays with the watch in time from one moment to the next. -/
theorem keeps_runs (o : Outset) (limit : Nat) : Keeps (fun _ => o.Runs limit) (fun _ => o.Rests limit) where
  poll h := rests_poll h
  again h := h.1
  wake h ht := h.2 _ ht

/-- **A rehearsal of a watch is a watch in time.** What it shows at its end is how the watch in time ends; the time of
the end and the look-ups in the log, with the times at which they were begun, are those of the watch in time. -/
theorem course_of_runOne (o : Outset) (limit : Nat) {r : Except WaitFailure Receipt}
    (h : (runOne o.world (o.act limit)).2 = some r) :
    ∃ k, (o.course k).state = .ended r ∧ (o.course k).now = (runOne o.world (o.act limit)).1.now ∧
      (runOne o.world (o.act limit)).1.log = ((o.course k).looks.map fun l =>
        (l.begun, .ledger o.chain.chainId (.receipt o.watch.hash))).reverse ++ o.world.log := by
  have hstart : o.Runs limit o.world (.unstarted (o.act limit) o.world.now) := .unstarted
  obtain ⟨_, s, hs, hend⟩ := (keeps_runs o limit).runFrom (n := 0) hstart maxMoments
  have hruns := hend.elim And.right fun h => h.1.1
  have hresult : (runOne o.world (o.act limit)).2 = s.result? := by
    change ((runFrom maxMoments o.world [.unstarted (o.act limit) o.world.now]).2.map Standing.result?).head?.join = _
    rw [hs]
    rfl
  have hworld : (runOne o.world (o.act limit)).1 =
      (runFrom maxMoments o.world [.unstarted (o.act limit) o.world.now]).1 := rfl
  rw [hresult] at h
  rw [hworld]
  generalize (runFrom maxMoments o.world [.unstarted (o.act limit) o.world.now]).1 = w at hruns ⊢
  cases hruns with
  | finished hends =>
    cases h
    obtain ⟨k, hk, hnow, hlooked⟩ := hends
    refine ⟨k, hk, hnow, ?_⟩
    rw [hlooked.log, begun, List.map_map]
    rfl
  | unstarted | running | abandoned => cases h

end Outset

end Rehearsal

end OrderKeeper
