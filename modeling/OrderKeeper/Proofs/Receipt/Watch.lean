import Mathlib.Data.List.Chain
import OrderKeeper.Proofs.Receipt.Judge

/-!
# Watches in time

`w.after c start k` is what a watch has done and where it stands after `k` steps, under conditions `c`: how long every
answer takes, what it is, and when the watch is cancelled. A watch with a bound and one without do the same until the
look-up that uses the bound up says nothing; then the one with the bound gives up at once (`bounded_agrees`). The one
without a bound ends only with what a look-up says for good, or by its cancellation (`closed_after`). What a rehearsal does
with a watch is its course in time (`Rehearsal.Outset.course_of_runOne`).
-/

namespace OrderKeeper.Watch

open Receipt (Settles Undecided)

/-- What a watch meets; times are in milliseconds. -/
structure Conditions where
  /-- How long an answer takes and what it is, by the number of look-ups before and the time at which this one begins. -/
  reply : Nat → Nat → Nat × Except Fault (Option Receipt)
  cancelAt : Option Nat

/-- The time of the cancellation, if it comes by the time `t`. -/
def Conditions.cancelledBy (c : Conditions) (t : Nat) : Option Nat := c.cancelAt.filter (· ≤ t)

/-- A look-up that was begun. -/
structure Look where
  begun : Nat
  /-- The time of the answer and the answer, unless the watch was cancelled before. -/
  answered : Option (Nat × Except Fault (Option Receipt))

/-- A watch in time. -/
structure Course where
  now : Nat
  looks : List Look := []
  state : State := start

/-- One step, a look-up or a pause. After its cancellation a watch begins no look-up; an answer that comes at the same time
comes too late, and a pause ends early. -/
def step (w : Watch) (c : Conditions) (x : Course) : Course :=
  match x.state with
  | .looking polls =>
    match c.cancelledBy x.now with
    | some _ => { x with state := .ended w.cancelled }
    | none =>
      let (delay, a) := c.reply polls x.now
      match c.cancelledBy (x.now + delay) with
      | some t => ⟨t, x.looks ++ [⟨x.now, none⟩], .ended w.cancelled⟩
      | none => ⟨x.now + delay, x.looks ++ [⟨x.now, some (x.now + delay, a)⟩], w.answer polls a⟩
  | .pausing polls =>
    match c.cancelledBy (x.now + w.interval.toNat) with
    | some t => { x with now := max t x.now, state := .ended w.cancelled }
    | none => { x with now := x.now + w.interval.toNat, state := wake polls }
  | .ended _ => x

/-- A watch after a number of steps from its start. -/
def after (w : Watch) (c : Conditions) (start : Nat) : Nat → Course
  | 0 => { now := start }
  | k + 1 => w.step c (w.after c start k)

/-- A look-up was answered at the time `t`, and the answer says nothing. -/
def Look.IsMiss (hash : Hash) (l : Look) (t : Nat) : Prop := ∃ a, l.answered = some (t, a) ∧ Undecided hash a

/-- Look-up number `most`, counted from one, was answered and says nothing. -/
def Misses (hash : Hash) (most : Nat) (looks : List Look) : Prop := ∃ l t, looks[most - 1]? = some l ∧ l.IsMiss hash t

/-- A watch that gave up: `most` look-ups said nothing, each began one interval after the answer to the one before, and
the watch ended with the last answer. -/
structure Course.GaveUp (w : Watch) (most : Nat) (x : Course) : Prop where
  result : ∃ polls : UInt32, polls.toNat = most ∧ x.state = .ended (.error (.notFound w.hash polls))
  count : x.looks.length = most
  missed : ∀ l ∈ x.looks, ∃ t, l.IsMiss w.hash t
  spaced : x.looks.IsChain fun l l' => ∃ t, l.IsMiss w.hash t ∧ l'.begun = t + w.interval.toNat
  prompt : ∃ l, x.looks.getLast? = some l ∧ l.IsMiss w.hash x.now

/-- How a watch has ended that did not give up: with what the answer to its last look-up says for good, as soon as it
came, or by its cancellation. -/
inductive Course.Closed (hash : Hash) (c : Conditions) (x : Course) : Except WaitFailure Receipt → Prop where
  | settled {l : Look} {a : Except Fault (Option Receipt)} {r : Except WaitFailure Receipt} :
      x.looks.getLast? = some l → l.answered = some (x.now, a) → Settles hash a r → x.Closed hash c r
  | cancelled {t : Nat} : c.cancelAt = some t → t ≤ x.now → x.Closed hash c (.error (.cancelled (some hash)))

variable {hash : Hash} {interval : UInt64} {c : Conditions} {x : Course} {polls most : Nat}

/-! ## One step, whatever the bound -/

theorem Conditions.cancelledBy_eq_some {t u : Nat} : c.cancelledBy t = some u ↔ c.cancelAt = some u ∧ u ≤ t := by
  simp [cancelledBy, Option.filter_eq_some_iff]

/-- A look-up ends a watch, whatever its bound, or it is answered and says nothing. -/
theorem step_looking (hash : Hash) (interval : UInt64) (c : Conditions) (hx : x.state = .looking polls) :
    (∃ now looks r, (∀ bound, step ⟨hash, interval, bound⟩ c x = ⟨now, x.looks ++ looks, .ended r⟩) ∧
      (∀ l ∈ looks, ∀ t, ¬ l.IsMiss hash t) ∧ Course.Closed hash c ⟨now, x.looks ++ looks, .ended r⟩ r) ∨
    ∃ t a, Undecided hash a ∧ ∀ bound, step ⟨hash, interval, bound⟩ c x =
      ⟨t, x.looks ++ [⟨x.now, some (t, a)⟩], answer ⟨hash, interval, bound⟩ polls a⟩ := by
  cases hbefore : c.cancelledBy x.now with
  | some t =>
    obtain ⟨hat, hle⟩ := Conditions.cancelledBy_eq_some.1 hbefore
    refine .inl ⟨x.now, [], .error (.cancelled (some hash)), fun bound => ?_, by simp, .cancelled hat hle⟩
    simp [step, hx, hbefore, cancelled]
  | none =>
    rcases hreply : c.reply polls x.now with ⟨delay, a⟩
    cases hwhile : c.cancelledBy (x.now + delay) with
    | some t =>
      have hat := (Conditions.cancelledBy_eq_some.1 hwhile).1
      refine .inl ⟨t, [⟨x.now, none⟩], .error (.cancelled (some hash)), fun bound => ?_, by simp [Look.IsMiss],
        .cancelled hat (Nat.le_refl t)⟩
      simp [step, hx, hbefore, hreply, hwhile, cancelled]
    | none =>
      have hstep (bound : Option UInt32) : step ⟨hash, interval, bound⟩ c x =
          ⟨x.now + delay, x.looks ++ [⟨x.now, some (x.now + delay, a)⟩], answer ⟨hash, interval, bound⟩ polls a⟩ := by
        simp [step, hx, hbefore, hreply, hwhile]
      by_cases hundecided : Undecided hash a
      · exact .inr ⟨x.now + delay, a, hundecided, hstep⟩
      · obtain ⟨r, hr⟩ := not_forall_not.1 hundecided
        refine .inl ⟨x.now + delay, [⟨x.now, some (x.now + delay, a)⟩], r, fun bound => ?_, ?_, ?_⟩
        · rw [hstep, answer, Receipt.settles_iff.1 hr]
          cases r <;> rfl
        · simpa [Look.IsMiss] using hundecided
        · exact .settled List.getLast?_concat rfl hr

/-- A pause ends with the watch, whatever its bound, or with its time. -/
theorem step_pausing (hash : Hash) (interval : UInt64) (c : Conditions) (hx : x.state = .pausing polls) :
    (∃ now r, (∀ bound, step ⟨hash, interval, bound⟩ c x = ⟨now, x.looks, .ended r⟩) ∧
      Course.Closed hash c ⟨now, x.looks, .ended r⟩ r) ∨
    ∀ bound, step ⟨hash, interval, bound⟩ c x = ⟨x.now + interval.toNat, x.looks, .looking polls⟩ := by
  cases hwhile : c.cancelledBy (x.now + interval.toNat) with
  | some t =>
    have hat := (Conditions.cancelledBy_eq_some.1 hwhile).1
    refine .inl ⟨max t x.now, .error (.cancelled (some hash)), fun bound => ?_, .cancelled hat (Nat.le_max_left ..)⟩
    simp [step, hx, hwhile, cancelled]
  | none =>
    refine .inr fun bound => ?_
    simp [step, hx, hwhile, wake]

/-- Look-ups only add to those before. -/
theorem looks_prefix_step (w : Watch) (c : Conditions) (x : Course) : x.looks <+: (w.step c x).looks := by
  cases hx : x.state with
  | looking polls =>
    rcases step_looking w.hash w.interval c hx with ⟨now, looks, r, hstep, -⟩ | ⟨t, a, -, hstep⟩
    · exact hstep w.bound ▸ List.prefix_append _ _
    · exact hstep w.bound ▸ List.prefix_append _ _
  | pausing polls =>
    rcases step_pausing w.hash w.interval c hx with ⟨now, r, hstep, -⟩ | hstep
    · exact hstep w.bound ▸ List.prefix_rfl
    · exact hstep w.bound ▸ List.prefix_rfl
  | ended r => simp [step, hx]

/-- A look-up that says nothing uses up no bound, or the last of it. -/
theorem answer_of_undecided {w : Watch} {a : Except Fault (Option Receipt)} (h : Undecided w.hash a) :
    w.answer polls a = if w.isSpent (polls + 1) then .ended (.error (.notFound w.hash (UInt32.ofNat (polls + 1))))
      else .pausing (polls + 1) := by
  rw [answer, Receipt.undecided_iff.1 h]

/-! ## What a watch that goes on has seen -/

/-- Look-ups that said nothing, each one interval after the answer to the one before. -/
structure Steady (w : Watch) (looks : List Look) (polls : Nat) : Prop where
  count : looks.length = polls
  missed : ∀ l ∈ looks, ∃ t, l.IsMiss w.hash t
  spaced : looks.IsChain fun l l' => ∃ t, l.IsMiss w.hash t ∧ l'.begun = t + w.interval.toNat

/-- What holds of a watch that goes on: where it looks, an interval has passed since the last answer; where it pauses,
the last answer has just come. -/
def Course.Goes (w : Watch) (x : Course) : Prop :=
  match x.state with
  | .looking polls => Steady w x.looks polls ∧
      ∀ l ∈ x.looks.getLast?, ∃ t, l.IsMiss w.hash t ∧ x.now = t + w.interval.toNat
  | .pausing polls => Steady w x.looks polls ∧ ∃ l ∈ x.looks.getLast?, l.IsMiss w.hash x.now
  | .ended _ => True

theorem Steady.concat {w : Watch} {looks : List Look} {l : Look} {t : Nat} (h : Steady w looks polls)
    (hl : l.IsMiss w.hash t)
    (hlast : ∀ l' ∈ looks.getLast?, ∃ t, l'.IsMiss w.hash t ∧ l.begun = t + w.interval.toNat) :
    Steady w (looks ++ [l]) (polls + 1) where
  count := by simp [h.count]
  missed l' hl' := by
    rcases List.mem_append.1 hl' with hl' | hl'
    · exact h.missed l' hl'
    · obtain rfl := List.mem_singleton.1 hl'
      exact ⟨t, hl⟩
  spaced := by
    refine List.isChain_append.2 ⟨h.spaced, .singleton l, fun l' hl' l'' hl'' => ?_⟩
    obtain rfl : l = l'' := by simpa using hl''
    exact hlast l' hl'

theorem goes_step {w : Watch} (h : x.Goes w) : (w.step c x).Goes w := by
  cases hx : x.state with
  | looking polls =>
    rw [Course.Goes, hx] at h
    obtain ⟨hsteady, hlast⟩ := h
    rcases step_looking w.hash w.interval c hx with ⟨now, looks, r, hstep, -⟩ | ⟨t, a, ha, hstep⟩
    · rw [hstep w.bound]
      exact trivial
    · have hmiss : Look.IsMiss w.hash ⟨x.now, some (t, a)⟩ t := ⟨a, rfl, ha⟩
      have hsteady' := hsteady.concat hmiss hlast
      rw [hstep w.bound, answer_of_undecided ha]
      split
      · exact trivial
      · exact ⟨hsteady', ⟨x.now, some (t, a)⟩, by simp, hmiss⟩
  | pausing polls =>
    rw [Course.Goes, hx] at h
    obtain ⟨hsteady, l, hl, hmiss⟩ := h
    rcases step_pausing w.hash w.interval c hx with ⟨now, r, hstep, -⟩ | hstep
    · rw [hstep w.bound]
      exact trivial
    · rw [hstep w.bound]
      refine ⟨hsteady, fun l' hl' => ⟨x.now, ?_, rfl⟩⟩
      obtain rfl : l = l' := Option.some.inj ((Option.mem_def.1 hl).symm.trans hl')
      exact hmiss
  | ended r => simp [Course.Goes, step, hx]

theorem goes_after (w : Watch) (c : Conditions) (start k : Nat) : (w.after c start k).Goes w := by
  induction k with
  | zero => exact ⟨⟨rfl, by simp [after], .nil⟩, by simp [after]⟩
  | succ k ih => exact goes_step ih

/-! ## With and without a bound -/

theorem Misses.mono {looks looks' : List Look} (h : Misses hash most looks) (hle : looks <+: looks') :
    Misses hash most looks' := by
  obtain ⟨l, t, hl, hmiss⟩ := h
  obtain ⟨more, rfl⟩ := hle
  exact ⟨l, t, List.getElem?_append_left (List.getElem?_eq_some_iff.1 hl).1 ▸ hl, hmiss⟩

/-- All look-ups of a watch that goes on say nothing. -/
theorem Steady.misses {w : Watch} {looks : List Look} (h : Steady w looks polls) (hmost : most - 1 < polls) :
    Misses w.hash most looks := by
  have hlt : most - 1 < looks.length := h.count.symm ▸ hmost
  obtain ⟨t, ht⟩ := h.missed looks[most - 1] (List.getElem_mem hlt)
  exact ⟨looks[most - 1], t, List.getElem?_eq_getElem hlt, ht⟩

theorem not_misses_of_length {looks : List Look} (h : looks.length ≤ most - 1) : ¬ Misses hash most looks := by
  rintro ⟨l, t, hl, -⟩
  rw [List.getElem?_eq_none h] at hl
  cases hl

/-- A look-up that ends a watch is none that says nothing. -/
theorem not_misses_append {looks more : List Look} (hlength : looks.length < most)
    (hmore : ∀ l ∈ more, ∀ t, ¬ l.IsMiss hash t) : ¬ Misses hash most (looks ++ more) := by
  rintro ⟨l, t, hl, hmiss⟩
  rw [List.getElem?_append_right (by omega)] at hl
  exact hmore l (List.mem_of_getElem? hl) t hmiss

section Agreement

variable (hash : Hash) (interval : UInt64) (n : UInt32) (c : Conditions) (start : Nat)

/-- The look-ups that a bound allows: at least one. -/
def allowed (n : UInt32) : Nat := max n.toNat 1

/-- Unless it misses with the look-up that uses the bound up, a watch makes the same step with the bound and without. -/
theorem step_bounded {x : Course} (hgoes : x.Goes ⟨hash, interval, none⟩)
    (h : ¬ Misses hash (allowed n) (step ⟨hash, interval, none⟩ c x).looks) :
    step ⟨hash, interval, some n⟩ c x = step ⟨hash, interval, none⟩ c x := by
  cases hx : x.state with
  | looking polls =>
    rw [Course.Goes, hx] at hgoes
    obtain ⟨hsteady, hlast⟩ := hgoes
    rcases step_looking hash interval c hx with ⟨now, looks, r, hstep, -⟩ | ⟨t, a, ha, hstep⟩
    · rw [hstep, hstep]
    · rw [hstep] at h
      have hmiss : Look.IsMiss hash ⟨x.now, some (t, a)⟩ t := ⟨a, rfl, ha⟩
      have hleft : polls + 1 < n.toNat := by
        by_contra hspent
        exact h ((hsteady.concat hmiss hlast).misses (by simp only [allowed]; omega))
      have hopen : isSpent ⟨hash, interval, some n⟩ (polls + 1) = false := by simpa [isSpent] using hleft
      rw [hstep, hstep, answer_of_undecided ha, answer_of_undecided ha, hopen]
      rfl
  | pausing polls =>
    rcases step_pausing hash interval c hx with ⟨now, r, hstep, -⟩ | hstep
    · rw [hstep, hstep]
    · rw [hstep, hstep]
  | ended r => simp [step, hx]

/-- Without a bound, a step ends a watch in no other way. -/
theorem closed_step {x : Course} (hx : ∀ r, x.state = .ended r → x.Closed hash c r) :
    ∀ r, (step ⟨hash, interval, none⟩ c x).state = .ended r → (step ⟨hash, interval, none⟩ c x).Closed hash c r := by
  intro r hr
  cases hstate : x.state with
  | looking polls =>
    rcases step_looking hash interval c hstate with ⟨now, looks, r', hstep, -, hclosed⟩ | ⟨t, a, ha, hstep⟩
    · rw [hstep] at hr ⊢
      cases hr
      exact hclosed
    · -- with nothing to use up, it pauses
      rw [hstep, answer_of_undecided ha] at hr
      cases hr
  | pausing polls =>
    rcases step_pausing hash interval c hstate with ⟨now, r', hstep, hclosed⟩ | hstep
    · rw [hstep] at hr ⊢
      cases hr
      exact hclosed
    · rw [hstep] at hr
      cases hr
  | ended r' =>
    have hstep : step ⟨hash, interval, none⟩ c x = x := by simp [step, hstate]
    rw [hstep] at hr ⊢
    exact hx r hr

/-- A watch without a bound does not give up. -/
theorem closed_after (k : Nat) : ∀ r, (after ⟨hash, interval, none⟩ c start k).state = .ended r →
    (after ⟨hash, interval, none⟩ c start k).Closed hash c r := by
  induction k with
  | zero => exact fun r hr => by cases hr
  | succ k ih => exact closed_step hash interval c ih

theorem after_bounded (k : Nat) (h : ¬ Misses hash (allowed n) (after ⟨hash, interval, none⟩ c start k).looks) :
    after ⟨hash, interval, some n⟩ c start k = after ⟨hash, interval, none⟩ c start k := by
  induction k with
  | zero => rfl
  | succ k ih =>
    have hbefore := ih fun hm => h (hm.mono (looks_prefix_step _ c _))
    rw [after, after, hbefore]
    exact step_bounded hash interval n c (goes_after _ c start k) h

/-- A watch without a bound makes any number of look-ups up to `allowed n` unless it ends before. -/
theorem looking_or_ended {polls : Nat} (hpolls : polls < allowed n) :
    (∃ k r, (after ⟨hash, interval, none⟩ c start k).state = .ended r ∧
      ¬ Misses hash (allowed n) (after ⟨hash, interval, none⟩ c start k).looks) ∨
    ∃ k, (after ⟨hash, interval, none⟩ c start k).state = .looking polls := by
  induction polls with
  | zero => exact .inr ⟨0, rfl⟩
  | succ polls ih =>
    obtain hended | ⟨k, hk⟩ := ih (by omega)
    · exact .inl hended
    have hgoes := goes_after ⟨hash, interval, none⟩ c start k
    rw [Course.Goes, hk] at hgoes
    have hcount := hgoes.1.count
    rcases step_looking hash interval c hk with ⟨now, looks, r, hstep, hlooks, -⟩ | ⟨t, a, ha, hstep⟩
    · refine .inl ⟨k + 1, r, ?_, ?_⟩
      · rw [after, hstep]
      · rw [after, hstep]
        exact not_misses_append (by omega) hlooks
    · have hpausing : after ⟨hash, interval, none⟩ c start (k + 1) =
          ⟨t, (after ⟨hash, interval, none⟩ c start k).looks ++
            [⟨(after ⟨hash, interval, none⟩ c start k).now, some (t, a)⟩], .pausing (polls + 1)⟩ := by
        rw [after, hstep, answer_of_undecided ha]
        rfl
      rcases step_pausing hash interval c (congrArg Course.state hpausing) with ⟨now, r, hstep, -⟩ | hstep
      · refine .inl ⟨k + 2, r, ?_, ?_⟩
        · rw [after, hstep]
        · rw [after, hstep, hpausing]
          exact not_misses_of_length (by simp only [List.length_append, List.length_singleton]; omega)
      · exact .inr ⟨k + 2, by rw [after, hstep]⟩

/-- A watch that was about to use its bound up gives up when the look-up says nothing. -/
theorem gaveUp_step {x : Course} {t : Nat} {a : Except Fault (Option Receipt)} (hx : x.state = .looking (allowed n - 1))
    (hgoes : x.Goes ⟨hash, interval, none⟩) (ha : Undecided hash a)
    (hstep : step ⟨hash, interval, some n⟩ c x =
      ⟨t, x.looks ++ [⟨x.now, some (t, a)⟩], answer ⟨hash, interval, some n⟩ (allowed n - 1) a⟩) :
    (step ⟨hash, interval, some n⟩ c x).GaveUp ⟨hash, interval, some n⟩ (allowed n) := by
  rw [Course.Goes, hx] at hgoes
  obtain ⟨hsteady, hlast⟩ := hgoes
  have hmiss : Look.IsMiss hash ⟨x.now, some (t, a)⟩ t := ⟨a, rfl, ha⟩
  have hall : Steady ⟨hash, interval, none⟩ (x.looks ++ [⟨x.now, some (t, a)⟩]) (allowed n - 1 + 1) :=
    hsteady.concat hmiss hlast
  have hsum : allowed n - 1 + 1 = allowed n := by
    simp only [allowed]
    omega
  have hspent : isSpent ⟨hash, interval, some n⟩ (allowed n) = true := decide_eq_true (Nat.le_max_left _ _)
  have hsize : allowed n < UInt32.size := by
    have := n.toNat_lt
    simp only [allowed, UInt32.size]
    omega
  rw [hsum] at hall
  rw [hstep, answer_of_undecided ha, hsum, hspent]
  exact {
    result := ⟨UInt32.ofNat (allowed n), UInt32.toNat_ofNat_of_lt' hsize, rfl⟩
    count := hall.count
    missed := hall.missed
    spaced := hall.spaced
    prompt := ⟨_, by simp, hmiss⟩ }

/-- A success that stands in no block, or in block zero, says nothing. -/
theorem undecided_of_success {r : Receipt} (hstatus : r.status = true) (hblock : ∀ block ∈ r.blockNumber, block = 0) :
    Undecided hash (.ok (some r)) := by
  rintro _ (⟨-, hsome, hpos⟩ | hfalse)
  · obtain rfl := hblock _ hsome
    exact absurd hpos (by decide)
  · simp [hstatus] at hfalse

/-- A bounded watch and an unbounded one with the same hash, under the same conditions. The unbounded watch ends only with
a success in a block, a failure on chain, a look-up that failed, or its cancellation. As long as it ends without missing
with look-up number `allowed n`, the bounded one makes the same look-ups at the same times and ends as it does; otherwise
the bounded watch gives up after exactly `allowed n` look-ups. Whether there is a bound or not, a success without a block
above zero counts as no receipt at all, and a failure is final wherever it stands. -/
theorem bounded_agrees :
    (∀ k r, (after ⟨hash, interval, none⟩ c start k).state = .ended r →
      (after ⟨hash, interval, none⟩ c start k).Closed hash c r) ∧
    (∀ k r, (after ⟨hash, interval, none⟩ c start k).state = .ended r →
      ¬ Misses hash (allowed n) (after ⟨hash, interval, none⟩ c start k).looks →
      after ⟨hash, interval, some n⟩ c start k = after ⟨hash, interval, none⟩ c start k) ∧
    ((¬ ∃ k r, (after ⟨hash, interval, none⟩ c start k).state = .ended r ∧
        (after ⟨hash, interval, none⟩ c start k).Closed hash c r ∧
        ¬ Misses hash (allowed n) (after ⟨hash, interval, none⟩ c start k).looks) →
      ∃ k, (after ⟨hash, interval, some n⟩ c start k).GaveUp ⟨hash, interval, some n⟩ (allowed n)) ∧
    ∀ bound polls receipt,
      (receipt.status = true → (∀ block ∈ receipt.blockNumber, block = 0) →
        answer ⟨hash, interval, bound⟩ polls (.ok (some receipt)) = answer ⟨hash, interval, bound⟩ polls (.ok none)) ∧
      (receipt.status = false → answer ⟨hash, interval, bound⟩ polls (.ok (some receipt)) =
        .ended (.error (.reverted hash receipt.blockNumber receipt.gasUsed))) := by
  refine ⟨closed_after hash interval c start, fun k r _ h => after_bounded hash interval n c start k h, fun h => ?_,
    fun bound polls receipt => ⟨?_, ?_⟩⟩
  · -- an end without a miss is one of the four kinds
    have hopen : ¬ ∃ k r, (after ⟨hash, interval, none⟩ c start k).state = .ended r ∧
        ¬ Misses hash (allowed n) (after ⟨hash, interval, none⟩ c start k).looks := by
      rintro ⟨k, r, hr, hmiss⟩
      exact h ⟨k, r, hr, closed_after hash interval c start k r hr, hmiss⟩
    have hpos : allowed n - 1 < allowed n := by
      simp only [allowed]
      omega
    obtain hended | ⟨k, hk⟩ := looking_or_ended hash interval n c start hpos
    · exact absurd hended hopen
    have hgoes := goes_after ⟨hash, interval, none⟩ c start k
    have hcount : (after ⟨hash, interval, none⟩ c start k).looks.length = allowed n - 1 := by
      rw [Course.Goes, hk] at hgoes
      exact hgoes.1.count
    rcases step_looking hash interval c hk with ⟨now, looks, r, hstep, hlooks, -⟩ | ⟨t, a, ha, hstep⟩
    · refine absurd ⟨k + 1, r, ?_, ?_⟩ hopen
      · rw [after, hstep]
      · rw [after, hstep]
        exact not_misses_append (by omega) hlooks
    · have hsame := after_bounded hash interval n c start k (not_misses_of_length hcount.le)
      refine ⟨k + 1, ?_⟩
      rw [after, hsame]
      exact gaveUp_step hash interval n c hk hgoes ha (hstep (some n))
  · intro hstatus hblock
    have hnone : Undecided hash (.ok none) := nofun
    rw [answer_of_undecided (undecided_of_success hash hstatus hblock), answer_of_undecided hnone]
  · intro hstatus
    rw [answer, Receipt.settles_iff.1 (.reverted hstatus)]
    rfl

end Agreement

end OrderKeeper.Watch
