import Mathlib.Data.List.Chain
import OrderKeeper.Job.Retry
import OrderKeeper.Proofs.Dialogue.Timed

/-!
# Retries in time

`course maxRetries attempt cancelAt start` is how a work item goes under retry when its attempts are as `attempt` says and
it is cancelled at `cancelAt`. `Account` says what such a course is: which attempts are made and when, which of them is
the last, and what the result is. Every course has one (`exists_account_course`): one attempt is the last, or is followed
by a pause and by the account of the attempts after it (`Account.single`, `Account.cons`). What a rehearsal does with
scripted attempts is their course (`Rehearsal.RetryScript.course_of_runOne`).
-/

namespace OrderKeeper.Retry

open Dialogue (Reply Put Timeline)

variable {ε α : Type}

/-- What comes of every attempt, by its number and the time at which it begins. -/
abbrev Behaviour (ε α : Type) := UInt32 → Nat → Reply (Except (Verdict ε) α)

/-- A work item under retry from its start to its end. -/
abbrev History (ε α : Type) := Timeline Question (Question.Answer ε α) (Except ε α) (Except ε α)

/-- What a work item under retry meets: attempts of some behaviour, pauses as long as they were asked for, and its
cancellation. -/
def conditions (attempt : Behaviour ε α) (cancelAt : Option Nat) :
    Dialogue.Conditions Question (Question.Answer ε α) where
  reply
    | .attempt n, t => attempt n t
    | .pause ms, _ => { takes := ms.toNat, answer := () }
  cancelAt

/-- A work item under retry, from the time `start` on. -/
def course (maxRetries : UInt32) (attempt : Behaviour ε α) (cancelAt : Option Nat) (start : Nat) : History ε α :=
  (run maxRetries).timed (conditions attempt cancelAt) false start

/-- The result of a course, whether it was cancelled or not. -/
def outcome (x : History ε α) : Except ε α :=
  match x.result with
  | .ok r => r
  | .error r => r

/-- Whether an attempt was put, and not a pause. -/
def isAttempt (p : Put Question (Question.Answer ε α)) : Bool :=
  match p.question with
  | .attempt _ => true
  | .pause _ => false

/-- An attempt that was made. -/
structure Try (ε α : Type) where
  number : UInt32
  begun : Nat
  reply : Reply (Except (Verdict ε) α)

namespace Try

/-- Attempt number `n`, begun at the time `t`. -/
def of (attempt : Behaviour ε α) (n : UInt32) (t : Nat) : Try ε α := ⟨n, t, attempt n t⟩

/-- The time at which an attempt ended. -/
def ended (x : Try ε α) : Nat := x.begun + x.reply.takes

/-- The value of an attempt, or its error. -/
def result (x : Try ε α) : Except ε α := x.reply.answer.mapError Verdict.error

/-- An attempt was put and seen through to its end. -/
def put (x : Try ε α) : Put Question (Question.Answer ε α) := ⟨.attempt x.number, x.begun, some x.reply⟩

theorem result_of_ok {x : Try ε α} {a : α} (h : x.reply.answer = .ok a) : x.result = .ok a := by
  rw [result, h]
  rfl

theorem result_of_error {x : Try ε α} {v : Verdict ε} (h : x.reply.answer = .error v) : x.result = .error v.error := by
  rw [result, h]
  rfl

end Try

theorem isAttempt_put (x : Try ε α) : isAttempt x.put = true := rfl

/-- The work item is cancelled at the time `t`, when `tries` have been made. -/
def Cancelled (cancelAt : Option Nat) (tries : List (Try ε α)) (t : Nat) : Prop :=
  (∃ k ∈ cancelAt, k ≤ t) ∨ ∃ x ∈ tries, x.reply.cancels = true

/-- No attempt follows the attempt `x`, the last of `tries`: it succeeded or failed for good, the budget is used up, or the
work item is cancelled at the end of the pause that the attempt asked for. -/
def Stops (maxRetries : UInt32) (cancelAt : Option Nat) (tries : List (Try ε α)) (x : Try ε α) : Prop :=
  match x.reply.answer with
  | .ok _ => True
  | .error (.fail _) => True
  | .error (.nack _ delay) => x.number = maxRetries ∨ Cancelled cancelAt tries (x.ended + (delay.getD 0).toNat)

/-- How a course ends in which `y` is the last attempt: at the end of the attempt, or when the pause after it is cut
short. -/
def EndsWith (cancelAt : Option Nat) (x : History ε α) (y : Try ε α) : Prop :=
  outcome x = y.result ∧ (x.endedAt = y.ended ∨ y.ended < x.endedAt ∧ cancelAt = some x.endedAt)

/-- What a course is that begins at the time `start` with attempt number `first`. -/
structure Account (maxRetries : UInt32) (attempt : Behaviour ε α) (cancelAt : Option Nat) (first : UInt32) (start : Nat)
    (x : History ε α) (tries : List (Try ε α)) : Prop where
  /-- The attempts that are begun are the `tries`, in this order, and each is seen through to its end. -/
  called : x.puts.filter isAttempt = tries.map Try.put
  made : ∀ y ∈ tries, y = .of attempt y.number y.begun
  numbered : tries.map (·.number.toNat) = List.range' first.toNat tries.length
  budget : 0 < tries.length ∧ first.toNat + tries.length ≤ maxRetries.toNat + 1
  prompt : ∀ y ∈ tries.head?, y.begun = start
  /-- Between two attempts lies the delay that the first one asked for. -/
  paced : tries.IsChain fun y z =>
    ∃ e delay, y.reply.answer = .error (.nack e delay) ∧ z.begun = y.ended + (delay.getD 0).toNat
  /-- An attempt is the last exactly if no attempt may follow it. -/
  last : ∀ i y, tries[i]? = some y → (tries.length = i + 1 ↔ Stops maxRetries cancelAt (tries.take (i + 1)) y)
  /-- No attempt after the first begins when the work item is cancelled. -/
  live : ∀ i y, tries[i + 1]? = some y → ¬ Cancelled cancelAt (tries.take (i + 1)) y.begun
  result : ∃ y ∈ tries.getLast?, EndsWith cancelAt x y

variable {maxRetries first : UInt32} {attempt : Behaviour ε α} {cancelAt : Option Nat} {start t : Nat} {x : History ε α}
  {y : Try ε α} {tries : List (Try ε α)} {ps : List (Put Question (Question.Answer ε α))}

theorem cancelled_singleton :
    Cancelled cancelAt [y] t ↔ y.reply.cancels = true ∨ ∃ k ∈ cancelAt, k ≤ t := by
  simp [Cancelled, or_comm]

theorem cancelled_cons (h : y.reply.cancels = false) :
    Cancelled cancelAt (y :: tries) t ↔ Cancelled cancelAt tries t := by
  simp [Cancelled, h]

theorem stops_cons (h : y.reply.cancels = false) {z : Try ε α} :
    Stops maxRetries cancelAt (y :: tries) z ↔ Stops maxRetries cancelAt tries z := by
  unfold Stops
  split
  · rfl
  · rfl
  · rw [cancelled_cons h]

/-- The numbers of the attempts do not overflow. -/
theorem toNat_add_one (h : first.toNat < maxRetries.toNat) : (first + 1).toNat = first.toNat + 1 := by
  have := maxRetries.toNat_lt
  simp only [UInt32.toNat_add, UInt32.toNat_one]
  omega

/-- The account of one attempt, which is the last. -/
theorem Account.single (hy : y = .of attempt first start) (hmax : first.toNat ≤ maxRetries.toNat)
    (hstops : Stops maxRetries cancelAt [y] y) (hputs : x.puts.filter isAttempt = [y.put])
    (hends : EndsWith cancelAt x y) : Account maxRetries attempt cancelAt first start x [y] := by
  constructor
  case called => exact hputs
  case made =>
    intro z hz
    obtain rfl := List.mem_singleton.1 hz
    subst hy
    rfl
  case numbered => simp [hy, Try.of]
  case budget => simpa using hmax
  case prompt =>
    intro z hz
    cases hz
    rw [hy, Try.of]
  case paced => exact .singleton y
  case last =>
    intro i z hz
    cases i with
    | zero =>
      cases hz
      exact iff_of_true rfl hstops
    | succ i => cases hz
  case live =>
    intro i z hz
    cases hz
  case result => exact ⟨y, rfl, hends⟩

/-- The account of one attempt, of the pause after it, and of the attempts that follow. -/
theorem Account.cons {e : ε} {delay : Option UInt64} (hy : y = .of attempt first start)
    (hmax : first.toNat < maxRetries.toNat) (hnack : y.reply.answer = .error (.nack e delay))
    (hlive : ¬ Cancelled cancelAt [y] (y.ended + (delay.getD 0).toNat)) (hps : ps.filter isAttempt = [y.put])
    (h : Account maxRetries attempt cancelAt (first + 1) (y.ended + (delay.getD 0).toNat) x tries) :
    Account maxRetries attempt cancelAt first start (x.after ps) (y :: tries) := by
  have hn : y.number = first := by rw [hy, Try.of]
  have hcancels : y.reply.cancels = false := by
    rw [cancelled_singleton] at hlive
    simpa using fun hc => hlive (.inl hc)
  have hnumber := toNat_add_one hmax
  obtain ⟨hpos, hbudget⟩ := h.budget
  constructor
  case called => simp [hps, h.called]
  case made =>
    intro z hz
    rcases List.mem_cons.1 hz with rfl | hz
    · subst hy
      rfl
    · exact h.made z hz
  case numbered => rw [List.map_cons, h.numbered, hn, hnumber, List.length_cons, List.range'_succ]
  case budget =>
    rw [List.length_cons]
    omega
  case prompt =>
    intro z hz
    cases hz
    rw [hy, Try.of]
  case paced => exact List.isChain_cons.2 ⟨fun z hz => ⟨e, delay, hnack, h.prompt z hz⟩, h.paced⟩
  case last =>
    intro i z hz
    cases i with
    | zero =>
      cases hz
      have hgoes : ¬ Stops maxRetries cancelAt [y] y := by
        rw [Stops, hnack]
        rintro (hlast | hc)
        · rw [hn] at hlast
          rw [hlast] at hmax
          exact Nat.lt_irrefl _ hmax
        · exact hlive hc
      exact iff_of_false (by rw [List.length_cons]; omega) hgoes
    | succ i =>
      rw [List.length_cons, List.take_succ_cons, stops_cons hcancels, ← h.last i z hz]
      omega
  case live =>
    intro i z hz
    cases i with
    | zero =>
      have hhead : z ∈ tries.head? := by
        rw [List.head?_eq_getElem?]
        exact hz
      rw [h.prompt z hhead]
      exact hlive
    | succ i =>
      rw [List.take_succ_cons, cancelled_cons hcancels]
      exact h.live i z hz
  case result =>
    obtain ⟨z, hz, hends⟩ := h.result
    exact ⟨z, by rw [List.getLast?_cons, hz]; rfl, hends⟩

/-! ## The course of an attempt -/

/-- An attempt is always seen through to its end. -/
theorem timed_attempt (next : Except (Verdict ε) α → Talk ε α) (hy : y = .of attempt first start) :
    Dialogue.timed (conditions attempt cancelAt) (.ask (.attempt first) none next) false start =
      ((next y.reply.answer).timed (conditions attempt cancelAt) y.reply.cancels y.ended).after [y.put] := by
  subst hy
  exact Dialogue.timed_of_answer rfl (.inl rfl)

variable {e : Except ε α} {next : Unit → Talk ε α} {ms : UInt64} {cancelled : Bool}

/-- A pause comes to its end if the work item is not cancelled by then. -/
theorem timed_pause (h : ¬ (cancelled = true ∨ ∃ k ∈ cancelAt, k ≤ t + ms.toNat)) :
    Dialogue.timed (conditions attempt cancelAt) (.ask (.pause ms) (some e) next) cancelled t =
      ((next ()).timed (conditions attempt cancelAt) false (t + ms.toNat)).after
        [⟨.pause ms, t, some { takes := ms.toNat, answer := () }⟩] := by
  obtain ⟨hwithin, houtside⟩ := not_or.1 h
  obtain rfl : cancelled = false := by simpa using hwithin
  have hlate (k : Nat) (hk : k ∈ cancelAt) : t + ms.toNat < k := Nat.lt_of_not_le fun hle => houtside ⟨k, hk, hle⟩
  have hgoes : ((some e).filter fun _ => (conditions attempt cancelAt).isCancelled false t) = none := by
    rw [Option.filter_eq_none_iff]
    rintro _ - hc
    obtain hc | ⟨k, hk, hle⟩ := Dialogue.Conditions.isCancelled_iff.1 hc
    · cases hc
    · have := hlate k hk
      omega
  exact Dialogue.timed_of_answer hgoes (.inr (Dialogue.Conditions.cancelledBy_eq_none.2 hlate))

/-- A pause is cut short if the work item is cancelled by its end, and does not begin if it is cancelled before. -/
theorem timed_pause_of_cancelled (h : cancelled = true ∨ ∃ k ∈ cancelAt, k ≤ t + ms.toNat) :
    ∃ puts endedAt,
      Dialogue.timed (conditions attempt cancelAt) (.ask (.pause ms) (some e) next) cancelled t =
        ⟨puts, endedAt, .error e⟩ ∧
      puts.filter isAttempt = [] ∧ (endedAt = t ∨ t < endedAt ∧ cancelAt = some endedAt) := by
  cases hnow : (conditions attempt cancelAt).isCancelled cancelled t with
  | true => exact ⟨[], t, Dialogue.timed_of_stop (by simp [hnow]), rfl, .inl rfl⟩
  | false =>
    have hgoes : ¬ (cancelled = true ∨ ∃ k ∈ cancelAt, k ≤ t) := fun hc => by
      rw [Dialogue.Conditions.isCancelled_iff.2 hc] at hnow
      cases hnow
    obtain ⟨hwithin, houtside⟩ := not_or.1 hgoes
    obtain ⟨k, hk, hle⟩ := h.resolve_left hwithin
    have hcut : (conditions attempt cancelAt).cancelledBy (t + ms.toNat) = some k :=
      Dialogue.Conditions.cancelledBy_eq_some.2 ⟨hk, hle⟩
    refine ⟨_, k, Dialogue.timed_of_cut hnow hcut, rfl, .inr ⟨?_, hk⟩⟩
    exact Nat.lt_of_not_le fun hkt => houtside ⟨k, hk, hkt⟩

/-! ## The account of a course -/

/-- One attempt is the last, or a pause and the attempts after it follow. -/
theorem step_attempts (left : Nat) (hleft : first.toNat + left = maxRetries.toNat) (hy : y = .of attempt first start)
    (hx : x = (attempts left first).timed (conditions attempt cancelAt) false start) :
    (Stops maxRetries cancelAt [y] y ∧ x.puts.filter isAttempt = [y.put] ∧ EndsWith cancelAt x y) ∨
    ∃ e delay left' ps, left = left' + 1 ∧ y.reply.answer = .error (.nack e delay) ∧
      ¬ Cancelled cancelAt [y] (y.ended + (delay.getD 0).toNat) ∧ ps.filter isAttempt = [y.put] ∧
      x = ((attempts left' (first + 1)).timed (conditions attempt cancelAt) false
        (y.ended + (delay.getD 0).toNat)).after ps := by
  have hnumber : y.number = first := by rw [hy, Try.of]
  rw [attempts, timed_attempt _ hy] at hx
  -- an attempt after which nothing follows
  have final {r : Except ε α} (hr : y.result = r) (hstops : Stops maxRetries cancelAt [y] y)
      (hdone : x = ((.done r : Talk ε α).timed (conditions attempt cancelAt) y.reply.cancels y.ended).after [y.put]) :
      Stops maxRetries cancelAt [y] y ∧ x.puts.filter isAttempt = [y.put] ∧ EndsWith cancelAt x y := by
    subst hdone
    exact ⟨hstops, rfl, hr.symm, .inl rfl⟩
  rcases hreply : y.reply.answer with (⟨e, delay⟩ | e) | a
  case error.nack =>
    have hresult := Try.result_of_error hreply
    rw [hreply] at hx
    cases left with
    | zero =>
      refine .inl (final hresult ?_ hx)
      rw [Stops, hreply]
      exact .inl (hnumber.trans (UInt32.toNat.inj hleft))
    | succ left =>
      by_cases hc : Cancelled cancelAt [y] (y.ended + (delay.getD 0).toNat)
      · left
        obtain ⟨puts, endedAt, hcut, hputs, hend⟩ := timed_pause_of_cancelled (cancelled_singleton.1 hc)
        rw [hcut] at hx
        subst hx
        refine ⟨?_, ?_, ?_, ?_⟩
        · rw [Stops, hreply]
          exact .inr hc
        · exact (List.filter_cons_of_pos (isAttempt_put y)).trans (congrArg _ hputs)
        · exact hresult.symm
        · exact hend
      · right
        rw [timed_pause (mt cancelled_singleton.2 hc), Timeline.after_after] at hx
        exact ⟨e, delay, left, _, rfl, rfl, hc, rfl, hx⟩
  case error.fail =>
    rw [hreply] at hx
    refine .inl (final (Try.result_of_error hreply) ?_ hx)
    rw [Stops, hreply]
    trivial
  case ok =>
    rw [hreply] at hx
    refine .inl (final (Try.result_of_ok hreply) ?_ hx)
    rw [Stops, hreply]
    trivial

/-- The attempts from any number on have an account. The induction is on the retries that are left. -/
theorem exists_account_attempts (left : Nat) (first : UInt32) (start : Nat)
    (hleft : first.toNat + left = maxRetries.toNat) :
    ∃ tries, Account maxRetries attempt cancelAt first start
      ((attempts left first).timed (conditions attempt cancelAt) false start) tries := by
  induction left generalizing first start with
  | zero =>
    obtain ⟨hstops, hputs, hends⟩ | ⟨_, _, _, _, hleft', -⟩ := step_attempts 0 hleft rfl rfl
    · exact ⟨_, .single rfl (by omega) hstops hputs hends⟩
    · cases hleft'
  | succ left ih =>
    obtain ⟨hstops, hputs, hends⟩ | ⟨e, delay, left', ps, hleft', hnack, hlive, hps, hx⟩ :=
      step_attempts (left + 1) hleft rfl rfl
    · exact ⟨_, .single rfl (by omega) hstops hputs hends⟩
    · cases hleft'
      have hmax : first.toNat < maxRetries.toNat := by omega
      obtain ⟨tries, htries⟩ := ih (first + 1) _ (by rw [toNat_add_one hmax]; omega)
      rw [hx]
      exact ⟨_, .cons rfl hmax hnack hlive hps htries⟩

/-- **The account of a work item under retry.** Whatever its attempts are and whenever it is cancelled, its attempts are
numbered from zero and made one at a time, each after the pause that the one before asked for, none but the first after
the cancellation; the last one is the first that succeeds, fails for good, uses up the budget, or is followed by the
cancellation before its pause is over, and its result is the result. -/
theorem exists_account_course (maxRetries : UInt32) (attempt : Behaviour ε α) (cancelAt : Option Nat) (start : Nat) :
    ∃ tries, Account maxRetries attempt cancelAt 0 start (course maxRetries attempt cancelAt start) tries :=
  exists_account_attempts maxRetries.toNat 0 start (Nat.zero_add _)

/-- A work item under retry asks for its attempts and for the pauses between them. -/
theorem asksAtMost_attempts (left : Nat) (first : UInt32) :
    (attempts left first : Talk ε α).AsksAtMost (2 * left + 1) := by
  induction left generalizing first with
  | zero =>
    rw [attempts]
    rintro ((_ | _) | _) <;> trivial
  | succ left ih =>
    rw [attempts]
    rintro ((_ | _) | _)
    · exact fun _ => ih (first + 1)
    · trivial
    · trivial

/-- Attempts of three milliseconds each, and a cancellation in the second pause of five seconds. -/
example :
    let x := course 5 (fun n _ => ⟨3, .error (.nack n (some 5000)), false⟩ : Behaviour UInt32 Unit) (some 7000) 0
    x.puts.map Put.begun = [0, 3, 5003, 5006] ∧ outcome x = .error 1 ∧ x.endedAt = 7000 := by
  cbv

end OrderKeeper.Retry
