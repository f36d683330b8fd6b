import OrderKeeper.Dialogue

/-!
# Dialogues in time

`d.timed c cancelled t` is how a dialogue goes from the time `t` under conditions `c`, which say of every question what
comes of it and how long that takes, and when the dialogue is cancelled from outside. A dialogue may also be cancelled
from within, by what answers a question; `cancelled` says whether that has happened.

A cancellation from outside comes before everything else at its time: a question that can be stopped is not put then, and
an answer that is due then comes too late.
-/

namespace OrderKeeper.Dialogue

/-- What comes of a question: the answer, how long it takes, and whether the dialogue is cancelled from within by then. -/
structure Reply (α : Type) where
  takes : Nat
  answer : α
  cancels : Bool := false

/-- What a dialogue meets; times are in milliseconds. -/
structure Conditions (Q : Type) (A : Q → Type) where
  /-- What comes of a question that is put at a time. -/
  reply : (q : Q) → Nat → Reply (A q)
  cancelAt : Option Nat

/-- A question that was put. -/
structure Put (Q : Type) (A : Q → Type) where
  question : Q
  begun : Nat
  /-- What came of it, unless the dialogue was cancelled before. -/
  reply? : Option (Reply (A question))

/-- A dialogue from its start to its end. -/
structure Timeline (Q : Type) (A : Q → Type) (R α : Type) where
  puts : List (Put Q A) := []
  endedAt : Nat
  result : Except R α

variable {Q R α : Type} {A : Q → Type}

/-- The time of the cancellation from outside, if it comes by the time `t`. -/
def Conditions.cancelledBy (c : Conditions Q A) (t : Nat) : Option Nat := c.cancelAt.filter (· ≤ t)

/-- Whether a dialogue that was cancelled from within, or not, is cancelled at the time `t`. -/
def Conditions.isCancelled (c : Conditions Q A) (cancelled : Bool) (t : Nat) : Bool :=
  cancelled || (c.cancelledBy t).isSome

/-- A dialogue that goes on after some questions. -/
def Timeline.after (puts : List (Put Q A)) (x : Timeline Q A R α) : Timeline Q A R α :=
  { x with puts := puts ++ x.puts }

/-- A dialogue from the time `t` on. -/
def timed (c : Conditions Q A) : Dialogue Q A R α → Bool → Nat → Timeline Q A R α
  | .done a, _, t => { endedAt := t, result := .ok a }
  | .ask q stop next, cancelled, t =>
    let y := c.reply q t
    match stop.filter fun _ => c.isCancelled cancelled t with
    | some r => { endedAt := t, result := .error r }
    | none =>
      match stop, c.cancelledBy (t + y.takes) with
      | some r, some k => { puts := [⟨q, t, none⟩], endedAt := k, result := .error r }
      | _, _ => ((next y.answer).timed c (cancelled || y.cancels) (t + y.takes)).after [⟨q, t, some y⟩]

namespace Timeline

theorem after_after (ps ps' : List (Put Q A)) (x : Timeline Q A R α) : (x.after ps').after ps = x.after (ps ++ ps') := by
  simp [after]

@[simp] theorem puts_after (ps : List (Put Q A)) (x : Timeline Q A R α) : (x.after ps).puts = ps ++ x.puts := rfl

end Timeline

variable {c : Conditions Q A} {cancelled : Bool} {t k : Nat} {q : Q} {stop : Option R} {next : A q → Dialogue Q A R α}

theorem Conditions.cancelledBy_eq_none : c.cancelledBy t = none ↔ ∀ k ∈ c.cancelAt, t < k := by
  simp [cancelledBy, Option.filter_eq_none_iff]

theorem Conditions.cancelledBy_eq_some : c.cancelledBy t = some k ↔ c.cancelAt = some k ∧ k ≤ t := by
  simp [cancelledBy, Option.filter_eq_some_iff]

theorem Conditions.isCancelled_iff : c.isCancelled cancelled t = true ↔ cancelled = true ∨ ∃ k ∈ c.cancelAt, k ≤ t := by
  cases hk : c.cancelAt <;> simp [isCancelled, cancelledBy, hk, Option.isSome_filter]

theorem Conditions.isCancelled_eq_false :
    c.isCancelled cancelled t = false ↔ cancelled = false ∧ c.cancelledBy t = none := by
  simp [isCancelled]

/-- A question that can be stopped is not put after the cancellation. -/
theorem timed_of_stop {r : R} (h : stop.filter (fun _ => c.isCancelled cancelled t) = some r) :
    (Dialogue.ask q stop next).timed c cancelled t = { endedAt := t, result := .error r } := by
  rw [timed.eq_def]
  simp only [h]

/-- A question is stopped while its answer is awaited. -/
theorem timed_of_cut {r : R} (h : c.isCancelled cancelled t = false)
    (hk : c.cancelledBy (t + (c.reply q t).takes) = some k) :
    (Dialogue.ask q (some r) next).timed c cancelled t =
      { puts := [⟨q, t, none⟩], endedAt := k, result := .error r } := by
  rw [timed.eq_def]
  simp only [h, hk, Option.filter_some, Bool.false_eq_true, if_false]

/-- A question is answered: it cannot be stopped, or the cancellation has not come. -/
theorem timed_of_answer (h : stop.filter (fun _ => c.isCancelled cancelled t) = none)
    (hk : stop = none ∨ c.cancelledBy (t + (c.reply q t).takes) = none) :
    (Dialogue.ask q stop next).timed c cancelled t =
      ((next (c.reply q t).answer).timed c (cancelled || (c.reply q t).cancels) (t + (c.reply q t).takes)).after
        [⟨q, t, some (c.reply q t)⟩] := by
  rw [timed.eq_def]
  simp only [h]
  rcases hk with rfl | hk
  · rfl
  · simp only [hk]

/-- A dialogue asks no more than `n` questions. -/
def AsksAtMost : Dialogue Q A R α → Nat → Prop
  | .done _, _ => True
  | .ask .., 0 => False
  | .ask _ _ next, n + 1 => ∀ a, (next a).AsksAtMost n

theorem length_puts_timed {d : Dialogue Q A R α} {n : Nat} (h : d.AsksAtMost n) (c : Conditions Q A) (cancelled : Bool)
    (t : Nat) : (d.timed c cancelled t).puts.length ≤ n := by
  induction d generalizing n cancelled t with
  | done a => exact Nat.zero_le n
  | ask q stop next ih =>
    cases n with
    | zero => cases h
    | succ n =>
      rw [timed.eq_def]
      dsimp only
      split
      · exact Nat.zero_le _
      · split
        · exact Nat.le_add_left ..
        · rw [Timeline.puts_after, List.length_append, List.length_singleton, Nat.add_comm]
          exact Nat.succ_le_succ (ih _ (h _) ..)

end OrderKeeper.Dialogue
