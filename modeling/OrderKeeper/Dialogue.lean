/-!
# Dialogues

A dialogue is a course of action that asks questions of its surroundings and goes on with the answers. Each question
says what becomes of the dialogue if it is cancelled while the answer is awaited: `stop` is then its result, and a
question without `stop` is seen through to its answer.

- `d.onOk f` goes on with `f` after a success of `d`; a failure is the result.
- `guarded r d` is `d` in which every question stops with `r`.
- `interpret` answers the questions of one dialogue by dialogues of another kind, which stop where the question did.
-/

namespace OrderKeeper

/-- A course of action over questions `Q` with answers `A`; `R` is its result when cancelled, `α` otherwise. -/
inductive Dialogue (Q : Type) (A : Q → Type) (R α : Type) where
  | done (a : α)
  | ask (q : Q) (stop : Option R) (next : A q → Dialogue Q A R α)

namespace Dialogue

variable {Q Q' : Type} {A : Q → Type} {A' : Q' → Type} {R R' α β σ : Type}

/-- One question. -/
def question (q : Q) : Dialogue Q A R (A q) := .ask q none .done

/-- Goes on with the result of a dialogue. -/
def bind : Dialogue Q A R α → (α → Dialogue Q A R β) → Dialogue Q A R β
  | .done a, f => f a
  | .ask q stop next, f => .ask q stop fun a => (next a).bind f

instance : Monad (Dialogue Q A R) where
  pure := .done
  bind := bind

/-- The dialogue in which every question stops with `r`. -/
def guarded (r : R) : Dialogue Q A R' α → Dialogue Q A R α
  | .done a => .done a
  | .ask q _ next => .ask q (some r) fun a => (next a).guarded r

/-- The dialogue in which no question stops. -/
def unguarded : Dialogue Q A R' α → Dialogue Q A R α
  | .done a => .done a
  | .ask q _ next => .ask q none fun a => (next a).unguarded

/-- Goes on with a success; a failure is the result. -/
def onOk {ε : Type} (d : Dialogue Q A R (Except ε α)) (f : α → Dialogue Q A R (Except ε β)) :
    Dialogue Q A R (Except ε β) :=
  d.bind fun
    | .ok a => f a
    | .error e => .done (.error e)

/-- The dialogue with a function applied to its result. -/
def mapResult (f : α → β) (d : Dialogue Q A R α) : Dialogue Q A R β := d.bind fun a => .done (f a)

/-- Words the questions of a dialogue as questions of another kind. -/
def rephrase (word : Q → Q') (answer : (q : Q) → A' (word q) → A q) : Dialogue Q A R α → Dialogue Q' A' R α
  | .done a => .done a
  | .ask q stop next => .ask (word q) stop fun a => (next (answer q a)).rephrase word answer

/-- Answers the questions of a dialogue by dialogues over other questions, which carry a state along. What stops a
question stops all questions that answer it. -/
def interpret (onStop : R → R') (answer : (q : Q) → σ → Dialogue Q' A' Empty (A q × σ)) :
    Dialogue Q A R α → σ → Dialogue Q' A' R' (α × σ)
  | .done a, s => .done (a, s)
  | .ask q stop next, s =>
    let asked := match stop with
      | some r => (answer q s).guarded (onStop r)
      | none => (answer q s).unguarded
    asked.bind fun (a, s) => (next a).interpret onStop answer s

/-- The result of a dialogue whose questions are all answered by a function. -/
def answered (answer : (q : Q) → A q) : Dialogue Q A R α → α
  | .done a => a
  | .ask q _ next => (next (answer q)).answered answer

/-- The result of a dialogue. -/
def result? : Dialogue Q A R α → Option α
  | .done a => some a
  | .ask .. => none

/-- The result of a dialogue that is cancelled now, if its question lets it stop. -/
def stopped? : Dialogue Q A R α → Option R
  | .done _ => none
  | .ask _ stop _ => stop

end Dialogue

end OrderKeeper
