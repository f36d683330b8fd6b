import OrderKeeper.Dialogue

/-!
# Polling

How dialogues run in time: whoever runs one polls it, which carries it on until it has to wait. Cancellation is looked at
first in every poll, before a question is put and while its answer is awaited.
-/

namespace OrderKeeper

/-- What a poll shows. -/
inductive Polled (S α : Type) where
  | ready (a : α)
  /-- What is waited for, and the time at which polling again may show more, if time alone can help. -/
  | waiting (s : S) (wake : Option Nat)

/-- The earlier one of two times. -/
def earlier : Option Nat → Option Nat → Option Nat
  | some a, some b => some (min a b)
  | a, b => a.or b

/-- What answers the questions `Q`; a question that waits for its answer is in a state `S`. -/
structure Surroundings (W Q : Type) (A : Q → Type) (S : Type) where
  /-- Puts a question. -/
  begin : W → Q → W × S
  /-- Looks for its answer. -/
  poll : W → (q : Q) → S → W × Polled S (A q)

/-- A dialogue under way; `begun` is the state of its question once the question has been put. -/
structure Course (Q : Type) (A : Q → Type) (R α S : Type) where
  talk : Dialogue Q A R α
  begun : Option S := none

variable {W Q R α S : Type} {A : Q → Type}

/-- Polls a dialogue, whose question may have been put already. -/
def Dialogue.poll (e : Surroundings W Q A S) (cancelled : W → Bool) :
    Dialogue Q A R α → Option S → W → W × Polled (Course Q A R α S) (Except R α)
  | .done a, _, w => (w, .ready (.ok a))
  | .ask q stop next, begun, w =>
    match stop.filter fun _ => cancelled w with
    | some r => (w, .ready (.error r))
    | none =>
      let (w, s) := match begun with
        | some s => (w, s)
        | none => e.begin w q
      match e.poll w q s with
      | (w, .ready a) => (next a).poll e cancelled none w
      | (w, .waiting s wake) => (w, .waiting ⟨.ask q stop next, some s⟩ wake)

/-- Polls a dialogue under way. -/
def Course.poll (e : Surroundings W Q A S) (cancelled : W → Bool) (w : W) (c : Course Q A R α S) :
    W × Polled (Course Q A R α S) (Except R α) :=
  c.talk.poll e cancelled c.begun w

/-- A poll with a function applied to what is waited for. -/
def Polled.mapState {S' : Type} (f : S → S') : Polled S α → Polled S' α
  | .ready a => .ready a
  | .waiting s wake => .waiting (f s) wake

end OrderKeeper
