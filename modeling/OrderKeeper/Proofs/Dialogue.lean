import OrderKeeper.Dialogue

/-!
# Reasoning about dialogues

A `Rule` says of every question in every state of affairs what it takes that a condition holds once the question is
answered. `d.Keeps rule K s` follows a dialogue by such a rule from the state `s`: whatever the answers are, the rule
allows every question, and `K` holds of the result and of the last state. What cancels a dialogue plays no part.

Every way to build a dialogue has an equation (`keeps_bind`, `keeps_guarded`, `keeps_rephrase`, `keeps_interpret`);
what every question keeps, a whole dialogue keeps (`Keeps.of_invariant`).
-/

namespace OrderKeeper.Dialogue

variable {Q Q' : Type} {A : Q → Type} {A' : Q' → Type} {R R' α β σ τ : Type}

/-- What it takes that a condition on the answer and on the state after it holds. -/
abbrev Rule (Q : Type) (A : Q → Type) (σ : Type) := (q : Q) → (A q → σ → Prop) → σ → Prop

/-- A dialogue keeps to a rule and ends with a condition on its result and on the last state. -/
def Keeps (rule : Rule Q A σ) : Dialogue Q A R α → (α → σ → Prop) → σ → Prop
  | .done a, K => K a
  | .ask q _ next, K => rule q fun a => (next a).Keeps rule K

variable {rule : Rule Q A σ} {s : σ}

@[simp] theorem keeps_done {a : α} {K : α → σ → Prop} : (.done a : Dialogue Q A R α).Keeps rule K = K a := rfl

theorem keeps_ask {q : Q} {stop : Option R} {next : A q → Dialogue Q A R α} {K : α → σ → Prop} :
    (Dialogue.ask q stop next).Keeps rule K = rule q fun a => (next a).Keeps rule K := rfl

/-! ## Ways to build a dialogue -/

theorem keeps_bind (d : Dialogue Q A R α) (f : α → Dialogue Q A R β) (K : β → σ → Prop) :
    (d.bind f).Keeps rule K = d.Keeps rule fun a => (f a).Keeps rule K := by
  induction d with
  | done a => rfl
  | ask q stop next ih => exact congrArg (rule q) (funext ih)

@[simp] theorem keeps_guarded (r : R) (d : Dialogue Q A R' α) (K : α → σ → Prop) :
    (d.guarded r).Keeps rule K = d.Keeps rule K := by
  induction d with
  | done a => rfl
  | ask q stop next ih => exact congrArg (rule q) (funext ih)

@[simp] theorem keeps_unguarded (d : Dialogue Q A R' α) (K : α → σ → Prop) :
    (d.unguarded : Dialogue Q A R α).Keeps rule K = d.Keeps rule K := by
  induction d with
  | done a => rfl
  | ask q stop next ih => exact congrArg (rule q) (funext ih)

theorem keeps_onOk {ε : Type} (d : Dialogue Q A R (Except ε α)) (f : α → Dialogue Q A R (Except ε β))
    (K : Except ε β → σ → Prop) :
    (d.onOk f).Keeps rule K = d.Keeps rule fun
      | .ok a => (f a).Keeps rule K
      | .error e => K (.error e) := by
  rw [onOk, keeps_bind]
  congr 1
  funext r
  cases r <;> rfl

theorem keeps_mapResult (f : α → β) (d : Dialogue Q A R α) (K : β → σ → Prop) :
    (d.mapResult f).Keeps rule K = d.Keeps rule fun a => K (f a) := by
  rw [mapResult, keeps_bind]
  rfl

theorem keeps_rephrase (word : Q → Q') (answer : (q : Q) → A' (word q) → A q) {rule : Rule Q' A' σ}
    (d : Dialogue Q A R α) (K : α → σ → Prop) :
    (d.rephrase word answer).Keeps rule K = d.Keeps (fun q K => rule (word q) fun a => K (answer q a)) K := by
  induction d with
  | done a => rfl
  | ask q stop next ih => exact congrArg (rule (word q)) (funext fun a => ih (answer q a))

/-- The rule of questions that are answered by dialogues, which carry a state of their own along. -/
def Rule.through (rule : Rule Q' A' σ) (answer : (q : Q) → τ → Dialogue Q' A' Empty (A q × τ)) : Rule Q A (τ × σ) :=
  fun q K s => (answer q s.1).Keeps rule (fun r s => K r.1 (r.2, s)) s.2

theorem keeps_interpret (onStop : R → R') (answer : (q : Q) → τ → Dialogue Q' A' Empty (A q × τ)) {rule : Rule Q' A' σ}
    (d : Dialogue Q A R α) (x : τ) (K : α × τ → σ → Prop) (s : σ) :
    (d.interpret onStop answer x).Keeps rule K s =
      d.Keeps (rule.through answer) (fun a s => K (a, s.1) s.2) (x, s) := by
  induction d generalizing x s with
  | done a => rfl
  | ask q stop next ih =>
    have hnext : (fun r : A q × τ => ((next r.1).interpret onStop answer r.2).Keeps rule K) = fun r s =>
        (next r.1).Keeps (rule.through answer) (fun a s => K (a, s.1) s.2) (r.2, s) :=
      funext fun r => funext fun s => ih r.1 r.2 s
    rw [keeps_ask, Rule.through, ← hnext]
    cases stop with
    | none => rw [interpret, keeps_bind, keeps_unguarded]
    | some r => rw [interpret, keeps_bind, keeps_guarded]

/-! ## What all questions keep -/

/-- What every question keeps, whatever is answered, every dialogue keeps. -/
theorem Keeps.of_invariant {I : σ → Prop} (hI : ∀ q K s, I s → (∀ a s, I s → K a s) → rule q K s) {K : α → σ → Prop}
    (hK : ∀ a s, I s → K a s) (d : Dialogue Q A R α) (hs : I s) : d.Keeps rule K s := by
  induction d generalizing s with
  | done a => exact hK a s hs
  | ask q stop next ih => exact hI q _ s hs fun a s hs => ih a hs

/-- All questions of a dialogue are of some kind. -/
def Asks (P : Q → Prop) : Dialogue Q A R α → Prop
  | .done _ => True
  | .ask q _ next => P q ∧ ∀ a, (next a).Asks P

/-- A dialogue whose questions leave the state alone keeps what holds of it for any result. -/
theorem Asks.keeps {P : Q → Prop} (hP : ∀ q K s, P q → (∀ a, K a s) → rule q K s) {d : Dialogue Q A R α}
    {K : α → σ → Prop} (hd : d.Asks P) (hK : ∀ a, K a s) : d.Keeps rule K s := by
  induction d with
  | done a => exact hK a
  | ask q stop next ih => exact hP q _ s hd.1 fun a => ih a (hd.2 a)

end OrderKeeper.Dialogue
