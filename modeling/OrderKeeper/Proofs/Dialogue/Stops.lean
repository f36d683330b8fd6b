import OrderKeeper.Proofs.Dialogue

/-!
# Dialogues and what cancels them

A `Care` is a rule that also looks at what the dialogue results in if it is cancelled at a question. `d.Minds care K s`
follows a dialogue by it from the state `s`. A part of a dialogue that stops with one result keeps to an ordinary rule
(`minds_guarded`), and so does whatever answers one question of an interpreted dialogue (`minds_interpret`).
-/

namespace OrderKeeper.Dialogue

variable {Q Q' : Type} {A : Q → Type} {A' : Q' → Type} {R R' α β σ τ : Type}

/-- What it takes, at a question with its stop, that a condition on the answer and on the state after it holds. -/
abbrev Care (Q : Type) (A : Q → Type) (R σ : Type) := (q : Q) → Option R → (A q → σ → Prop) → σ → Prop

/-- A dialogue is careful and ends with a condition on its result and on the last state. -/
def Minds (care : Care Q A R σ) : Dialogue Q A R α → (α → σ → Prop) → σ → Prop
  | .done a, K => K a
  | .ask q stop next, K => care q stop fun a => (next a).Minds care K

variable {care : Care Q A R σ}

theorem minds_ask {q : Q} {stop : Option R} {next : A q → Dialogue Q A R α} {K : α → σ → Prop} :
    (Dialogue.ask q stop next).Minds care K = care q stop fun a => (next a).Minds care K := rfl

theorem minds_bind (d : Dialogue Q A R α) (f : α → Dialogue Q A R β) (K : β → σ → Prop) :
    (d.bind f).Minds care K = d.Minds care fun a => (f a).Minds care K := by
  induction d with
  | done a => rfl
  | ask q stop next ih => exact congrArg (care q stop) (funext ih)

theorem minds_onOk {ε : Type} (d : Dialogue Q A R (Except ε α)) (f : α → Dialogue Q A R (Except ε β))
    (K : Except ε β → σ → Prop) :
    (d.onOk f).Minds care K = d.Minds care fun
      | .ok a => (f a).Minds care K
      | .error e => K (.error e) := by
  rw [onOk, minds_bind]
  congr 1
  funext r
  cases r <;> rfl

theorem minds_mapResult (f : α → β) (d : Dialogue Q A R α) (K : β → σ → Prop) :
    (d.mapResult f).Minds care K = d.Minds care fun a => K (f a) := by
  rw [mapResult, minds_bind]
  rfl

theorem minds_guarded (r : R) (d : Dialogue Q A R' α) (K : α → σ → Prop) :
    (d.guarded r).Minds care K = d.Keeps (fun q => care q (some r)) K := by
  induction d with
  | done a => rfl
  | ask q stop next ih => exact congrArg (care q (some r)) (funext ih)

theorem minds_unguarded (d : Dialogue Q A R' α) (K : α → σ → Prop) :
    (d.unguarded : Dialogue Q A R α).Minds care K = d.Keeps (fun q => care q none) K := by
  induction d with
  | done a => rfl
  | ask q stop next ih => exact congrArg (care q none) (funext ih)

/-- The care of questions that are answered by dialogues, which stop where the question does. -/
def Care.through (care : Care Q' A' R' σ) (onStop : R → R')
    (answer : (q : Q) → τ → Dialogue Q' A' Empty (A q × τ)) : Care Q A R (τ × σ) :=
  fun q stop K s =>
    (answer q s.1).Keeps (fun q => care q (stop.map onStop)) (fun r s => K r.1 (r.2, s)) s.2

theorem minds_interpret (onStop : R → R') (answer : (q : Q) → τ → Dialogue Q' A' Empty (A q × τ))
    {care : Care Q' A' R' σ} (d : Dialogue Q A R α) (x : τ) (K : α × τ → σ → Prop) (s : σ) :
    (d.interpret onStop answer x).Minds care K s =
      d.Minds (care.through onStop answer) (fun a s => K (a, s.1) s.2) (x, s) := by
  induction d generalizing x s with
  | done a => rfl
  | ask q stop next ih =>
    have hnext : (fun r : A q × τ => ((next r.1).interpret onStop answer r.2).Minds care K) = fun r s =>
        (next r.1).Minds (care.through onStop answer) (fun a s => K (a, s.1) s.2) (r.2, s) :=
      funext fun r => funext fun s => ih r.1 r.2 s
    rw [minds_ask, Care.through, ← hnext]
    cases stop with
    | none => rw [interpret, minds_bind, minds_unguarded]; rfl
    | some r => rw [interpret, minds_bind, minds_guarded]; rfl

end OrderKeeper.Dialogue
