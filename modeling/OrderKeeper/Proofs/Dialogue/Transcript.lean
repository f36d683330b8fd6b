import OrderKeeper.Dialogue

/-!
# Transcripts

Whoever answers the questions of a dialogue may mind everything that was asked and answered before. `d.transcript answer h`
is the whole history of `d`, begun after `h`, and its result; one part of a dialogue begins where the part before it has come
to (`transcript_bind`).
-/

namespace OrderKeeper.Dialogue

variable {Q : Type} {A : Q → Type} {R α β : Type}

/-- What answers each question, knowing all questions and answers before it. -/
abbrev Respondent (Q : Type) (A : Q → Type) := List (Σ q, A q) → (q : Q) → A q

/-- The questions of a dialogue with their answers, after those before it, and its result. -/
def transcript (answer : Respondent Q A) : Dialogue Q A R α → List (Σ q, A q) → List (Σ q, A q) × α
  | .done a, h => (h, a)
  | .ask q _ next, h => (next (answer h q)).transcript answer (h ++ [⟨q, answer h q⟩])

variable {answer : Respondent Q A}

theorem transcript_bind (d : Dialogue Q A R α) (f : α → Dialogue Q A R β) (h : List (Σ q, A q)) :
    (d.bind f).transcript answer h =
      (f (d.transcript answer h).2).transcript answer (d.transcript answer h).1 := by
  induction d generalizing h with
  | done a => rfl
  | ask q stop next ih => exact ih (answer h q) (h ++ [⟨q, answer h q⟩])

end OrderKeeper.Dialogue
