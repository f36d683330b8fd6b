import Mathlib.Data.List.Chain
import OrderKeeper.Polling

/-!
# Polls one after the other

`visits poll s ws` are the polls of something that is in the state `s`, in one world after the other: whatever happens
between two polls, the next world may be any.

What a course asks of its surroundings while it is polled is recorded by surroundings that keep a record
(`Surroundings.recording`); the record changes nothing (`Dialogue.poll_recording`). In whatever worlds a course is polled, its
record is a `Passage`: one question is put after the other, and each is polled from the state in which it was put, up to
its answer, before the next is put. A course that is polled promptly puts and polls its questions promptly
(`follows_allSteps`).
-/

namespace OrderKeeper

variable {W Q R α S S' : Type} {A : Q → Type}

/-! ## Polls of one thing -/

theorem earlier_le_left {a : Option Nat} {t : Nat} (h : t ∈ a) (b : Option Nat) : ∃ x ∈ earlier a b, x ≤ t := by
  cases h
  cases b with
  | none => exact ⟨t, rfl, Nat.le_refl t⟩
  | some y => exact ⟨min t y, rfl, Nat.min_le_left ..⟩

theorem earlier_le_right {b : Option Nat} {t : Nat} (a : Option Nat) (h : t ∈ b) : ∃ x ∈ earlier a b, x ≤ t := by
  cases h
  cases a with
  | none => exact ⟨t, rfl, Nat.le_refl t⟩
  | some y => exact ⟨min y t, rfl, Nat.min_le_right ..⟩

/-- One poll: the world and the state in which it is made, and what comes of it. -/
structure Visit (W S α : Type) where
  before : W
  state : S
  after : W
  shown : Polled S α

/-- The polls of something in one world after the other, up to the one that finds it ready. -/
def visits (poll : W → S → W × Polled S α) (s : S) : List W → List (Visit W S α)
  | [] => []
  | w :: ws =>
    let r := poll w s
    ⟨w, s, r.1, r.2⟩ ::
      match r.2 with
      | .ready _ => []
      | .waiting s' _ => visits poll s' ws

/-- The first poll is made at the time `start` and every other no later than the one before it asked for, in a time that does
not run backwards. -/
structure Prompt (clock : W → Nat) (start : Nat) (vs : List (Visit W S α)) : Prop where
  first : ∀ v ∈ vs.head?, clock v.before = start
  next : vs.IsChain fun v v' => clock v.after ≤ clock v'.before ∧
    ∀ s wake, v.shown = .waiting s wake → ∀ t ∈ wake, clock v'.before ≤ max t (clock v.after)

/-- What a poll that waits asks for. -/
def Polled.wake? : Polled S α → Option (Option Nat)
  | .ready _ => none
  | .waiting _ wake => some wake

theorem Polled.wake?_eq_some {p : Polled S α} {wake : Option Nat} : p.wake? = some wake ↔ ∃ s, p = .waiting s wake := by
  cases p <;> simp [wake?]

@[simp] theorem Polled.wake?_mapState (f : S → S') (p : Polled S α) : (p.mapState f).wake? = p.wake? := by
  cases p <;> rfl

/-- Polls that are made when others are, and ask for what these ask for, are as prompt. -/
theorem Prompt.of_map {β : Type} {clock : W → Nat} {start : Nat} {f : Visit W S α → Visit W S' β} {vs : List (Visit W S α)}
    (h : Prompt clock start (vs.map f))
    (hf : ∀ v, (f v).before = v.before ∧ (f v).after = v.after ∧ (f v).shown.wake? = v.shown.wake?) :
    Prompt clock start vs := by
  constructor
  case first =>
    intro v hv
    have hfirst := h.first (f v) (by rw [List.head?_map, Option.mem_def.1 hv, Option.map_some, Option.mem_def])
    rwa [(hf v).1] at hfirst
  case next =>
    refine ((List.isChain_map f).1 h.next).imp fun v v' hv => ?_
    obtain ⟨-, hafter, hwake⟩ := hf v
    rw [(hf v').1, hafter] at hv
    refine ⟨hv.1, fun s wake hshown => ?_⟩
    obtain ⟨s', hshown'⟩ := Polled.wake?_eq_some.1 (hwake.trans (Polled.wake?_eq_some.2 ⟨s, hshown⟩))
    exact hv.2 s' wake hshown'

/-- A poll with a function applied to what is polled. -/
def Visit.mapState (f : S → S') (v : Visit W S α) : Visit W S' α := ⟨v.before, f v.state, v.after, v.shown.mapState f⟩

section

variable {poll : W → S → W × Polled S α} {s s' : S} {w w' : W} {ws : List W} {a : α} {wake : Option Nat}

theorem visits_of_ready (h : poll w s = (w', .ready a)) : visits poll s (w :: ws) = [⟨w, s, w', .ready a⟩] := by
  simp [visits, h]

theorem visits_of_waiting (h : poll w s = (w', .waiting s' wake)) :
    visits poll s (w :: ws) = ⟨w, s, w', .waiting s' wake⟩ :: visits poll s' ws := by
  simp [visits, h]

theorem head?_visits (poll : W → S → W × Polled S α) (s : S) (w : W) (ws : List W) :
    (visits poll s (w :: ws)).head? = some ⟨w, s, (poll w s).1, (poll w s).2⟩ := rfl

/-- Every poll is one. -/
theorem poll_of_mem_visits {v : Visit W S α} (hv : v ∈ visits poll s ws) : poll v.before v.state = (v.after, v.shown) := by
  induction ws generalizing s with
  | nil => cases hv
  | cons w ws ih =>
    rcases hp : poll w s with ⟨w', a | ⟨s', wake⟩⟩
    · rw [visits_of_ready hp, List.mem_singleton] at hv
      rw [hv]
      exact hp
    · rw [visits_of_waiting hp, List.mem_cons] at hv
      rcases hv with rfl | hv
      · exact hp
      · exact ih hv

/-- What comes after a prompt poll that waits is prompt, and is made no later than this poll asks for. -/
theorem Prompt.of_waiting {clock : W → Nat} {start : Nat} {w₂ : W} (h : Prompt clock start (visits poll s (w :: w₂ :: ws)))
    (hp : poll w s = (w', .waiting s' wake)) :
    clock w' ≤ clock w₂ ∧ (∀ t ∈ wake, clock w₂ ≤ max t (clock w')) ∧
      Prompt clock (clock w₂) (visits poll s' (w₂ :: ws)) := by
  rw [visits_of_waiting hp] at h
  obtain ⟨hnext, hchain⟩ := List.isChain_cons.1 h.next
  obtain ⟨hle, hasked⟩ := hnext _ (head?_visits ..)
  refine ⟨hle, hasked s' wake rfl, ?_, hchain⟩
  intro v hv
  rw [← Option.some.inj hv]

/-- What is polled through a function of its state is polled alike. -/
theorem visits_mapState {poll' : W → S' → W × Polled S' α} {f : S → S'}
    (h : ∀ w s, poll' w (f s) = ((poll w s).1, (poll w s).2.mapState f)) (s : S) (ws : List W) :
    visits poll' (f s) ws = (visits poll s ws).map (Visit.mapState f) := by
  induction ws generalizing s with
  | nil => rfl
  | cons w ws ih =>
    rcases hp : poll w s with ⟨w', a | ⟨s', wake⟩⟩
    · have hp' : poll' w (f s) = (w', .ready a) := by rw [h, hp]; rfl
      rw [visits_of_ready hp, visits_of_ready hp']
      rfl
    · have hp' : poll' w (f s) = (w', .waiting (f s') wake) := by rw [h, hp]; rfl
      rw [visits_of_waiting hp, visits_of_waiting hp', ih]
      rfl

end

/-! ## Polls of a dialogue -/

namespace Dialogue

/-- What a dialogue does to its surroundings: it puts a question, or looks for the answer. -/
inductive Step (W Q : Type) (A : Q → Type) (S : Type) where
  | begun (q : Q) (before after : W) (s : S)
  | polled (q : Q) (v : Visit W S (A q))

/-- Whether a step looks for an answer. -/
def Step.isPolled : Step W Q A S → Bool
  | .begun .. => false
  | .polled .. => true

/-- The world in which a step is made. -/
def Step.before : Step W Q A S → W
  | .begun _ w _ _ => w
  | .polled _ v => v.before

/-- The world that it leaves. -/
def Step.after : Step W Q A S → W
  | .begun _ _ w _ => w
  | .polled _ v => v.after

/-- What a step asks for if it waits. -/
def Step.wake? : Step W Q A S → Option (Option Nat)
  | .begun .. => none
  | .polled _ v => v.shown.wake?

/-- One step is followed by another at once, or no later than it asks for if it waits. -/
def Step.Follows (clock : W → Nat) (t t' : Step W Q A S) : Prop :=
  match t.wake? with
  | none => t'.before = t.after
  | some wake => clock t.after ≤ clock t'.before ∧ ∀ x ∈ wake, clock t'.before ≤ max x (clock t.after)

/-- Steps that are made at once, one after the other, from one world to another, up to a step that waits. -/
inductive AtOnce : W → List (Step W Q A S) → W → Option (Option Nat) → Prop where
  | done (w : W) : AtOnce w [] w none
  | waiting {t : Step W Q A S} {wake : Option Nat} (h : t.wake? = some wake) : AtOnce t.before [t] t.after (some wake)
  | cons {t : Step W Q A S} {steps : List (Step W Q A S)} {w' : W} {wake : Option (Option Nat)} (h : t.wake? = none)
      (rest : AtOnce t.after steps w' wake) : AtOnce t.before (t :: steps) w' wake

/-- Steps that put one question after the other and see each through to its answer; at both ends a question may be open. -/
inductive Passage (e : Surroundings W Q A S) : Option (Q × S) → List (Step W Q A S) → Option (Q × S) → Prop where
  | refl (x : Option (Q × S)) : Passage e x [] x
  | begun {w w' : W} {q : Q} {s : S} {steps : List (Step W Q A S)} {y : Option (Q × S)} (h : e.begin w q = (w', s))
      (rest : Passage e (some (q, s)) steps y) : Passage e none (.begun q w w' s :: steps) y
  | waiting {w w' : W} {q : Q} {s s' : S} {wake : Option Nat} {steps : List (Step W Q A S)} {y : Option (Q × S)}
      (h : e.poll w q s = (w', .waiting s' wake)) (rest : Passage e (some (q, s')) steps y) :
      Passage e (some (q, s)) (.polled q ⟨w, s, w', .waiting s' wake⟩ :: steps) y
  | ready {w w' : W} {q : Q} {s : S} {a : A q} {steps : List (Step W Q A S)} {y : Option (Q × S)}
      (h : e.poll w q s = (w', .ready a)) (rest : Passage e none steps y) :
      Passage e (some (q, s)) (.polled q ⟨w, s, w', .ready a⟩ :: steps) y

variable {e : Surroundings W Q A S} {cancelled : W → Bool} {q : Q} {stop : Option R} {next : A q → Dialogue Q A R α}
  {begun : Option S} {w w' : W} {s : S} {x y z : Option (Q × S)} {steps steps' : List (Step W Q A S)}

/-- The state of a question that is put now if it has not been put yet. -/
def put (e : Surroundings W Q A S) (w : W) (q : Q) : Option S → W × S
  | some s => (w, s)
  | none => e.begin w q

theorem poll_of_stop {r : R} (h : stop.filter (fun _ => cancelled w) = some r) :
    (Dialogue.ask q stop next).poll e cancelled begun w = (w, .ready (.error r)) := by
  unfold poll
  rw [h]

theorem poll_of_ready {a : A q} (h : stop.filter (fun _ => cancelled w) = none)
    (hp : e.poll (put e w q begun).1 q (put e w q begun).2 = (w', .ready a)) :
    (Dialogue.ask q stop next).poll e cancelled begun w = (next a).poll e cancelled none w' := by
  rw [poll.eq_def]
  cases begun <;> simp only [put] at hp <;> simp only [h, hp]

theorem poll_of_waiting {s : S} {wake : Option Nat} (h : stop.filter (fun _ => cancelled w) = none)
    (hp : e.poll (put e w q begun).1 q (put e w q begun).2 = (w', .waiting s wake)) :
    (Dialogue.ask q stop next).poll e cancelled begun w = (w', .waiting ⟨.ask q stop next, some s⟩ wake) := by
  rw [poll.eq_def]
  cases begun <;> simp only [put] at hp <;> simp only [h, hp]

/-- What surroundings keep whatever is asked of them, every poll of a dialogue keeps. -/
theorem poll_keeps {P : W → Prop} (hbegin : ∀ w q, P w → P (e.begin w q).1) (hpoll : ∀ w q s, P w → P (e.poll w q s).1)
    (d : Dialogue Q A R α) (begun : Option S) (h : P w) : P (d.poll e cancelled begun w).1 := by
  induction d generalizing begun w with
  | done a => exact h
  | ask q stop next ih =>
    cases hstop : stop.filter fun _ => cancelled w with
    | some r =>
      rw [poll_of_stop hstop]
      exact h
    | none =>
      have hput : P (put e w q begun).1 := by
        cases begun with
        | none => exact hbegin w q h
        | some s => exact h
      have hlook := hpoll _ q (put e w q begun).2 hput
      rcases hp : e.poll (put e w q begun).1 q (put e w q begun).2 with ⟨w', a | ⟨s, wake⟩⟩
      · rw [hp] at hlook
        rw [poll_of_ready hstop hp]
        exact ih a none hlook
      · rw [hp] at hlook
        rw [poll_of_waiting hstop hp]
        exact hlook

namespace AtOnce

variable {clock : W → Nat} {wake : Option (Option Nat)}

theorem before_of_head? (h : AtOnce w steps w' wake) : ∀ t ∈ steps.head?, t.before = w := by
  cases h with
  | done => simp
  | waiting => simp
  | cons => simp

theorem of_getLast? {wake : Option Nat} (h : AtOnce w steps w' (some wake)) :
    ∃ t, steps.getLast? = some t ∧ t.after = w' ∧ t.wake? = some wake := by
  generalize hwake : some wake = asked at h
  induction h with
  | done => cases hwake
  | waiting h => exact ⟨_, rfl, rfl, h⟩
  | cons _ _ ih =>
    obtain ⟨t, ht, hlast⟩ := ih hwake
    exact ⟨t, by simp [List.getLast?_cons, ht], hlast⟩

theorem follows (h : AtOnce w steps w' wake) : steps.IsChain (Step.Follows clock) := by
  induction h with
  | done => exact .nil
  | waiting => exact .singleton _
  | cons h rest ih =>
    refine List.isChain_cons.2 ⟨fun t ht => ?_, ih⟩
    rw [Step.Follows, h]
    exact rest.before_of_head? t ht

end AtOnce

/-- The polls of a question that is put among steps that follow each other promptly are prompt themselves. -/
theorem prompt_of_follows {clock : W → Nat} {vs : List (Visit W S (A q))}
    (h : (steps ++ .begun q w w' s :: steps').IsChain (Step.Follows clock))
    (hvs : steps'.takeWhile Step.isPolled = vs.map (Step.polled q)) : Prompt clock (clock w') vs := by
  have hprefix : (Step.begun q w w' s :: steps'.takeWhile Step.isPolled).IsChain (Step.Follows clock) :=
    h.right_of_append.prefix ((List.prefix_cons_inj _).2 (List.takeWhile_prefix _))
  rw [hvs, List.isChain_cons, List.isChain_map] at hprefix
  obtain ⟨hfirst, hnext⟩ := hprefix
  constructor
  case first =>
    intro v hv
    exact congrArg clock (hfirst (.polled q v) (by rw [List.head?_map, Option.mem_def.1 hv, Option.map_some, Option.mem_def]))
  case next =>
    refine hnext.imp fun v v' hv => ?_
    obtain ⟨before, state, after, a | ⟨s', wake⟩⟩ := v
    · exact ⟨Nat.le_of_eq (congrArg clock hv).symm, by simp⟩
    · exact ⟨hv.1, fun _ _ hshown => (Polled.waiting.inj hshown).2 ▸ hv.2⟩

namespace Passage

/-- Nothing is polled before a question has been put. -/
theorem isPolled_head? (h : Passage e none steps y) : ∀ t ∈ steps.head?, t.isPolled = false := by
  cases h with
  | refl => simp
  | begun => simp [Step.isPolled]

theorem trans (h : Passage e x steps y) (h' : Passage e y steps' z) : Passage e x (steps ++ steps') z := by
  induction h with
  | refl => exact h'
  | begun h _ ih => exact .begun h (ih h')
  | waiting h _ ih => exact .waiting h (ih h')
  | ready h _ ih => exact .ready h (ih h')

/-- What follows a question that is put, is a passage from that question on. -/
theorem of_begun (h : Passage e x (steps ++ .begun q w w' s :: steps') y) :
    e.begin w q = (w', s) ∧ Passage e (some (q, s)) steps' y := by
  induction steps generalizing x with
  | nil =>
    cases h with
    | begun h rest => exact ⟨h, rest⟩
  | cons t steps ih =>
    cases h with
    | begun _ rest => exact ih rest
    | waiting _ rest => exact ih rest
    | ready _ rest => exact ih rest

/-- An open question is polled from its state on, up to its answer or the end of the passage. -/
theorem exists_visits (h : Passage e (some (q, s)) steps y) :
    ∃ ws, steps.takeWhile Step.isPolled = (visits (fun w s => e.poll w q s) s ws).map (Step.polled q) ∧
      ((∃ v ∈ (visits (fun w s => e.poll w q s) s ws).getLast?, ∃ a, v.shown = .ready a) ∨
        (∀ t ∈ steps, t.isPolled = true) ∧ ∃ s', y = some (q, s')) := by
  induction steps generalizing s with
  | nil =>
    cases h with
    | refl => exact ⟨[], rfl, .inr ⟨by simp, s, rfl⟩⟩
  | cons t steps ih =>
    cases h with
    | @waiting w _ _ _ _ _ _ _ h rest =>
      obtain ⟨ws, hsteps, hend⟩ := ih rest
      refine ⟨w :: ws, ?_, ?_⟩
      · rw [visits_of_waiting h, List.takeWhile_cons_of_pos rfl, hsteps]
        rfl
      · rw [visits_of_waiting h]
        refine hend.imp ?_ ?_
        · rintro ⟨v, hv, hready⟩
          exact ⟨v, by simp [List.getLast?_cons, Option.mem_def.1 hv], hready⟩
        · exact fun ⟨hpolled, hy⟩ => ⟨List.forall_mem_cons.2 ⟨rfl, hpolled⟩, hy⟩
    | @ready w _ _ _ _ _ _ h rest =>
      refine ⟨[w], ?_, .inl ?_⟩
      · have hrest : steps.takeWhile Step.isPolled = [] := by cases rest <;> rfl
        rw [visits_of_ready h, List.takeWhile_cons_of_pos rfl, hrest]
        rfl
      · rw [visits_of_ready h]
        exact ⟨_, rfl, _, rfl⟩

end Passage

/-- All questions of some kind are seen through to their answers. -/
def SeesThrough (P : Q → Prop) : Dialogue Q A R α → Prop
  | .done _ => True
  | .ask q stop next => (P q → stop = none) ∧ ∀ a, (next a).SeesThrough P

/-- The question of a dialogue that is open. -/
def openWith (begun : Option S) : Dialogue Q A R α → Option (Q × S)
  | .done _ => none
  | .ask q .. => begun.map fun s => (q, s)

theorem openWith_none (d : Dialogue Q A R α) : d.openWith (none : Option S) = none := by
  cases d <;> rfl

end Dialogue

/-- Surroundings that keep a record of what is done to them. -/
def Surroundings.recording (e : Surroundings W Q A S) : Surroundings (W × List (Dialogue.Step W Q A S)) Q A S where
  begin x q :=
    let r := e.begin x.1 q
    ((r.1, x.2 ++ [.begun q x.1 r.1 r.2]), r.2)
  poll x q s :=
    let r := e.poll x.1 q s
    ((r.1, x.2 ++ [.polled q ⟨x.1, s, r.1, r.2⟩]), r.2)

namespace Dialogue

variable {e : Surroundings W Q A S} {cancelled : W → Bool} {P : Q → Prop}

theorem exists_put (e : Surroundings W Q A S) (w : W) (q : Q) (begun : Option S) (past : List (Step W Q A S)) :
    ∃ steps, put e.recording (w, past) q begun = (((put e w q begun).1, past ++ steps), (put e w q begun).2) ∧
      Passage e (begun.map fun s => (q, s)) steps (some (q, (put e w q begun).2)) ∧
      ∀ more w' wake, AtOnce (put e w q begun).1 more w' wake → AtOnce w (steps ++ more) w' wake := by
  cases begun with
  | none => exact ⟨[.begun q w _ _], rfl, .begun rfl (.refl _), fun _ _ _ h => .cons (t := .begun q w _ _) rfl h⟩
  | some s => exact ⟨[], by simp [put], .refl _, fun _ _ _ h => h⟩

/-- A poll whose steps are recorded is the same poll, and its steps, made at once, are a passage from the question that was
open to the one that it leaves open. None is left open that has to be seen through, unless the poll waits for it. -/
theorem poll_recording {d : Dialogue Q A R α} (hd : d.SeesThrough P) (begun : Option S) (w : W)
    (past : List (Step W Q A S)) :
    ∃ steps y, d.poll e.recording (fun x => cancelled x.1) begun (w, past) =
        (((d.poll e cancelled begun w).1, past ++ steps), (d.poll e cancelled begun w).2) ∧
      Passage e (d.openWith begun) steps y ∧
      AtOnce w steps (d.poll e cancelled begun w).1 (d.poll e cancelled begun w).2.wake? ∧
      (∀ c wake, (d.poll e cancelled begun w).2 = .waiting c wake →
        y = c.talk.openWith c.begun ∧ c.talk.SeesThrough P) ∧
      ∀ r, (d.poll e cancelled begun w).2 = .ready r → ∀ z ∈ y, ¬ P z.1 := by
  induction d generalizing begun w past with
  | done a => exact ⟨[], none, by simp [poll], .refl _, .done w, by simp [poll], by simp⟩
  | ask q stop next ih =>
    obtain ⟨hq, hnext⟩ := hd
    cases hstop : stop.filter fun _ => cancelled w with
    | some r =>
      have hopen : ∀ z ∈ (Dialogue.ask q stop next).openWith begun, ¬ P z.1 := by
        rintro z hz hP
        obtain ⟨s, -, rfl⟩ := Option.map_eq_some_iff.1 hz
        rw [hq hP] at hstop
        cases hstop
      refine ⟨[], _, ?_, .refl _, ?_, ?_, fun _ _ => hopen⟩
      · rw [poll_of_stop hstop, List.append_nil]
        exact poll_of_stop hstop
      · rw [poll_of_stop hstop]
        exact .done w
      · intro c wake hc
        rw [poll_of_stop hstop] at hc
        cases hc
    | none =>
      obtain ⟨steps, hput, hpassage, hatOnce⟩ := exists_put e w q begun past
      rcases hp : e.poll (put e w q begun).1 q (put e w q begun).2 with ⟨w', p⟩
      let looked : Step W Q A S := .polled q ⟨(put e w q begun).1, (put e w q begun).2, w', p⟩
      have hp' : e.recording.poll (put e.recording (w, past) q begun).1 q (put e.recording (w, past) q begun).2 =
          ((w', past ++ (steps ++ [looked])), p) := by
        rw [hput]
        simp [Surroundings.recording, hp, looked]
      cases p with
      | ready a =>
        obtain ⟨more, y, hpoll, hmore, hrest, hleft⟩ := ih a (hnext a) none w' (past ++ (steps ++ [looked]))
        rw [openWith_none] at hmore
        refine ⟨steps ++ (looked :: more), y, ?_, hpassage.trans (.ready hp hmore), ?_⟩
        · have hnow : (Dialogue.ask q stop next).poll e.recording (fun x => cancelled x.1) begun (w, past) =
              (next a).poll e.recording (fun x => cancelled x.1) none (w', past ++ (steps ++ [looked])) :=
            poll_of_ready hstop hp'
          rw [hnow, hpoll, poll_of_ready hstop hp]
          simp
        · rw [poll_of_ready hstop hp]
          exact ⟨hatOnce _ _ _ (.cons (t := looked) rfl hrest), hleft⟩
      | waiting s' wake =>
        refine ⟨steps ++ [looked], some (q, s'), ?_, hpassage.trans (.waiting hp (.refl _)), ?_, ?_, ?_⟩
        · rw [poll_of_waiting hstop hp]
          exact poll_of_waiting hstop hp'
        · rw [poll_of_waiting hstop hp]
          exact hatOnce _ _ _ (.waiting (t := looked) rfl)
        · intro c wake' hc
          rw [poll_of_waiting hstop hp] at hc
          cases hc
          exact ⟨rfl, hq, hnext⟩
        · intro r hr
          rw [poll_of_waiting hstop hp] at hr
          cases hr

end Dialogue

namespace Course

open Dialogue (Step Passage AtOnce)

/-- What one poll of a course does to its surroundings. -/
def steps (e : Surroundings W Q A S) (cancelled : W → Bool) (w : W) (c : Course Q A R α S) : List (Step W Q A S) :=
  (c.poll e.recording (fun x => cancelled x.1) (w, [])).1.2

/-- What its polls do in one world after the other. -/
def allSteps (e : Surroundings W Q A S) (cancelled : W → Bool) (c : Course Q A R α S) (ws : List W) :
    List (Step W Q A S) :=
  (visits (poll e cancelled) c ws).flatMap fun v => v.state.steps e cancelled v.before

variable (e : Surroundings W Q A S) (cancelled : W → Bool) {P : Q → Prop} {c : Course Q A R α S}

/-- One poll of a course, as one of its dialogue (`Dialogue.poll_recording`). -/
theorem passage_steps (hc : c.talk.SeesThrough P) (w : W) :
    ∃ y, Passage e (c.talk.openWith c.begun) (c.steps e cancelled w) y ∧
      AtOnce w (c.steps e cancelled w) (c.poll e cancelled w).1 (c.poll e cancelled w).2.wake? ∧
      (∀ c' wake, (c.poll e cancelled w).2 = .waiting c' wake →
        y = c'.talk.openWith c'.begun ∧ c'.talk.SeesThrough P) ∧
      ∀ r, (c.poll e cancelled w).2 = .ready r → ∀ z ∈ y, ¬ P z.1 := by
  obtain ⟨steps, y, hrecord, hrest⟩ := Dialogue.poll_recording hc c.begun w []
  have hsteps : c.steps e cancelled w = steps := by
    rw [Course.steps, poll, hrecord]
    rfl
  rw [hsteps]
  exact ⟨y, hrest⟩

theorem allSteps_of_ready {w w' : W} {r : Except R α} (h : c.poll e cancelled w = (w', .ready r)) (ws : List W) :
    allSteps e cancelled c (w :: ws) = c.steps e cancelled w := by
  rw [allSteps, visits_of_ready h]
  simp

theorem allSteps_of_waiting {w w' : W} {c' : Course Q A R α S} {wake : Option Nat}
    (h : c.poll e cancelled w = (w', .waiting c' wake)) (ws : List W) :
    allSteps e cancelled c (w :: ws) = c.steps e cancelled w ++ allSteps e cancelled c' ws := by
  rw [allSteps, visits_of_waiting h]
  simp [allSteps]

/-- In whatever worlds a course is polled, its steps are a passage. If it ends, no question is left open that has to be seen
through. -/
theorem passage_allSteps (hc : c.talk.SeesThrough P) (ws : List W) :
    ∃ y, Passage e (c.talk.openWith c.begun) (allSteps e cancelled c ws) y ∧
      ((∃ v ∈ visits (poll e cancelled) c ws, ∃ r, v.shown = .ready r) → ∀ z ∈ y, ¬ P z.1) := by
  induction ws generalizing c with
  | nil => exact ⟨_, .refl _, by simp [visits]⟩
  | cons w ws ih =>
    obtain ⟨y, hsteps, -, hwaiting, hready⟩ := passage_steps e cancelled hc w
    rcases hpoll : c.poll e cancelled w with ⟨w', r | ⟨c', wake⟩⟩
    · rw [allSteps_of_ready e cancelled hpoll]
      exact ⟨y, hsteps, fun _ => hready r (congrArg Prod.snd hpoll)⟩
    · obtain ⟨rfl, hc'⟩ := hwaiting c' wake (congrArg Prod.snd hpoll)
      obtain ⟨z, hrest, hend⟩ := ih hc'
      rw [allSteps_of_waiting e cancelled hpoll, visits_of_waiting hpoll]
      refine ⟨z, hsteps.trans hrest, fun ⟨v, hv, r, hr⟩ => hend ⟨v, ?_, r, hr⟩⟩
      rcases List.mem_cons.1 hv with rfl | hv
      · cases hr
      · exact hv

theorem before_of_head?_allSteps (hc : c.talk.SeesThrough P) (w : W) (ws : List W) :
    ∀ t ∈ (allSteps e cancelled c (w :: ws)).head?, t.before = w := by
  obtain ⟨-, -, hatOnce, -⟩ := passage_steps e cancelled hc w
  rcases hpoll : c.poll e cancelled w with ⟨w', r | ⟨c', wake⟩⟩
  · rw [allSteps_of_ready e cancelled hpoll]
    exact hatOnce.before_of_head?
  · rw [hpoll] at hatOnce
    obtain ⟨t, ht, -⟩ := hatOnce.of_getLast?
    -- A poll that waits has taken a step.
    have hne : c.steps e cancelled w ≠ [] := List.ne_nil_of_mem (List.mem_of_getLast? ht)
    rw [allSteps_of_waiting e cancelled hpoll, List.head?_append_of_ne_nil _ hne]
    exact hatOnce.before_of_head?

/-- The steps of a course that is polled promptly follow each other promptly. -/
theorem follows_allSteps {clock : W → Nat} {start : Nat} (hc : c.talk.SeesThrough P) (ws : List W)
    (h : Prompt clock start (visits (poll e cancelled) c ws)) :
    (allSteps e cancelled c ws).IsChain (Step.Follows clock) := by
  induction ws generalizing c start with
  | nil => exact .nil
  | cons w ws ih =>
    obtain ⟨y, -, hatOnce, hwaiting, -⟩ := passage_steps e cancelled hc w
    rcases hpoll : c.poll e cancelled w with ⟨w', r | ⟨c', wake⟩⟩
    · rw [allSteps_of_ready e cancelled hpoll]
      exact hatOnce.follows
    · obtain ⟨-, hc'⟩ := hwaiting c' wake (congrArg Prod.snd hpoll)
      rw [hpoll] at hatOnce
      obtain ⟨t, ht, hafter, hwake⟩ := hatOnce.of_getLast?
      rw [allSteps_of_waiting e cancelled hpoll]
      cases ws with
      | nil => simpa [allSteps, visits] using hatOnce.follows
      | cons w₂ ws =>
        obtain ⟨hle, hasked, hprompt⟩ := h.of_waiting hpoll
        refine List.isChain_append.2 ⟨hatOnce.follows, ih hc' hprompt, fun l hl m hm => ?_⟩
        cases ht.symm.trans hl
        rw [Step.Follows, hwake, before_of_head?_allSteps e cancelled hc' w₂ ws m hm, hafter]
        exact ⟨hle, hasked⟩

end Course

end OrderKeeper
