import OrderKeeper.Proofs.Polling
import OrderKeeper.Rehearsal.Run

/-!
# The moments of acts

Acts are polled at one moment after the other until all have ended. What polls of all of them keep and no passing of time
changes, holds however far they are run (`runFrom_induction`).

For a single act `Keeps Before After` says what it keeps: `Before` holds when it is about to be polled, `After` once it has
been, and both count the moments that have passed. What is kept holds however far the act is run (`Keeps.runFrom`).
-/

namespace OrderKeeper

namespace Rehearsal

variable {α : Type}

/-! ## Acts side by side -/

section SideBySide

variable {P : World → List (Standing α) → Prop} {w : World} {ss : List (Standing α)}

theorem pollRounds_induction (hpoll : ∀ {w ss}, P w ss → P (pollAll w ss).1 (pollAll w ss).2) (h : P w ss) (fuel : Nat) :
    P (pollRounds fuel w ss).1 (pollRounds fuel w ss).2 := by
  induction fuel generalizing w ss with
  | zero => exact h
  | succ fuel ih =>
    have hall := hpoll h
    by_cases hsame : (pollAll w ss).1.allocator = w.allocator
    · have hrounds : pollRounds (fuel + 1) w ss = pollAll w ss := if_pos hsame
      rw [hrounds]
      exact hall
    · have hrounds : pollRounds (fuel + 1) w ss = pollRounds fuel (pollAll w ss).1 (pollAll w ss).2 := if_neg hsame
      rw [hrounds]
      exact ih hall

/-- What polls of all acts keep, and no passing of time changes, holds however far the acts are run. -/
theorem runFrom_induction (hpoll : ∀ {w ss}, P w ss → P (pollAll w ss).1 (pollAll w ss).2)
    (hnow : ∀ {w ss} (now : Nat), P w ss → P { w with now := now } ss) (h : P w ss) (fuel : Nat) :
    P (runFrom fuel w ss).1 (runFrom fuel w ss).2 := by
  induction fuel generalizing w ss with
  | zero => exact h
  | succ fuel ih =>
    have hrounds := pollRounds_induction hpoll h (8 * ss.length + 8)
    rw [runFrom]
    revert hrounds
    obtain ⟨w', ss'⟩ := pollRounds (8 * ss.length + 8) w ss
    intro hrounds
    dsimp only at hrounds ⊢
    split
    · exact hrounds
    · split
      · exact ih (hnow _ hrounds)
      · exact hrounds

end SideBySide

/-! ## One act -/

theorem nextWake_singleton (now : Nat) (s : Standing α) : nextWake now [s] = s.wake now := by
  rw [nextWake, List.foldl_cons, List.foldl_nil]
  cases s.wake now <;> rfl

/-- What an act keeps from one moment to the next. -/
structure Keeps (Before After : Nat → World → Standing α → Prop) : Prop where
  poll {n : Nat} {w : World} {s : Standing α} : Before n w s → After n (s.poll w).1 (s.poll w).2
  again {n : Nat} {w : World} {s : Standing α} : After n w s → Before n w s
  wake {n : Nat} {w : World} {s : Standing α} {t : Nat} : After n w s → s.wake w.now = some t →
    Before (n + 1) { w with now := max t w.now } s

variable {Before After : Nat → World → Standing α → Prop} {n : Nat} {w : World} {s : Standing α}

/-- Rounds of polls keep what a poll keeps. -/
theorem Keeps.pollRounds (hk : Keeps Before After) (h : Before n w s) (fuel : Nat) :
    ∃ s', (pollRounds (fuel + 1) w [s]).2 = [s'] ∧ After n (pollRounds (fuel + 1) w [s]).1 s' := by
  induction fuel generalizing w s with
  | zero =>
    have hrounds : Rehearsal.pollRounds 1 w [s] = ((s.poll w).1, [(s.poll w).2]) := ite_self _
    rw [hrounds]
    exact ⟨_, rfl, hk.poll h⟩
  | succ fuel ih =>
    by_cases hsame : (s.poll w).1.allocator = w.allocator
    · have hrounds : Rehearsal.pollRounds (fuel + 2) w [s] = ((s.poll w).1, [(s.poll w).2]) := if_pos hsame
      rw [hrounds]
      exact ⟨_, rfl, hk.poll h⟩
    · have hrounds : Rehearsal.pollRounds (fuel + 2) w [s] =
          Rehearsal.pollRounds (fuel + 1) (s.poll w).1 [(s.poll w).2] := if_neg hsame
      rw [hrounds]
      exact ih (hk.again (hk.poll h))

/-- However far an act is run, it keeps what a moment keeps; it has been run for all the moments that it was given, or has
come to its end, or waits for nothing that time brings. -/
theorem Keeps.runFrom (hk : Keeps Before After) (h : Before n w s) (fuel : Nat) :
    ∃ n' s', (runFrom fuel w [s]).2 = [s'] ∧
      (n' = n + fuel ∧ Before n' (runFrom fuel w [s]).1 s' ∨
        After n' (runFrom fuel w [s]).1 s' ∧ (s'.isOver = true ∨ s'.wake (runFrom fuel w [s]).1.now = none)) := by
  induction fuel generalizing n w s with
  | zero => exact ⟨n, s, rfl, .inl ⟨rfl, h⟩⟩
  | succ fuel ih =>
    obtain ⟨s', hs', hafter⟩ := hk.pollRounds h 15
    rw [Rehearsal.runFrom]
    revert hs' hafter
    rw [List.length_singleton]
    generalize Rehearsal.pollRounds (8 * 1 + 8) w [s] = rounds
    obtain ⟨w', ss⟩ := rounds
    intro hs' hafter
    dsimp only at hs' hafter ⊢
    subst hs'
    split
    · rename_i hover
      exact ⟨n, s', rfl, .inr ⟨hafter, .inl (by simpa using hover)⟩⟩
    · rw [nextWake_singleton]
      split
      · rename_i t ht
        obtain ⟨n', s'', hs'', hend⟩ := ih (hk.wake hafter ht)
        exact ⟨n', s'', hs'', hend.imp_left fun ⟨hn, hb⟩ => ⟨by omega, hb⟩⟩
      · rename_i hnone
        exact ⟨n, s', rfl, .inr ⟨hafter, .inr hnone⟩⟩

end Rehearsal

end OrderKeeper
