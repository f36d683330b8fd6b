import OrderKeeper.Proofs.Nonce.Move

/-!
# Attempts

A request that makes those of its steps that are possible, one after the other: where it stands after the rows of steps
in which a lease is begun, looked for and settled.
-/

namespace OrderKeeper.Nonce.Allocator

variable {a b : Allocator} {t : Ticket} {k : Key} {st : Stage} {x : Step} {xs : List Step}

theorem attempt_of_apply (h : a.apply ⟨t, x⟩ = some b) : a.attempt t (x :: xs) = b.attempt t xs := by
  rw [attempt, List.foldl_cons, h]
  rfl

theorem attempt_of_eq_none (h : a.apply ⟨t, x⟩ = none) : a.attempt t (x :: xs) = a.attempt t xs := by
  rw [attempt, List.foldl_cons, h]
  rfl

/-- A step that the slot of a request allows is made. -/
theorem request_attempt_of_step? {r : Request} {s' : Slot} {stage' : Option Stage}
    (h : a.requests.get? t = some ⟨k, st⟩) (hs : (a.slot k).step? t (some st) x = some (s', stage'))
    (hr : ((a.put t k s' stage').attempt t xs).requests.get? t = some r) :
    (a.attempt t (x :: xs)).requests.get? t = some r := by
  rw [attempt_of_apply (apply_of_step? h hs)]
  exact hr

/-- A step that no slot allows at the stage of a request is left out. -/
theorem request_attempt_of_not_steps {r : Request} (h : a.requests.get? t = some ⟨k, st⟩)
    (hs : ∀ {s s' : Slot} {stage' : Option Stage}, ¬Slot.Steps k t s (some st) x s' stage')
    (hr : (a.attempt t xs).requests.get? t = some r) : (a.attempt t (x :: xs)).requests.get? t = some r := by
  rw [attempt_of_eq_none (apply_eq_none h hs)]
  exact hr

/-- A new request follows a lease or waits at the gate. -/
theorem request_attempt_begin (h : a.requests.get? t = none) (k : Key) :
    ∃ s', (a.attempt t [.begin k, .join]).requests.get? t = some ⟨k, s'⟩ ∧ (s' = .waiting ∨ ∃ n, s' = .leased n) := by
  obtain ⟨b, hb⟩ := exists_apply_begin h k
  rw [attempt_of_apply hb]
  obtain ⟨j, stage, s', stage', hr, hs, rfl⟩ := apply_cases hb
  cases stage with
  | some st =>
    rw [h] at hr
    cases hr
  | none =>
    cases hs with
    | follow =>
      refine ⟨.leased ((a.slot k).currentNonce + 1), ?_, .inr ⟨_, rfl⟩⟩
      exact request_attempt_of_not_steps request_put_some nofun request_put_some
    | arrive =>
      refine ⟨.waiting, ?_, .inl rfl⟩
      exact request_attempt_of_step? request_put_some rfl request_put_some

/-- A request at the gate obtains its lease, asks the ledger, or waits on. -/
theorem request_attempt_recheck (h : a.requests.get? t = some ⟨k, st⟩) (hst : st = .waiting ∨ ∃ n, st = .leased n) :
    ∃ s', (a.attempt t [.recheck, .leave, .ask]).requests.get? t = some ⟨k, s'⟩ ∧
      (s' = .waiting ∨ s' = .querying ∨ ∃ n, s' = .leased n) := by
  rcases hst with rfl | ⟨n, rfl⟩
  · cases hb : a.apply ⟨t, .recheck⟩ with
    | none =>
      refine ⟨.waiting, ?_, .inl rfl⟩
      rw [attempt_of_eq_none hb]
      exact request_attempt_of_not_steps h nofun (request_attempt_of_not_steps h nofun h)
    | some b =>
      rw [attempt_of_apply hb]
      obtain ⟨j, stage, s', stage', hr, hs, rfl⟩ := apply_cases hb
      rw [h] at hr
      cases stage with
      | none => cases hr
      | some st =>
        cases hr
        cases hs with
        | followLate =>
          refine ⟨.leased ((a.slot k).currentNonce + 1), ?_, .inr (.inr ⟨_, rfl⟩)⟩
          refine request_attempt_of_step? request_put_some rfl ?_
          exact request_attempt_of_not_steps request_put_some nofun request_put_some
        | enter =>
          refine ⟨.querying, ?_, .inr (.inl rfl)⟩
          refine request_attempt_of_not_steps request_put_some nofun ?_
          exact request_attempt_of_step? request_put_some rfl request_put_some
  · refine ⟨.leased n, ?_, .inr (.inr ⟨n, rfl⟩)⟩
    refine request_attempt_of_not_steps h nofun (request_attempt_of_not_steps h nofun ?_)
    exact request_attempt_of_not_steps h nofun h

/-- An answer gives a lease. -/
theorem request_attempt_answer (h : a.requests.get? t = some ⟨k, .querying⟩) (n : UInt64) :
    (a.attempt t [.answer n, .settle, .leave]).requests.get? t = some ⟨k, .leased n⟩ := by
  refine request_attempt_of_step? h rfl (request_attempt_of_step? request_put_some rfl ?_)
  exact request_attempt_of_step? request_put_some rfl request_put_some

end OrderKeeper.Nonce.Allocator
