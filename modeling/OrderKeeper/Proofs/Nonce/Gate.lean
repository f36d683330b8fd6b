import OrderKeeper.Proofs.Nonce.Move

/-!
# The gate

A request that was admitted holds the gate until it leaves, and from its admission to its first lease no lease of its
account is out: nobody can follow a lease that is not there, and nobody else is admitted (`Gated`, kept by every move in
`gated_apply`). This is what makes the first lease safe, which overwrites both counters.
-/

namespace OrderKeeper.Nonce

/-- Whether a request at this stage holds the gate. -/
def Stage.holdsGate : Stage → Bool
  | admitted | querying | answered _ | settled _ => true
  | arriving | waiting | leased _ => false

/-- Whether a request at this stage is about to take the first lease. -/
def Stage.seeksFirst : Stage → Bool
  | admitted | querying | answered _ => true
  | arriving | waiting | settled _ | leased _ => false

theorem Stage.holdsGate_of_seeksFirst : ∀ {st : Stage}, st.seeksFirst = true → st.holdsGate = true
  | admitted, _ | querying, _ | answered _, _ => rfl

namespace Slot

variable {k : Key} {t u : Ticket} {s s' : Slot} {stage stage' : Option Stage} {x : Step}

/-- The gate passes on only when its holder leaves. -/
theorem head?_leave (h : s.gate.head? = some u) (hu : u ≠ t) : (s.leave t).gate.head? = some u := by
  cases hg : s.gate with
  | nil => rw [hg] at h; cases h
  | cons v vs =>
    rw [hg, List.head?_cons, Option.some_inj] at h
    subst h
    simp [leave, hg, hu]

theorem Steps.head?_eq (h : Steps k t s stage x s' stage') (hg : s.gate.head? = some u) (hu : u ≠ t) :
    s'.gate.head? = some u := by
  cases h with
  | follow | arrive | followLate | enter | ask | answer | settle | release => exact hg
  | join => rw [Slot.join, List.head?_append, hg]; rfl
  | leave | fail | abandon => exact head?_leave hg hu

/-- While no lease is out, only the first lease changes the counters. -/
theorem Steps.counters_eq (h : Steps k t s stage x s' stage') (h0 : s.activeLeases = 0)
    (hp : ∀ p, stage ≠ some (.answered p) ∨ stage' = none) :
    s'.currentNonce = s.currentNonce ∧ s'.activeLeases = s.activeLeases := by
  cases h with
  | follow ha | followLate _ ha => exact absurd h0 ha
  | settle => simp at hp
  | release => exact ⟨rfl, by simp [Slot.release, h0]⟩
  | arrive | join | enter | ask | answer | leave | fail | abandon => exact ⟨rfl, rfl⟩

/-- What a request holds the gate for, it holds it for after its step. -/
theorem Steps.holder (h : Steps k t s stage x s' (some st))
    (hb : ∀ st₀, stage = some st₀ → st₀.holdsGate = true → s.gate.head? = some t) (hst : st.holdsGate = true) :
    s'.gate.head? = some t := by
  cases h with
  | follow | arrive | join | leave => cases hst
  | followLate hg | enter hg => exact hg
  | ask => exact hb _ rfl rfl
  | answer => exact hb _ rfl rfl
  | settle => exact hb _ rfl rfl

theorem Steps.idle (h : Steps k t s stage x s' (some st))
    (hb : ∀ st₀, stage = some st₀ → st₀.seeksFirst = true → s.activeLeases = 0) (hst : st.seeksFirst = true) :
    s'.activeLeases = 0 := by
  cases h with
  | follow | arrive | join | leave | followLate | settle => cases hst
  | enter _ ha => exact ha
  | ask => exact hb _ rfl rfl
  | answer => exact hb _ rfl rfl

end Slot

namespace Allocator

variable {a b : Allocator} {m : Move} {t u : Ticket} {k : Key} {st st' : Stage}

/-- Requests that were admitted hold the gate, and no lease is out while they are on their way to the first one. -/
structure Gated (a : Allocator) : Prop where
  holder : ∀ {t k st}, a.requests.get? t = some ⟨k, st⟩ → st.holdsGate = true → (a.slot k).gate.head? = some t
  idle : ∀ {t k st}, a.requests.get? t = some ⟨k, st⟩ → st.seeksFirst = true → (a.slot k).activeLeases = 0

theorem gated_empty : Gated {} where
  holder h := by cases h
  idle h := by cases h

/-- The gate has one holder. -/
theorem Gated.holder_unique (h : Gated a) (ht : a.requests.get? t = some ⟨k, st⟩) (hst : st.holdsGate = true)
    (hu : a.requests.get? u = some ⟨k, st'⟩) (hst' : st'.holdsGate = true) : t = u :=
  Option.some.inj ((h.holder ht hst).symm.trans (h.holder hu hst'))

/-- While a request seeks the first lease, the moves of all others leave its account's counters alone. -/
theorem Gated.counters_eq (ha : Gated a) (h : a.apply m = some b) (hu : a.requests.get? u = some ⟨k, st⟩)
    (hst : st.seeksFirst = true) (hm : m.ticket ≠ u) :
    (b.slot k).currentNonce = (a.slot k).currentNonce ∧ (b.slot k).activeLeases = (a.slot k).activeLeases := by
  obtain ⟨j, stage, s', stage', ht, hs, rfl⟩ := apply_cases h
  by_cases hj : j = k
  · subst hj
    rw [slot_put_self]
    refine hs.counters_eq (ha.idle hu hst) fun p => .inl ?_
    -- an answered request would hold the gate as well
    rintro rfl
    exact hm (ha.holder_unique ht rfl hu (Stage.holdsGate_of_seeksFirst hst))
  · rw [slot_put_of_ne hj]
    exact ⟨rfl, rfl⟩

theorem gated_apply (ha : Gated a) (h : a.apply m = some b) : Gated b := by
  have hc : ∀ {u k st}, a.requests.get? u = some ⟨k, st⟩ → st.seeksFirst = true → m.ticket ≠ u →
      (b.slot k).activeLeases = (a.slot k).activeLeases := fun hu hst hm => (ha.counters_eq h hu hst hm).2
  obtain ⟨j, stage, s', stage', ht, hs, rfl⟩ := apply_cases h
  constructor
  · intro u k st hu hst
    by_cases hm : m.ticket = u
    · subst hm
      rw [request_put_self] at hu
      obtain ⟨st₁, rfl, hu⟩ := Option.map_eq_some_iff.1 hu
      cases hu
      rw [slot_put_self]
      refine hs.holder (fun st₀ h₀ => ?_) hst
      subst h₀
      exact ha.holder ht
    · rw [request_put_of_ne hm] at hu
      by_cases hj : j = k
      · subst hj
        rw [slot_put_self]
        exact hs.head?_eq (ha.holder hu hst) (Ne.symm hm)
      · rw [slot_put_of_ne hj]
        exact ha.holder hu hst
  · intro u k st hu hst
    by_cases hm : m.ticket = u
    · subst hm
      rw [request_put_self] at hu
      obtain ⟨st₁, rfl, hu⟩ := Option.map_eq_some_iff.1 hu
      cases hu
      rw [slot_put_self]
      refine hs.idle (fun st₀ h₀ => ?_) hst
      subst h₀
      exact ha.idle ht
    · rw [request_put_of_ne hm] at hu
      rw [hc hu hst hm]
      exact ha.idle hu hst

theorem gated_run {ms : List Move} (ha : Gated a) (h : a.run? ms = some b) : Gated b :=
  run_induction gated_apply ha h

end Allocator

end OrderKeeper.Nonce
