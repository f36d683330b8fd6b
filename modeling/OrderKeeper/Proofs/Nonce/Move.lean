import OrderKeeper.Nonce.Allocator

/-!
# One move of the allocator

- `Slot.Steps` lists what one step of a request can do to its slot (`steps_of_step?`).
- A move changes the slot of one account and the request of one ticket (`apply_cases`); all other slots and requests are
  as they were.
- The live leases of an account, before and after a move, are those of all other tickets and the one of the moved ticket
  (`leases_perm`, `leases_put_perm`).
-/

namespace OrderKeeper.Nonce

/-! ## Steps on a slot -/

/-- What one step of the request `t` on the account `k` can do: its slot, its stage, the step, and both afterwards. -/
inductive Slot.Steps (k : Key) (t : Ticket) : Slot → Option Stage → Step → Slot → Option Stage → Prop where
  | follow {s : Slot} : s.activeLeases ≠ 0 →
      Steps k t s none (.begin k) s.issueNext (some (.leased (s.currentNonce + 1)))
  | arrive {s : Slot} : s.activeLeases = 0 → Steps k t s none (.begin k) s (some .arriving)
  | join {s : Slot} : Steps k t s (some .arriving) .join (s.join t) (some .waiting)
  | followLate {s : Slot} : s.gate.head? = some t → s.activeLeases ≠ 0 →
      Steps k t s (some .waiting) .recheck s.issueNext (some (.settled (s.currentNonce + 1)))
  | enter {s : Slot} : s.gate.head? = some t → s.activeLeases = 0 →
      Steps k t s (some .waiting) .recheck s (some .admitted)
  | ask {s : Slot} : Steps k t s (some .admitted) .ask s (some .querying)
  | answer {s : Slot} (p : UInt64) : Steps k t s (some .querying) (.answer p) s (some (.answered p))
  | settle {s : Slot} {p : UInt64} : Steps k t s (some (.answered p)) .settle (s.issueFirst p) (some (.settled p))
  | leave {s : Slot} {n : UInt64} : Steps k t s (some (.settled n)) .leave (s.leave t) (some (.leased n))
  | fail {s : Slot} : Steps k t s (some .querying) .fail (s.leave t) none
  | abandon {s : Slot} {stage : Stage} : (stage = .waiting ∨ stage = .querying ∨ ∃ p, stage = .answered p) →
      Steps k t s (some stage) .abandon (s.leave t) none
  | release {s : Slot} {n : UInt64} : Steps k t s (some (.leased n)) .release s.release none

namespace Slot

variable {k : Key} {t : Ticket} {s s' : Slot} {stage stage' : Option Stage} {x : Step}

theorem admits_iff : s.admits t = true ↔ s.gate.head? = some t := by
  simp [admits]

theorem step?_begin : s.step? t none (.begin k) = (match s.issueNext? with
    | some (n, s) => some (s, some (.leased n))
    | none => some (s, some .arriving)) := rfl

theorem step?_recheck : s.step? t (some .waiting) .recheck = (if s.admits t then
    match s.issueNext? with
    | some (n, s) => some (s, some (.settled n))
    | none => some (s, some .admitted)
    else none) := rfl

theorem steps_of_step? (hk : stage = none → x = .begin k ∨ ∀ j, x ≠ .begin j)
    (h : s.step? t stage x = some (s', stage')) : Steps k t s stage x s' stage' := by
  cases stage with
  | none =>
    cases x with
    | begin j =>
      obtain hj | hj := hk rfl
      · cases hj
        rw [step?_begin, issueNext?] at h
        by_cases ha : s.activeLeases = 0
        · rw [if_pos ha] at h
          cases h
          exact .arrive ha
        · rw [if_neg ha] at h
          cases h
          exact .follow ha
      · exact absurd rfl (hj j)
    | _ => cases h
  | some st =>
    cases st with
    | arriving =>
      cases x with
      | join => cases h; exact .join
      | _ => cases h
    | waiting =>
      cases x with
      | recheck =>
        rw [step?_recheck, issueNext?] at h
        by_cases hg : s.admits t = true
        · rw [if_pos hg] at h
          by_cases ha : s.activeLeases = 0
          · rw [if_pos ha] at h
            cases h
            exact .enter (admits_iff.1 hg) ha
          · rw [if_neg ha] at h
            cases h
            exact .followLate (admits_iff.1 hg) ha
        · rw [if_neg hg] at h
          cases h
      | abandon => cases h; exact .abandon (.inl rfl)
      | _ => cases h
    | admitted =>
      cases x with
      | ask => cases h; exact .ask
      | _ => cases h
    | querying =>
      cases x with
      | answer p => cases h; exact .answer p
      | fail => cases h; exact .fail
      | abandon => cases h; exact .abandon (.inr (.inl rfl))
      | _ => cases h
    | answered p =>
      cases x with
      | settle => cases h; exact .settle
      | abandon => cases h; exact .abandon (.inr (.inr ⟨p, rfl⟩))
      | _ => cases h
    | settled n =>
      cases x with
      | leave => cases h; exact .leave
      | _ => cases h
    | leased n =>
      cases x with
      | release => cases h; exact .release
      | _ => cases h

end Slot

/-! ## Moves -/

namespace Allocator

variable {a b : Allocator} {m : Move} {t u : Ticket} {k j : Key} {s : Slot} {stage : Option Stage}

@[simp] theorem slot_put_self : (a.put t k s stage).slot k = s := by
  cases stage <;> simp [put, slot, Table.get?_set_self]

theorem slot_put_of_ne (h : k ≠ j) : (a.put t k s stage).slot j = a.slot j := by
  cases stage <;> simp [put, slot, Table.get?_set_of_ne _ _ h]

@[simp] theorem request_put_self : (a.put t k s stage).requests.get? t = stage.map (Request.mk k) := by
  cases stage <;> simp [put, Table.get?_set_self, Table.get?_erase_self]

theorem request_put_some {st : Stage} : (a.put t k s (some st)).requests.get? t = some ⟨k, st⟩ := request_put_self

theorem request_put_of_ne (h : t ≠ u) : (a.put t k s stage).requests.get? u = a.requests.get? u := by
  cases stage <;> simp [put, Table.get?_set_of_ne _ _ h, Table.get?_erase_of_ne _ h]

theorem stage?_eq (h : a.requests.get? t = stage.map (Request.mk k)) : a.stage? t = stage := by
  rw [stage?, h]
  cases stage <;> rfl

/-- A move is a step of the request of its ticket on the slot of one account, and changes nothing else. -/
theorem apply_cases (h : a.apply m = some b) : ∃ k stage s' stage',
    a.requests.get? m.ticket = stage.map (Request.mk k) ∧ Slot.Steps k m.ticket (a.slot k) stage m.step s' stage' ∧
    b = a.put m.ticket k s' stage' := by
  unfold apply at h
  split at h
  · cases h
  · rename_i k stage hs
    obtain ⟨⟨s', stage'⟩, hstep, hb⟩ := Option.map_eq_some_iff.1 h
    refine ⟨k, stage, s', stage', ?_, Slot.steps_of_step? ?_ hstep, hb.symm⟩
    · unfold site? at hs
      split at hs <;> cases hs <;> simp_all
    · unfold site? at hs
      rintro rfl
      split at hs <;> cases hs
      exact .inl ‹_›

/-- A new request can always be begun. -/
theorem exists_apply_begin (h : a.requests.get? t = none) (k : Key) : ∃ b, a.apply ⟨t, .begin k⟩ = some b := by
  have hsite : a.site? ⟨t, .begin k⟩ = some (k, none) := by rw [site?, h]
  rw [apply, hsite]
  dsimp only
  rw [Slot.step?_begin]
  cases (a.slot k).issueNext? <;> exact ⟨_, rfl⟩

/-- A step that the slot of a request allows can be made. -/
theorem apply_of_step? {st : Stage} {x : Step} {s' : Slot} {stage' : Option Stage}
    (h : a.requests.get? t = some ⟨k, st⟩) (hs : (a.slot k).step? t (some st) x = some (s', stage')) :
    a.apply ⟨t, x⟩ = some (a.put t k s' stage') := by
  rw [apply, site?, h]
  change ((a.slot k).step? t (some st) x).map _ = _
  rw [hs]
  rfl

/-- A step that no slot allows at the stage of a request cannot be made. -/
theorem apply_eq_none {st : Stage} {x : Step} (h : a.requests.get? t = some ⟨k, st⟩)
    (hs : ∀ {s s' : Slot} {stage' : Option Stage}, ¬Slot.Steps k t s (some st) x s' stage') :
    a.apply ⟨t, x⟩ = none := by
  cases ha : a.apply ⟨t, x⟩ with
  | none => rfl
  | some b =>
    obtain ⟨j, stage, s', stage', hr, hstep, -⟩ := apply_cases ha
    rw [h] at hr
    cases stage with
    | none => cases hr
    | some st' =>
      cases hr
      exact absurd hstep hs

/-- Without a request there is nothing to do but to begin one. -/
theorem apply_eq_none_of_request {x : Step} (h : a.requests.get? t = none) (hx : ∀ k, x ≠ .begin k) :
    a.apply ⟨t, x⟩ = none := by
  cases ha : a.apply ⟨t, x⟩ with
  | none => rfl
  | some b =>
    obtain ⟨k, stage, s', stage', hr, hs, -⟩ := apply_cases ha
    rw [h] at hr
    cases stage with
    | some st => cases hr
    | none => cases hs <;> exact absurd rfl (hx k)

/-- A live lease can be released. -/
theorem apply_release {n : UInt64} (h : a.requests.get? t = some ⟨k, .leased n⟩) :
    a.apply ⟨t, .release⟩ = some (a.put t k (a.slot k).release none) :=
  apply_of_step? h rfl

/-- A request that waits can be given up. -/
theorem apply_abandon {st : Stage} (h : a.requests.get? t = some ⟨k, st⟩)
    (hst : st = .waiting ∨ st = .querying ∨ ∃ p, st = .answered p) :
    a.apply ⟨t, .abandon⟩ = some (a.put t k ((a.slot k).leave t) none) :=
  apply_of_step? h (by rcases hst with rfl | rfl | ⟨p, rfl⟩ <;> rfl)

/-- A move concerns no other ticket. -/
theorem request_of_apply (h : a.apply m = some b) (hu : m.ticket ≠ u) : b.requests.get? u = a.requests.get? u := by
  obtain ⟨k, stage, s', stage', -, -, rfl⟩ := apply_cases h
  exact request_put_of_ne hu

/-! ## Runs of moves -/

@[simp] theorem run?_nil : a.run? [] = some a := rfl

theorem run?_cons {ms : List Move} : a.run? (m :: ms) = some b ↔ ∃ c, a.apply m = some c ∧ c.run? ms = some b := by
  simp only [run?, List.foldlM_cons]
  cases a.apply m <;> simp [bind, Option.bind]

theorem run?_append {ns : List Move} : ∀ {ms : List Move} {a : Allocator}, a.run? ms = some b →
    a.run? (ms ++ ns) = b.run? ns
  | [], _, h => by cases h; rfl
  | m :: ms, a, h => by
    obtain ⟨c, hc, h⟩ := run?_cons.1 h
    rw [← run?_append h, List.cons_append]
    simp only [run?, List.foldlM_cons, hc]
    rfl

/-- What every move keeps, every run keeps. -/
theorem run_induction {P : Allocator → Prop} (step : ∀ {a m b}, P a → Allocator.apply a m = some b → P b) :
    ∀ {ms : List Move} {a b : Allocator}, P a → a.run? ms = some b → P b
  | [], _, _, ha, h => by cases h; exact ha
  | _ :: _, _, _, ha, h => by
    obtain ⟨c, hc, h⟩ := run?_cons.1 h
    exact run_induction step (step ha hc) h

/-! ## Live leases -/

/-- The nonces that tickets other than `t` hold on an account. -/
def leasesBeside (a : Allocator) (t : Ticket) (k : Key) : List UInt64 :=
  (a.requests.erase t).filterMap fun e => e.2.nonce? k

/-- The live leases are the one of a ticket and those beside it. -/
theorem leases_perm (hn : a.requests.keys.Nodup) (t : Ticket) (k : Key) :
    List.Perm (a.leases k) ((a.nonce? k t).toList ++ a.leasesBeside t k) := by
  rw [leases, nonce?, leasesBeside]
  cases ht : a.requests.get? t with
  | none => rw [Table.erase_of_get?_eq_none ht]; exact .refl _
  | some r =>
    have hp := (Table.perm_of_get? hn ht).filterMap fun e => e.2.nonce? k
    rw [List.filterMap_cons] at hp
    cases hr : r.nonce? k <;> simpa [hr] using hp

/-- If the live leases of an account have distinct nonces, any two tickets have. -/
theorem nonce?_ne (hn : a.requests.keys.Nodup) (hk : (a.leases k).Nodup) {n n' : UInt64} (htu : t ≠ u)
    (ht : a.nonce? k t = some n) (hu : a.nonce? k u = some n') : n ≠ n' := by
  have hp := (leases_perm hn t k).nodup_iff.1 hk
  rw [ht] at hp
  obtain ⟨r, hr, hn'⟩ := Option.bind_eq_some_iff.1 hu
  have hm : n' ∈ a.leasesBeside t k :=
    List.mem_filterMap.2 ⟨(u, r), Table.mem_erase.2 ⟨Table.mem_of_get? hr, Ne.symm htu⟩, hn'⟩
  rintro rfl
  exact (List.nodup_cons.1 hp).1 hm

theorem nodup_put (hn : a.requests.keys.Nodup) : (a.put t k s stage).requests.keys.Nodup := by
  cases stage with
  | none => exact Table.nodup_keys_erase hn _
  | some st => exact Table.nodup_keys_set hn _ _

/-- A move leaves the requests of other tickets alone. -/
@[simp] theorem erase_put : (a.put t k s stage).requests.erase t = a.requests.erase t := by
  cases stage <;> simp [put]

/-- A move puts the lease of its ticket beside the others. -/
theorem leases_put_perm (hn : a.requests.keys.Nodup) (t : Ticket) (k j : Key) (s : Slot) (stage : Option Stage) :
    List.Perm ((a.put t k s stage).leases j) (((a.put t k s stage).nonce? j t).toList ++ a.leasesBeside t j) := by
  have hp := leases_perm (a := a.put t k s stage) (nodup_put hn) t j
  rwa [leasesBeside, erase_put] at hp

end Allocator

end OrderKeeper.Nonce
