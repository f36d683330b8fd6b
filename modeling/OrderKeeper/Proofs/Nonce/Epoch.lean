import OrderKeeper.Proofs.Nonce.Leases

/-!
# Epochs

An epoch of an account lasts from one moment without leases to the next. It begins with the first lease, under the
pending nonce that the ledger answered, and every further nonce is the one after the last (`issues_first`,
`issues_next`). With the counters of `Leases.lean` this says all about the leases of any run (`orderly_of_run`), as
long as no counter passes its end.
-/

namespace OrderKeeper.Nonce

namespace Allocator

variable {a b c : Allocator} {m : Move} {ms : List Move} {k : Key} {t : Ticket} {p : UInt64}

/-! ## Histories -/

theorem transitions_cons (h : a.apply m = some b) (ms : List Move) :
    a.transitions (m :: ms) = ⟨a, m, b⟩ :: b.transitions ms := by
  simp only [transitions, h]

theorem transitions_append {ns : List Move} : ∀ {ms : List Move} {a : Allocator}, a.run? ms = some b →
    a.transitions (ms ++ ns) = a.transitions ms ++ b.transitions ns
  | [], _, h => by cases h; rfl
  | m :: ms, a, h => by
    obtain ⟨c, hc, h⟩ := run?_cons.1 h
    rw [List.cons_append, transitions_cons hc, transitions_cons hc, transitions_append h]
    rfl

theorem issues_cons (h : a.apply m = some b) (k : Key) (ms : List Move) :
    a.issues k (m :: ms) = (Transition.issued? ⟨a, m, b⟩ k).toList ++ b.issues k ms := by
  rw [issues, transitions_cons h, List.filterMap_cons]
  cases Transition.issued? ⟨a, m, b⟩ k <;> rfl

/-- What a move keeps if it fits, a run keeps whose moves all fit. -/
theorem run_induction_of_fits {P : Allocator → Prop}
    (step : ∀ {a m b}, P a → Allocator.apply a m = some b → Transition.fits ⟨a, m, b⟩ = true → P b) :
    ∀ {ms : List Move} {a b : Allocator}, P a → a.run? ms = some b → (∀ x ∈ a.transitions ms, x.fits = true) → P b
  | [], _, _, ha, h, _ => by cases h; exact ha
  | _ :: _, _, _, ha, h, hf => by
    obtain ⟨c, hc, h⟩ := run?_cons.1 h
    rw [transitions_cons hc, List.forall_mem_cons] at hf
    exact run_induction_of_fits step (step ha hc hf.1) h hf.2

theorem counted_run (ha : Counted a) (hg : Gated a) (h : a.run? ms = some b)
    (hf : ∀ x ∈ a.transitions ms, x.fits = true) : Counted b :=
  (run_induction_of_fits (P := fun a => Counted a ∧ Gated a)
    (fun ha h hf => ⟨counted_apply ha.1 ha.2 h hf, gated_apply ha.2 h⟩) ⟨ha, hg⟩ h hf).1

/-! ## The answer of an epoch -/

/-- A request gets to its answer by the ledger's answer, after which it has not moved. -/
theorem answered_of_apply (h : a.apply m = some b) (ht : b.requests.get? m.ticket = some ⟨k, .answered p⟩) :
    m.step = .answer p := by
  obtain ⟨j, stage, s', stage', -, hs, rfl⟩ := apply_cases h
  rw [request_put_self] at ht
  generalize m.step = x at hs ⊢
  cases hs <;> simp_all

/-- A run concerns no ticket that makes none of its moves. -/
theorem request_of_run : ∀ {ms : List Move} {a : Allocator}, a.run? ms = some b → (∀ m ∈ ms, m.ticket ≠ t) →
    b.requests.get? t = a.requests.get? t
  | [], _, h, _ => by cases h; rfl
  | m :: ms, _, h, hm => by
    obtain ⟨c, hc, h⟩ := run?_cons.1 h
    rw [request_of_run h fun m' hm' => hm m' (List.mem_cons_of_mem _ hm')]
    exact request_of_apply hc (hm m List.mem_cons_self)

theorem answered_of_run : ∀ {ms : List Move} {a : Allocator}, a.run? ms = some b →
    b.requests.get? t = some ⟨k, .answered p⟩ → (∀ m ∈ ms, m.ticket ≠ t) ∨
    ∃ before after, ms = before ++ ⟨t, .answer p⟩ :: after ∧ ∀ m ∈ after, m.ticket ≠ t
  | [], _, _, _ => .inl fun _ hm => by cases hm
  | m :: ms, a, h, hb => by
    obtain ⟨c, hc, h⟩ := run?_cons.1 h
    rcases answered_of_run h hb with hms | ⟨before, after, rfl, hafter⟩
    · by_cases hm : m.ticket = t
      · subst hm
        rw [request_of_run h hms] at hb
        exact .inr ⟨[], ms, by rw [← answered_of_apply hc hb]; rfl, hms⟩
      · exact .inl (List.forall_mem_cons.2 ⟨hm, hms⟩)
    · exact .inr ⟨m :: before, after, rfl, hafter⟩

/-! ## The nonces of an epoch -/

/-- While leases are out, the nonces issued are those after the last one, in order. -/
theorem issues_next : ∀ {ms : List Move} {a : Allocator}, Counted a → Gated a → a.run? ms = some b →
    (∀ x ∈ a.transitions ms, x.fits = true) → (∀ x ∈ a.transitions ms, (x.before.slot k).activeLeases ≠ 0) →
    (a.issues k ms).map UInt64.toNat = List.range' ((a.slot k).currentNonce.toNat + 1) (a.issues k ms).length
  | [], _, _, _, _, _, _ => rfl
  | m :: ms, a, ha, hg, h, hf, h0 => by
    obtain ⟨c, hc, h⟩ := run?_cons.1 h
    rw [transitions_cons hc, List.forall_mem_cons] at hf h0
    have ih := issues_next (counted_apply ha hg hc hf.1) (gated_apply hg hc) h hf.2 h0.2
    rw [issues_cons hc]
    cases effect_of_apply ha.distinct hc k with
    | quiet hn _ _ hi | less _ hn _ _ hi =>
      rw [hn] at ih
      simpa [hi] using ih
    | next _ hn _ _ hi =>
      rw [hn, (toNat_add_one_of_fits hf.1 hi h0.1).1] at ih
      simp [hi, ih, (toNat_add_one_of_fits hf.1 hi h0.1).1, List.range'_succ]
    | first p hr => exact absurd (hg.idle hr rfl) h0.1

/-- From a moment without leases to the next, the nonces issued are the pending nonce that was answered to the request
that makes the first move, and those after it, in order. -/
theorem issues_first (ha : Counted a) (hg : Gated a) (h : a.run? ms = some b)
    (hf : ∀ x ∈ a.transitions ms, x.fits = true) (ha0 : (a.slot k).activeLeases = 0)
    (h0 : ∀ x ∈ (a.transitions ms).tail, (x.before.slot k).activeLeases ≠ 0) :
    a.issues k ms = [] ∨ ∃ t p, a.requests.get? t = some ⟨k, .answered p⟩ ∧ ms.head? = some ⟨t, .settle⟩ ∧
      (a.issues k ms).map UInt64.toNat = List.range' p.toNat (a.issues k ms).length := by
  cases ms with
  | nil => exact .inl rfl
  | cons m ms =>
    obtain ⟨c, hc, h⟩ := run?_cons.1 h
    rw [transitions_cons hc, List.forall_mem_cons] at hf
    rw [transitions_cons hc, List.tail_cons] at h0
    rw [issues_cons hc]
    -- a move that opens no epoch is the last one, since the next moment has no leases either
    have still (hl : (c.slot k).activeLeases = 0) : c.issues k ms = [] := by
      cases ms with
      | nil => rfl
      | cons m' ms =>
        obtain ⟨d, hd, -⟩ := run?_cons.1 h
        rw [transitions_cons hd, List.forall_mem_cons] at h0
        exact absurd hl h0.1
    cases effect_of_apply ha.distinct hc k with
    | quiet _ hl _ hi => exact .inl (by simp [hi, still (hl.trans ha0)])
    | next hne => exact absurd ha0 hne
    | less _ _ hl _ hi => exact .inl (by simp [hi, still (by rw [hl, if_pos ha0])])
    | first p hr hs hn _ _ hi =>
      have ih := issues_next (counted_apply ha hg hc hf.1) (gated_apply hg hc) h hf.2 h0
      rw [hn] at ih
      refine .inr ⟨m.ticket, p, hr, by rw [← hs]; rfl, ?_⟩
      simp [hi, ih, List.range'_succ]

end Allocator

/-! ## The leases of a run -/

open Allocator

/-- What is true of the leases of an account in a state `a` to which the moves `past` have led: the counter counts
them, their nonces are distinct and none is above the last one. If no lease is out now, then whatever moves follow up
to the next moment without leases, the nonces they issue are the pending nonce that the ledger has answered and the
ones after it, without gap or repetition. -/
structure Orderly (past : List Move) (a : Allocator) (k : Key) : Prop where
  count : (a.slot k).activeLeases.toNat = (a.leases k).length
  distinct : (a.leases k).Nodup
  below : ∀ n ∈ a.leases k, n ≤ (a.slot k).currentNonce
  epoch : (a.slot k).activeLeases = 0 → ∀ ms b, a.run? ms = some b → (∀ x ∈ a.transitions ms, x.fits = true) →
    (∀ x ∈ (a.transitions ms).tail, (x.before.slot k).activeLeases ≠ 0) →
    a.issues k ms = [] ∨ ∃ t p before after,
      past = before ++ ⟨t, .answer p⟩ :: after ∧ (∀ m ∈ after, m.ticket ≠ t) ∧
      a.requests.get? t = some ⟨k, .answered p⟩ ∧ ms.head? = some ⟨t, .settle⟩ ∧
      (a.issues k ms).map UInt64.toNat = List.range' p.toNat (a.issues k ms).length

/-- **Leases of any run.** Whatever moves any number of requests have made, in whatever order, as long as no counter has
passed its end, the leases of every account are orderly. -/
theorem orderly_of_run {past : List Move} {a : Allocator} (h : run? {} past = some a)
    (hf : ∀ x ∈ transitions {} past, x.fits = true) (k : Key) : Orderly past a k := by
  have hg : Gated a := gated_run gated_empty h
  have hc : Counted a := counted_run counted_empty gated_empty h hf
  refine ⟨hc.count k, hc.nodup k, hc.below k, fun ha0 ms b hb hfit h0 => ?_⟩
  rcases issues_first hc hg hb hfit ha0 h0 with hnone | ⟨t, p, ht, hms, hi⟩
  · exact .inl hnone
  · refine .inr ?_
    rcases answered_of_run h ht with hno | ⟨before, after, hpast, hafter⟩
    · -- without a move of its own the request would not be there
      rw [request_of_run h hno] at ht
      cases ht
    · exact ⟨t, p, before, after, hpast, hafter, ht, hms, hi⟩

/-- Two requests at the gate, the first of which has its answer; then it takes its lease, and two more follow it. -/
theorem orderly_of_two_waiting :
    let k : Key := ⟨1, 7⟩
    let past : List Move := [⟨0, .begin k⟩, ⟨1, .begin k⟩, ⟨0, .join⟩, ⟨1, .join⟩, ⟨0, .recheck⟩, ⟨0, .ask⟩,
      ⟨0, .answer 10⟩]
    let next : List Move := [⟨0, .settle⟩, ⟨0, .leave⟩, ⟨1, .recheck⟩, ⟨2, .begin k⟩, ⟨0, .release⟩, ⟨1, .leave⟩,
      ⟨1, .release⟩, ⟨2, .release⟩]
    ∃ a, run? {} past = some a ∧ (∀ x ∈ transitions {} past, x.fits = true) ∧ a.issues k next = [10, 11, 12] ∧
      Orderly past a k := by
  refine ⟨_, rfl, by decide, by decide, orderly_of_run rfl (by decide) _⟩

end OrderKeeper.Nonce
