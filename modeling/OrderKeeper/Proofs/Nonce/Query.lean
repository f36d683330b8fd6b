import OrderKeeper.Proofs.Nonce.Epoch

/-!
# Queries of the ledger

When the ledger is asked for a pending nonce, and what comes of it (`queried_of_run`): one query at a time for each
account and only while no lease is out, during which the account's counters stand still; a query that fails or is
given up leaves no trace, and every other one opens an epoch.
-/

namespace OrderKeeper.Nonce

/-- Whether a request at this stage has asked the ledger and done nothing with the answer yet. -/
def Stage.isQuery : Stage → Bool
  | querying | answered _ => true
  | arriving | waiting | admitted | settled _ | leased _ => false

/-- Whether a request at this stage has not been admitted. -/
def Stage.isOutside : Stage → Bool
  | arriving | waiting => true
  | admitted | querying | answered _ | settled _ | leased _ => false

theorem Stage.seeksFirst_of_isQuery : ∀ {st : Stage}, st.isQuery = true → st.seeksFirst = true
  | querying, _ | answered _, _ => rfl

namespace Allocator

variable {a b c : Allocator} {m : Move} {ms : List Move} {k j : Key} {t u : Ticket} {st : Stage}

/-! ## Views -/

theorem view?_put_of_ne {s : Slot} {stage : Option Stage} (h : k ≠ j) : (a.put t k s stage).view? j = a.view? j := by
  cases stage <;> simp [put, view?, Table.get?_set_of_ne _ _ h]

theorem view?_put_self {s : Slot} {stage : Option Stage} :
    (a.put t k s stage).view? k = some ⟨k, s.currentNonce, s.activeLeases⟩ := by
  cases stage <;> simp [put, view?, Table.get?_set_self]

/-- An account that is in view shows its counters. -/
theorem view?_eq_some (h : (a.view? k).isSome = true) :
    a.view? k = some ⟨k, (a.slot k).currentNonce, (a.slot k).activeLeases⟩ := by
  unfold view? at h ⊢
  rw [slot]
  cases hs : a.slots.get? k with
  | none => rw [hs] at h; cases h
  | some s => rfl

/-- The accounts of all requests are in view. -/
def InView (a : Allocator) : Prop := ∀ {t k st}, a.requests.get? t = some ⟨k, st⟩ → (a.view? k).isSome = true

theorem inView_empty : InView {} := fun h => by cases h

theorem view?_isSome_put {s : Slot} {stage : Option Stage} (h : (a.view? j).isSome = true) :
    ((a.put t k s stage).view? j).isSome = true := by
  by_cases hk : k = j
  · subst hk
    rw [view?_put_self]
    rfl
  · rwa [view?_put_of_ne hk]

theorem inView_apply (ha : InView a) (h : a.apply m = some b) : InView b := by
  obtain ⟨j, stage, s', stage', -, -, rfl⟩ := apply_cases h
  intro u k st hu
  by_cases hm : m.ticket = u
  · subst hm
    rw [request_put_self] at hu
    obtain ⟨st', -, he⟩ := Option.map_eq_some_iff.1 hu
    cases he
    rw [view?_put_self]
    rfl
  · rw [request_put_of_ne hm] at hu
    exact view?_isSome_put (ha hu)

theorem view?_of_apply (h : a.apply m = some b) (hk : (a.view? k).isSome = true)
    (hn : (b.slot k).currentNonce = (a.slot k).currentNonce) (hl : (b.slot k).activeLeases = (a.slot k).activeLeases) :
    b.view? k = a.view? k := by
  have hb : (b.view? k).isSome = true := by
    obtain ⟨j, stage, s', stage', -, -, rfl⟩ := apply_cases h
    exact view?_isSome_put hk
  rw [view?_eq_some hb, view?_eq_some hk, hn, hl]

/-! ## The course of a query -/

/-- A request that asks, or hears the answer, changes no counter and is still on its way to the first lease. -/
theorem seeking_of_apply (ht : a.requests.get? m.ticket = some ⟨k, st⟩) (h : a.apply m = some b)
    (hx : m.step = .ask ∨ ∃ p, m.step = .answer p) :
    (b.slot k).currentNonce = (a.slot k).currentNonce ∧ (b.slot k).activeLeases = (a.slot k).activeLeases ∧
      ∃ st', b.requests.get? m.ticket = some ⟨k, st'⟩ ∧ st'.seeksFirst = true := by
  obtain ⟨j, stage, s', stage', hr, hs, rfl⟩ := apply_cases h
  rw [ht] at hr
  obtain ⟨st₀, rfl, he⟩ := Option.map_eq_some_iff.1 hr.symm
  cases he
  rw [slot_put_self, request_put_self]
  rcases hx with hx | ⟨p, hx⟩ <;> rw [hx] at hs <;> cases hs <;> exact ⟨rfl, rfl, _, rfl, rfl⟩

/-- From before a request asks until after it hears the answer, its account's counters stand still. -/
theorem view?_of_run : ∀ {ms : List Move} {a : Allocator} {st : Stage}, Gated a → InView a →
    a.requests.get? t = some ⟨k, st⟩ → st.seeksFirst = true → a.run? ms = some b →
    (∀ m ∈ ms, m.ticket = t → m.step = .ask ∨ ∃ p, m.step = .answer p) → b.view? k = a.view? k
  | [], _, _, _, _, _, _, h, _ => by cases h; rfl
  | m :: ms, a, st, hg, hv, ht, hst, h, hm => by
    obtain ⟨c, hc, h⟩ := run?_cons.1 h
    obtain ⟨hm, hms⟩ := List.forall_mem_cons.1 hm
    have still : (c.slot k).currentNonce = (a.slot k).currentNonce ∧
        (c.slot k).activeLeases = (a.slot k).activeLeases ∧
        ∃ st', c.requests.get? t = some ⟨k, st'⟩ ∧ st'.seeksFirst = true := by
      by_cases hmt : m.ticket = t
      · subst hmt
        exact seeking_of_apply ht hc (hm rfl)
      · obtain ⟨hn, hl⟩ := hg.counters_eq hc ht hst hmt
        exact ⟨hn, hl, st, by rw [request_of_apply hc hmt, ht], hst⟩
    obtain ⟨hn, hl, st', htc, hst'⟩ := still
    rw [view?_of_run (gated_apply hg hc) (inView_apply hv hc) htc hst' h hms]
    exact view?_of_apply hc (hv ht) hn hl

/-- The ledger is asked only by a request that was admitted. -/
theorem admitted_of_ask (h : a.apply ⟨t, .ask⟩ = some b) (ht : a.requests.get? t = some ⟨k, st⟩) : st = .admitted := by
  obtain ⟨j, stage, s', stage', hr, hs, -⟩ := apply_cases h
  rw [ht] at hr
  cases hs
  cases hr
  rfl

/-- A request that ends without a lease leaves every account and all leases as they were. -/
theorem unchanged_of_end (hv : InView a) (ht : a.requests.get? t = some ⟨k, st⟩) (hst : st.nonce? = none)
    {x : Step} (h : a.apply ⟨t, x⟩ = some b) (hx : x = .fail ∨ x = .abandon) :
    (∀ j, b.view? j = a.view? j) ∧ (∀ j u, b.nonce? j u = a.nonce? j u) ∧ b.requests.get? t = none := by
  obtain ⟨i, stage, s', stage', hr, hs, rfl⟩ := apply_cases h
  simp only [ht] at hr
  obtain ⟨st', rfl, he⟩ := Option.map_eq_some_iff.1 hr.symm
  cases he
  have hend : stage' = none ∧ s' = (a.slot k).leave t := by
    rcases hx with rfl | rfl <;> cases hs <;> exact ⟨rfl, rfl⟩
  obtain ⟨rfl, rfl⟩ := hend
  refine ⟨fun j => ?_, fun j u => ?_, request_put_self⟩
  · by_cases hj : k = j
    · subst hj
      rw [view?_put_self, view?_eq_some (hv ht)]
      rfl
    · exact view?_put_of_ne hj
  · by_cases hu : t = u
    · subst hu
      rw [nonce?, request_put_self, nonce?, ht]
      simp [Request.nonce?, hst]
    · rw [nonce?, request_put_of_ne hu, nonce?]

/-! ## Following without asking -/

/-- A request outside of the gate has not asked since it began. -/
theorem unasked_of_run : ∀ {ms : List Move} {a : Allocator}, a.run? ms = some b →
    b.requests.get? t = some ⟨k, st⟩ → st.isOutside = true →
    ((∃ st', a.requests.get? t = some ⟨k, st'⟩ ∧ st'.isOutside = true) ∧ ⟨t, .ask⟩ ∉ ms) ∨
    ∃ before after, ms = before ++ ⟨t, .begin k⟩ :: after ∧ ⟨t, .ask⟩ ∉ after
  | [], _, h, hb, hst => by cases h; exact .inl ⟨⟨st, hb, hst⟩, List.not_mem_nil⟩
  | m :: ms, a, h, hb, hst => by
    obtain ⟨c, hc, h⟩ := run?_cons.1 h
    rcases unasked_of_run h hb hst with ⟨⟨st', hct, hst'⟩, hms⟩ | ⟨before, after, rfl, hafter⟩
    · by_cases hm : m.ticket = t
      · obtain ⟨t', x⟩ := m
        cases hm
        obtain ⟨j, stage, s', stage', hr, hs, rfl⟩ := apply_cases hc
        rw [request_put_self] at hct
        obtain ⟨st'', rfl, he⟩ := Option.map_eq_some_iff.1 hct
        cases he
        cases hs with
        | arrive => exact .inr ⟨[], ms, rfl, hms⟩
        | join => exact .inl ⟨⟨.arriving, hr, rfl⟩, by simp [hms]⟩
        | follow | followLate | enter | ask | answer | settle | leave => cases hst'
      · rw [request_of_apply hc hm] at hct
        refine .inl ⟨⟨st', hct, hst'⟩, ?_⟩
        rw [List.mem_cons, not_or]
        exact ⟨fun e => hm (by rw [← e]), hms⟩
    · exact .inr ⟨m :: before, after, rfl, hafter⟩

/-- A nonce that is issued beside another lease goes to a new request, or to one that waited outside. -/
theorem outside_of_issued (hg : Gated a) (h : a.apply m = some b) {n : UInt64}
    (hi : Transition.issued? ⟨a, m, b⟩ k = some n) (h0 : (a.slot k).activeLeases ≠ 0) :
    m.step = .begin k ∨ ∃ st, a.requests.get? m.ticket = some ⟨k, st⟩ ∧ st.isOutside = true := by
  obtain ⟨t, x⟩ := m
  obtain ⟨j, stage, s', stage', ht, hs, rfl⟩ := apply_cases h
  have hb : (a.put t j s' stage').nonce? k t = some n := by
    unfold Transition.issued? at hi
    split at hi
    · exact hi
    · cases hi
  have ha : a.nonce? k t = none := by
    unfold Transition.issued? at hi
    split at hi
    · assumption
    · cases hi
  rw [nonce?, request_put_self] at hb
  rw [nonce?, ht] at ha
  obtain ⟨r, hr, hn⟩ := Option.bind_eq_some_iff.1 hb
  obtain ⟨st, rfl, rfl⟩ := Option.map_eq_some_iff.1 hr
  by_cases hj : j = k
  · subst hj
    cases hs with
    | follow => exact .inl rfl
    | followLate => exact .inr ⟨.waiting, ht, rfl⟩
    | settle => exact absurd (hg.idle ht rfl) h0
    | leave => simp [Request.nonce?, Stage.nonce?] at ha
    | arrive | join | enter | ask | answer => simp [Request.nonce?, Stage.nonce?] at hn
  · rw [Request.nonce?, if_neg hj] at hn
    cases hn

/-! ## Answers and first leases -/

/-- A ticket and all others, with their answers. -/
theorem answered_eq (hn : a.requests.keys.Nodup) (t : Ticket) (k : Key) :
    a.answered k = (a.requests.get? t).toList.countP (Request.isAnswered k) +
      (a.requests.erase t).countP fun e => e.2.isAnswered k :=
  Table.countP_eq hn t _

/-- An answer is used for a first lease, wasted, or not used yet. -/
theorem answers_of_apply (hg : Gated a) (hn : a.requests.keys.Nodup) (h : a.apply m = some b) (k : Key) :
    (Transition.answers ⟨a, m, b⟩ k).toNat + a.answered k =
      (Transition.opens ⟨a, m, b⟩ k).toNat + (Transition.wastes ⟨a, m, b⟩ k).toNat + b.answered k := by
  obtain ⟨t, x⟩ := m
  obtain ⟨j, stage, s', stage', ht, hs, rfl⟩ := apply_cases h
  rw [answered_eq hn t k, answered_eq (nodup_put hn) t k, request_put_self, erase_put, ht]
  by_cases hj : j = k
  · subst hj
    cases hs with
    | follow ha | followLate _ ha =>
      simp [Transition.answers, Transition.opens, Transition.wastes, ht, Request.isAnswered, Stage.isAnswered, ha]
    | settle =>
      simp [Transition.answers, Transition.opens, Transition.wastes, ht, Request.isAnswered, Stage.isAnswered,
        hg.idle ht rfl, Slot.issueFirst]
    | abandon hst =>
      rcases hst with rfl | rfl | ⟨p, rfl⟩ <;>
        simp +contextual [Transition.answers, Transition.opens, Transition.wastes, ht, Request.isAnswered,
          Stage.isAnswered, Slot.leave]
    | arrive | join | enter | ask | answer | leave | fail | release =>
      simp +contextual [Transition.answers, Transition.opens, Transition.wastes, ht, Request.isAnswered,
        Stage.isAnswered, Slot.join, Slot.leave, Slot.release]
  · -- another account
    have ho : Transition.opens ⟨a, ⟨t, x⟩, a.put t j s' stage'⟩ k = false := by
      simp +contextual [Transition.opens, slot_put_of_ne hj]
    cases stage <;> cases stage' <;> cases x <;>
      simp [Transition.answers, Transition.wastes, ht, ho, Request.isAnswered, hj]

/-- Over a run, the answers to an account are those that opened an epoch, those that were wasted, and those not used
yet. -/
theorem answers_of_run (k : Key) : ∀ {ms : List Move} {a : Allocator}, Gated a → a.requests.keys.Nodup →
    a.run? ms = some b → (a.transitions ms).countP (·.answers k) + a.answered k =
      (a.transitions ms).countP (·.opens k) + (a.transitions ms).countP (·.wastes k) + b.answered k
  | [], _, _, _, h => by cases h; simp [transitions]
  | m :: ms, a, hg, hn, h => by
    obtain ⟨c, hc, h⟩ := run?_cons.1 h
    have head := answers_of_apply hg hn hc k
    have tail := answers_of_run k (gated_apply hg hc) (nodup_keys_apply hn hc) h
    have toNat_eq (p : Bool) : p.toNat = if p then 1 else 0 := by cases p <;> rfl
    simp only [toNat_eq] at head
    rw [transitions_cons hc, List.countP_cons, List.countP_cons, List.countP_cons]
    omega

/-- At most one request of an account has its answer and not yet its lease, since all of them hold the gate. -/
theorem Gated.answered_le_one (hg : Gated a) (hn : a.requests.keys.Nodup) (k : Key) : a.answered k ≤ 1 := by
  have holds {t : Ticket} {r : Request} (hm : (t, r) ∈ a.requests) (hr : r.isAnswered k = true) :
      (a.slot k).gate.head? = some t := by
    obtain ⟨j, st⟩ := r
    obtain ⟨hj, hst⟩ := Bool.and_eq_true_iff.1 hr
    obtain rfl : j = k := of_decide_eq_true hj
    refine hg.holder (Table.get?_of_mem hn hm) ?_
    cases st <;> first | rfl | cases hst
  cases ha : a.requests.any fun e => e.2.isAnswered k with
  | false =>
    rw [answered, List.countP_eq_zero.2 fun e he => List.any_eq_false.1 ha e he]
    exact Nat.zero_le _
  | true =>
    obtain ⟨⟨t, r⟩, hm, hr⟩ := List.any_eq_true.1 ha
    have rest : (a.requests.erase t).countP (fun e => e.2.isAnswered k) = 0 :=
      List.countP_eq_zero.2 fun e he hre =>
        (Table.mem_erase.1 he).2 (Option.some.inj ((holds (Table.mem_erase.1 he).1 hre).symm.trans (holds hm hr)))
    rw [answered_eq hn t, rest, Table.get?_of_mem hn hm]
    exact List.countP_le_length

end Allocator

/-! ## The queries of a run -/

open Allocator

/-- What is true of the queries of an account in a state `a` to which the moves `past` have led. -/
structure Queried (past : List Move) (a : Allocator) (k : Key) : Prop where
  /-- One query at a time. -/
  single : ∀ t u st st', a.requests.get? t = some ⟨k, st⟩ → st.isQuery = true →
    a.requests.get? u = some ⟨k, st'⟩ → st'.isQuery = true → t = u
  /-- The ledger is asked only while no lease is out. -/
  idle : ∀ t st b, a.requests.get? t = some ⟨k, st⟩ → a.apply ⟨t, .ask⟩ = some b → (a.slot k).activeLeases = 0
  /-- The account stands still while a request asks and hears the answer, whatever moves all others make. -/
  still : ∀ t st ms b, a.requests.get? t = some ⟨k, st⟩ → st.seeksFirst = true → a.run? ms = some b →
    (∀ m ∈ ms, m.ticket = t → m.step = .ask ∨ ∃ p, m.step = .answer p) → b.view? k = a.view? k
  /-- A query that fails or is given up leaves no trace: neither a counter nor a lease of any account changes. -/
  trace : ∀ t st x b, a.requests.get? t = some ⟨k, st⟩ → st.isQuery = true → a.apply ⟨t, x⟩ = some b →
    x = .fail ∨ x = .abandon →
    (∀ j, b.view? j = a.view? j) ∧ (∀ j u, b.nonce? j u = a.nonce? j u) ∧ b.requests.get? t = none
  /-- The answers that were not given up are the openings of epochs, but for the one that is not used yet. -/
  answers : (transitions {} past).countP (·.answers k) =
    (transitions {} past).countP (·.opens k) + (transitions {} past).countP (·.wastes k) + a.answered k
  pending : a.answered k ≤ 1
  /-- A lease beside another one is taken by a request that never asked. -/
  unasked : ∀ t x b n, a.apply ⟨t, x⟩ = some b → Transition.issued? ⟨a, ⟨t, x⟩, b⟩ k = some n →
    (a.slot k).activeLeases ≠ 0 →
    x = .begin k ∨ ∃ before after, past = before ++ ⟨t, .begin k⟩ :: after ∧ ⟨t, .ask⟩ ∉ after

/-- **Queries of any run.** Whatever moves any number of requests have made, in whatever order, the queries of every
account are as they should be. -/
theorem queried_of_run {past : List Move} {a : Allocator} (h : run? {} past = some a) (k : Key) : Queried past a k := by
  have hg : Gated a := gated_run gated_empty h
  have hv : InView a := run_induction inView_apply inView_empty h
  have hn : a.requests.keys.Nodup := nodup_keys_of_run h
  have holds : ∀ {st : Stage}, st.isQuery = true → st.holdsGate = true := fun hst =>
    Stage.holdsGate_of_seeksFirst (Stage.seeksFirst_of_isQuery hst)
  constructor
  case single => exact fun t u st st' ht hst hu hst' => hg.holder_unique ht (holds hst) hu (holds hst')
  case idle =>
    intro t st b ht hb
    obtain rfl := admitted_of_ask hb ht
    exact hg.idle ht rfl
  case still => exact fun t st ms b ht hst hb hms => view?_of_run hg hv ht hst hb hms
  case trace =>
    intro t st x b ht hst hb hx
    refine unchanged_of_end hv ht ?_ hb hx
    cases st <;> first | rfl | cases hst
  case answers =>
    have hbal := answers_of_run (a := {}) k gated_empty List.nodup_nil h
    rwa [show answered {} k = 0 from rfl, Nat.add_zero] at hbal
  case pending => exact hg.answered_le_one hn k
  case unasked =>
    intro t x b n hb hi h0
    rcases outside_of_issued hg hb hi h0 with hx | ⟨st, ht, hst⟩
    · exact .inl hx
    · rcases unasked_of_run h ht hst with ⟨⟨st', ht', -⟩, -⟩ | hpast
      · cases ht'
      · exact .inr hpast

/-- A query fails and another is given up after its answer; the third opens an epoch, which a request that waits at the
gate joins without asking. -/
theorem queried_of_failed_query :
    let k : Key := ⟨1, 7⟩
    let past : List Move := [⟨0, .begin k⟩, ⟨1, .begin k⟩, ⟨2, .begin k⟩, ⟨3, .begin k⟩, ⟨0, .join⟩, ⟨1, .join⟩,
      ⟨2, .join⟩, ⟨3, .join⟩, ⟨0, .recheck⟩, ⟨0, .ask⟩, ⟨0, .fail⟩, ⟨1, .recheck⟩, ⟨1, .ask⟩, ⟨1, .answer 10⟩,
      ⟨1, .abandon⟩, ⟨2, .recheck⟩, ⟨2, .ask⟩, ⟨2, .answer 10⟩, ⟨2, .settle⟩, ⟨2, .leave⟩, ⟨3, .recheck⟩, ⟨3, .leave⟩]
    ∃ a, run? {} past = some a ∧ a.view? k = some ⟨k, 11, 2⟩ ∧ (transitions {} past).countP (·.answers k) = 2 ∧
      (transitions {} past).countP (·.wastes k) = 1 ∧ Queried past a k := by
  refine ⟨_, rfl, by decide, by decide, by decide, queried_of_run rfl _⟩

end OrderKeeper.Nonce
