import OrderKeeper.Proofs.Nonce.Epoch

/-!
# Each account by itself

The accounts of an allocator do not interfere. A move that concerns an account does to it what it would do if there were
no others (`apply_only`), and a move that concerns another one does nothing to it (`only_of_apply`). So the moves of an
account, taken out of any run, are a run that leads to what the account holds after the whole (`alone_of_run`): the same
nonces, the same queries, the same gate.
-/

namespace OrderKeeper.Nonce

namespace Allocator

variable {a b : Allocator} {m : Move} {ms : List Move} {k j : Key} {t : Ticket}

/-! ## The share of an account -/

/-- The entry of an account is its own. -/
theorem slots_only (a : Allocator) (k : Key) : (a.only k).slots.get? k = a.slots.get? k := by
  change Table.get? (a.slots.filter fun e => e.1 = k) k = _
  induction a.slots with
  | nil => rfl
  | cons e slots ih =>
    obtain ⟨j, s⟩ := e
    by_cases hj : j = k
    · simp [Table.get?, hj]
    · simp [Table.get?, hj, ih]

theorem slot_only (a : Allocator) (k : Key) : (a.only k).slot k = a.slot k := by
  rw [slot, slot, slots_only]

theorem view?_only (a : Allocator) (k : Key) : (a.only k).view? k = a.view? k := by
  rw [view?, view?, slots_only]

theorem request_only (hn : a.requests.keys.Nodup) (k : Key) (t : Ticket) :
    (a.only k).requests.get? t = (a.requests.get? t).filter fun r => r.key = k :=
  Table.get?_filter hn _ t

/-- The leases of an account are those of its requests. -/
theorem nonce?_only (hn : a.requests.keys.Nodup) (k : Key) (t : Ticket) : (a.only k).nonce? k t = a.nonce? k t := by
  rw [nonce?, nonce?, request_only hn]
  cases a.requests.get? t with
  | none => rfl
  | some r =>
    by_cases hr : r.key = k
    · simp [Option.filter, hr]
    · simp [Option.filter, Request.nonce?, hr]

section Put

variable {s : Slot} {stage stage' : Option Stage}

/-- What is put in place for an account is put in place in its share. -/
theorem only_put_self (ht : a.requests.get? t = stage.map (Request.mk k)) :
    (a.put t k s stage').only k = (a.only k).put t k s stage' := by
  have hslots : (a.slots.set k s).filter (fun e => e.1 = k) = Table.set (a.slots.filter fun e => e.1 = k) k s := by
    rw [Table.filter_set fun _ _ => rfl]
    simp
  cases stage' with
  | none => simp only [put, only, hslots, Table.filter_erase]
  | some st =>
    have hset : (a.requests.set t ⟨k, st⟩).filter (fun e => e.2.key = k) =
        Table.set (a.requests.filter fun e => e.2.key = k) t ⟨k, st⟩ := by
      rw [Table.filter_set fun r hr => ?_]
      · simp
      · rw [ht] at hr
        obtain ⟨st', -, rfl⟩ := Option.map_eq_some_iff.1 hr
        rfl
    simp only [put, only, hslots, hset]

/-- What is put in place for another account is not seen. -/
theorem only_put_of_ne (hn : a.requests.keys.Nodup) (hj : j ≠ k) (ht : a.requests.get? t = stage.map (Request.mk j)) :
    (a.put t j s stage').only k = a.only k := by
  have hslots : (a.slots.set j s).filter (fun e => e.1 = k) = a.slots.filter fun e => e.1 = k := by
    rw [Table.filter_set fun _ _ => rfl]
    simp [hj]
  -- the request of the ticket, if there is one, is one of the other account
  have hkey : ∀ r, a.requests.get? t = some r → r.key ≠ k := by
    intro r hr
    rw [ht] at hr
    obtain ⟨st, -, rfl⟩ := Option.map_eq_some_iff.1 hr
    exact hj
  cases stage' with
  | none =>
    have hnone : Table.get? (a.requests.filter fun e => e.2.key = k) t = none := by
      rw [Table.get?_filter hn, Option.filter_eq_none_iff]
      simpa using hkey
    simp only [put, only, hslots, Table.filter_erase, Table.erase_of_get?_eq_none hnone]
  | some st =>
    have hset : (a.requests.set t ⟨j, st⟩).filter (fun e => e.2.key = k) =
        a.requests.filter fun e => e.2.key = k := by
      rw [Table.filter_set fun r hr => ?_]
      · simp [hj]
      · simp [hkey r hr, hj]
    simp only [put, only, hslots, hset]

end Put

/-! ## One move -/

theorem concerns_iff : a.concerns k m = true ↔ ∃ stage, a.site? m = some (k, stage) := by
  rw [concerns, Option.any_eq_true]
  constructor
  · rintro ⟨⟨j, stage⟩, hs, hj⟩
    obtain rfl : j = k := of_decide_eq_true hj
    exact ⟨stage, hs⟩
  · rintro ⟨stage, hs⟩
    exact ⟨(k, stage), hs, decide_eq_true rfl⟩

theorem site?_eq_some {stage : Option Stage} (h : a.site? m = some (k, stage)) :
    a.requests.get? m.ticket = stage.map (Request.mk k) := by
  unfold site? at h
  split at h <;> cases h <;> assumption

/-- The share of an account knows the place of each of its moves. -/
theorem site?_only (hn : a.requests.keys.Nodup) {stage : Option Stage} (h : a.site? m = some (k, stage)) :
    (a.only k).site? m = some (k, stage) := by
  have hr := request_only hn k m.ticket
  unfold site? at h ⊢
  rw [hr]
  split at h
  · rename_i r hr'
    cases h
    simp [hr', Option.filter]
  · rename_i hr' hx
    cases h
    simp [hr', hx]
  · cases h

/-- **A move does to its account what it would do if there were no others.** -/
theorem apply_only (hn : a.requests.keys.Nodup) (hm : a.concerns k m = true) :
    (a.only k).apply m = (a.apply m).map fun b => b.only k := by
  obtain ⟨stage, hs⟩ := concerns_iff.1 hm
  have hput (s : Slot) (stage' : Option Stage) :
      (a.put m.ticket k s stage').only k = (a.only k).put m.ticket k s stage' :=
    only_put_self (site?_eq_some hs)
  rw [apply, apply, site?_only hn hs, hs]
  simp only [slot_only]
  cases (a.slot k).step? m.ticket stage m.step with
  | none => rfl
  | some r => simp [hput]

/-- **A move does nothing to any other account.** -/
theorem only_of_apply (hn : a.requests.keys.Nodup) (h : a.apply m = some b) (hm : a.concerns k m = false) :
    b.only k = a.only k := by
  unfold apply at h
  split at h
  · cases h
  · rename_i j stage hs
    obtain ⟨⟨s', stage'⟩, -, rfl⟩ := Option.map_eq_some_iff.1 h
    have hj : j ≠ k := by
      rintro rfl
      rw [concerns_iff.2 ⟨stage, hs⟩] at hm
      cases hm
    exact only_put_of_ne hn hj (site?_eq_some hs)

/-! ## Runs -/

theorem movesOf_cons (h : a.apply m = some b) (k : Key) (ms : List Move) :
    a.movesOf k (m :: ms) = if a.concerns k m then m :: b.movesOf k ms else b.movesOf k ms := by
  rw [movesOf, transitions_cons h, List.filter_cons]
  change (if a.concerns k m = true then _ else _ : List Transition).map _ = _
  split <;> rfl

/-- The moves of an account, by themselves, lead to its share of what the whole run leads to. -/
theorem run_only : ∀ {ms : List Move} {a : Allocator}, a.requests.keys.Nodup → a.run? ms = some b →
    (a.only k).run? (a.movesOf k ms) = some (b.only k)
  | [], _, _, h => by cases h; rfl
  | m :: ms, a, hn, h => by
    obtain ⟨c, hc, h⟩ := run?_cons.1 h
    have ih := run_only (nodup_keys_apply hn hc) h
    rw [movesOf_cons hc]
    cases hm : a.concerns k m with
    | true =>
      rw [if_pos rfl, run?_cons]
      exact ⟨c.only k, by rw [apply_only hn hm, hc]; rfl, ih⟩
    | false =>
      rw [if_neg Bool.false_ne_true, ← only_of_apply hn hc hm]
      exact ih

/-- The transitions of that run are those of the whole, as the account sees them. -/
theorem transitions_only : ∀ {ms : List Move} {a : Allocator}, a.requests.keys.Nodup → a.run? ms = some b →
    (a.only k).transitions (a.movesOf k ms) = ((a.transitions ms).filter fun x => x.concerns k).map fun x => x.only k
  | [], _, _, _ => rfl
  | m :: ms, a, hn, h => by
    obtain ⟨c, hc, h⟩ := run?_cons.1 h
    have ih := transitions_only (nodup_keys_apply hn hc) h
    rw [movesOf_cons hc, transitions_cons hc, List.filter_cons]
    change _ = List.map _ (if a.concerns k m = true then _ else _)
    cases hm : a.concerns k m with
    | true =>
      have happly : (a.only k).apply m = some (c.only k) := by rw [apply_only hn hm, hc]; rfl
      rw [if_pos rfl, transitions_cons happly, ih]
      rfl
    | false =>
      rw [if_neg Bool.false_ne_true, if_neg Bool.false_ne_true, ← only_of_apply hn hc hm]
      exact ih

/-- What can be told of a transition as its account sees it, and of no other one, can be told of the moves of the account
alone. -/
theorem filterMap_only {β : Type} {o : Transition → Option β}
    (self : ∀ {a m c}, a.requests.keys.Nodup → Allocator.apply a m = some c → a.concerns k m = true →
      o ⟨a.only k, m, c.only k⟩ = o ⟨a, m, c⟩)
    (other : ∀ {a m c}, a.requests.keys.Nodup → Allocator.apply a m = some c → a.concerns k m = false →
      o ⟨a, m, c⟩ = none) :
    ∀ {ms : List Move} {a : Allocator}, a.requests.keys.Nodup → a.run? ms = some b →
      ((a.only k).transitions (a.movesOf k ms)).filterMap o = (a.transitions ms).filterMap o
  | [], _, _, _ => rfl
  | m :: ms, a, hn, h => by
    obtain ⟨c, hc, h⟩ := run?_cons.1 h
    have ih := filterMap_only self other (nodup_keys_apply hn hc) h
    rw [movesOf_cons hc, transitions_cons hc, List.filterMap_cons]
    cases hm : a.concerns k m with
    | true =>
      have happly : (a.only k).apply m = some (c.only k) := by rw [apply_only hn hm, hc]; rfl
      rw [if_pos rfl, transitions_cons happly, List.filterMap_cons, self hn hc hm, ih]
    | false =>
      rw [if_neg Bool.false_ne_true, other hn hc hm, ← only_of_apply hn hc hm]
      exact ih

/-- The nonces issued on an account are issued by its own moves. -/
theorem issues_only (hn : a.requests.keys.Nodup) (h : a.run? ms = some b) :
    (a.only k).issues k (a.movesOf k ms) = a.issues k ms := by
  refine filterMap_only (fun hn h _ => ?_) (fun hn h hm => ?_) hn h
  · simp only [Transition.issued?, nonce?_only hn, nonce?_only (nodup_keys_apply hn h)]
  · have hsame (t : Ticket) := nonce?_only (nodup_keys_apply hn h) k t
    simp only [only_of_apply hn h hm, nonce?_only hn] at hsame
    simp only [Transition.issued?, ← hsame]
    split
    · assumption
    · rfl

theorem inquiries_only (hn : a.requests.keys.Nodup) (h : a.run? ms = some b) :
    (a.only k).inquiries k (a.movesOf k ms) = a.inquiries k ms := by
  refine filterMap_only (fun hn h hm => ?_) (fun hn h hm => ?_) hn h
  · obtain ⟨stage, hs⟩ := concerns_iff.1 hm
    have hm' := concerns_iff.2 ⟨stage, site?_only hn hs⟩
    simp only [Transition.inquiry?, Transition.concerns, hm, hm']
  · simp [Transition.inquiry?, Transition.concerns, hm]

end Allocator

/-! ## The accounts of a run -/

open Allocator

/-- What is true of an account in a state `a` to which the moves `past` have led. -/
structure Alone (past : List Move) (a : Allocator) (k : Key) : Prop where
  /-- Its moves by themselves are possible, and lead to what it holds now. -/
  run : run? {} (movesOf {} k past) = some (a.only k)
  /-- One after the other, they do what they did among all others. -/
  course : transitions {} (movesOf {} k past) =
    ((transitions {} past).filter fun x => x.concerns k).map fun x => x.only k
  issues : issues {} k (movesOf {} k past) = issues {} k past
  inquiries : inquiries {} k (movesOf {} k past) = inquiries {} k past
  /-- What it holds is all of it: its state, its counters and gate, its requests and leases. -/
  view : (a.only k).view? k = a.view? k
  slot : (a.only k).slot k = a.slot k
  request : ∀ t, (a.only k).requests.get? t = (a.requests.get? t).filter fun r => r.key = k
  /-- Whether it can make a move, and what comes of it, is not up to any other account. -/
  next : ∀ m, a.concerns k m = true → (a.only k).apply m = (a.apply m).map fun b => b.only k
  /-- A move of another account leaves everything that it holds as it is. -/
  other : ∀ m b, a.concerns k m = false → a.apply m = some b → b.only k = a.only k

/-- **Accounts do not interfere.** Whatever moves any number of requests have made on any number of accounts, in whatever
order, each account is where its own moves alone would have led it. -/
theorem alone_of_run {past : List Move} {a : Allocator} (h : run? {} past = some a) (k : Key) : Alone past a k := by
  have hn : a.requests.keys.Nodup := nodup_keys_of_run h
  constructor
  case run => exact run_only counted_empty.distinct h
  case course => exact transitions_only counted_empty.distinct h
  case issues => exact issues_only counted_empty.distinct h
  case inquiries => exact inquiries_only counted_empty.distinct h
  case view => exact view?_only a k
  case slot => exact slot_only a k
  case request => exact request_only hn k
  case next => exact fun m hm => apply_only hn hm
  case other => exact fun m b hm hb => only_of_apply hn hb hm

/-- A keeper on two chains, and another keeper on the first of them: while the first account has a lease and a request
waits at its gate, the queries of the two others are answered and fail. -/
theorem alone_of_three_accounts :
    let k : Key := ⟨1, 7⟩
    let past : List Move := [⟨0, .begin k⟩, ⟨1, .begin ⟨2, 7⟩⟩, ⟨0, .join⟩, ⟨2, .begin k⟩, ⟨1, .join⟩, ⟨3, .begin ⟨1, 8⟩⟩,
      ⟨0, .recheck⟩, ⟨1, .recheck⟩, ⟨3, .join⟩, ⟨2, .join⟩, ⟨0, .ask⟩, ⟨3, .recheck⟩, ⟨1, .ask⟩, ⟨1, .answer 30⟩,
      ⟨3, .ask⟩, ⟨0, .answer 10⟩, ⟨3, .fail⟩, ⟨0, .settle⟩, ⟨1, .settle⟩, ⟨0, .leave⟩, ⟨2, .recheck⟩, ⟨1, .leave⟩]
    ∃ a, run? {} past = some a ∧ a.view? k = some ⟨k, 11, 2⟩ ∧ a.view? ⟨2, 7⟩ = some ⟨⟨2, 7⟩, 30, 1⟩ ∧
      movesOf {} k past = [⟨0, .begin k⟩, ⟨0, .join⟩, ⟨2, .begin k⟩, ⟨0, .recheck⟩, ⟨2, .join⟩, ⟨0, .ask⟩,
        ⟨0, .answer 10⟩, ⟨0, .settle⟩, ⟨0, .leave⟩, ⟨2, .recheck⟩] ∧ Alone past a k := by
  refine ⟨_, rfl, by decide, by decide, by decide, alone_of_run rfl _⟩

end OrderKeeper.Nonce
