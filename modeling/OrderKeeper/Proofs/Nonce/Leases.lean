import OrderKeeper.Nonce.History
import OrderKeeper.Proofs.Nonce.Gate

/-!
# Counters and live leases

What a move does to the counters of an account and to its live leases together (`Effect`, `effect_of_apply`): nothing, a
lease after the last one, the first lease, or a lease less. From this the counters count (`Counted`, kept by every move
that finds room in `counted_apply`).
-/

namespace OrderKeeper.Nonce

/-- What a move does to one account: to its counters and its live leases, and the nonce it issues there. -/
inductive Effect (k : Key) (a : Allocator) (m : Move) (b : Allocator) : Prop where
  | quiet : (b.slot k).currentNonce = (a.slot k).currentNonce → (b.slot k).activeLeases = (a.slot k).activeLeases →
      List.Perm (b.leases k) (a.leases k) → Transition.issued? ⟨a, m, b⟩ k = none → Effect k a m b
  | next : (a.slot k).activeLeases ≠ 0 → (b.slot k).currentNonce = (a.slot k).currentNonce + 1 →
      (b.slot k).activeLeases = (a.slot k).activeLeases + 1 →
      List.Perm (b.leases k) (((a.slot k).currentNonce + 1) :: a.leases k) →
      Transition.issued? ⟨a, m, b⟩ k = some ((a.slot k).currentNonce + 1) → Effect k a m b
  | first (p : UInt64) : a.requests.get? m.ticket = some ⟨k, .answered p⟩ → m.step = .settle →
      (b.slot k).currentNonce = p → (b.slot k).activeLeases = 1 → List.Perm (b.leases k) (p :: a.leases k) →
      Transition.issued? ⟨a, m, b⟩ k = some p → Effect k a m b
  | less (n : UInt64) : (b.slot k).currentNonce = (a.slot k).currentNonce →
      (b.slot k).activeLeases = (if (a.slot k).activeLeases = 0 then 0 else (a.slot k).activeLeases - 1) →
      List.Perm (a.leases k) (n :: b.leases k) → Transition.issued? ⟨a, m, b⟩ k = none → Effect k a m b

namespace Allocator

variable {a b : Allocator} {m : Move} {k : Key}

/-- The live leases after a move that leaves the lease of its ticket as it was. -/
theorem leases_perm_of_nonce?_eq (hn : a.requests.keys.Nodup) {t : Ticket} {j : Key} {s : Slot} {stage : Option Stage}
    (h : (a.put t j s stage).nonce? k t = a.nonce? k t) : List.Perm ((a.put t j s stage).leases k) (a.leases k) := by
  have hp := leases_put_perm hn t j k s stage
  rw [h] at hp
  exact hp.trans (leases_perm hn t k).symm

/-- The live leases after a move that issues a nonce. -/
theorem leases_perm_cons (hn : a.requests.keys.Nodup) {t : Ticket} {j : Key} {s : Slot} {stage : Option Stage}
    {n : UInt64} (h₀ : a.nonce? k t = none) (h₁ : (a.put t j s stage).nonce? k t = some n) :
    List.Perm ((a.put t j s stage).leases k) (n :: a.leases k) := by
  have hp := leases_put_perm hn t j k s stage
  have hq := leases_perm hn t k
  rw [h₁] at hp
  rw [h₀] at hq
  exact hp.trans (hq.symm.cons n)

/-- The live leases before a move that ends the lease of its ticket. -/
theorem leases_perm_of_ended (hn : a.requests.keys.Nodup) {t : Ticket} {j : Key} {s : Slot} {stage : Option Stage}
    {n : UInt64} (h₀ : a.nonce? k t = some n) (h₁ : (a.put t j s stage).nonce? k t = none) :
    List.Perm (a.leases k) (n :: (a.put t j s stage).leases k) := by
  have hp := leases_put_perm hn t j k s stage
  have hq := leases_perm hn t k
  rw [h₁] at hp
  rw [h₀] at hq
  exact hq.trans (hp.symm.cons n)

theorem effect_of_apply (hn : a.requests.keys.Nodup) (h : a.apply m = some b) (k : Key) : Effect k a m b := by
  obtain ⟨j, stage, s', stage', ht, hs, rfl⟩ := apply_cases h
  have hb : (a.put m.ticket j s' stage').requests.get? m.ticket = stage'.map (Request.mk j) := request_put_self
  by_cases hj : j = k
  · subst hj
    have quiet (hc : s'.currentNonce = (a.slot j).currentNonce) (hl : s'.activeLeases = (a.slot j).activeLeases)
        (he : (a.put m.ticket j s' stage').nonce? j m.ticket = a.nonce? j m.ticket) :
        Effect j a m (a.put m.ticket j s' stage') := by
      refine .quiet (by simpa using hc) (by simpa using hl) (leases_perm_of_nonce?_eq hn he) ?_
      unfold Transition.issued?
      cases hx : a.nonce? j m.ticket <;> simp [he, hx]
    have issued {n : UInt64} (h₀ : a.nonce? j m.ticket = none)
        (h₁ : (a.put m.ticket j s' stage').nonce? j m.ticket = some n) :
        Transition.issued? ⟨a, m, a.put m.ticket j s' stage'⟩ j = some n := by
      simp only [Transition.issued?, h₀, h₁]
    generalize hx : m.step = x at hs
    cases hs with
    | follow ha | followLate _ ha =>
      have h₀ : a.nonce? j m.ticket = none := by simp [nonce?, ht, Request.nonce?, Stage.nonce?]
      have h₁ := congrArg (Option.bind · (Request.nonce? j)) hb
      simp only [Option.map_some, Option.bind_some, Request.nonce?, Stage.nonce?, if_true] at h₁
      exact .next ha (by simp [Slot.issueNext]) (by simp [Slot.issueNext]) (leases_perm_cons hn h₀ h₁) (issued h₀ h₁)
    | arrive | join | enter | ask | answer | leave | fail =>
      exact quiet rfl rfl (by simp [nonce?, hb, ht, Request.nonce?, Stage.nonce?])
    | abandon hst =>
      refine quiet rfl rfl ?_
      rcases hst with rfl | rfl | ⟨p, rfl⟩ <;> simp [nonce?, hb, ht, Request.nonce?, Stage.nonce?]
    | @settle p =>
      have h₀ : a.nonce? j m.ticket = none := by simp [nonce?, ht, Request.nonce?, Stage.nonce?]
      have h₁ := congrArg (Option.bind · (Request.nonce? j)) hb
      simp only [Option.map_some, Option.bind_some, Request.nonce?, Stage.nonce?, if_true] at h₁
      exact .first p ht hx (by simp [Slot.issueFirst]) (by simp [Slot.issueFirst]) (leases_perm_cons hn h₀ h₁)
        (issued h₀ h₁)
    | @release n =>
      have h₀ : a.nonce? j m.ticket = some n := by simp [nonce?, ht, Request.nonce?, Stage.nonce?]
      have h₁ : (a.put m.ticket j (a.slot j).release none).nonce? j m.ticket = none := by simp [nonce?, hb]
      refine .less n (by simp [Slot.release]) (by simp [Slot.release]) (leases_perm_of_ended hn h₀ h₁) ?_
      simp only [Transition.issued?, h₀]
  · -- another account
    have he : (a.put m.ticket j s' stage').nonce? k m.ticket = none := by
      cases stage' <;> simp [nonce?, hb, Request.nonce?, hj]
    have he₀ : a.nonce? k m.ticket = none := by cases stage <;> simp [nonce?, ht, Request.nonce?, hj]
    refine .quiet (by rw [slot_put_of_ne hj]) (by rw [slot_put_of_ne hj])
      (leases_perm_of_nonce?_eq hn (he.trans he₀.symm)) ?_
    simp only [Transition.issued?, he₀, he]

/-! ## The counters count -/

/-- The counters of every account count its live leases, whose nonces are distinct and none above the last one. -/
structure Counted (a : Allocator) : Prop where
  distinct : a.requests.keys.Nodup
  count : ∀ k, (a.slot k).activeLeases.toNat = (a.leases k).length
  nodup : ∀ k, (a.leases k).Nodup
  below : ∀ k, ∀ n ∈ a.leases k, n ≤ (a.slot k).currentNonce

theorem counted_empty : Counted {} where
  distinct := List.nodup_nil
  count _ := rfl
  nodup _ := List.nodup_nil
  below _ _ h := by cases h

theorem Counted.leases_eq_nil (h : Counted a) (h0 : (a.slot k).activeLeases = 0) : a.leases k = [] := by
  have hc := h.count k
  rw [h0] at hc
  exact List.length_eq_zero_iff.1 hc.symm

theorem nodup_keys_apply (hn : a.requests.keys.Nodup) (h : a.apply m = some b) : b.requests.keys.Nodup := by
  obtain ⟨j, stage, s', stage', -, -, rfl⟩ := apply_cases h
  exact nodup_put hn

theorem nodup_keys_of_run {ms : List Move} (h : run? {} ms = some a) : a.requests.keys.Nodup :=
  run_induction (P := fun a => a.requests.keys.Nodup) nodup_keys_apply counted_empty.distinct h

theorem toNat_add_one {x : UInt64} (h : x.toNat + 1 < UInt64.size) : (x + 1).toNat = x.toNat + 1 := by
  rw [UInt64.toNat_add]
  exact Nat.mod_eq_of_lt h

/-- A counter goes down to zero and no further. -/
theorem toNat_less (x : UInt64) : (if x = 0 then 0 else x - 1).toNat = x.toNat - 1 := by
  by_cases h0 : x = 0
  · simp [h0]
  · have h1 : 1 ≤ x.toNat := Nat.one_le_iff_ne_zero.2 fun e => h0 (UInt64.toNat_inj.1 e)
    rw [if_neg h0]
    exact UInt64.toNat_sub_of_le _ _ (UInt64.le_iff_toNat_le.2 h1)

/-- A move that issues a nonce after the last one, and fits, wraps neither counter. -/
theorem toNat_add_one_of_fits {n : UInt64} (hf : Transition.fits ⟨a, m, b⟩ = true)
    (hi : Transition.issued? ⟨a, m, b⟩ k = some n) (ha : (a.slot k).activeLeases ≠ 0) :
    ((a.slot k).currentNonce + 1).toNat = (a.slot k).currentNonce.toNat + 1 ∧
    ((a.slot k).activeLeases + 1).toNat = (a.slot k).activeLeases.toNat + 1 := by
  have hk : ∃ st, b.requests.get? m.ticket = some ⟨k, st⟩ := by
    unfold Transition.issued? at hi
    split at hi
    · obtain ⟨⟨j, st⟩, hr, hn⟩ := Option.bind_eq_some_iff.1 hi
      unfold Request.nonce? at hn
      split at hn
      · rename_i hj
        exact ⟨st, by rw [hr, ← hj]⟩
      · cases hn
    · cases hi
  obtain ⟨st, hr⟩ := hk
  have hroom : (a.slot k).hasRoom = true := by simpa [Transition.fits, hr, hi, ha] using hf
  rw [Slot.hasRoom, Bool.and_eq_true, decide_eq_true_iff, decide_eq_true_iff] at hroom
  exact ⟨toNat_add_one hroom.1, toNat_add_one hroom.2⟩

theorem counted_apply (ha : Counted a) (hg : Gated a) (h : a.apply m = some b)
    (hf : Transition.fits ⟨a, m, b⟩ = true) : Counted b := by
  have he := effect_of_apply ha.distinct h
  refine ⟨nodup_keys_apply ha.distinct h, fun k => ?_, fun k => ?_, fun k n hn => ?_⟩
  · cases he k with
    | quiet _ hl hp => rw [hl, ha.count, hp.length_eq]
    | next h0 _ hl hp hi =>
      rw [hl, (toNat_add_one_of_fits hf hi h0).2, hp.length_eq, List.length_cons, ← ha.count]
    | first p hr _ _ hl hp =>
      rw [hl, hp.length_eq, ha.leases_eq_nil (hg.idle hr rfl)]
      rfl
    | less n _ hl hp =>
      have hc := ha.count k
      rw [hp.length_eq, List.length_cons] at hc
      rw [hl, toNat_less, hc]
      rfl
  · cases he k with
    | quiet _ _ hp => exact hp.nodup_iff.2 (ha.nodup k)
    | next h0 _ _ hp hi =>
      refine hp.nodup_iff.2 (List.nodup_cons.2 ⟨fun hm => ?_, ha.nodup k⟩)
      have hle := UInt64.le_iff_toNat_le.1 (ha.below k _ hm)
      rw [(toNat_add_one_of_fits hf hi h0).1] at hle
      exact absurd hle (by simp)
    | first p hr _ _ _ hp =>
      rw [ha.leases_eq_nil (hg.idle hr rfl)] at hp
      exact hp.nodup_iff.2 (List.nodup_cons.2 ⟨List.not_mem_nil, List.nodup_nil⟩)
    | less n _ _ hp => exact (List.nodup_cons.1 (hp.nodup_iff.1 (ha.nodup k))).2
  · cases he k with
    | quiet hc _ hp => rw [hc]; exact ha.below k n (hp.mem_iff.1 hn)
    | next h0 hc _ hp hi =>
      rw [hc]
      rcases List.mem_cons.1 (hp.mem_iff.1 hn) with rfl | hn
      · exact UInt64.le_refl _
      · refine UInt64.le_trans (ha.below k n hn) (UInt64.le_iff_toNat_le.2 ?_)
        rw [(toNat_add_one_of_fits hf hi h0).1]
        exact Nat.le_add_right _ _
    | first p hr _ hc _ hp =>
      rw [ha.leases_eq_nil (hg.idle hr rfl)] at hp
      rw [hc, List.mem_singleton.1 (hp.mem_iff.1 hn)]
      exact UInt64.le_refl _
    | less _ hc _ hp => rw [hc]; exact ha.below k n (hp.mem_iff.2 (List.mem_cons_of_mem _ hn))

end Allocator

end OrderKeeper.Nonce
