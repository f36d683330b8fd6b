import OrderKeeper.Proofs.Nonce.Epoch

/-!
# Leases when a counter starts again

`Counted` needs counters that never pass their end. Two facts do not: a counter is never above the number of live
leases (`activeLeases_le`), so that it is zero when none is left; and the live leases of an account have distinct
nonces as long as fewer nonces were issued there than there are (`spread_of_run`), because a nonce that was issued
lies behind the last one by less than the number of nonces issued.
-/

namespace OrderKeeper.Nonce

namespace Allocator

variable {a b : Allocator} {m : Move} {ms : List Move} {k : Key}

/-! ## Counters and live leases -/

theorem toNat_add_one_le (x : UInt64) : (x + 1).toNat ≤ x.toNat + 1 := by
  rw [UInt64.toNat_add]
  exact Nat.mod_le _ _

/-- A counter is never above the number of live leases. -/
def Bounded (a : Allocator) (k : Key) : Prop := (a.slot k).activeLeases.toNat ≤ (a.leases k).length

theorem bounded_apply (hn : a.requests.keys.Nodup) (ha : Bounded a k) (h : a.apply m = some b) : Bounded b k := by
  unfold Bounded at ha ⊢
  cases effect_of_apply hn h k with
  | quiet _ hl hp => rwa [hl, hp.length_eq]
  | next _ _ hl hp _ =>
    rw [hl, hp.length_eq, List.length_cons]
    exact Nat.le_trans (toNat_add_one_le _) (Nat.succ_le_succ ha)
  | first p _ _ _ hl hp _ =>
    rw [hl, hp.length_eq, List.length_cons]
    exact Nat.succ_le_succ (Nat.zero_le _)
  | less n _ hl hp _ =>
    rw [hp.length_eq, List.length_cons] at ha
    rw [hl, toNat_less]
    exact Nat.sub_le_of_le_add ha

/-- In a run from the start, no counter is ever above the number of live leases. -/
theorem activeLeases_le (h : run? {} ms = some a) (k : Key) : (a.slot k).activeLeases.toNat ≤ (a.leases k).length :=
  (run_induction (P := fun a => a.requests.keys.Nodup ∧ Bounded a k)
    (fun ha h => ⟨nodup_keys_apply ha.1 h, bounded_apply ha.1 ha.2 h⟩) ⟨counted_empty.distinct, Nat.le_refl _⟩ h).2

/-! ## Distances to the last nonce -/

/-- After `i` nonces, the counter of an account counts its live leases, whose nonces are distinct and behind the last
one by less than `i`. -/
structure Spread (a : Allocator) (k : Key) (i : Nat) : Prop where
  count : (a.slot k).activeLeases.toNat = (a.leases k).length
  few : (a.leases k).length ≤ i
  distinct : (a.leases k).Nodup
  near : ∀ n ∈ a.leases k, ((a.slot k).currentNonce - n).toNat < i

theorem spread_empty (k : Key) : Spread {} k 0 where
  count := rfl
  few := Nat.le_refl _
  distinct := List.nodup_nil
  near _ h := by cases h

theorem toNat_add_one_sub {x n : UInt64} (h : (x - n).toNat + 1 < UInt64.size) :
    (x + 1 - n).toNat = (x - n).toNat + 1 := by
  rw [← toNat_add_one h, UInt64.sub_eq_add_neg, UInt64.sub_eq_add_neg, UInt64.add_assoc, UInt64.add_assoc,
    UInt64.add_comm 1]

theorem spread_apply {i : Nat} (hn : a.requests.keys.Nodup) (hg : Gated a) (ha : Spread a k i)
    (h : a.apply m = some b) (hi : i + (Transition.issued? ⟨a, m, b⟩ k).toList.length < UInt64.size) :
    Spread b k (i + (Transition.issued? ⟨a, m, b⟩ k).toList.length) := by
  cases effect_of_apply hn h k with
  | quiet hc hl hp hnone =>
    rw [hnone]
    refine ⟨by rw [hl, hp.length_eq]; exact ha.count, by rw [hp.length_eq]; exact ha.few,
      hp.nodup_iff.2 ha.distinct, fun n hm => ?_⟩
    rw [hc]
    exact ha.near n (hp.mem_iff.1 hm)
  | next h0 hc hl hp hsome =>
    rw [hsome] at hi ⊢
    change i + 1 < UInt64.size at hi
    have step {n : UInt64} (hm : n ∈ a.leases k) :
        ((b.slot k).currentNonce - n).toNat = ((a.slot k).currentNonce - n).toNat + 1 := by
      rw [hc]
      exact toNat_add_one_sub (Nat.lt_trans (Nat.succ_lt_succ (ha.near n hm)) hi)
    have hcount : ((a.slot k).activeLeases + 1).toNat = (a.slot k).activeLeases.toNat + 1 := by
      refine toNat_add_one (Nat.lt_of_le_of_lt (Nat.succ_le_succ ?_) hi)
      rw [ha.count]
      exact ha.few
    refine ⟨by rw [hl, hp.length_eq, List.length_cons, hcount, ha.count],
      by rw [hp.length_eq]; exact Nat.succ_le_succ ha.few,
      hp.nodup_iff.2 (List.nodup_cons.2 ⟨fun hm => ?_, ha.distinct⟩), fun n hm => ?_⟩
    · -- a live lease of the new nonce would be as far behind the last one as can be
      have hs := step hm
      rw [hc, UInt64.sub_self] at hs
      cases hs
    · rcases List.mem_cons.1 (hp.mem_iff.1 hm) with rfl | hm
      · rw [hc, UInt64.sub_self]
        exact Nat.succ_pos _
      · rw [step hm]
        exact Nat.succ_lt_succ (ha.near n hm)
  | first p hr _ hc hl hp hsome =>
    have hnil : a.leases k = [] := by
      have hlen := ha.count
      rw [hg.idle hr rfl] at hlen
      exact List.length_eq_zero_iff.1 hlen.symm
    rw [hnil] at hp
    rw [hsome]
    refine ⟨by rw [hl, hp.length_eq]; rfl, by rw [hp.length_eq]; exact Nat.le_add_left _ _,
      hp.nodup_iff.2 (List.nodup_cons.2 ⟨List.not_mem_nil, List.nodup_nil⟩), fun n hm => ?_⟩
    rw [hc, List.mem_singleton.1 (hp.mem_iff.1 hm), UInt64.sub_self]
    exact Nat.succ_pos _
  | less n hc hl hp hnone =>
    have hlen := ha.count
    rw [hp.length_eq, List.length_cons] at hlen
    have hfew := ha.few
    rw [hp.length_eq, List.length_cons] at hfew
    rw [hnone]
    refine ⟨by rw [hl, toNat_less, hlen]; rfl, Nat.le_of_succ_le hfew,
      (List.nodup_cons.1 (hp.nodup_iff.1 ha.distinct)).2, fun x hm => ?_⟩
    rw [hc]
    exact ha.near x (hp.mem_iff.2 (List.mem_cons_of_mem _ hm))

theorem spread_run : ∀ {ms : List Move} {a : Allocator} {i : Nat}, a.requests.keys.Nodup → Gated a → Spread a k i →
    a.run? ms = some b → i + (a.issues k ms).length < UInt64.size → Spread b k (i + (a.issues k ms).length)
  | [], _, _, _, _, ha, h, _ => by cases h; exact ha
  | m :: ms, a, i, hn, hg, ha, h, hi => by
    obtain ⟨c, hc, h⟩ := run?_cons.1 h
    rw [issues_cons hc, List.length_append, ← Nat.add_assoc] at hi ⊢
    exact spread_run (nodup_keys_apply hn hc) (gated_apply hg hc)
      (spread_apply hn hg ha hc (Nat.lt_of_le_of_lt (Nat.le_add_right _ _) hi)) h hi

/-- In a run from the start, the live leases of an account have distinct nonces and its counter counts them, as long as
fewer nonces were issued there than there are. -/
theorem spread_of_run (h : run? {} ms = some a) (k : Key) (hi : (issues {} k ms).length < UInt64.size) :
    Spread a k (issues {} k ms).length := by
  have hs := spread_run counted_empty.distinct gated_empty (spread_empty k) h (by rwa [Nat.zero_add])
  rwa [Nat.zero_add] at hs

/-! ## Who was issued nonces -/

/-- The tickets to which nonces of an account were issued. -/
def issuers (a : Allocator) (k : Key) (ms : List Move) : List Ticket :=
  (a.transitions ms).filterMap fun x => (x.issued? k).map fun _ => x.move.ticket

theorem length_issuers (a : Allocator) (k : Key) (ms : List Move) :
    (a.issuers k ms).length = (a.issues k ms).length := by
  rw [issues, issuers, List.length_filterMap_eq_countP, List.length_filterMap_eq_countP]
  simp

theorem issuers_append {ns : List Move} (h : a.run? ms = some b) :
    a.issuers k (ms ++ ns) = a.issuers k ms ++ b.issuers k ns := by
  rw [issuers, transitions_append h, List.filterMap_append]
  rfl

theorem issuers_singleton (h : a.apply m = some b) :
    a.issuers k [m] = ((Transition.issued? ⟨a, m, b⟩ k).map fun _ => m.ticket).toList := by
  rw [issuers, transitions_cons h, List.filterMap_cons]
  cases Transition.issued? ⟨a, m, b⟩ k <;> rfl

end Allocator

end OrderKeeper.Nonce
