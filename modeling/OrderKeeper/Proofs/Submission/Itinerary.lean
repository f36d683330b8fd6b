import OrderKeeper.Proofs.Submission.Journey

/-!
# The calls of a submission

Which calls a submission makes, in which order, and what lets it go on from one to the next (`itinerary_of_run`): its
calls are a beginning of a word of one of the shapes that its mode and its overrides allow (`Shape`); between two
calls in a row, the first was answered in a way that leads to the second (`Leads`); a broadcast that the node took or
may hold is looked for, but a refused one at most thirty times in the simple mode.
-/

namespace OrderKeeper.Submission

open Nonce (Ticket)

/-! ## Shapes -/

/-- The kinds of calls. -/
inductive Kind where
  | check
  | nonce
  | baseFee
  | tip
  | gasPrice
  | simulate
  | send
  | look
  deriving DecidableEq, Repr

/-- The kind of a call. -/
def kindOf : LedgerCall → Kind
  | .call _ => .check
  | .pendingNonce _ => .nonce
  | .baseFee => .baseFee
  | .priorityFee => .tip
  | .gasPrice => .gasPrice
  | .estimateGas _ => .simulate
  | .send _ => .send
  | .receipt _ => .look

/-- The calls of a log. -/
def calls (log : List Event) : List LedgerCall := log.filterMap Event.call?

theorem calls_cons_of_none {e : Event} {log : List Event} (he : e.call? = none) : calls (e :: log) = calls log :=
  List.filterMap_cons_none he

/-- Their kinds. -/
def kinds (log : List Event) : List Kind := (calls log).map kindOf

/-- From the check to the base fee; the ledger's nonce is asked for only if no lease can be followed. -/
def heading (isSynced : Bool) : List Kind := .check :: ((if isSynced then [.nonce] else []) ++ [.baseFee])

/-- From the check to the first price, for which the network's suggestion is asked if the price follows it. -/
inductive Opening (b : Brief) : List Kind → Prop where
  | plain (isSynced : Bool) : b.isAdaptive = false → Opening b (heading isSynced ++ [.simulate])
  | adaptive (isSynced : Bool) {fee : Kind} : b.isAdaptive = true → fee = .tip ∨ fee = .gasPrice →
      Opening b (heading isSynced ++ [fee, .simulate])

/-- Rounds of an escalation with some look-ups each. -/
def roundsOf (js : List Nat) : List Kind := js.flatMap fun j => .simulate :: .send :: List.replicate j .look

/-- A round has a look-up, and no more look-ups than there were broadcasts. -/
def Rising (js : List Nat) : Prop := ∀ n j, js[n]? = some j → 1 ≤ j ∧ j ≤ n + 1

/-- The shapes of all calls of a submission. -/
inductive Shape (b : Brief) : List Kind → Prop where
  | simple {o : List Kind} (polls : Nat) : b.mode = .simple → Opening b o →
      Shape b (o ++ .send :: List.replicate polls .look)
  | optimized {o : List Kind} {js : List Nat} : b.mode = .optimized → Opening b o → Rising js →
      js.length = b.settings.maxEscalations.toNat + 1 → Shape b (o ++ roundsOf js)

/-- An answer to one call leads to another: the upkeep check says that there is something to do, the network's gas price
is asked for exactly when there is no base fee, a broadcast is taken or may be held, a look-up settles nothing, and
anything else succeeds. -/
def Leads (b : Brief) : (c : LedgerCall) → Except Fault c.Answer → LedgerCall → Prop
  | .call _, a, _ => ∃ data, a = .ok data ∧ Upkeep.decode b.item.target.contract b.chainId data = .ok true
  | .baseFee, a, d => ∃ base, a = .ok base ∧ (d = .gasPrice ↔ base = none)
  | .send _, a, _ => ∀ f, a = .error f → f.isPossiblySent = true
  | .receipt h, a, _ => Receipt.Undecided h a
  | .pendingNonce _, a, _ | .priorityFee, a, _ | .gasPrice, a, _ | .estimateGas _, a, _ => ∃ x, a = .ok x

/-- What is true of the calls of a submission. -/
structure Itinerary (task : Task) : Prop where
  shape : ∃ w, Shape task.brief w ∧ kinds task.log <+: w
  /-- A call that follows another one comes after an answer that leads to it. -/
  leads : ∀ before c mid d after, task.log = before ++ .called c :: (mid ++ .called d :: after) → calls mid = [] →
    ∃ a, mid.filter Event.isReply = [.replied c a] ∧ Leads task.brief c a d
  /-- A broadcast that was not plainly refused is looked for, unless the submission is cancelled or given up first. -/
  looks : ∀ r, task.standing = .closing (.finished r) ∨ task.standing = .ended (.finished r) →
    ∀ before x a after, task.log = before ++ .replied (.send x) a :: after →
      (∀ f, a = .error f → f.isPossiblySent = true) → calls after ≠ []
  /-- In the simple mode, a broadcast that was refused is looked for at most thirty times. -/
  bounded : task.brief.mode = .simple → ∀ before x f after,
    task.log = before ++ .replied (.send x) (.error f) :: after → (kinds after).count .look ≤ 30

/-! ## One call after another -/

section Calls

variable {b : Brief} {s s' : Journey} {e : Event} {p : Phase} {w : List Kind}

/-- A call that a phase allows, and where its answers lead. -/
inductive Phase.Goes (b : Brief) : Phase → (c : LedgerCall) → (Except Fault c.Answer → Phase) → Prop where
  | check {r} : Goes b .outset (.call r) (onExecutable b)
  | nonce {k} : Goes b .cleared (.pendingNonce k) (onOk fun _ => .numbered)
  | baseFee : Goes b .cleared .baseFee (onOk fun base => .based base.isSome)
  | baseFeeSynced : Goes b .numbered .baseFee (onOk fun base => .based base.isSome)
  | gasPrice : b.isAdaptive = true → Goes b (.based false) .gasPrice (onOk fun _ => .tipped)
  | tip : b.isAdaptive = true → Goes b (.based true) .priorityFee (onOk fun _ => .tipped)
  | simulatePlain {r} : b.isAdaptive = false → Goes b (.based true) (.estimateGas r) (onOk fun _ => .priced)
  | simulateAdaptive {r} : Goes b .tipped (.estimateGas r) (onOk fun _ => .priced)
  | sendOnce {x} : b.mode = .simple → Goes b .priced (.send x) (onSent fun bound => .watching bound 0)
  | watch {bound polls h} : bound.all (polls < ·.toNat) = true →
      Goes b (.watching bound polls) (.receipt h) (onPending h (.watching bound (polls + 1)))
  | simulateFirst {r} : b.mode = .optimized → Goes b .priced (.estimateGas r) (onOk fun _ => .quoted 1)
  | send {i x} : Goes b (.quoted i) (.send x) (onSent fun _ => .looking i 0)
  | look {i j h} : j < i → Goes b (.looking i j) (.receipt h) (onPending h (.looking i (j + 1)))
  | simulateNext {i j r} : 1 ≤ j → i ≤ b.settings.maxEscalations.toNat →
      Goes b (.looking i j) (.estimateGas r) (onOk fun _ => .quoted (i + 1))

theorem Phase.goes_of_next? {c : LedgerCall} {f : Except Fault c.Answer → Phase} (h : p.next? b c = some f) :
    p.Goes b c f := by
  cases p with
  | outset =>
    cases c with
    | call => cases h; exact .check
    | _ => cases h
  | cleared =>
    cases c with
    | pendingNonce => cases h; exact .nonce
    | baseFee => cases h; exact .baseFee
    | _ => cases h
  | numbered =>
    cases c with
    | baseFee => cases h; exact .baseFeeSynced
    | _ => cases h
  | based hasFee =>
    cases hasFee with
    | false =>
      cases c with
      | gasPrice =>
        obtain ⟨ha, ⟨⟩⟩ := Option.ite_none_right_eq_some.1 h
        exact .gasPrice ha
      | _ => cases h
    | true =>
      cases c with
      | priorityFee =>
        obtain ⟨ha, ⟨⟩⟩ := Option.ite_none_right_eq_some.1 h
        exact .tip ha
      | estimateGas =>
        obtain ⟨ha, ⟨⟩⟩ := Option.ite_none_left_eq_some.1 h
        exact .simulatePlain (Bool.eq_false_iff.2 ha)
      | _ => cases h
  | tipped =>
    cases c with
    | estimateGas => cases h; exact .simulateAdaptive
    | _ => cases h
  | priced =>
    cases c with
    | send =>
      obtain ⟨hm, ⟨⟩⟩ := Option.ite_none_right_eq_some.1 h
      exact .sendOnce hm
    | estimateGas =>
      obtain ⟨hm, ⟨⟩⟩ := Option.ite_none_right_eq_some.1 h
      exact .simulateFirst hm
    | _ => cases h
  | watching bound polls =>
    cases c with
    | receipt =>
      obtain ⟨hb, ⟨⟩⟩ := Option.ite_none_right_eq_some.1 h
      exact .watch hb
    | _ => cases h
  | quoted i =>
    cases c with
    | send => cases h; exact .send
    | _ => cases h
  | looking i j =>
    cases c with
    | receipt =>
      obtain ⟨hj, ⟨⟩⟩ := Option.ite_none_right_eq_some.1 h
      exact .look hj
    | estimateGas =>
      obtain ⟨⟨hj, hi⟩, ⟨⟩⟩ := Option.ite_none_right_eq_some.1 h
      exact .simulateNext hj hi
    | _ => cases h
  | stopped => cases c <;> cases h

/-- What can be seen on the way. -/
inductive Journey.Steps (b : Brief) : Journey → Event → Journey → Prop where
  | call {p c f} : Phase.Goes b p c f → Steps b ⟨p, none⟩ (.called c) ⟨p, some c⟩
  | reply {p c f} (a : Except Fault c.Answer) : Phase.Goes b p c f → Steps b ⟨p, some c⟩ (.replied c a) ⟨f a, none⟩
  | other {s : Journey} {e : Event} : e.call? = none → e.isReply = false → Steps b s e s

theorem Journey.steps_of_step (h : (journeyLaw b).step s e = some s') : Journey.Steps b s e s' := by
  obtain ⟨p, o⟩ := s
  cases e with
  | requested | leased | released =>
    cases o <;> cases h <;> exact .other rfl rfl
  | called c =>
    cases o with
    | some d => cases h
    | none =>
      change (if (p.next? b c).isSome then some (⟨p, some c⟩ : Journey) else none) = some s' at h
      split at h
      · rename_i hs
        obtain ⟨f, hf⟩ := Option.isSome_iff_exists.1 hs
        cases h
        exact .call (Phase.goes_of_next? hf)
      · cases h
  | replied d a =>
    cases o with
    | none => cases h
    | some c =>
      change (if c = d then (p.next? b d).map fun f => (⟨f a, none⟩ : Journey) else none) = some s' at h
      split at h
      · rename_i hcd
        subst hcd
        obtain ⟨f, hf, rfl⟩ := Option.map_eq_some_iff.1 h
        exact .reply a (Phase.goes_of_next? hf)
      · cases h

/-- Nothing comes after a failure. -/
theorem ok_of_onOk {α : Type} {q : α → Phase} {a : Except Fault α} {d : LedgerCall} {g : Except Fault d.Answer → Phase}
    (h : Phase.Goes b (Phase.onOk q a) d g) : ∃ x, a = .ok x := by
  cases a with
  | ok x => exact ⟨x, rfl⟩
  | error f => cases h

theorem decode_of_onExecutable {a : Except Fault Bytes} {d : LedgerCall} {g : Except Fault d.Answer → Phase}
    (h : Phase.Goes b (Phase.onExecutable b a) d g) :
    ∃ data, a = .ok data ∧ Upkeep.decode b.item.target.contract b.chainId data = .ok true := by
  cases a with
  | error f => cases h
  | ok data =>
    refine ⟨data, rfl, ?_⟩
    unfold Phase.onExecutable at h
    split at h
    · assumption
    · cases h

theorem isPossiblySent_of_onSent {q : Option UInt32 → Phase} {f : Fault} {d : LedgerCall}
    {g : Except Fault d.Answer → Phase} (h : Phase.Goes b (Phase.onSent q (.error f)) d g) :
    f.isPossiblySent = true := by
  change Phase.Goes b (if f.isPossiblySent then q (some refusedBound) else .stopped) d g at h
  split at h
  · assumption
  · cases h

theorem undecided_of_onPending {hash : Hash} {q : Phase} {a : Except Fault (Option Receipt)} {d : LedgerCall}
    {g : Except Fault d.Answer → Phase} (h : Phase.Goes b (Phase.onPending hash q a) d g) :
    Receipt.Undecided hash a := by
  unfold Phase.onPending at h
  split at h
  · exact Receipt.undecided_iff.2 ‹_›
  · cases h

/-- What lets a submission go on from one call to the next. -/
theorem leads_of_goes {c d : LedgerCall} {f : Except Fault c.Answer → Phase} {g : Except Fault d.Answer → Phase}
    {a : Except Fault c.Answer} (hc : Phase.Goes b p c f) (hd : Phase.Goes b (f a) d g) : Leads b c a d := by
  have based {base : Option Wei} (h : Phase.Goes b (.based base.isSome) d g) : d = .gasPrice ↔ base = none := by
    cases base <;> cases h <;> simp
  cases hc with
  | check => exact decode_of_onExecutable hd
  | baseFee | baseFeeSynced =>
    obtain ⟨base, rfl⟩ := ok_of_onOk hd
    exact ⟨base, rfl, based hd⟩
  | nonce | gasPrice | tip | simulatePlain | simulateAdaptive | simulateFirst | simulateNext => exact ok_of_onOk hd
  | sendOnce | send =>
    rintro f rfl
    exact isPossiblySent_of_onSent hd
  | watch | look => exact undecided_of_onPending hd

/-- Without a call, nothing is answered. -/
theorem quiet_of_after : ∀ {log : List Event}, (journeyLaw b).after ⟨p, none⟩ log = some s' → calls log = [] →
    s' = ⟨p, none⟩ ∧ log.filter Event.isReply = []
  | [], h, _ => by cases h; exact ⟨rfl, rfl⟩
  | e :: log, h, hc => by
    obtain ⟨s₁, hs, h⟩ := Law.after_cons.1 h
    cases Journey.steps_of_step hs with
    | call => cases hc
    | other he hr =>
      rw [calls_cons_of_none he] at hc
      obtain ⟨rfl, hl⟩ := quiet_of_after h hc
      exact ⟨rfl, by rw [List.filter_cons_of_neg (by rw [hr]; exact nofun), hl]⟩

/-- A call is answered once before the next one. -/
theorem answered_of_after {c : LedgerCall} : ∀ {log : List Event}, (journeyLaw b).after ⟨p, some c⟩ log = some s' →
    calls log = [] → s' = ⟨p, some c⟩ ∨
      ∃ f a, Phase.Goes b p c f ∧ s' = ⟨f a, none⟩ ∧ log.filter Event.isReply = [.replied c a]
  | [], h, _ => by cases h; exact .inl rfl
  | e :: log, h, hc => by
    obtain ⟨s₁, hs, h⟩ := Law.after_cons.1 h
    cases Journey.steps_of_step hs with
    | reply a hG =>
      obtain ⟨rfl, hl⟩ := quiet_of_after h hc
      exact .inr ⟨_, a, hG, rfl, by rw [List.filter_cons_of_pos rfl, hl]⟩
    | other he hr =>
      rw [calls_cons_of_none he] at hc
      rcases answered_of_after h hc with rfl | ⟨f, a, hG, hs', hl⟩
      · exact .inl rfl
      · exact .inr ⟨f, a, hG, hs', by rw [List.filter_cons_of_neg (by rw [hr]; exact nofun), hl]⟩

theorem leads_of_after {before mid after : List Event} {c d : LedgerCall}
    (h : (journeyLaw b).after s (before ++ .called c :: (mid ++ .called d :: after)) = some s') (hm : calls mid = []) :
    ∃ a, mid.filter Event.isReply = [.replied c a] ∧ Leads b c a d := by
  obtain ⟨s₁, s₂, -, hc, h⟩ := Law.after_append_cons.1 h
  obtain ⟨s₃, s₄, hmid, hd, -⟩ := Law.after_append_cons.1 h
  cases Journey.steps_of_step hc with
  | other he => cases he
  | call hG =>
    rcases answered_of_after hmid hm with rfl | ⟨f, a, hG, rfl, hl⟩
    · cases Journey.steps_of_step hd with
      | other he => cases he
    · cases Journey.steps_of_step hd with
      | other he => cases he
      | call hG' => exact ⟨a, hl, leads_of_goes hG hG'⟩

end Calls

/-! ## Words -/

section Words

variable {b : Brief} {p : Phase} {w o : List Kind} {js : List Nat}

theorem rising_nil : Rising [] := fun n j h => by cases h

theorem rising_append_singleton {j : Nat} (h : Rising js) (h1 : 1 ≤ j) (hj : j ≤ js.length + 1) :
    Rising (js ++ [j]) := by
  intro n k hk
  by_cases hn : n < js.length
  · rw [List.getElem?_append_left hn] at hk
    exact h n k hk
  · rw [List.getElem?_append_right (by omega)] at hk
    cases hd : n - js.length with
    | zero =>
      rw [hd] at hk
      cases hk
      exact ⟨h1, by omega⟩
    | succ d =>
      rw [hd] at hk
      cases hk

/-- Rounds can be added up to any number. -/
theorem exists_rising (h : Rising js) (n : Nat) : ∃ ks : List Nat, ks.length = n ∧ Rising (js ++ ks) := by
  induction n generalizing js with
  | zero => exact ⟨[], rfl, by rwa [List.append_nil]⟩
  | succ n ih =>
    obtain ⟨ks, hlen, hr⟩ := ih (rising_append_singleton h (Nat.le_refl 1) (by omega))
    exact ⟨1 :: ks, by rw [List.length_cons, hlen], by rwa [List.append_assoc] at hr⟩

theorem roundsOf_append (js ks : List Nat) : roundsOf (js ++ ks) = roundsOf js ++ roundsOf ks := List.flatMap_append

/-- Rounds within the budget are a beginning of all rounds. -/
theorem shape_of_rounds (hm : b.mode = .optimized) (ho : Opening b o) (hr : Rising js)
    (hlen : js.length ≤ b.settings.maxEscalations.toNat + 1) : ∃ w, Shape b w ∧ o ++ roundsOf js <+: w := by
  obtain ⟨ks, hk, hks⟩ := exists_rising hr (b.settings.maxEscalations.toNat + 1 - js.length)
  refine ⟨_, .optimized hm ho hks (by rw [List.length_append]; omega), ?_⟩
  rw [roundsOf_append, ← List.append_assoc]
  exact List.prefix_append ..

/-- A round that has begun is a beginning of one. -/
theorem shape_of_round (hm : b.mode = .optimized) (ho : Opening b o) (hr : Rising js)
    (hlen : js.length ≤ b.settings.maxEscalations.toNat) {j : Nat} (hj : j ≤ js.length + 1) :
    ∃ w, Shape b w ∧ o ++ (roundsOf js ++ .simulate :: .send :: List.replicate j .look) <+: w := by
  obtain ⟨w, hw, hp⟩ := shape_of_rounds hm ho (rising_append_singleton hr (Nat.le_max_right j 1) (by omega))
    (by rw [List.length_append, List.length_singleton]; omega)
  refine ⟨w, hw, List.IsPrefix.trans ?_ hp⟩
  have hrep : List.replicate (max j 1) Kind.look = List.replicate j .look ++ List.replicate (max j 1 - j) .look := by
    rw [List.replicate_append_replicate]
    congr 1
    omega
  rw [roundsOf_append, List.prefix_append_right_inj, List.prefix_append_right_inj, roundsOf, List.flatMap_singleton,
    hrep]
  exact ⟨_, rfl⟩

/-- The kinds of calls that have led to a phase. -/
def Spoken (b : Brief) : Phase → List Kind → Prop
  | .outset, w => w = []
  | .cleared, w => w = [.check]
  | .numbered, w => w = [.check, .nonce]
  | .based _, w => ∃ isSynced, w = heading isSynced
  | .tipped, w => b.isAdaptive = true ∧ ∃ isSynced fee, (fee = .tip ∨ fee = .gasPrice) ∧ w = heading isSynced ++ [fee]
  | .priced, w => Opening b w
  | .watching _ polls, w => b.mode = .simple ∧ ∃ o, Opening b o ∧ w = o ++ .send :: List.replicate polls .look
  | .quoted i, w => b.mode = .optimized ∧ ∃ o js, Opening b o ∧ Rising js ∧
      js.length ≤ b.settings.maxEscalations.toNat ∧ js.length + 1 = i ∧ w = o ++ (roundsOf js ++ [.simulate])
  | .looking i j, w => b.mode = .optimized ∧ ∃ o js, Opening b o ∧ Rising js ∧
      js.length ≤ b.settings.maxEscalations.toNat ∧ js.length + 1 = i ∧ j ≤ i ∧
        w = o ++ (roundsOf js ++ .simulate :: .send :: List.replicate j .look)
  | .stopped, w => ∃ w', Shape b w' ∧ w <+: w'

theorem exists_shape_of_opening (ho : Opening b o) : ∃ w, Shape b w ∧ o <+: w := by
  cases hm : b.mode with
  | simple => exact ⟨_, .simple 0 hm ho, List.prefix_append ..⟩
  | optimized =>
    obtain ⟨w, hw, hp⟩ := shape_of_rounds hm ho rising_nil (Nat.zero_le _)
    exact ⟨w, hw, by rwa [roundsOf, List.flatMap_nil, List.append_nil] at hp⟩

theorem exists_shape_of_heading (b : Brief) (isSynced : Bool) : ∃ w, Shape b w ∧ heading isSynced <+: w := by
  cases ha : b.isAdaptive with
  | false =>
    obtain ⟨w, hw, hp⟩ := exists_shape_of_opening (.plain isSynced ha)
    exact ⟨w, hw, (List.prefix_append ..).trans hp⟩
  | true =>
    obtain ⟨w, hw, hp⟩ := exists_shape_of_opening (.adaptive isSynced ha (.inl rfl))
    exact ⟨w, hw, (List.prefix_append ..).trans hp⟩

/-- What leads to a phase is a beginning of a shape. -/
theorem exists_shape_of_spoken (h : Spoken b p w) : ∃ w', Shape b w' ∧ w <+: w' := by
  -- before the base fee is asked for, a heading has begun
  have begun (isSynced : Bool) (hp : w <+: heading isSynced) : ∃ w', Shape b w' ∧ w <+: w' := by
    obtain ⟨w', hw, hw'⟩ := exists_shape_of_heading b isSynced
    exact ⟨w', hw, hp.trans hw'⟩
  cases p with
  | outset => cases h; exact begun false ⟨_, rfl⟩
  | cleared => cases h; exact begun false ⟨_, rfl⟩
  | numbered => cases h; exact begun true ⟨_, rfl⟩
  | based hasFee =>
    obtain ⟨isSynced, rfl⟩ := h
    exact begun isSynced (List.prefix_refl _)
  | tipped =>
    obtain ⟨ha, isSynced, fee, hfee, rfl⟩ := h
    obtain ⟨w', hw, hp⟩ := exists_shape_of_opening (.adaptive isSynced ha hfee)
    have htip : heading isSynced ++ [fee] <+: heading isSynced ++ [fee, .simulate] :=
      (List.prefix_append_right_inj _).2 ⟨[.simulate], rfl⟩
    exact ⟨w', hw, htip.trans hp⟩
  | priced => exact exists_shape_of_opening h
  | watching bound polls =>
    obtain ⟨hm, o, ho, rfl⟩ := h
    exact ⟨_, .simple polls hm ho, List.prefix_refl _⟩
  | quoted i =>
    obtain ⟨hm, o, js, ho, hr, hlen, -, rfl⟩ := h
    obtain ⟨w', hw, hp⟩ := shape_of_round hm ho hr hlen (Nat.zero_le _)
    refine ⟨w', hw, List.IsPrefix.trans ?_ hp⟩
    rw [List.prefix_append_right_inj, List.prefix_append_right_inj]
    exact ⟨[.send], rfl⟩
  | looking i j =>
    obtain ⟨hm, o, js, ho, hr, hlen, rfl, hj, rfl⟩ := h
    exact shape_of_round hm ho hr hlen hj
  | stopped => exact h

theorem spoken_onOk {α : Type} [Inhabited α] {q : α → Phase} (h : ∀ x, Spoken b (q x) w) (a : Except Fault α) :
    Spoken b (Phase.onOk q a) w := by
  cases a with
  | ok x => exact h x
  | error f => exact exists_shape_of_spoken (h default)

theorem spoken_onSent {q : Option UInt32 → Phase} (h : ∀ bound, Spoken b (q bound) w) (a : Except Fault Hash) :
    Spoken b (Phase.onSent q a) w := by
  unfold Phase.onSent
  split
  · exact h none
  · split
    · exact h _
    · exact exists_shape_of_spoken (h none)

theorem spoken_onPending {hash : Hash} {q : Phase} (h : Spoken b q w) (a : Except Fault (Option Receipt)) :
    Spoken b (Phase.onPending hash q a) w := by
  unfold Phase.onPending
  split
  · exact h
  · exact exists_shape_of_spoken h

theorem spoken_onExecutable (h : Spoken b .cleared w) (a : Except Fault Bytes) :
    Spoken b (Phase.onExecutable b a) w := by
  unfold Phase.onExecutable
  split
  · exact h
  · exact exists_shape_of_spoken h

/-- A call adds its kind. -/
theorem spoken_of_goes {c : LedgerCall} {f : Except Fault c.Answer → Phase} (hG : Phase.Goes b p c f)
    (hw : Spoken b p w) (a : Except Fault c.Answer) : Spoken b (f a) (w ++ [kindOf c]) := by
  cases hG with
  | check => cases hw; exact spoken_onExecutable rfl a
  | nonce =>
    cases hw
    refine spoken_onOk (fun _ => ?_) a
    exact rfl
  | baseFee =>
    cases hw
    refine spoken_onOk (fun _ => ?_) a
    exact ⟨false, rfl⟩
  | baseFeeSynced =>
    cases hw
    refine spoken_onOk (fun _ => ?_) a
    exact ⟨true, rfl⟩
  | gasPrice ha =>
    obtain ⟨isSynced, rfl⟩ := hw
    refine spoken_onOk (fun _ => ?_) a
    exact ⟨ha, isSynced, .gasPrice, .inr rfl, rfl⟩
  | tip ha =>
    obtain ⟨isSynced, rfl⟩ := hw
    refine spoken_onOk (fun _ => ?_) a
    exact ⟨ha, isSynced, .tip, .inl rfl, rfl⟩
  | simulatePlain ha =>
    obtain ⟨isSynced, rfl⟩ := hw
    refine spoken_onOk (fun _ => ?_) a
    exact .plain isSynced ha
  | simulateAdaptive =>
    obtain ⟨ha, isSynced, fee, hfee, rfl⟩ := hw
    rw [List.append_assoc]
    refine spoken_onOk (fun _ => ?_) a
    exact .adaptive isSynced ha hfee
  | sendOnce hm =>
    refine spoken_onSent (fun _ => ?_) a
    exact ⟨hm, w, hw, rfl⟩
  | watch =>
    obtain ⟨hm, o, ho, rfl⟩ := hw
    refine spoken_onPending ?_ a
    refine ⟨hm, o, ho, ?_⟩
    rw [List.append_assoc, List.replicate_succ']
    rfl
  | simulateFirst hm =>
    refine spoken_onOk (fun _ => ?_) a
    refine ⟨hm, w, [], hw, rising_nil, Nat.zero_le _, rfl, ?_⟩
    rw [roundsOf, List.flatMap_nil]
    rfl
  | send =>
    obtain ⟨hm, o, js, ho, hr, hlen, rfl, rfl⟩ := hw
    refine spoken_onSent (fun _ => ?_) a
    refine ⟨hm, o, js, ho, hr, hlen, rfl, Nat.zero_le _, ?_⟩
    rw [List.append_assoc, List.append_assoc]
    rfl
  | look hj =>
    obtain ⟨hm, o, js, ho, hr, hlen, rfl, -, rfl⟩ := hw
    refine spoken_onPending ?_ a
    refine ⟨hm, o, js, ho, hr, hlen, rfl, hj, ?_⟩
    rw [List.append_assoc, List.append_assoc, List.replicate_succ']
    rfl
  | simulateNext hj hi =>
    obtain ⟨hm, o, js, ho, hr, hlen, rfl, hji, rfl⟩ := hw
    rename_i j _
    refine spoken_onOk (fun _ => ?_) a
    refine ⟨hm, o, js ++ [j], ho, rising_append_singleton hr hj hji, ?_, ?_, ?_⟩
    · rw [List.length_append]
      exact hi
    · rw [List.length_append]
      rfl
    · rw [roundsOf_append, List.append_assoc, List.append_assoc]
      simp [roundsOf, kindOf]

/-- The kinds of calls that have led to a phase, perhaps with a call that is not answered yet. -/
def Said (b : Brief) : Journey → List Kind → Prop
  | ⟨p, none⟩, w => Spoken b p w
  | ⟨p, some c⟩, w => ∃ w' f, Phase.Goes b p c f ∧ Spoken b p w' ∧ w = w' ++ [kindOf c]

theorem said_outset (b : Brief) : Said b ⟨.outset, none⟩ [] := rfl

theorem said_of_after : ∀ {log : List Event} {s s' : Journey} {w : List Kind}, Said b s w →
    (journeyLaw b).after s log = some s' → Said b s' (w ++ kinds log)
  | [], _, _, w, hw, h => by
    cases h
    rwa [kinds, calls, List.filterMap_nil, List.map_nil, List.append_nil]
  | e :: log, s, s', w, hw, h => by
    obtain ⟨s₁, hs, h⟩ := Law.after_cons.1 h
    cases Journey.steps_of_step hs with
    | call hG =>
      have hsaid := said_of_after (s := ⟨_, some _⟩) ⟨w, _, hG, hw, rfl⟩ h
      rwa [List.append_assoc] at hsaid
    | reply a hG =>
      obtain ⟨w', f, hG', hw', rfl⟩ := hw
      rw [kinds, calls_cons_of_none rfl]
      exact said_of_after (s := ⟨_, none⟩) (spoken_of_goes hG hw' a) h
    | other he =>
      rw [kinds, calls_cons_of_none he]
      exact said_of_after hw h

theorem exists_shape_of_said {s : Journey} (h : Said b s w) : ∃ w', Shape b w' ∧ w <+: w' := by
  obtain ⟨p, o⟩ := s
  cases o with
  | none => exact exists_shape_of_spoken h
  | some c =>
    obtain ⟨w', f, hG, hw, rfl⟩ := h
    exact exists_shape_of_spoken (spoken_of_goes hG hw (.error (.validation "")))

end Words

/-! ## Look-ups of a refused broadcast -/

section Bounded

variable {b : Brief} {n : Nat} {s' : Journey}

/-- A watch with a bound has at most so many look-ups left. -/
def Spares (n : Nat) : Journey → Prop
  | ⟨.watching (some bound) polls, none⟩ => bound.toNat ≤ polls + n
  | ⟨.watching (some bound) polls, some _⟩ => bound.toNat ≤ polls + 1 + n
  | ⟨.stopped, _⟩ => True
  | _ => False

theorem spares_onPending {bound : UInt32} {polls : Nat} (h : bound.toNat ≤ polls + n) (hash : Hash)
    (a : Except Fault (Option Receipt)) : Spares n ⟨Phase.onPending hash (.watching (some bound) polls) a, none⟩ := by
  unfold Phase.onPending
  split
  · exact h
  · trivial

theorem looks_le_of_after : ∀ {log : List Event} {s : Journey} {n : Nat}, Spares n s →
    (journeyLaw b).after s log = some s' → (kinds log).count .look ≤ n
  | [], _, _, _, _ => Nat.zero_le _
  | e :: log, s, n, hn, h => by
    obtain ⟨s₁, hs, h⟩ := Law.after_cons.1 h
    cases Journey.steps_of_step hs with
    | call hG =>
      cases hG with
      | @watch bound polls hash hb =>
        cases bound with
        | none => cases hn
        | some bound =>
          have hlt : polls < bound.toNat := by simpa using hb
          change bound.toNat ≤ polls + n at hn
          have hle := looks_le_of_after (s := ⟨.watching (some bound) polls, some (.receipt hash)⟩) (n := n - 1)
            (by change bound.toNat ≤ polls + 1 + (n - 1); omega) h
          change (Kind.look :: kinds log).count .look ≤ n
          rw [List.count_cons_self]
          omega
      | _ => cases hn
    | reply a hG =>
      cases hG with
      | @watch bound polls hash hb =>
        cases bound with
        | none => cases hn
        | some bound =>
          rw [kinds, calls_cons_of_none rfl]
          exact looks_le_of_after (s := ⟨_, none⟩) (spares_onPending hn hash a) h
      | _ => cases hn
    | other he =>
      rw [kinds, calls_cons_of_none he]
      exact looks_le_of_after hn h

end Bounded

/-! ## The whole way -/

section Itinerary

variable {f : Floor} {t : Ticket} {task : Task}

/-- Where a broadcast leads that was not plainly refused, a look-up comes first. -/
theorem awaitsLook_onSent {q : Option UInt32 → Phase} (hq : ∀ bound, (q bound).awaitsLook = true)
    {a : Except Fault Hash} (ha : ∀ f, a = .error f → f.isPossiblySent = true) :
    (Phase.onSent q a).awaitsLook = true := by
  cases a with
  | ok hash => exact hq none
  | error f =>
    rw [Phase.onSent, if_pos (ha f rfl)]
    exact hq _

/-- **In whatever company a submission is, whatever is answered to it and wherever it is cancelled or given up, it keeps
to its itinerary.** -/
theorem itinerary_of_run {ms : List Floor.Move} (h : Floor.run? {} ms = some f) (ht : f.tasks.get? t = some task) :
    Itinerary task := by
  obtain ⟨s, hs, hh⟩ := lawful_of_run keeps_journey h t task ht
  have hsaid := said_of_after (said_outset task.brief) hs
  constructor
  case shape => exact exists_shape_of_said hsaid
  case leads =>
    intro before c mid d after hlog hm
    rw [hlog] at hs
    exact leads_of_after hs hm
  case looks =>
    intro r hr before x a after hlog ha hc
    have hend : s.phase.awaitsLook = false := by
      rcases hr with hr | hr
      · rw [hr] at hh
        cases hh with
        | closing hk => exact hk r rfl
      · rw [hr] at hh
        cases hh with
        | ended hk => exact hk r rfl
    rw [hlog] at hs
    obtain ⟨s₁, s₂, -, hstep, hafter⟩ := Law.after_append_cons.1 hs
    cases Journey.steps_of_step hstep with
    | other _ he => cases he
    | reply _ hG =>
      obtain ⟨rfl, -⟩ := quiet_of_after hafter hc
      cases hG with
      | sendOnce | send =>
        rw [awaitsLook_onSent (fun _ => rfl) ha] at hend
        cases hend
  case bounded =>
    intro hm before x fault after hlog
    rw [hlog] at hs
    obtain ⟨s₁, s₂, hbefore, hstep, hafter⟩ := Law.after_append_cons.1 hs
    cases Journey.steps_of_step hstep with
    | other _ he => cases he
    | reply _ hG =>
      refine looks_le_of_after ?_ hafter
      cases hG with
      | sendOnce =>
        change Spares 30 ⟨if fault.isPossiblySent then .watching (some refusedBound) 0 else .stopped, none⟩
        split
        · exact Nat.le_refl _
        · trivial
      | send =>
        -- only an escalation makes such a broadcast
        obtain ⟨w, q, -, hw, -⟩ := said_of_after (said_outset task.brief) hbefore
        cases hm.symm.trans hw.1

/-- It makes all calls of its shape. -/
theorem itinerary_of_escalation :
    ∃ f task, Floor.run? {} Sample.escalation = some f ∧ f.tasks.get? 0 = some task ∧
      kinds task.log = heading true ++ .simulate :: roundsOf [1, 1] ∧ Itinerary task := by
  have h : ((Floor.run? {} Sample.escalation).bind fun f => (f.tasks.get? 0).map fun task => kinds task.log) =
      some (heading true ++ .simulate :: roundsOf [1, 1]) := by
    decide +kernel
  obtain ⟨f, hf, h⟩ := Option.bind_eq_some_iff.1 h
  obtain ⟨task, ht, hk⟩ := Option.map_eq_some_iff.1 h
  exact ⟨f, task, hf, ht, hk, itinerary_of_run hf ht⟩

end Itinerary

end OrderKeeper.Submission
