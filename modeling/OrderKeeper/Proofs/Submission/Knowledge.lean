import OrderKeeper.Proofs.Submission.Passage

/-!
# What a submission knows of its broadcasts

At every station, what the submission carries along agrees with its log (`knows_of_visits`): the hashes of a round are
those that its broadcasts gave, the number of its broadcast counts them, and the budget counts those that may follow.
Until a submission is over, no look-up of it was conclusive (`quiet_of_visits`).
-/

namespace OrderKeeper.Submission

/-- Whether a transaction is handed to the node. -/
def Question.isSend : Question → Bool
  | ledger (.send _) => true
  | _ => false

/-- Whether a lease is asked for. -/
def Question.isLease : Question → Bool
  | lease _ => true
  | _ => false

section Broadcasts

variable {log log' seen : List Event} {w : Watch} {n : Nat}

/-! ## Broadcasts in a log -/

@[simp] theorem sends_append : sends (log ++ log') = sends log ++ sends log' := List.filterMap_append

@[simp] theorem obtained_append : obtained (log ++ log') = obtained log ++ obtained log' := List.filterMap_append

@[simp] theorem leases_append : leases (log ++ log') = leases log ++ leases log' := List.filterMap_append

/-- Nothing is broadcast, and no broadcast is answered. -/
structure Unsent (seen : List Event) : Prop where
  sends : sends seen = []
  obtained : obtained seen = []

theorem Unsent.append (h : Unsent log) (h' : Unsent log') : Unsent (log ++ log') := by
  constructor
  · rw [sends_append, h.sends, h'.sends]; rfl
  · rw [obtained_append, h.obtained, h'.obtained]; rfl

theorem Unsent.sends_append (h : Unsent seen) : Submission.sends (log ++ seen) = Submission.sends log := by
  simp [h.sends]

theorem Unsent.obtained_append (h : Unsent seen) :
    Submission.obtained (log ++ seen) = Submission.obtained log := by
  simp [h.obtained]

theorem Looked.unsent (h : Looked w n seen) : Unsent seen := by
  induction h with
  | none => exact ⟨rfl, rfl⟩
  | more _ _ ih => exact ih.append ⟨rfl, rfl⟩

theorem Tells.unsent {q : Question} {a : q.Answer} (h : Tells q a seen) (hq : q.isSend = false) : Unsent seen := by
  cases h with
  | @ledger c a =>
    cases c with
    | send x => cases hq
    | _ => exact ⟨rfl, rfl⟩
  | watch hl _ => exact hl.unsent.append ⟨rfl, rfl⟩
  | _ => exact ⟨rfl, rfl⟩

theorem Looked.unleased (h : Looked w n seen) : leases seen = [] := by
  induction h with
  | none => rfl
  | more _ _ ih =>
    rw [leases_append, ih]
    rfl

theorem Tells.unleased {q : Question} {a : q.Answer} (h : Tells q a seen) (hq : q.isLease = false) :
    leases seen = [] := by
  cases h with
  | watch hl _ =>
    rw [leases_append, hl.unleased]
    rfl
  | follow | sync | refuse => cases hq
  | _ => rfl

/-- The reply of an exchange is the answer. -/
theorem reply_of_mem_exchange {c d : LedgerCall} {a : Except Fault c.Answer} {x : Except Fault d.Answer}
    (h : Event.replied d x ∈ exchange c a) : Event.replied d x = .replied c a := by
  simpa [exchange] using h

theorem sends_exchange_send (x : SignedTransaction) (a : Except Fault Hash) : sends (exchange (.send x) a) = [x] := rfl

/-- The hash of a broadcast that was not plainly refused is seen. -/
theorem obtained_of_judge {x : SignedTransaction} {attempt : UInt32} {a : Except Fault Hash} {sent : Broadcast}
    (h : Broadcast.judge x.hash attempt a = .ok sent) : obtained (exchange (.send x) a) = [sent.hash] := by
  cases a with
  | ok hash => cases h; rfl
  | error f =>
    rw [Broadcast.judge] at h
    split at h
    · rename_i hf
      cases h
      simp [obtained, exchange, List.filterMap_cons, Event.obtained?, hf, Broadcast.hash]
    · cases h

end Broadcasts

/-- The last broadcast of a log gave a hash. -/
def LastGave (log : List Event) (hash : Hash) : Prop :=
  ∃ before x a after, log = before ++ exchange (.send x) a ++ after ∧ sends after = [] ∧
    obtained (exchange (.send x) a) = [hash]

theorem LastGave.append {log seen : List Event} {hash : Hash} (h : LastGave log hash) (hs : Unsent seen) :
    LastGave (log ++ seen) hash := by
  obtain ⟨before, x, a, after, rfl, hafter, hhash⟩ := h
  refine ⟨before, x, a, after ++ seen, by simp, ?_, hhash⟩
  rw [hs.sends_append, hafter]

theorem LastGave.mem_obtained {log : List Event} {hash : Hash} (h : LastGave log hash) : hash ∈ obtained log := by
  obtain ⟨before, x, a, after, rfl, -, hhash⟩ := h
  simp [hhash]

/-! ## Rounds -/

namespace Round

variable {b : Brief} {log seen : List Event} {r : Round} {hash : Hash}

/-- The log leads to the broadcast of a round. -/
structure Due (b : Brief) (log : List Event) (r : Round) : Prop where
  mode : b.mode = .optimized
  hashes : ∀ h, h ∈ r.hashes ↔ h ∈ obtained log
  attempt : r.attempt = UInt32.ofNat ((sends log).length + 1)
  budget : (sends log).length + r.left = b.settings.maxEscalations.toNat

/-- The broadcast of a round has given a hash. -/
structure Out (b : Brief) (log : List Event) (r : Round) (hash : Hash) : Prop where
  mode : b.mode = .optimized
  hashes : ∀ h, h ∈ r.known hash ↔ h ∈ obtained log
  last : LastGave log hash
  attempt : r.attempt = UInt32.ofNat (sends log).length
  budget : (sends log).length + r.left = b.settings.maxEscalations.toNat + 1

theorem Due.append (h : r.Due b log) (hs : Unsent seen) : r.Due b (log ++ seen) := by
  constructor
  · exact h.mode
  · rw [hs.obtained_append]; exact h.hashes
  · rw [hs.sends_append]; exact h.attempt
  · rw [hs.sends_append]; exact h.budget

theorem Out.append (h : r.Out b log hash) (hs : Unsent seen) : r.Out b (log ++ seen) hash := by
  constructor
  · exact h.mode
  · rw [hs.obtained_append]; exact h.hashes
  · exact h.last.append hs
  · rw [hs.sends_append]; exact h.attempt
  · rw [hs.sends_append]; exact h.budget

/-- The first round comes before any broadcast. -/
theorem due_first (offer : Offer) (hm : b.mode = .optimized) (hs : sends log = []) (ho : obtained log = []) :
    (first b.settings offer).Due b log := by
  constructor
  · exact hm
  · simp [first, ho]
  · simp [first, hs]
  · simp [first, hs]

theorem Due.out (h : r.Due b log) {x : SignedTransaction} {a : Except Fault Hash} {sent : Broadcast}
    (ha : Broadcast.judge x.hash r.attempt a = .ok sent) : r.Out b (log ++ exchange (.send x) a) sent.hash := by
  have hobtained := obtained_of_judge ha
  constructor
  · exact h.mode
  · intro g
    rw [mem_known, h.hashes, obtained_append, hobtained, List.mem_append, List.mem_singleton]
    exact Or.comm
  · exact ⟨log, x, a, [], (List.append_nil _).symm, rfl, hobtained⟩
  · rw [h.attempt]
    simp [sends_exchange_send]
  · have hb := h.budget
    simp [sends_exchange_send]
    omega

theorem Out.next (h : r.Out b log hash) (offer : Offer) {left : Nat} (hl : r.left = left + 1) :
    (r.next left offer hash).Due b log := by
  constructor
  · exact h.mode
  · exact h.hashes
  · change r.attempt + 1 = _
    rw [h.attempt, UInt32.ofNat_add]
    rfl
  · have hb := h.budget
    change _ + left = _
    omega

end Round

namespace Station

variable {b : Brief} {log seen : List Event} {ss : List Signing} {s : Station}

/-- What a station says of the log that led to it. -/
def Knows (b : Brief) (log : List Event) : Station → Prop
  | outset | cleared | leased _ | based .. | quoting .. => sends log = [] ∧ obtained log = []
  | requoting _ r | signing _ _ (some r) | sending _ _ (some r) _ => r.Due b log
  | signing _ _ none | sending _ _ none _ => b.mode = .simple ∧ sends log = [] ∧ obtained log = []
  | watching _ sent => b.mode = .simple ∧ ∃ before x a, log = before ++ exchange (.send x) a ∧ sends before = [] ∧
      obtained before = [] ∧ Broadcast.judge x.hash 1 a = .ok sent
  | pausing _ _ r hash => r.Out b log hash
  | looking _ _ r hash looked others => r.Out b log hash ∧ ∀ h ∈ looked :: others, h ∈ r.known hash
  | ended _ => True

/-- What a station says stays true when its question is answered. -/
theorem knows_of_passes {q : Question} {a : q.Answer} {s' : Station} (hk : Knows b log s) (hP : Passes b s q a s')
    (ht : Tells q a seen) : Knows b (log ++ seen) s' := by
  -- outside of a round, nothing has been broadcast
  have hfresh (hq : q.isSend = false) (hk : sends log = [] ∧ obtained log = []) :
      sends (log ++ seen) = [] ∧ obtained (log ++ seen) = [] := by
    rw [(ht.unsent hq).sends_append, (ht.unsent hq).obtained_append]
    exact hk
  cases hP with
  | check | lease | baseFee | plainFee | gasPrice | priorityFee => exact hfresh rfl hk
  | quoteOnce hm => exact ⟨hm, hfresh rfl hk⟩
  | quoteFirst hm =>
    have h := hfresh rfl hk
    exact Round.due_first _ hm h.1 h.2
  | requote => exact Round.Due.append hk (ht.unsent rfl)
  | @sign n offer round x =>
    cases round with
    | none => exact ⟨hk.1, hfresh rfl hk.2⟩
    | some r => exact Round.Due.append hk (ht.unsent rfl)
  | sendOnce ha =>
    cases ht
    exact ⟨hk.1, log, _, _, rfl, hk.2.1, hk.2.2, ha⟩
  | send ha =>
    cases ht
    exact Round.Due.out hk ha
  | pause hr =>
    refine ⟨hk.append (ht.unsent rfl), fun h hh => ?_⟩
    rw [hr]
    exact hh
  | look => exact ⟨hk.1.append (ht.unsent rfl), fun h hh => hk.2 h (List.mem_cons_of_mem _ hh)⟩
  | escalate _ hl => exact (hk.1.append (ht.unsent rfl)).next _ hl

theorem knows_of_visits (h : Visits b log ss s) (ho : ∀ r, s ≠ ended r) : Knows b log s :=
  visits_induction (P := fun log _ s => Knows b log s) ⟨rfl, rfl⟩ knows_of_passes h ho

/-! ## Look-ups -/

/-- No look-up of a log is conclusive. -/
def Quiet (log : List Event) : Prop := ∀ h a, .replied (.receipt h) a ∈ log → Receipt.Undecided h a

theorem quiet_of_passes {q : Question} {a : q.Answer} {s' : Station} (hq : Quiet log) (hP : Passes b s q a s')
    (ht : Tells q a seen) : Quiet (log ++ seen) := by
  intro h x hm
  rcases List.mem_append.1 hm with hm | hm
  · exact hq h x hm
  · cases hP with
    | look ha | escalate ha =>
      cases ht
      cases reply_of_mem_exchange hm
      exact ha
    | _ => cases ht <;> simp [exchange] at hm

theorem quiet_of_visits (h : Visits b log ss s) (ho : ∀ r, s ≠ ended r) : Quiet log :=
  visits_induction (P := fun log _ _ => Quiet log) (fun _ _ hm => by cases hm) quiet_of_passes h ho

end Station

end OrderKeeper.Submission
