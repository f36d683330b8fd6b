import OrderKeeper.Proofs.Receipt.Judge
import OrderKeeper.Proofs.Submission.Course

/-!
# The way of a submission

Where a submission has got to, by the calls that its ledger has answered (`Phase`). From each phase only certain calls
can be made, one at a time, and every answer to one of them leads to another phase (`Phase.next?`); an answer with
which there is nothing left to do leads to `stopped`, from where no call is made. The course of every submission goes
this way (`keeps_journey`), and it does not end by itself between a broadcast and its first look-up.
-/

namespace OrderKeeper.Submission

open Dialogue

namespace Brief

/-- The mode of the submission: that of its work item, if it gives one. -/
def mode (b : Brief) : Mode := b.item.mode.getD b.settings.mode

/-- Whether its first price follows the network's suggestions: outside of an escalation always, otherwise if either
multiplier is given. -/
def isAdaptive (b : Brief) : Bool :=
  b.mode == .simple || b.item.feeOverrides.baseFeeMultiplier?.isSome || b.item.feeOverrides.gasLimitMultiplier?.isSome

theorem modeOf_eq_mode (b : Brief) : modeOf b.settings b.item = b.mode := rfl

theorem isAdaptive_of_simple {b : Brief} (hm : b.mode = .simple) : b.isAdaptive = true := by
  rw [isAdaptive, hm]
  rfl

/-- The first price of an escalation follows the network's suggestions just if the overrides ask for it. -/
theorem isAdaptive_of_optimized {b : Brief} (hm : b.mode = .optimized) :
    b.isAdaptive = b.item.feeOverrides.isAdaptive := by
  rw [isAdaptive, hm]
  rfl

end Brief

/-- Where a submission has got to. -/
inductive Phase where
  | outset
  /-- There is something to do. -/
  | cleared
  | numbered
  /-- The base fee, if there is one, is known. -/
  | based (hasFee : Bool)
  /-- The network's suggestion is known. -/
  | tipped
  /-- The first price is made. -/
  | priced
  /-- A hash is watched, after some look-ups. -/
  | watching (bound : Option UInt32) (polls : Nat)
  /-- A broadcast of an escalation has its price. -/
  | quoted (round : Nat)
  /-- A broadcast of an escalation is looked for, after some look-ups. -/
  | looking (round looks : Nat)
  | stopped
  deriving DecidableEq, Repr

namespace Phase

/-- Goes on after a success. -/
def onOk {α : Type} (f : α → Phase) : Except Fault α → Phase
  | .ok a => f a
  | .error _ => .stopped

/-- Goes on after a broadcast that the node took or may hold. -/
def onSent (f : Option UInt32 → Phase) : Except Fault Hash → Phase
  | .ok _ => f none
  | .error e => if e.isPossiblySent then f (some refusedBound) else .stopped

/-- Goes on after a look-up that settles nothing. -/
def onPending (hash : Hash) (p : Phase) (a : Except Fault (Option Receipt)) : Phase :=
  match Receipt.judge hash a with
  | .ok none => p
  | _ => .stopped

/-- Goes on if there is something to do. -/
def onExecutable (b : Brief) (a : Except Fault Bytes) : Phase :=
  match Upkeep.judge b.item.target.contract b.chainId a with
  | .ok true => .cleared
  | _ => .stopped

/-- Whether a call can be made, and where its answers lead. -/
def next? (b : Brief) : Phase → (c : LedgerCall) → Option (Except Fault c.Answer → Phase)
  | .outset, .call _ => some (onExecutable b)
  | .cleared, .pendingNonce _ => some (onOk fun _ => .numbered)
  | .cleared, .baseFee | .numbered, .baseFee => some (onOk fun base => .based base.isSome)
  | .based false, .gasPrice | .based true, .priorityFee => if b.isAdaptive then some (onOk fun _ => .tipped) else none
  | .based true, .estimateGas _ => if b.isAdaptive then none else some (onOk fun _ => .priced)
  | .tipped, .estimateGas _ => some (onOk fun _ => .priced)
  | .priced, .send _ => if b.mode = .simple then some (onSent fun bound => .watching bound 0) else none
  | .watching bound polls, .receipt h =>
    if bound.all (polls < ·.toNat) then some (onPending h (.watching bound (polls + 1))) else none
  | .priced, .estimateGas _ => if b.mode = .optimized then some (onOk fun _ => .quoted 1) else none
  | .quoted i, .send _ => some (onSent fun _ => .looking i 0)
  | .looking i j, .receipt h => if j < i then some (onPending h (.looking i (j + 1))) else none
  | .looking i j, .estimateGas _ =>
    if 1 ≤ j ∧ i ≤ b.settings.maxEscalations.toNat then some (onOk fun _ => .quoted (i + 1)) else none
  | _, _ => none

/-- Whether a broadcast is to be looked for first. -/
def awaitsLook : Phase → Bool
  | watching _ 0 | looking _ 0 => true
  | _ => false

end Phase

/-- A phase, and the call that is not answered yet. -/
structure Journey where
  phase : Phase
  pending? : Option LedgerCall := none
  deriving DecidableEq, Repr

/-- A call is made after the one before it has been answered, if its phase allows it. -/
def Journey.next? (b : Brief) : Journey → Event → Option Journey
  | ⟨p, none⟩, .called c => if (p.next? b c).isSome then some ⟨p, some c⟩ else none
  | ⟨p, some c⟩, .replied d a => if c = d then (p.next? b d).map fun f => ⟨f a, none⟩ else none
  | _, .called _ | _, .replied .. => none
  | s, .requested _ | s, .leased _ | s, .released => some s

/-- The law of the way. -/
def journeyLaw (b : Brief) : Law Journey where
  step := Journey.next? b
  released s := by
    obtain ⟨p, c⟩ := s
    cases c <;> rfl

/-- A submission ends by itself only when it does not have to look for a broadcast first. -/
def Journey.CanEnd (_ : Except KeeperError Outcome) (s : Journey) : Prop := s.phase.awaitsLook = false

/-! ## The first price -/

section Course

variable {b : Brief} {p : Phase}

/-- A call that the phase allows. -/
theorem calls_of_next? {c : LedgerCall} {f : Except Fault c.Answer → Phase} {K : Except Fault c.Answer → Journey → Prop}
    (h : p.next? b c = some f) (hK : ∀ a, K a ⟨f a, none⟩) : (journeyLaw b).Calls c K ⟨p, none⟩ := by
  refine ⟨⟨p, some c⟩, ?_, fun a => ⟨⟨f a, none⟩, ?_, hK a⟩⟩
  · change (if (p.next? b c).isSome then _ else _) = _
    rw [h]
    rfl
  · change (if c = c then (p.next? b c).map fun f => (⟨f a, none⟩ : Journey) else none) = _
    rw [if_pos rfl, h]
    rfl

/-- A simulation that the phase allows. -/
theorem keeps_offer_of_next? {p' : Phase} {K : Except PricingFailure Offer → Journey → Prop}
    (h : ∀ r, p.next? b (.estimateGas r) = some (Phase.onOk fun _ => p')) (hE : ∀ e, K (.error e) ⟨.stopped, none⟩)
    (hK : ∀ offer, K (.ok offer) ⟨p', none⟩) (x : Fee.Subject) (tip feeCap : Wei) (legacy : Bool) (multiplier : Float)
    (attempt : UInt32) :
    (x.offer tip feeCap legacy multiplier attempt).Keeps (fun c K => (journeyLaw b).Calls c K) K ⟨p, none⟩ := by
  rw [Fee.Subject.keeps_offer]
  refine calls_of_next? (h _) fun a => ?_
  cases a with
  | error f => exact hE _
  | ok gas => exact hK _

/-- The first price, from the base fee on. -/
theorem keeps_price_of_based {plan : Plan} {overrides : FeeOverrides} {isAdaptive : Bool}
    (ha : b.isAdaptive = isAdaptive) {K : Except KeeperError Offer → Journey → Prop}
    (h : p.next? b .baseFee = some (Phase.onOk fun base => .based base.isSome))
    (hE : ∀ e s, s.phase.awaitsLook = false → K (.error e) s) (hK : ∀ offer, K (.ok offer) ⟨.priced, none⟩) :
    (price plan isAdaptive overrides).Keeps (journeyLaw b).rule K ⟨p, none⟩ := by
  rw [keeps_price]
  cases isAdaptive with
  | false =>
    rw [if_neg Bool.false_ne_true, Fee.keeps_initial]
    refine calls_of_next? h fun a => ?_
    obtain f | base := a
    · exact hE _ _ rfl
    · cases base with
      | none => exact hE _ _ rfl
      | some base =>
        have based (r : CallRequest) :
            Phase.next? b (.based true) (.estimateGas r) = some (Phase.onOk fun _ => .priced) :=
          if_neg (by rw [ha]; exact nofun)
        exact keeps_offer_of_next? based (fun e => hE _ _ rfl) (fun _ => hK _) ..
  | true =>
    have tipped (x : Fee.Subject) (tip feeCap : Wei) (legacy : Bool) :
        (x.offer tip feeCap legacy 1.0 0).Keeps (fun c K => (journeyLaw b).Calls c K)
          (fun r => K (r.mapError (KeeperError.ofPricingFailure plan.contract))) ⟨.tipped, none⟩ :=
      keeps_offer_of_next? (fun _ => rfl) (fun e => hE _ _ rfl) (fun _ => hK _) ..
    rw [if_pos rfl, Fee.keeps_adaptive]
    refine calls_of_next? h fun a => ?_
    obtain f | base := a
    · exact hE _ _ rfl
    · cases base with
      | none =>
        refine calls_of_next? (f := Phase.onOk fun _ => .tipped) (if_pos ha) fun a => ?_
        cases a with
        | error f => exact hE _ _ rfl
        | ok price => exact tipped ..
      | some base =>
        refine calls_of_next? (f := Phase.onOk fun _ => .tipped) (if_pos ha) fun a => ?_
        cases a with
        | error f => exact hE _ _ rfl
        | ok tip => exact tipped ..

/-! ## Broadcasts and look-ups -/

/-- A broadcast from a phase that allows one. -/
theorem keeps_broadcast_of_next? {plan : Plan} {offer : Offer} {attempt : UInt32} {q : Option UInt32 → Phase}
    {K : Except KeeperError Broadcast → Journey → Prop} (h : ∀ x, p.next? b (.send x) = some (Phase.onSent q))
    (hp : p.awaitsLook = false) (hE : ∀ e s, s.phase.awaitsLook = false → K (.error e) s)
    (hK : ∀ sent : Broadcast, K (.ok sent) ⟨q sent.bound, none⟩) :
    (broadcast plan offer attempt).Keeps (journeyLaw b).rule K ⟨p, none⟩ := by
  refine (keeps_broadcast plan offer attempt K _).2 ⟨fun f => hE _ _ hp, fun x _ => calls_of_next? (h x) fun a => ?_⟩
  cases a with
  | ok hash => exact hK (.accepted hash)
  | error f =>
    rw [Broadcast.judge, Phase.onSent]
    split
    · exact hK (.possiblySent x.hash)
    · exact hE _ _ rfl

theorem Phase.awaitsLook_onPending (hash : Hash) {a : Except Fault (Option Receipt)}
    (hp : p.awaitsLook = false) : (onPending hash p a).awaitsLook = false := by
  unfold onPending
  split
  · exact hp
  · rfl

/-- A watch whose bound is not used up may look again. -/
theorem all_bound_of_isSpent {w : Watch} {polls : Nat} (h : w.isSpent polls = false) :
    w.bound.all (polls < ·.toNat) = true := by
  unfold Watch.isSpent at h
  cases hw : w.bound with
  | none => rfl
  | some b =>
    rw [hw] at h
    simpa using h

theorem keeps_simple_of_mode (hm : b.mode = .simple) (plan : Plan) (times : PollTimes) (overrides : FeeOverrides)
    (h : p.next? b .baseFee = some (Phase.onOk fun base => .based base.isSome)) :
    (simple plan times overrides).Keeps (journeyLaw b).rule Journey.CanEnd ⟨p, none⟩ := by
  rw [simple, keeps_onOk]
  refine keeps_price_of_based (Brief.isAdaptive_of_simple hm) h (fun e s hs => hs) fun offer => ?_
  change ((broadcast plan offer 1).guarded _ |>.onOk _).Keeps _ _ _
  rw [keeps_onOk, keeps_guarded]
  refine keeps_broadcast_of_next? (q := fun bound => .watching bound 0) (fun x => if_pos hm) rfl (fun e s hs => hs)
    fun sent => ?_
  -- the bound is not used up before a look-up
  refine ⟨fun polls s => s = ⟨.watching sent.bound polls, none⟩ ∧ sent.bound.all (polls < ·.toNat) = true,
    ⟨rfl, ?_⟩, fun polls s hs => ?_⟩
  · cases sent <;> rfl
  · obtain ⟨rfl, hb⟩ := hs
    refine calls_of_next? (c := .receipt sent.hash) (f := Phase.onPending sent.hash (.watching sent.bound (polls + 1)))
      (if_pos hb) fun a => ⟨fun r _ => ?_, fun n hn => ?_⟩
    · have hs := Phase.awaitsLook_onPending (p := .watching sent.bound (polls + 1)) (a := a) sent.hash rfl
      cases r <;> exact hs
    · obtain ⟨rfl, hu, hspent⟩ := Watch.pausing_of_answer hn
      refine ⟨?_, all_bound_of_isSpent hspent⟩
      rw [Phase.onPending, Receipt.undecided_iff.1 hu]

/-- The look-ups of a round, after some others. -/
theorem keeps_lookAll {plan : Plan} {times : PollTimes} {i : Nat} {last : Progress}
    {K : Except WaitFailure (Option Receipt) → Progress × Journey → Prop} :
    ∀ (hashes : List Hash) (j : Nat), j + hashes.length ≤ i →
      K (.ok none) (last, ⟨.looking i (j + hashes.length), none⟩) → (∀ r, r ≠ .ok none → K r (last, ⟨.stopped, none⟩)) →
        (Escalation.lookAll hashes).Keeps ((journeyLaw b).rule.through (escalationAnswer plan times)) K
          (last, ⟨.looking i j, none⟩)
  | [], _, _, hK, _ => hK
  | hash :: hashes, j, hlen, hK, hE => by
    rw [List.length_cons] at hlen hK
    refine calls_of_next? (c := .receipt hash) (f := Phase.onPending hash (.looking i (j + 1)))
      (if_pos (by omega)) fun a => ?_
    change (match Receipt.judge hash a with
      | .ok none => Escalation.lookAll hashes
      | settled => .done settled).Keeps _ K _
    rw [Phase.onPending]
    obtain e | found := Receipt.judge hash a
    · exact hE _ nofun
    · cases found with
      | none => exact keeps_lookAll hashes (j + 1) (by omega) (by rwa [Nat.add_right_comm]) hE
      | some r => exact hE _ nofun

/-- A round looks up at most one hash more than the round before it, and at least one. -/
theorem length_addHash (hash : Hash) (hashes : List Hash) :
    1 ≤ (Escalation.addHash hash hashes).length ∧ (Escalation.addHash hash hashes).length ≤ hashes.length + 1 := by
  unfold Escalation.addHash
  split
  · rename_i hm
    exact ⟨List.length_pos_of_mem hm, Nat.le_succ _⟩
  · exact ⟨Nat.succ_pos _, Nat.le_refl _⟩

/-- The rounds of an escalation, from one of them on. -/
theorem keeps_rounds {plan : Plan} {times : PollTimes} {m : UInt32} (left : Nat) (attempt : UInt32) (hashes : List Hash)
    (last : Progress) (i : Nat) (p : Phase) (h : ∀ r, p.next? b (.estimateGas r) = some (Phase.onOk fun _ => .quoted i))
    (hlen : hashes.length < i) (hleft : i + left ≤ b.settings.maxEscalations.toNat + 1) :
    (Escalation.rounds m left attempt hashes).Keeps ((journeyLaw b).rule.through (escalationAnswer plan times))
      (fun _ s => s.2.phase.awaitsLook = false) (last, ⟨p, none⟩) := by
  rw [Escalation.rounds]
  change (resend plan attempt last).Keeps _ _ _
  rw [keeps_resend]
  refine keeps_offer_of_next? h (fun _ => rfl) (fun offer => ?_) ..
  refine keeps_broadcast_of_next? (q := fun _ => .looking i 0) (fun _ => rfl) rfl (fun e s hs => hs) fun sent => ?_
  change ((Escalation.lookAll (Escalation.addHash sent.hash hashes)).bind _).Keeps _ _ _
  rw [keeps_bind]
  obtain ⟨hpos, hadd⟩ := length_addHash sent.hash hashes
  refine keeps_lookAll _ 0 (by omega) ?_ fun r hr => ?_
  · rw [Nat.zero_add]
    cases left with
    | zero =>
      change (Phase.looking i _).awaitsLook = false
      rw [← Nat.sub_add_cancel hpos]
      rfl
    | succ left =>
      exact keeps_rounds left (attempt + 1) _ _ (i + 1) _ (fun _ => if_pos ⟨hpos, by omega⟩) (by omega) (by omega)
  · obtain e | found := r
    · rfl
    · cases found with
      | some r => rfl
      | none => exact absurd rfl hr

theorem keeps_optimized_of_mode (hm : b.mode = .optimized) (plan : Plan)
    (h : p.next? b .baseFee = some (Phase.onOk fun base => .based base.isSome)) :
    (optimized plan b.settings b.item.feeOverrides).Keeps (journeyLaw b).rule Journey.CanEnd ⟨p, none⟩ := by
  rw [optimized, keeps_onOk]
  refine keeps_price_of_based (Brief.isAdaptive_of_optimized hm) h (fun e s hs => hs) fun offer => ?_
  change (((Escalation.run b.settings.maxEscalations).interpret _ _ _).mapResult _).Keeps _ _ _
  rw [keeps_mapResult, keeps_interpret]
  exact keeps_rounds _ 1 [] _ 1 .priced (fun _ => if_pos hm) Nat.one_pos (by omega)

/-- From the base fee on, a work item goes its way in either mode. -/
theorem keeps_inMode_of_next? {b : Brief} (chain : ChainInfo) (n : UInt64) {p : Phase}
    (h : p.next? b .baseFee = some (Phase.onOk fun base => .based base.isSome)) :
    (match modeOf b.settings b.item with
      | .simple => simple (Plan.ofItem chain b.item n) b.settings.times b.item.feeOverrides
      | .optimized => optimized (Plan.ofItem chain b.item n) b.settings b.item.feeOverrides).Keeps
        (journeyLaw b).rule Journey.CanEnd ⟨p, none⟩ := by
  rw [b.modeOf_eq_mode]
  split
  · rename_i hm
    exact keeps_simple_of_mode hm (Plan.ofItem chain b.item n) _ _ h
  · rename_i hm
    exact keeps_optimized_of_mode hm (Plan.ofItem chain b.item n) h

/-- **The course of a submission goes its way.** -/
theorem keeps_journey (b : Brief) : b.course.Keeps (journeyLaw b).rule Journey.CanEnd ⟨.outset, none⟩ := by
  rw [Brief.course, run]
  split
  · rfl
  · rename_i chain hchain
    have hid : b.chainId = chain.chainId := by rw [Brief.chainId, hchain]
    split
    · rw [onChain, keeps_onOk, keeps_mapResult, keeps_guarded, keeps_ofLedger, Upkeep.keeps_check]
      have hcheck (r : CallRequest) : Phase.next? b .outset (.call r) = some (Phase.onExecutable b) := rfl
      refine calls_of_next? (hcheck _) fun a => ?_
      rw [Phase.onExecutable, hid]
      obtain f | executable := Upkeep.judge b.item.target.contract chain.chainId a
      · rfl
      · cases executable with
        | false => rfl
        | true =>
          -- with a lease, from the ledger or not, the base fee comes next
          refine ⟨⟨.cleared, none⟩, rfl, fun n => ⟨⟨.cleared, none⟩, rfl, keeps_inMode_of_next? chain n rfl⟩,
            calls_of_next? (f := Phase.onOk fun _ => .numbered) rfl fun a => ?_⟩
          cases a with
          | error f => rfl
          | ok n => exact ⟨⟨.numbered, none⟩, rfl, keeps_inMode_of_next? chain n rfl⟩
    · rfl

end Course

end OrderKeeper.Submission
