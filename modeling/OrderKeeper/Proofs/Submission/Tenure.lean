import OrderKeeper.Proofs.Submission.Course

/-!
# One lease for a submission

A submission asks for a lease once, of its own keeper, and whatever it broadcasts carries the nonce of that lease
(`keeps_course`). What the log of a submission says of its lease, it says for all that comes after
(`holding_of_after`, `leases_of_after`, `nonce?_of_broadcast`).
-/

namespace OrderKeeper.Submission

open Dialogue
open Nonce (Ticket)

/-- What has become of the lease of a submission. -/
inductive Tenure where
  | before
  | asking
  | holding (nonce : UInt64)
  deriving DecidableEq, Repr

/-- The nonce of the lease that was seen. -/
def Tenure.nonce? : Tenure → Option UInt64
  | before | asking => none
  | holding n => some n

/-- One request for a lease of the keeper, at most one lease, and then broadcasts of its nonce only. -/
def Tenure.next? (keeper : Address) : Tenure → Event → Option Tenure
  | .before, .requested k => if k = keeper then some .asking else none
  | .asking, .leased n => some (.holding n)
  | .holding n, .called (.send x) => if x.transaction.nonce = n then some (.holding n) else none
  | .before, .called (.send _) | .asking, .called (.send _) | _, .requested _ | _, .leased _ => none
  | s, _ => some s

/-- The law of one lease. -/
def leaseLaw (keeper : Address) : Law Tenure where
  step := Tenure.next? keeper
  released s := by cases s <;> rfl

/-- A call that broadcasts nothing. -/
def IsRead (c : LedgerCall) : Prop := ∀ x, c ≠ .send x

section Course

variable {keeper : Address} {s : Tenure}

theorem calls_of_isRead {c : LedgerCall} {K : Except Fault c.Answer → Tenure → Prop} (hc : IsRead c)
    (hK : ∀ a, K a s) : (leaseLaw keeper).Calls c K s := by
  refine ⟨s, ?_, fun a => ⟨s, ?_, hK a⟩⟩
  · cases c with
    | send x => exact absurd rfl (hc x)
    | pendingNonce | baseFee | priorityFee | gasPrice | estimateGas | call | receipt => cases s <;> rfl
  · cases s <;> rfl

theorem reads_offer (x : Fee.Subject) (tip feeCap : Wei) (legacy : Bool) (multiplier : Float) (attempt : UInt32) :
    (x.offer tip feeCap legacy multiplier attempt).Asks IsRead :=
  ⟨nofun, fun a => by cases a <;> trivial⟩

theorem reads_price (x : Fee.Subject) (isAdaptive : Bool) (overrides : FeeOverrides) :
    (if isAdaptive then Fee.adaptive x overrides else Fee.initial x).Asks IsRead := by
  cases isAdaptive with
  | false =>
    refine ⟨nofun, fun a => ?_⟩
    obtain f | b := a
    · trivial
    · cases b with
      | none => trivial
      | some base => exact reads_offer ..
  | true =>
    refine ⟨nofun, fun a => ?_⟩
    obtain f | b := a
    · trivial
    · cases b <;> refine ⟨nofun, fun a => ?_⟩ <;> cases a <;> first | trivial | exact reads_offer ..

/-- Reading from the ledger says nothing of the lease. -/
theorem keeps_of_reads {R α : Type} {d : Dialogue LedgerCall (fun c => Except Fault c.Answer) R α}
    {K : α → Tenure → Prop} (hd : d.Asks IsRead) (hK : ∀ r, K r s) :
    d.Keeps (fun c K => (leaseLaw keeper).Calls c K) K s :=
  Asks.keeps (fun _ _ _ => calls_of_isRead) hd hK

/-- A broadcast carries the nonce of its plan. -/
theorem keeps_broadcast_of_holding {p : Plan} (offer : Offer) (attempt : UInt32)
    {K : Except KeeperError Broadcast → Tenure → Prop} (hK : ∀ r, K r (.holding p.nonce)) :
    (broadcast p offer attempt).Keeps (leaseLaw keeper).rule K (.holding p.nonce) := by
  refine (keeps_broadcast p offer attempt K _).2 ⟨fun f => hK _, fun x hx => ⟨.holding p.nonce, ?_, fun a => ?_⟩⟩
  · have hn : x.transaction.nonce = p.nonce := by rw [hx]; rfl
    simp [leaseLaw, Tenure.next?, hn]
  · exact ⟨.holding p.nonce, rfl, hK _⟩

theorem keeps_simple (p : Plan) (times : PollTimes) (overrides : FeeOverrides) :
    (simple p times overrides).Keeps (leaseLaw keeper).rule (fun _ _ => True) (.holding p.nonce) := by
  rw [simple, keeps_onOk, keeps_price]
  refine keeps_of_reads (reads_price ..) fun r => ?_
  cases r with
  | error e => trivial
  | ok offer =>
    change ((broadcast p offer 1).guarded _ |>.onOk _).Keeps _ _ _
    rw [keeps_onOk, keeps_guarded]
    refine keeps_broadcast_of_holding offer 1 fun r => ?_
    cases r with
    | error e => trivial
    | ok sent =>
      refine ⟨fun _ s => s = .holding p.nonce, rfl, fun polls s hs => ?_⟩
      refine calls_of_isRead nofun fun a => ⟨fun r _ => ?_, fun _ _ => hs⟩
      cases r <;> trivial

theorem keeps_optimized (p : Plan) (settings : Settings) (overrides : FeeOverrides) :
    (optimized p settings overrides).Keeps (leaseLaw keeper).rule (fun _ _ => True) (.holding p.nonce) := by
  rw [optimized, keeps_onOk, keeps_price]
  refine keeps_of_reads (reads_price ..) fun r => ?_
  cases r with
  | error e => trivial
  | ok offer =>
    change (((Escalation.run settings.maxEscalations).interpret _ _ _).mapResult _).Keeps _ _ _
    rw [keeps_mapResult, keeps_interpret]
    -- whatever an escalation asks for, the nonce stays that of the plan
    refine Keeps.of_invariant (I := fun s => s.2 = .holding p.nonce) (fun q K s hs hK => ?_)
      (fun _ _ _ => trivial) _ rfl
    obtain ⟨last, s⟩ := s
    cases hs
    have stay (r : q.Answer KeeperError × Progress) : K r.1 (r.2, .holding p.nonce) := hK _ _ rfl
    cases q with
    | send attempt =>
      change (resend p attempt last).Keeps _ _ _
      rw [keeps_resend]
      refine keeps_of_reads (reads_offer ..) fun r => ?_
      cases r with
      | error e => exact stay (_, _)
      | ok offer =>
        refine keeps_broadcast_of_holding offer attempt fun r => ?_
        cases r <;> exact stay (_, _)
    | pause => exact stay ((), last)
    | lookup hash => exact calls_of_isRead nofun fun a => stay (a, last)

/-- With its lease, a work item keeps to the law in either mode. -/
theorem keeps_inMode (b : Brief) (chain : ChainInfo) (n : UInt64) :
    (match modeOf b.settings b.item with
      | .simple => simple (Plan.ofItem chain b.item n) b.settings.times b.item.feeOverrides
      | .optimized => optimized (Plan.ofItem chain b.item n) b.settings b.item.feeOverrides).Keeps
        (leaseLaw b.item.target.keeper).rule (fun _ _ => True) (.holding n) := by
  split
  · exact keeps_simple (Plan.ofItem chain b.item n) ..
  · exact keeps_optimized (Plan.ofItem chain b.item n) ..

/-- **The course of a submission keeps to one lease.** -/
theorem keeps_course (b : Brief) :
    b.course.Keeps (leaseLaw b.item.target.keeper).rule (fun _ _ => True) .before := by
  rw [Brief.course, run]
  split
  · trivial
  · rename_i chain _
    split
    · rw [onChain, keeps_onOk, keeps_mapResult, keeps_guarded, keeps_ofLedger, Upkeep.keeps_check]
      refine calls_of_isRead nofun fun a => ?_
      cases Upkeep.judge b.item.target.contract chain.chainId a with
      | error f => trivial
      | ok executable =>
        cases executable with
        | false => trivial
        | true =>
          have hold := keeps_inMode b chain
          refine ⟨.asking, if_pos rfl, fun n => ⟨.holding n, rfl, hold n⟩, calls_of_isRead nofun fun a => ?_⟩
          cases a with
          | error f => trivial
          | ok n => exact ⟨.holding n, rfl, hold n⟩
    · trivial

end Course

/-! ## What a log says of its lease -/

section Logs

variable {keeper : Address} {τ τ' : Tenure} {log : List Event}

theorem step_leased {n : UInt64} (h : (leaseLaw keeper).step τ (.leased n) = some τ') : τ'.nonce? = some n := by
  cases τ <;> cases h
  rfl

theorem step_requested {k : Address} (h : (leaseLaw keeper).step τ (.requested k) = some τ') :
    τ = .before ∧ k = keeper ∧ τ' = .asking := by
  cases τ with
  | before =>
    change (if k = keeper then some Tenure.asking else none) = some τ' at h
    split at h
    · cases h
      exact ⟨rfl, ‹_›, rfl⟩
    · cases h
  | asking | holding => cases h

theorem step_send {x : SignedTransaction} (h : (leaseLaw keeper).step τ (.called (.send x)) = some τ') :
    τ = .holding x.transaction.nonce ∧ τ' = τ := by
  cases τ with
  | before | asking => cases h
  | holding n =>
    change (if x.transaction.nonce = n then some (Tenure.holding n) else none) = some τ' at h
    split at h
    · rename_i hn
      cases h
      exact ⟨by rw [hn], rfl⟩
    · cases h

theorem step_of_not_leased {e : Event} (he : e.isLeased = false) (h : (leaseLaw keeper).step τ e = some τ') :
    τ'.nonce? = τ.nonce? := by
  change τ.next? keeper e = some τ' at h
  unfold Tenure.next? at h
  split at h
  · split at h <;> cases h
    rfl
  · cases he
  · split at h <;> cases h
    rfl
  · cases h
  · cases h
  · cases h
  · cases he
  · cases h
    rfl

/-- Before it is asked for, a lease was not asked for. -/
theorem before_of_after : ∀ {log : List Event} {τ : Tenure}, (leaseLaw keeper).after τ log = some .before →
    τ = .before ∧ ∀ k, .requested k ∉ log
  | [], _, h => by cases h; exact ⟨rfl, fun _ hm => by cases hm⟩
  | e :: log, τ, h => by
    obtain ⟨τ₁, h₁, h⟩ := Law.after_cons.1 h
    obtain ⟨rfl, hlog⟩ := before_of_after h
    have he : ∀ k, e ≠ .requested k := by
      rintro k rfl
      cases (step_requested h₁).2.2
    refine ⟨?_, fun k hm => ?_⟩
    · cases τ with
      | before => rfl
      | asking | holding =>
        cases e with
        | requested k => exact absurd rfl (he k)
        | leased | replied | released => cases h₁
        | called c =>
          cases c with
          | send x => cases (step_send h₁).1.symm.trans (step_send h₁).2.symm
          | pendingNonce | baseFee | priorityFee | gasPrice | estimateGas | call | receipt => cases h₁
    · rcases List.mem_cons.1 hm with rfl | hm
      · exact he k rfl
      · exact hlog k hm

/-- The lease that is seen after a turn. -/
theorem nonce?_of_after {event : Option Event} {issued : Option UInt64} (he : ∀ e, event = some e → e.isLeased = false)
    (h : (leaseLaw keeper).after τ (event.toList ++ issued.toList.map .leased) = some τ') :
    τ'.nonce? = issued.or τ.nonce? := by
  rw [Law.after_append] at h
  obtain ⟨τ₁, h₁, h₂⟩ := Option.bind_eq_some_iff.1 h
  have before : τ₁.nonce? = τ.nonce? := by
    cases event with
    | none => cases h₁; rfl
    | some e => exact step_of_not_leased (he e rfl) (Law.after_singleton.symm.trans h₁)
  cases issued with
  | none => cases h₂; exact before
  | some n => exact step_leased (Law.after_singleton.symm.trans h₂)

/-- A lease that was seen is the only one. -/
theorem holding_of_after {n : UInt64} : ∀ {log : List Event}, (leaseLaw keeper).after (.holding n) log = some τ →
    τ = .holding n ∧ log.countP Event.isLeased = 0
  | [], h => by cases h; exact ⟨rfl, rfl⟩
  | e :: log, h => by
    obtain ⟨τ₁, h₁, h⟩ := Law.after_cons.1 h
    have hτ : τ₁ = .holding n ∧ e.isLeased = false := by
      cases e with
      | requested | leased => cases h₁
      | replied | released => cases h₁; exact ⟨rfl, rfl⟩
      | called c =>
        cases c with
        | send x =>
          obtain ⟨-, hτ⟩ := step_send h₁
          exact ⟨hτ, rfl⟩
        | pendingNonce | baseFee | priorityFee | gasPrice | estimateGas | call | receipt => cases h₁; exact ⟨rfl, rfl⟩
    obtain ⟨rfl, he⟩ := hτ
    obtain ⟨rfl, hlog⟩ := holding_of_after h
    exact ⟨rfl, by rw [List.countP_cons, hlog, he]; rfl⟩

theorem leases_of_after : ∀ {log : List Event} {τ : Tenure}, τ.nonce? = none →
    (leaseLaw keeper).after τ log = some τ' → log.countP Event.isLeased = τ'.nonce?.toList.length
  | [], _, h0, h => by
    cases h
    rw [h0]
    rfl
  | e :: log, τ, h0, h => by
    obtain ⟨τ₁, h₁, h⟩ := Law.after_cons.1 h
    cases he : e.isLeased with
    | false =>
      rw [List.countP_cons_of_neg (by rw [he]; exact nofun)]
      exact leases_of_after (by rw [step_of_not_leased he h₁, h0]) h
    | true =>
      cases e <;> cases he
      cases τ with
      | before | holding => cases h₁
      | asking =>
        cases h₁
        obtain ⟨rfl, hlog⟩ := holding_of_after h
        rw [List.countP_cons, hlog]
        rfl

/-- Whatever was broadcast carries the nonce of the lease. -/
theorem nonce?_of_broadcast {x : SignedTransaction} : ∀ {log : List Event} {τ : Tenure},
    (leaseLaw keeper).after τ log = some τ' → .called (.send x) ∈ log → τ'.nonce? = some x.transaction.nonce
  | [], _, _, hx => by cases hx
  | e :: log, τ, h, hx => by
    obtain ⟨τ₁, h₁, h⟩ := Law.after_cons.1 h
    rcases List.mem_cons.1 hx with rfl | hx
    · obtain ⟨rfl, rfl⟩ := step_send h₁
      obtain ⟨rfl, -⟩ := holding_of_after h
      rfl
    · exact nonce?_of_broadcast h hx

end Logs

end OrderKeeper.Submission
