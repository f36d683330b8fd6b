import OrderKeeper.Proofs.Submission.Law

/-!
# The parts of a course

What it takes that a part of a submission keeps to a rule, part by part: the upkeep check, the ways to price, a
broadcast, and one broadcast of an escalation. Each is told by the questions it asks and by nothing else.
-/

namespace OrderKeeper

open Dialogue

/-! ## Dialogues with the ledger -/

section Ledger

variable {σ : Type} {rule : Rule LedgerCall (fun c => Except Fault c.Answer) σ}

theorem Upkeep.keeps_check (chainId : UInt64) (contract keeper : Address) (payload : Payload)
    (K : Except Fault Bool → σ → Prop) :
    (check chainId contract keeper payload).Keeps rule K =
      rule (.call (request contract keeper payload)) fun a => K (judge contract chainId a) :=
  rfl

namespace Fee

theorem Subject.keeps_offer (x : Subject) (tip feeCap : Wei) (legacy : Bool) (multiplier : Float) (attempt : UInt32)
    (K : Except PricingFailure Offer → σ → Prop) :
    (x.offer tip feeCap legacy multiplier attempt).Keeps rule K =
      rule (.estimateGas (x.at tip feeCap legacy)) fun
        | .error f => K (.error (.gasEstimation f))
        | .ok gas => K (.ok ⟨tip, feeCap, scaledGas gas x.gasMultiplier, multiplier, attempt, legacy⟩) := by
  refine congrArg (rule (.estimateGas (x.at tip feeCap legacy))) (funext fun a => ?_)
  cases a <;> rfl

theorem keeps_initial (x : Subject) (K : Except PricingFailure Offer → σ → Prop) :
    (initial x).Keeps rule K =
      rule .baseFee fun
        | .error f => K (.error (.feeData f))
        | .ok none => K (.error (.noBaseFee x.network))
        | .ok (some base) => (x.offer minTip (minTip.satAdd (base.satMul 2)) false 1.0 0).Keeps rule K := by
  refine congrArg (rule .baseFee) (funext fun a => ?_)
  obtain f | b := a
  · rfl
  · cases b <;> rfl

theorem keeps_adaptive (x : Subject) (overrides : FeeOverrides) (K : Except PricingFailure Offer → σ → Prop) :
    (adaptive x overrides).Keeps rule K =
      rule .baseFee fun
        | .error f => K (.error (.feeData f))
        | .ok none => rule .gasPrice fun
          | .error f => K (.error (.feeData f))
          | .ok price => (x.offer 0 price true 1.0 0).Keeps rule K
        | .ok (some base) => rule .priorityFee fun
          | .error f => K (.error (.feeData f))
          | .ok tip =>
            (x.offer tip (tip.satAdd (base.satMul overrides.baseFeeMultiplier.toNat)) false 1.0 0).Keeps rule K := by
  refine congrArg (rule .baseFee) (funext fun a => ?_)
  obtain f | b := a
  · rfl
  · cases b with
    | none =>
      refine congrArg (rule .gasPrice) (funext fun a => ?_)
      cases a <;> rfl
    | some base =>
      refine congrArg (rule .priorityFee) (funext fun a => ?_)
      cases a <;> rfl

end Fee

end Ledger

namespace Submission

variable {σ : Type} {L : Law σ}

/-! ## Parts of a submission -/

/-- A dialogue with the ledger comes down to its calls. -/
theorem keeps_ofLedger {R α : Type} (d : Dialogue LedgerCall (fun c => Except Fault c.Answer) R α)
    (K : α → σ → Prop) : (ofLedger d).Keeps L.rule K = d.Keeps (fun c K => L.Calls c K) K :=
  keeps_rephrase _ _ d K

/-- What it takes to sign a transaction and to broadcast it. -/
theorem keeps_broadcast (p : Plan) (offer : Offer) (attempt : UInt32) (K : Except KeeperError Broadcast → σ → Prop)
    (s : σ) : (broadcast p offer attempt).Keeps L.rule K s ↔
      (∀ f, K (.error (.ofSigningFault f)) s) ∧ ∀ x : SignedTransaction, x.transaction = p.transaction offer →
        L.Calls (.send x) (fun a => K (Broadcast.judge x.hash attempt a)) s := by
  constructor
  · intro h
    refine ⟨fun f => h (.error f) (fun x hx => by cases hx), fun x hx => h (.ok x) fun y hy => ?_⟩
    cases hy
    exact hx
  · rintro ⟨hf, hx⟩ a ha
    cases a with
    | error f => exact hf f
    | ok x => exact hx x (ha x rfl)

/-- What it takes to make a broadcast of an escalation. -/
theorem keeps_resend (p : Plan) (attempt : UInt32) (last : Progress)
    (K : Except KeeperError Hash × Progress → σ → Prop) :
    (resend p attempt last).Keeps L.rule K =
      (Fee.escalate p.subject last.offer attempt).Keeps (fun c K => L.Calls c K) fun
        | .error e => K (.error (.ofPricingFailure p.contract e), last)
        | .ok offer => (broadcast p offer attempt).Keeps L.rule fun
          | .error e => K (.error e, last)
          | .ok sent => K (.ok sent.hash, ⟨offer, attempt⟩) := by
  rw [resend, keeps_bind, keeps_ofLedger]
  congr 1
  funext r
  cases r with
  | error e => rfl
  | ok offer =>
    rw [keeps_bind]
    congr 1
    funext r
    cases r <;> rfl

/-- What it takes to price a transaction for the first time. -/
theorem keeps_price (p : Plan) (isAdaptive : Bool) (overrides : FeeOverrides)
    (K : Except KeeperError Offer → σ → Prop) : (price p isAdaptive overrides).Keeps L.rule K =
      (if isAdaptive then Fee.adaptive p.subject overrides else Fee.initial p.subject).Keeps
        (fun c K => L.Calls c K) fun r => K (r.mapError (KeeperError.ofPricingFailure p.contract)) := by
  rw [price, keeps_mapResult, keeps_guarded, keeps_ofLedger]

end Submission

end OrderKeeper
