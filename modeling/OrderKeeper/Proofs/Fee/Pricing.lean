import OrderKeeper.Fee.Pricing
import OrderKeeper.Proofs.Dialogue.Transcript
import OrderKeeper.Proofs.Fee.Cap
import OrderKeeper.Proofs.Fee.GasLimit

/-!
# What is offered

What each way to price asks of the ledger and offers, whatever the ledger answers, with prices in natural numbers
(`Fee.offers_fair`).

- `Opened` and `Adapted` have one row for every way in which a first offer can turn out; `Quoted` says that one call was
  simulated at a price, and offered at that price, with the gas of the simulation scaled, if the simulation succeeded.
- `Offered` holds of every offer that escalations, with any numbers, lead to from a first one. That it is `Fair` is kept
  by one escalation (`Fair.escalate`), and so by all of them.
-/

namespace OrderKeeper

namespace FeeOverrides

/-- Overrides that a check has let through, of values in a program or of values in a text. -/
def Checked (o : FeeOverrides) : Prop := (∃ baseFee gasLimit, check baseFee gasLimit = .ok o) ∨ ∃ v, ofJson v = .ok o

variable {o : FeeOverrides}

theorem le_baseFeeMultiplier_of_check {baseFee : Option UInt64} {gasLimit : Option Float}
    (h : check baseFee gasLimit = .ok o) : 2 ≤ o.baseFeeMultiplier.toNat := by
  unfold check at h
  split at h
  · cases h
  · cases h
  · rename_i hbase _
    cases h
    cases baseFee with
    | none => exact Nat.le_refl 2
    | some m =>
      have hallowed : baseFeeAllowed m = true := by simpa using hbase m
      exact UInt64.le_iff_toNat_le.1 (of_decide_eq_true hallowed)

theorem Checked.le_baseFeeMultiplier (h : o.Checked) : 2 ≤ o.baseFeeMultiplier.toNat := by
  rcases h with ⟨baseFee, gasLimit, h⟩ | ⟨v, h⟩
  · exact le_baseFeeMultiplier_of_check h
  · cases hr : FeeOverridesRequest.record.decode v with
    | error m => simp [ofJson, hr, bind, Except.bind] at h
    | ok r =>
      simp only [ofJson, hr, bind, Except.bind] at h
      cases hc : r.check with
      | error f => simp [hc] at h
      | ok o' =>
        simp only [hc, Except.ok.injEq] at h
        exact le_baseFeeMultiplier_of_check (h ▸ hc)

end FeeOverrides

namespace Fee

/-- A question to the ledger with its answer. -/
abbrev Exchange := Σ c : LedgerCall, Except Fault c.Answer

/-- What answers questions to the ledger. -/
abbrev Respondent := Dialogue.Respondent LedgerCall fun c => Except Fault c.Answer

/-- The calls that were simulated. -/
def simulations (h : List Exchange) : List CallRequest :=
  h.filterMap fun
    | ⟨.estimateGas r, _⟩ => some r
    | _ => none

/-- A call carries a price and is otherwise the call that is priced: the gas price of a legacy offer, the cap and the tip
of any other. -/
inductive Carries (s : Subject) (tip feeCap : Wei) : Bool → CallRequest → Prop where
  | legacy : Carries s tip feeCap true { s.request with gasPrice? := some feeCap }
  | dynamic : Carries s tip feeCap false { s.request with feeCap? := some feeCap, tip? := some tip }

/-- The call is simulated at a price, and offered at it unless the simulation fails. -/
inductive Quoted (s : Subject) (tip feeCap : Wei) (legacy : Bool) :
    List Exchange × Except PricingFailure Offer → Prop where
  | offered {r : CallRequest} {gas : UInt64} {o : Offer} : Carries s tip feeCap legacy r →
      o.tip = tip → o.feeCap = feeCap → o.legacy = legacy → Scaled gas s.gasMultiplier o.gasLimit →
      Quoted s tip feeCap legacy ([⟨.estimateGas r, .ok gas⟩], .ok o)
  | refused {r : CallRequest} {f : Fault} : Carries s tip feeCap legacy r →
      Quoted s tip feeCap legacy ([⟨.estimateGas r, .error f⟩], .error (.gasEstimation f))

/-- How the cheapest offer turns out. -/
inductive Opened (s : Subject) : List Exchange × Except PricingFailure Offer → Prop where
  | unknown {f : Fault} : Opened s ([⟨.baseFee, .error f⟩], .error (.feeData f))
  | noBaseFee : Opened s ([⟨.baseFee, .ok none⟩], .error (.noBaseFee s.network))
  | quoted {base feeCap : Wei} {h : List Exchange} {r : Except PricingFailure Offer} :
      feeCap.toNat = min Wei.top.toNat (1 + 2 * base.toNat) → Quoted s 1 feeCap false (h, r) →
      Opened s (⟨.baseFee, .ok (some base)⟩ :: h, r)

/-- How an offer after the network's suggestions turns out, with a multiplier of the base fee. -/
inductive Adapted (s : Subject) (multiplier : Nat) : List Exchange × Except PricingFailure Offer → Prop where
  | unknown {f : Fault} : Adapted s multiplier ([⟨.baseFee, .error f⟩], .error (.feeData f))
  | noGasPrice {f : Fault} : Adapted s multiplier ([⟨.baseFee, .ok none⟩, ⟨.gasPrice, .error f⟩], .error (.feeData f))
  | legacy {price : Wei} {h : List Exchange} {r : Except PricingFailure Offer} : Quoted s 0 price true (h, r) →
      Adapted s multiplier (⟨.baseFee, .ok none⟩ :: ⟨.gasPrice, .ok price⟩ :: h, r)
  | noTip {base : Wei} {f : Fault} :
      Adapted s multiplier ([⟨.baseFee, .ok (some base)⟩, ⟨.priorityFee, .error f⟩], .error (.feeData f))
  | quoted {base tip feeCap : Wei} {h : List Exchange} {r : Except PricingFailure Offer} :
      feeCap.toNat = min Wei.top.toNat (tip.toNat + multiplier * base.toNat) → Quoted s tip feeCap false (h, r) →
      Adapted s multiplier (⟨.baseFee, .ok (some base)⟩ :: ⟨.priorityFee, .ok tip⟩ :: h, r)

/-- The tip of an offer that is raised, which the new cap may lower. -/
def escalatedTip (previous : Offer) (attempt : UInt32) : Wei :=
  if previous.tip.toNat ≤ (escalatedCap previous.feeCap attempt).toNat then previous.tip
  else escalatedCap previous.feeCap attempt

/-- Escalations lead from a first offer to an offer, which the last exchange with the ledger has made. -/
inductive Offered (s : Subject) (overrides : FeeOverrides) (first : Offer) : Offer → List Exchange → Prop where
  | initial {answer : Respondent} {h : List Exchange} : (initial s).transcript answer [] = (h, .ok first) →
      Offered s overrides first first h
  | adaptive {answer : Respondent} {h : List Exchange} : (adaptive s overrides).transcript answer [] = (h, .ok first) →
      Offered s overrides first first h
  | escalate {answer : Respondent} {previous o : Offer} {attempt : UInt32} {before h : List Exchange} :
      Offered s overrides first previous before → (escalate s previous attempt).transcript answer [] = (h, .ok o) →
      Offered s overrides first o h

/-- An offer whose tip is within its cap, which a legacy offer does not have, and at which the call was simulated once. -/
structure Fair (s : Subject) (o : Offer) (h : List Exchange) : Prop where
  tip_le : o.tip ≤ o.feeCap
  tip_eq : o.legacy = true → o.tip = 0
  simulated : ∃ r, simulations h = [r] ∧ Carries s o.tip o.feeCap o.legacy r

variable {s : Subject} {overrides : FeeOverrides} {o first previous : Offer} {tip feeCap : Wei} {legacy : Bool}
  {h : List Exchange}

/-! ## What is asked -/

section Transcript

variable (answer : Respondent) (s : Subject)

theorem carries_at (tip feeCap : Wei) (legacy : Bool) : Carries s tip feeCap legacy (s.at tip feeCap legacy) := by
  cases legacy with
  | false => exact .dynamic
  | true => exact .legacy

/-- One simulation, and the offer. -/
theorem quoted_offer (tip feeCap : Wei) (legacy : Bool) (multiplier : Float) (attempt : UInt32) (h : List Exchange) :
    ∃ own r, (s.offer tip feeCap legacy multiplier attempt).transcript answer h = (h ++ own, r) ∧
      Quoted s tip feeCap legacy (own, r) := by
  have hcarries := carries_at s tip feeCap legacy
  simp only [Subject.offer, Dialogue.question, bind, Dialogue.bind, Dialogue.transcript]
  generalize answer h (.estimateGas (s.at tip feeCap legacy)) = a
  cases a with
  | error f => exact ⟨_, _, rfl, .refused hcarries⟩
  | ok gas => exact ⟨_, _, rfl, .offered hcarries rfl rfl rfl (scaled_scaledGas ..)⟩

theorem toNat_satAdd_satMul (a b : Wei) (k : Nat) :
    (a.satAdd (b.satMul k)).toNat = min Wei.top.toNat (a.toNat + k * b.toNat) := by
  rw [Wei.toNat_satAdd, Wei.toNat_satMul, Wei.toNat_top, Nat.mul_comm k]
  omega

theorem toNat_escalatedTip (previous : Offer) (attempt : UInt32) :
    (escalatedTip previous attempt).toNat = min previous.tip.toNat (escalatedCap previous.feeCap attempt).toNat := by
  unfold escalatedTip
  split <;> omega

theorem opened_initial : Opened s ((initial s).transcript answer []) := by
  simp only [initial, Dialogue.question, bind, Dialogue.bind, Dialogue.transcript]
  generalize answer [] .baseFee = a
  obtain f | _ | base := a
  · exact .unknown
  · exact .noBaseFee
  · obtain ⟨own, r, ht, hquoted⟩ := quoted_offer answer s minTip (minTip.satAdd (base.satMul 2)) false 1.0 0
      [⟨.baseFee, .ok (some base)⟩]
    dsimp only [List.nil_append]
    rw [ht]
    exact .quoted (toNat_satAdd_satMul ..) hquoted

theorem adapted_adaptive (overrides : FeeOverrides) :
    Adapted s overrides.baseFeeMultiplier.toNat ((adaptive s overrides).transcript answer []) := by
  simp only [adaptive, Dialogue.question, bind, Dialogue.bind, Dialogue.transcript]
  generalize answer [] .baseFee = a
  obtain f | _ | base := a
  · exact .unknown
  · dsimp only [List.nil_append, Dialogue.transcript]
    generalize answer _ .gasPrice = a
    obtain f | price := a
    · exact .noGasPrice
    · obtain ⟨own, r, ht, hquoted⟩ := quoted_offer answer s 0 price true 1.0 0
        [⟨.baseFee, .ok none⟩, ⟨.gasPrice, .ok price⟩]
      dsimp only [List.cons_append, List.nil_append]
      rw [ht]
      exact .legacy hquoted
  · dsimp only [List.nil_append, Dialogue.transcript]
    generalize answer _ .priorityFee = a
    obtain f | tip := a
    · exact .noTip
    · obtain ⟨own, r, ht, hquoted⟩ := quoted_offer answer s tip
        (tip.satAdd (base.satMul overrides.baseFeeMultiplier.toNat)) false 1.0 0
        [⟨.baseFee, .ok (some base)⟩, ⟨.priorityFee, .ok tip⟩]
      dsimp only [List.cons_append, List.nil_append]
      rw [ht]
      exact .quoted (toNat_satAdd_satMul ..) hquoted

theorem quoted_escalate (previous : Offer) (attempt : UInt32) :
    Quoted s (escalatedTip previous attempt) (escalatedCap previous.feeCap attempt) previous.legacy
      ((escalate s previous attempt).transcript answer []) := by
  obtain ⟨own, r, ht, hquoted⟩ := quoted_offer answer s (escalatedTip previous attempt)
    (escalatedCap previous.feeCap attempt) previous.legacy (attemptMultiplier attempt) attempt []
  have htranscript : (escalate s previous attempt).transcript answer [] = (own, r) := ht
  rw [htranscript]
  exact hquoted

end Transcript

/-! ## What every offer is like -/

theorem Quoted.fair (hq : Quoted s tip feeCap legacy (h, .ok o)) (hle : tip ≤ feeCap) (hzero : legacy = true → tip = 0) :
    Fair s o h ∧ o.legacy = legacy := by
  cases hq with
  | offered hcarries htip hcap hlegacy _ =>
    subst htip hcap hlegacy
    exact ⟨⟨hle, hzero, _, rfl, hcarries⟩, rfl⟩

/-- Questions that simulate nothing say nothing of an offer. -/
theorem Fair.of_simulations_eq {h' : List Exchange} (hf : Fair s o h') (hs : simulations h = simulations h') :
    Fair s o h := ⟨hf.tip_le, hf.tip_eq, hs ▸ hf.simulated⟩

theorem Opened.fair (ho : Opened s (h, .ok o)) : Fair s o h := by
  cases ho with
  | @quoted base feeCap h r hcap hq =>
    refine (hq.fair ?_ (fun hlegacy => by cases hlegacy)).1.of_simulations_eq rfl
    have hone : (1 : Wei) ≤ Wei.top := by decide
    rw [BitVec.le_def] at hone ⊢
    have hle : (1 : Wei).toNat ≤ 1 + 2 * base.toNat := Nat.le_add_right ..
    omega

theorem Adapted.fair {multiplier : Nat} (ha : Adapted s multiplier (h, .ok o)) : Fair s o h := by
  cases ha with
  | legacy hq => exact (hq.fair (Nat.zero_le _) fun _ => rfl).1.of_simulations_eq rfl
  | @quoted base tip feeCap h r hcap hq =>
    refine (hq.fair ?_ (fun hlegacy => by cases hlegacy)).1.of_simulations_eq rfl
    have htip := tip.toNat_le_top
    rw [BitVec.le_def]
    omega

/-- An escalation makes a fair offer of a fair one, and a legacy offer of a legacy one only. -/
theorem Fair.escalate {answer : Respondent} {attempt : UInt32} {before : List Exchange} (hf : Fair s previous before)
    (ht : (Fee.escalate s previous attempt).transcript answer [] = (h, .ok o)) :
    Fair s o h ∧ o.legacy = previous.legacy := by
  have hq := quoted_escalate answer s previous attempt
  have htip := toNat_escalatedTip previous attempt
  rw [ht] at hq
  refine hq.fair ?_ fun hlegacy => ?_
  · rw [BitVec.le_def, htip]
    exact Nat.min_le_right ..
  · have hzero : previous.tip.toNat = 0 := by rw [hf.tip_eq hlegacy]; rfl
    exact BitVec.eq_of_toNat_eq (by rw [htip, hzero, Nat.zero_min]; rfl)

/-- Whatever escalations lead to is fair, and a legacy offer if the first one was. -/
theorem Offered.fair (ho : Offered s overrides first o h) : Fair s o h ∧ o.legacy = first.legacy := by
  induction ho with
  | @initial answer h ht =>
    have hopened := opened_initial answer s
    rw [ht] at hopened
    exact ⟨hopened.fair, rfl⟩
  | @adaptive answer h ht =>
    have hadapted := adapted_adaptive answer s overrides
    rw [ht] at hadapted
    exact ⟨hadapted.fair, rfl⟩
  | escalate _ ht ih =>
    obtain ⟨hfair, hlegacy⟩ := ih.1.escalate ht
    exact ⟨hfair, hlegacy.trans ih.2⟩

/-- What every way to price asks of the ledger and offers, whatever the ledger answers, and what every offer is like that
any escalations lead to. -/
theorem offers_fair (s : Subject) (hoverrides : overrides.Checked) :
    2 ≤ overrides.baseFeeMultiplier.toNat ∧
    (∀ answer, Opened s ((initial s).transcript answer [])) ∧
    (∀ answer, Adapted s overrides.baseFeeMultiplier.toNat ((adaptive s overrides).transcript answer [])) ∧
    (∀ previous attempt answer, Quoted s (escalatedTip previous attempt) (escalatedCap previous.feeCap attempt)
      previous.legacy ((escalate s previous attempt).transcript answer [])) ∧
    ∀ first o h, Offered s overrides first o h → Fair s o h ∧ o.legacy = first.legacy :=
  ⟨hoverrides.le_baseFeeMultiplier, fun answer => opened_initial answer s,
    fun answer => adapted_adaptive answer s overrides,
    fun previous attempt answer => quoted_escalate answer s previous attempt, fun _ _ _ ho => ho.fair⟩

/-- A ledger with a base fee of a gwei, which suggests a tip of two wei. -/
def steady : Respondent
  | _, .baseFee => .ok (some 1000000000)
  | _, .priorityFee => .ok 2
  | _, .estimateGas _ => .ok 100000
  | _, _ => .error (.internal "not answered")

/-- Three times its base fee and the tip. -/
def steadyOffer : Offer := ⟨2, 3000000002, scaledGas 100000 1.0, 1.0, 0, false⟩

/-- The offer after the second broadcast. -/
def steadyRaised : Offer := ⟨2, 3300000003, scaledGas 100000 1.0, attemptMultiplier 2, 2, false⟩

/-- An offer with an override, raised by a tenth. -/
theorem offers_fair_raised : (⟨some 3, none⟩ : FeeOverrides).Checked ∧
    ∃ h, Offered ⟨"anvil", {}, 1.0⟩ ⟨some 3, none⟩ steadyOffer steadyRaised h ∧
      Fair ⟨"anvil", {}, 1.0⟩ steadyRaised h ∧ steadyRaised.legacy = steadyOffer.legacy := by
  have hchecked : (⟨some 3, none⟩ : FeeOverrides).Checked := .inl ⟨some 3, none, rfl⟩
  have hfirst : Offered ⟨"anvil", {}, 1.0⟩ ⟨some 3, none⟩ steadyOffer steadyOffer _ :=
    @Offered.adaptive _ _ _ steady _ rfl
  have hr : ((escalate ⟨"anvil", {}, 1.0⟩ steadyOffer 2).transcript steady []).2 = .ok steadyRaised := by rfl
  have hraised := @Offered.escalate _ _ _ steady _ _ 2 _ _ hfirst (Prod.ext rfl hr)
  exact ⟨hchecked, _, hraised, (offers_fair _ hchecked).2.2.2.2 _ _ _ hraised⟩

end Fee

end OrderKeeper
