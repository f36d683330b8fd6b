import OrderKeeper.Proofs.Fee.Pricing
import OrderKeeper.Proofs.Text.Hex
import OrderKeeper.WorkItem.Basic

/-!
# The checks of a request

A request is checked in a fixed order (`Check.inOrder`), and what comes of it is said by the checks alone
(`ofRequest_decided`): the first check that it fails gives the error, and a request that fails none becomes a work item that
carries what the request says (`Carries`).

Checks made one after the other are `Tested`, a relation with one row for each way in which a check can turn out. What is
tested by some checks and goes on with more is tested by all of them (`Tested.bind`), so that each part of a request is
looked at by itself.
-/

namespace OrderKeeper

namespace WorkRequest

/-- What is asked for. -/
def action : WorkRequest → Action
  | execute .. => .execute
  | cancel .. => .cancel

def target : WorkRequest → TargetRequest
  | execute t _ _ _ _ => t
  | cancel t _ _ _ => t

def order : WorkRequest → OrderRequest
  | execute _ o _ _ _ => o
  | cancel _ o _ _ => o

/-- The trade, which only an execution has. -/
def trade? : WorkRequest → Option Trade
  | execute _ _ t _ _ => some t
  | cancel .. => none

def fees : WorkRequest → FeeOverridesRequest
  | execute _ _ _ f _ => f
  | cancel _ _ f _ => f

def mode : WorkRequest → Option Mode
  | execute _ _ _ _ m => m
  | cancel _ _ _ m => m

end WorkRequest

namespace WorkItem

/-! ## The checks -/

/-- What a request is checked for. -/
inductive Check where
  | network
  | contractGiven
  | contractFormed
  | keeperGiven
  | keeperFormed
  | amountIn
  | account
  | index
  | orderType
  | executeFee
  | baseFeeMultiplier
  | gasLimitMultiplier
  deriving DecidableEq, Repr

namespace Check

/-- The checks in their order. -/
def inOrder : List Check :=
  [network, contractGiven, contractFormed, keeperGiven, keeperFormed, amountIn, account, index, orderType, executeFee,
    baseFeeMultiplier, gasLimitMultiplier]

/-- A request fails a check. An amount and a fee are asked of an execution alone. -/
def Fails (r : WorkRequest) : Check → Prop
  | network => r.target.network = ""
  | contractGiven => r.target.contractAddress = ""
  | contractFormed => ¬ ∃ a, Address.WrittenBy r.target.contractAddress a
  | keeperGiven => r.target.keeperAddress = ""
  | keeperFormed => ¬ ∃ a, Address.WrittenBy r.target.keeperAddress a
  | amountIn => ∃ t ∈ r.trade?, t.amountIn = none
  | account => r.order.account = 0
  | index => r.order.index = none
  | orderType => r.order.orderType = none
  | executeFee => r.action = .execute ∧ r.order.executeFee = none
  | baseFeeMultiplier => ∃ m ∈ r.fees.baseFeeMultiplier, m.toNat < 2
  | gasLimitMultiplier => ∃ m ∈ r.fees.gasLimitMultiplier, m.isFinite = false ∨ m < 0.0

/-- What is said of a request that fails a check. -/
def message (r : WorkRequest) : Check → String
  | network => "network is required"
  | contractGiven => "contract address is required"
  | contractFormed => "contract address " ++ r.target.contractAddress ++ " is not a valid address"
  | keeperGiven => "keeper address is required"
  | keeperFormed => "keeper address " ++ r.target.keeperAddress ++ " is not a valid address"
  | amountIn => "amount in is required"
  | account => "order account is required"
  | index => "order index is required"
  | orderType => "order type is required"
  | executeFee => "order execute fee is required"
  | baseFeeMultiplier => (FeeOverrides.baseFeeFault (r.fees.baseFeeMultiplier.getD 0)).display
  | gasLimitMultiplier => (FeeOverrides.gasLimitFault (r.fees.gasLimitMultiplier.getD 0)).display

end Check

/-- What comes of checks that are made one after the other: the first that the request fails gives the error, and if it fails
none there is a value with a property. -/
inductive Tested {α : Type} (r : WorkRequest) (P : α → Prop) : List Check → Except KeeperError α → Prop where
  | done {a : α} : P a → Tested r P [] (.ok a)
  | failed {c : Check} {cs : List Check} : c.Fails r → Tested r P (c :: cs) (.error (.validation (c.message r)))
  | passed {c : Check} {cs : List Check} {x : Except KeeperError α} : ¬ c.Fails r → Tested r P cs x →
      Tested r P (c :: cs) x

namespace Tested

variable {α β : Type} {r : WorkRequest} {P : α → Prop} {Q : β → Prop} {cs : List Check} {c : Check}
  {x : Except KeeperError α} {f : α → Except KeeperError β}

/-- What is tested by some checks and goes on with more is tested by all of them. -/
theorem bind (cs ds : List Check) (h : Tested r P cs x) (hf : ∀ a, P a → Tested r Q ds (f a)) :
    Tested r Q (cs ++ ds) (x >>= f) := by
  induction h with
  | done ha => exact hf _ ha
  | failed hfails => exact .failed hfails
  | passed hpasses _ ih => exact .passed hpasses ih

/-- What is tested by some checks, with a function applied to its value. -/
theorem map {f : α → β} (h : Tested r P cs x) (hf : ∀ a, P a → Q (f a)) : Tested r Q cs (x.map f) := by
  induction h with
  | done ha => exact .done (hf _ ha)
  | failed hfails => exact .failed hfails
  | passed hpasses _ ih => exact .passed hpasses ih

/-- One check that a request fails or passes. -/
theorem single (hfails : c.Fails r → x = .error (.validation (c.message r)))
    (hpasses : ¬ c.Fails r → ∃ a, x = .ok a ∧ P a) : Tested r P [c] x := by
  by_cases h : c.Fails r
  · rw [hfails h]
    exact .failed h
  · obtain ⟨a, rfl, ha⟩ := hpasses h
    exact .passed h (.done ha)

/-- Either a check fails, and those before it do not, or there is a value. -/
theorem decided (h : Tested r P cs x) :
    (∃ before c after, cs = before ++ c :: after ∧ (∀ d ∈ before, ¬ d.Fails r) ∧ c.Fails r ∧
      x = .error (.validation (c.message r))) ∨
    (∀ c ∈ cs, ¬ c.Fails r) ∧ ∃ a, x = .ok a ∧ P a := by
  induction h with
  | done ha => exact .inr ⟨by simp, _, rfl, ha⟩
  | @failed c cs hfails => exact .inl ⟨[], c, cs, rfl, by simp, hfails, rfl⟩
  | @passed c cs x hpasses _ ih =>
    obtain ⟨before, d, after, rfl, hbefore, hfails, hx⟩ | ⟨hcs, ha⟩ := ih
    · exact .inl ⟨c :: before, d, after, rfl, by simpa [hpasses] using hbefore, hfails, hx⟩
    · exact .inr ⟨by simpa [hpasses] using hcs, ha⟩

end Tested

/-! ## What a work item carries -/

/-- The identity of an order as a request gives it. -/
def identity (o : Order) : OrderRequest := ⟨o.account, some o.index, some o.orderType, some o.executeFee⟩

/-- The trade of a payload as a request gives it. -/
def tradeOf (p : Payload) : Trade :=
  ⟨p.tokenIn, p.tokenOut, p.remainingAmountIn, p.routes, some p.amountIn, p.amountOutMin, p.amountOutExpected⟩

/-- A target is the one that a request names. -/
structure Names (r : WorkRequest) (t : Target) : Prop where
  network : t.network = r.target.network
  contract : Address.WrittenBy r.target.contractAddress t.contract
  keeper : Address.WrittenBy r.target.keeperAddress t.keeper

/-- The identity of an order is the one that a request gives; the fee of a cancellation is zero unless it is given. -/
def Identifies (r : WorkRequest) (o : Order) : Prop :=
  identity o = { r.order with executeFee := r.order.executeFee.or (if r.action = .cancel then some 0 else none) }

/-- The overrides that are in effect are those of a request, with defaults for what it leaves open. -/
structure Prices (r : WorkRequest) (o : FeeOverrides) : Prop where
  baseFee : o.baseFeeMultiplier = r.fees.baseFeeMultiplier.getD 2
  baseFee_ge : 2 ≤ o.baseFeeMultiplier.toNat
  gasLimit : o.gasLimitMultiplier = (r.fees.gasLimitMultiplier.filter (0.0 < ·)).getD 1.0
  gasLimit_finite : o.gasLimitMultiplier.isFinite = true
  gasLimit_pos : 0.0 < o.gasLimitMultiplier

/-- A work item carries what a request says. -/
structure Carries (r : WorkRequest) (w : WorkItem) : Prop where
  action : w.action = r.action
  target : Names r w.target
  order : Identifies r w.payload.order
  isCancel : w.payload.isCancel = true ↔ w.action = .cancel
  /-- The trade is that of the request, or that of a cancellation, which has none. -/
  trade : tradeOf w.payload = r.trade?.getD ⟨0, 0, 0, [], some 0, 0, 0⟩
  keeper : w.payload.keeper = w.target.keeper
  fees : Prices r w.feeOverrides
  mode : w.mode = r.mode

/-! ## The checks of the parts -/

variable {r : WorkRequest}

theorem Tested.given {α : Type} {c : Check} {what : String} {o : Option α} (hmessage : c.message r = what ++ " is required")
    (hfails : c.Fails r ↔ o = none) : Tested r (fun a => some a = o) [c] (given what o) := by
  refine .single (fun h => ?_) fun h => ?_
  · rw [hfails.1 h, hmessage]
    rfl
  · obtain ⟨a, rfl⟩ := Option.ne_none_iff_exists'.1 (mt hfails.2 h)
    exact ⟨a, rfl, rfl⟩

/-- An address is looked at twice: whether it is there, and whether it is one. -/
theorem Tested.address {given formed : Check} {what text : String} (hgiven : given.Fails r ↔ text = "")
    (hformed : formed.Fails r ↔ ¬ ∃ a, Address.WrittenBy text a) (hmissing : given.message r = what ++ " is required")
    (hinvalid : formed.message r = what ++ " " ++ text ++ " is not a valid address") :
    Tested r (Address.WrittenBy text) [given, formed] (checkAddress what text) := by
  by_cases hempty : text = ""
  · have hfails : given.Fails r := hgiven.2 hempty
    rw [checkAddress, if_pos (by simpa using hempty), ← hmissing]
    exact .failed hfails
  · rw [checkAddress, if_neg (by simpa using hempty)]
    refine .passed (mt hgiven.1 hempty) (.single (fun h => ?_) fun h => ?_)
    · cases ha : Json.addressOfText? text with
      | none => rw [hinvalid]
      | some a => exact absurd ⟨a, Json.addressOfText?_eq_some_iff.1 ha⟩ (hformed.1 h)
    · obtain ⟨a, ha⟩ := not_not.1 (mt hformed.2 h)
      rw [Json.addressOfText?_eq_some_iff.2 ha]
      exact ⟨a, rfl, ha⟩

theorem tested_target (r : WorkRequest) :
    Tested r (Names r) [.network, .contractGiven, .contractFormed, .keeperGiven, .keeperFormed] (checkTarget r.target) := by
  by_cases hempty : r.target.network = ""
  · rw [checkTarget, if_pos (by simpa using hempty)]
    exact .failed (c := .network) hempty
  · rw [checkTarget, if_neg (by simpa using hempty)]
    refine .passed (c := .network) hempty ?_
    refine Tested.bind [.contractGiven, .contractFormed] _ (.address .rfl .rfl rfl rfl) fun contract hcontract => ?_
    refine Tested.map (.address .rfl .rfl rfl rfl) fun keeper hkeeper => ?_
    exact ⟨rfl, hcontract, hkeeper⟩

theorem tested_order (r : WorkRequest) : Tested r (Identifies r) [.account, .index, .orderType, .executeFee]
    (checkOrder r.order (if r.action = .cancel then some 0 else none)) := by
  by_cases hzero : r.order.account = 0
  · rw [checkOrder, if_pos hzero]
    exact .failed (c := .account) hzero
  · rw [checkOrder, if_neg hzero]
    refine .passed (c := .account) hzero ?_
    refine Tested.bind [.index] _ (.given rfl .rfl) fun index hindex => ?_
    refine Tested.bind [.orderType] _ (.given rfl .rfl) fun orderType horderType => ?_
    have hfee : Check.executeFee.Fails r ↔ r.order.executeFee.or (if r.action = .cancel then some 0 else none) = none := by
      cases ha : r.action <;> simp [Check.Fails, ha]
    refine Tested.map (.given rfl hfee) fun executeFee hexecuteFee => ?_
    simp only [Identifies, identity, hindex, horderType, hexecuteFee]

/-- A finite multiplier is positive too once the default stands for any that is not. -/
theorem gasLimit_of_finite {o : Option Float} (h : ∀ m ∈ o, m.isFinite = true) :
    ((o.filter (0.0 < ·)).getD 1.0).isFinite = true ∧ 0.0 < (o.filter (0.0 < ·)).getD 1.0 := by
  have hone : (1.0 : Float).isFinite = true ∧ 0.0 < (1.0 : Float) := by decide
  cases o with
  | none => exact hone
  | some m =>
    by_cases hpos : 0.0 < m
    · simpa [Option.filter, hpos] using h m rfl
    · simpa [Option.filter, hpos] using hone

theorem baseFeeAllowed_eq_false {m : UInt64} : FeeOverrides.baseFeeAllowed m = false ↔ m.toNat < 2 := by
  rw [FeeOverrides.baseFeeAllowed, decide_eq_false_iff_not, UInt64.le_iff_toNat_le, Nat.not_le]
  rfl

theorem gasLimitAllowed_eq_false {m : Float} : FeeOverrides.gasLimitAllowed m = false ↔ m.isFinite = false ∨ m < 0.0 := by
  simp [FeeOverrides.gasLimitAllowed, or_iff_not_imp_left]

theorem tested_fees (r : WorkRequest) :
    Tested r (Prices r) [.baseFeeMultiplier, .gasLimitMultiplier] (checkFees r.fees) := by
  rw [checkFees, FeeOverridesRequest.check, FeeOverrides.check]
  cases hbase : r.fees.baseFeeMultiplier.filter (!FeeOverrides.baseFeeAllowed ·) with
  | some m =>
    obtain ⟨hm, hrefused⟩ := Option.filter_eq_some_iff.1 hbase
    have hmessage : (FeeOverrides.baseFeeFault m).display = Check.message r .baseFeeMultiplier := by
      rw [Check.message.eq_def, hm, Option.getD_some]
    simp only [hmessage]
    exact .failed ⟨m, hm, baseFeeAllowed_eq_false.1 (by simpa using hrefused)⟩
  | none =>
    have hlarge (m : UInt64) (hm : m ∈ r.fees.baseFeeMultiplier) : ¬ m.toNat < 2 := by
      rw [← baseFeeAllowed_eq_false]
      simpa using Option.filter_eq_none_iff.1 hbase m hm
    refine .passed (fun ⟨m, hm, hlt⟩ => hlarge m hm hlt) ?_
    cases hgas : r.fees.gasLimitMultiplier.filter (!FeeOverrides.gasLimitAllowed ·) with
    | some m =>
      obtain ⟨hm, hrefused⟩ := Option.filter_eq_some_iff.1 hgas
      have hmessage : (FeeOverrides.gasLimitFault m).display = Check.message r .gasLimitMultiplier := by
        rw [Check.message.eq_def, hm, Option.getD_some]
      simp only [hmessage]
      exact .failed ⟨m, hm, gasLimitAllowed_eq_false.1 (by simpa using hrefused)⟩
    | none =>
      have hfine (m : Float) (hm : m ∈ r.fees.gasLimitMultiplier) : ¬ (m.isFinite = false ∨ m < 0.0) := by
        rw [← gasLimitAllowed_eq_false]
        simpa using Option.filter_eq_none_iff.1 hgas m hm
      obtain ⟨hfinite, hpos⟩ := gasLimit_of_finite fun m hm => by simpa using fun h => hfine m hm (.inl h)
      refine .passed (fun ⟨m, hm, hrefused⟩ => hfine m hm hrefused) (.done ⟨rfl, ?_, rfl, hfinite, hpos⟩)
      change 2 ≤ (r.fees.baseFeeMultiplier.getD minBaseFeeMultiplier).toNat
      cases hb : r.fees.baseFeeMultiplier with
      | none => exact Nat.le_refl 2
      | some m => exact Nat.le_of_not_lt (hlarge m hb)

/-! ## All checks -/

/-- What is checked of every request, and what a request becomes that passes. -/
theorem tested_ofRequest (r : WorkRequest) : Tested r (Carries r) Check.inOrder (ofRequest r) := by
  have htarget := tested_target r
  have horder := tested_order r
  have hfees := tested_fees r
  cases r with
  | execute target order trade fees mode =>
    refine htarget.bind _ [.amountIn, .account, .index, .orderType, .executeFee, .baseFeeMultiplier,
      .gasLimitMultiplier] fun t ht => ?_
    have hamount : Check.amountIn.Fails (.execute target order trade fees mode) ↔ trade.amountIn = none := by
      simp [Check.Fails, WorkRequest.trade?]
    refine Tested.bind [.amountIn] _ (.given rfl hamount) fun amountIn hamountIn => ?_
    refine horder.bind _ [.baseFeeMultiplier, .gasLimitMultiplier] fun o ho => ?_
    refine hfees.map fun f hf => ?_
    exact {
      action := rfl
      target := ht
      order := ho
      isCancel := by simp
      trade := by simp [tradeOf, hamountIn, WorkRequest.trade?]
      keeper := rfl
      fees := hf
      mode := rfl }
  | cancel target order fees mode =>
    refine htarget.bind _ [.amountIn, .account, .index, .orderType, .executeFee, .baseFeeMultiplier,
      .gasLimitMultiplier] fun t ht => ?_
    -- a cancellation has no amount to be asked for
    refine .passed (by simp [Check.Fails, WorkRequest.trade?]) ?_
    refine horder.bind _ [.baseFeeMultiplier, .gasLimitMultiplier] fun o ho => ?_
    refine hfees.map fun f hf => ?_
    exact {
      action := rfl
      target := ht
      order := ho
      isCancel := iff_of_true rfl rfl
      trade := rfl
      keeper := rfl
      fees := hf
      mode := rfl }

/-- **A request and its checks.** The first check that a request fails gives the error; a request that fails none becomes a
work item that carries what it says. -/
theorem ofRequest_decided (r : WorkRequest) :
    (∃ before c after, Check.inOrder = before ++ c :: after ∧ (∀ d ∈ before, ¬ d.Fails r) ∧ c.Fails r ∧
      ofRequest r = .error (.validation (c.message r))) ∨
    (∀ c : Check, ¬ c.Fails r) ∧ ∃ w, ofRequest r = .ok w ∧ Carries r w := by
  refine (tested_ofRequest r).decided.imp_right fun ⟨hpasses, hw⟩ => ⟨fun c => hpasses c ?_, hw⟩
  cases c <;> decide

end WorkItem

end OrderKeeper
