import OrderKeeper.Proofs.Fee.Cap
import OrderKeeper.Proofs.Fee.GasLimit
import OrderKeeper.Proofs.Submission.Knowledge

/-!
# The terms of a submission's broadcasts

Whatever a ledger answers, all transactions that a submission hands to its node say the same at rising prices
(`terms_of_run`): the nonce of its lease, the call of its work item, its chain and its fee format; each is signed for the
keeper of the work item, and its gas limit is made of the gas of a simulation at exactly its own price (`Handed`); and there
are no more of them than the mode and the budget allow (`Terms`).
-/

namespace OrderKeeper

namespace Transaction

/-- The gas price, or the cap on the whole fee. -/
def price (t : Transaction) : Wei :=
  match t.format with
  | .legacy _ gasPrice => gasPrice
  | .dynamic _ feeCap _ => feeCap

/-- The call of a transaction at exactly its price, as its sender has it simulated. -/
def simulation (t : Transaction) (sender : Address) : CallRequest :=
  let request : CallRequest :=
    { from? := some sender, to? := t.recipient, nonce? := some t.nonce, chainId? := t.chainId?, value? := some t.value,
      input? := some t.input }
  match t.format with
  | .legacy _ gasPrice => { request with gasPrice? := some gasPrice }
  | .dynamic _ feeCap tip => { request with feeCap? := some feeCap, tip? := some tip }

end Transaction

namespace Submission

open Nonce (Ticket)

/-- The factor of the gas limits of a submission; one that is no positive finite number counts as one. -/
def Brief.gasMultiplier (b : Brief) : Float :=
  let m := b.item.feeOverrides.gasLimitMultiplier?.getD 1.0
  if m.isFinite && 0.0 < m then m else 1.0

/-- Each transaction costs more than the one before it, unless that one already offers the largest amount. -/
def Climbing (xs : List SignedTransaction) : Prop :=
  ∀ before x y after, xs = before ++ x :: y :: after →
    x.transaction.price < y.transaction.price ∨ x.transaction.price = Wei.top

/-- What is true of a transaction that is handed to the node after a log. -/
structure Handed (b : Brief) (nonce : UInt64) (ss : List Signing) (before : List Event) (x : SignedTransaction) :
    Prop where
  /-- There was one lease, which is live. -/
  leased : leases before = [nonce]
  nonce : x.transaction.nonce = nonce
  recipient : x.transaction.recipient = some b.item.target.contract
  input : x.transaction.input = b.item.payload.performUpkeepCall
  value : x.transaction.value = 0
  chain : x.transaction.chainId? = some b.chainId
  signed : ⟨⟨b.item.target.keeper, b.chainId⟩, x.transaction, .ok x⟩ ∈ ss
  /-- Its gas limit is made of the gas of a simulation at its price. -/
  simulated : ∃ gas, .replied (.estimateGas (x.transaction.simulation b.item.target.keeper)) (.ok gas) ∈ before ∧
    Fee.Scaled gas b.gasMultiplier x.transaction.gasLimit
  tip : ∀ chainId feeCap tip, x.transaction.format = .dynamic chainId feeCap tip → tip ≤ feeCap

/-- A condition on every transaction that a log hands to the node, and on what was seen before it. -/
def Each (P : List Event → SignedTransaction → Prop) (log : List Event) : Prop :=
  ∀ before x after, log = before ++ .called (.send x) :: after → P before x

/-- What is true of all transactions that a submission hands to its node. -/
structure Terms (b : Brief) (nonce : UInt64) (log : List Event) (ss : List Signing) : Prop where
  each : Each (Handed b nonce ss) log
  /-- All are of one fee format. -/
  format : ∀ x ∈ sends log, ∀ y ∈ sends log, x.transaction.isLegacy = y.transaction.isLegacy
  once : b.item.mode.getD b.settings.mode = .simple → (sends log).length ≤ 1
  budget : b.item.mode.getD b.settings.mode = .optimized → (sends log).length ≤ b.settings.maxEscalations.toNat + 1
  /-- Every broadcast of an escalation costs more than the one before it; there are fewer than the counter of broadcasts
  has room for. -/
  rising : b.settings.maxEscalations.toNat + 1 < UInt32.size → Climbing (sends log)

/-! ## Rows of transactions -/

section Rows

variable {xs ys : List SignedTransaction} {P Q : List Event → SignedTransaction → Prop} {log log' seen : List Event}

theorem climbing_of_append (h : Climbing (xs ++ ys)) : Climbing xs := by
  intro before x y after hxs
  refine h before x y (after ++ ys) ?_
  rw [hxs]
  simp

theorem climbing_concat {y : SignedTransaction} (h : Climbing xs) (hy : ∀ x, xs.getLast? = some x →
    x.transaction.price < y.transaction.price ∨ x.transaction.price = Wei.top) : Climbing (xs ++ [y]) := by
  intro before x z after hxs
  rcases List.eq_nil_or_concat after with rfl | ⟨after, w, rfl⟩
  · have hsplit : xs ++ [y] = (before ++ [x]) ++ [z] := by rw [hxs]; simp
    obtain ⟨rfl, hyz⟩ := List.append_inj' hsplit rfl
    cases hyz
    exact hy x List.getLast?_concat
  · have hsplit : xs ++ [y] = (before ++ x :: z :: after) ++ [w] := by rw [hxs]; simp
    obtain ⟨rfl, -⟩ := List.append_inj' hsplit rfl
    exact h before x z after rfl

theorem Each.mono (h : Each P log) (hPQ : ∀ before x, P before x → Q before x) : Each Q log :=
  fun before x after hlog => hPQ before x (h before x after hlog)

theorem each_of_append (h : Each P (log ++ seen)) : Each P log := by
  intro before x after hlog
  refine h before x (after ++ seen) ?_
  rw [hlog]
  simp

/-- What is seen last hands over nothing, or one transaction at once. -/
theorem each_append (h : Each P log) (hseen : ∀ before x after, seen = before ++ .called (.send x) :: after →
    P (log ++ before) x) : Each P (log ++ seen) := by
  intro before x after hlog
  rcases List.append_eq_append_iff.1 hlog with ⟨m, rfl, hm⟩ | ⟨m, rfl, hm⟩
  · exact hseen m x after hm
  · cases m with
    | nil =>
      have hs := hseen [] x after (by simpa using hm.symm)
      simpa using hs
    | cons e m =>
      cases hm
      exact h before x m rfl

theorem mem_sends {x : SignedTransaction} {before after : List Event} (h : log = before ++ .called (.send x) :: after) :
    x ∈ sends log := by
  rw [h, sends_append]
  exact List.mem_append_right _ List.mem_cons_self

theorem called_of_mem_sends {x : SignedTransaction} (hx : x ∈ sends log) : .called (.send x) ∈ log := by
  obtain ⟨e, he, hex⟩ := List.mem_filterMap.1 hx
  unfold Event.sent? at hex
  split at hex
  · cases hex
    exact he
  · cases hex

end Rows

/-! ## The transaction of a plan -/

namespace Plan

theorem isLegacy_transaction (p : Plan) (offer : Offer) : (p.transaction offer).isLegacy = offer.legacy := by
  cases h : offer.legacy <;> simp [transaction, Transaction.isLegacy, h]

theorem price_transaction (p : Plan) (offer : Offer) : (p.transaction offer).price = offer.feeCap := by
  cases h : offer.legacy <;> simp [transaction, Transaction.price, h]

theorem chainId?_transaction (p : Plan) (offer : Offer) : (p.transaction offer).chainId? = some p.chain.chainId := by
  cases h : offer.legacy <;> simp [transaction, Transaction.chainId?, h]

/-- What is simulated for an offer is the transaction at that offer. -/
theorem simulation_transaction (p : Plan) (offer : Offer) :
    (p.transaction offer).simulation p.keeper = p.subject.at offer.tip offer.feeCap offer.legacy := by
  cases h : offer.legacy <;>
    simp [transaction, Transaction.simulation, Transaction.chainId?, Fee.Subject.at, request_subject, request, h]

end Plan

theorem Brief.gasMultiplier_plan (b : Brief) (n : UInt64) : (b.plan n).subject.gasMultiplier = b.gasMultiplier :=
  apply_ite Fee.Subject.gasMultiplier _ _ _

namespace Station

variable {b : Brief} {log seen : List Event} {ss ss' : List Signing} {s : Station} {n : UInt64} {offer : Offer}

/-! ## Leases -/

/-- The nonce of the submission's lease. -/
def nonce? : Station → Option UInt64
  | outset | cleared | ended _ => none
  | leased n | based n _ | quoting n .. | requoting n _ | signing n .. | sending n .. | watching n _ | pausing n ..
  | looking n .. => some n

/-- Before a lease there is none, and then there is one. -/
theorem leases_of_visits (h : Visits b log ss s) (ho : ∀ r, s ≠ ended r) : leases log = s.nonce?.toList := by
  refine visits_induction (P := fun log _ s => leases log = s.nonce?.toList) rfl ?_ h ho
  intro log ss s q a s' seen hl hP ht
  rw [leases_append, hl]
  cases hP with
  | lease => cases ht <;> rfl
  | _ => rw [ht.unleased rfl, List.append_nil]; rfl

/-! ## Prices -/

/-- An offer has been simulated, and its tip is within its cap. -/
structure Offered (b : Brief) (n : UInt64) (log : List Event) (offer : Offer) : Prop where
  simulated : ∃ gas,
    .replied (.estimateGas ((b.plan n).subject.at offer.tip offer.feeCap offer.legacy)) (.ok gas) ∈ log ∧
      Fee.Scaled gas b.gasMultiplier offer.gasLimit
  tip : offer.legacy = false → offer.tip ≤ offer.feeCap

/-- What has been broadcast is of the format of an offer, and the last of it has its cap. -/
structure Follows (log : List Event) (offer : Offer) : Prop where
  format : ∀ x ∈ sends log, x.transaction.isLegacy = offer.legacy
  price : ∀ x, (sends log).getLast? = some x → x.transaction.price = offer.feeCap

/-- An offer raises that of the round before, if it is one of a round. -/
structure Raises (log : List Event) (round : Option Round) (offer : Offer) : Prop where
  follows : ∀ r, round = some r → Follows log r.last.offer
  feeCap : ∀ r, round = some r → offer.feeCap = r.feeCap
  legacy : ∀ r, round = some r → offer.legacy = r.last.offer.legacy

/-- What a station says of prices and signatures. -/
def Priced (b : Brief) (log : List Event) (ss : List Signing) : Station → Prop
  | quoting _ tip feeCap legacy => legacy = false → tip ≤ feeCap
  | requoting _ r => Follows log r.last.offer
  | signing n offer round => Offered b n log offer ∧ Raises log round offer
  | sending n offer round x => Offered b n log offer ∧ Raises log round offer ∧
      x.transaction = (b.plan n).transaction offer ∧ ⟨(b.plan n).signing, (b.plan n).transaction offer, .ok x⟩ ∈ ss
  | pausing _ offer .. | looking _ offer .. => Follows log offer
  | outset | cleared | leased _ | based .. | watching .. | ended _ => True

/-- Outside of an escalation, there is nothing to raise. -/
theorem raises_none : Raises log none offer := by
  constructor
  · intro r hr
    cases hr
  · intro r hr
    cases hr
  · intro r hr
    cases hr

theorem Follows.append (h : Follows log offer) (hs : Unsent seen) : Follows (log ++ seen) offer := by
  constructor
  · rw [hs.sends_append]; exact h.format
  · rw [hs.sends_append]; exact h.price

theorem Raises.append {round : Option Round} (h : Raises log round offer) (hs : Unsent seen) :
    Raises (log ++ seen) round offer := by
  constructor
  · intro r hr
    exact (h.follows r hr).append hs
  · exact h.feeCap
  · exact h.legacy

theorem Offered.append (h : Offered b n log offer) : Offered b n (log ++ seen) offer := by
  obtain ⟨⟨gas, hg, hl⟩, ht⟩ := h
  exact ⟨⟨gas, List.mem_append_left _ hg, hl⟩, ht⟩

/-- A simulation that has just been answered. -/
theorem offered_of_estimate {tip feeCap : Wei} {legacy : Bool} {gas : UInt64} {multiplier : Float} {attempt : UInt32}
    (ht : legacy = false → tip ≤ feeCap) :
    Offered b n (log ++ exchange (.estimateGas ((b.plan n).subject.at tip feeCap legacy)) (.ok gas))
      ⟨tip, feeCap, Fee.scaledGas gas (b.plan n).subject.gasMultiplier, multiplier, attempt, legacy⟩ := by
  constructor
  · refine ⟨gas, ?_, ?_⟩
    · simp [exchange]
    · rw [Brief.gasMultiplier_plan]
      exact Fee.scaled_scaledGas ..
  · exact ht

/-- The tip of a round is within its cap. -/
theorem tip_le_feeCap (r : Round) : r.tip ≤ r.feeCap := by
  rw [BitVec.le_def]
  unfold Round.tip
  split <;> omega

theorem priced_of_passes {q : Question} {a : q.Answer} {s' : Station} (hk : Knows b log s) (hp : Priced b log ss s)
    (hP : Passes b s q a s') (ht : Tells q a seen) : Priced b (log ++ seen) (ss ++ signed q a) s' := by
  cases hP with
  | check | lease | baseFee | sendOnce => trivial
  | plainFee => exact fun _ => Wei.le_satAdd _ _
  | gasPrice =>
    intro hlegacy
    cases hlegacy
  | priorityFee => exact fun _ => Wei.le_satAdd _ _
  | quoteOnce hm =>
    cases ht
    exact ⟨offered_of_estimate hp, raises_none⟩
  | quoteFirst hm =>
    have hnil : sends (log ++ seen) = [] := (ht.unsent rfl).sends_append.trans hk.1
    constructor
    · simp [hnil]
    · simp [hnil]
  | requote =>
    have hf := Follows.append hp (ht.unsent rfl)
    cases ht
    refine ⟨offered_of_estimate fun _ => tip_le_feeCap _, ⟨?_, ?_, ?_⟩⟩
    · rintro r ⟨⟩
      exact hf
    · rintro r ⟨⟩
      rfl
    · rintro r ⟨⟩
      rfl
  | sign =>
    have hs : Unsent seen := ht.unsent rfl
    cases ht with
    | sign _ hx =>
      refine ⟨hp.1.append, hp.2.append hs, hx _ rfl, ?_⟩
      simp [signed]
  | send =>
    cases ht
    obtain ⟨-, hr, hx, -⟩ := hp
    have hf := hr.follows _ rfl
    constructor
    · intro y hy
      rw [sends_append, sends_exchange_send, List.mem_append, List.mem_singleton] at hy
      rcases hy with hy | rfl
      · rw [hf.format y hy, hr.legacy _ rfl]
      · rw [hx, Plan.isLegacy_transaction]
    · intro y hy
      rw [sends_append, sends_exchange_send, List.getLast?_concat] at hy
      cases hy
      rw [hx, Plan.price_transaction]
  | pause => exact hp.append (ht.unsent rfl)
  | look => exact hp.append (ht.unsent rfl)
  | escalate => exact Follows.append hp (ht.unsent rfl)

theorem priced_of_visits (h : Visits b log ss s) (ho : ∀ r, s ≠ ended r) : Priced b log ss s := by
  have hboth : Knows b log s ∧ Priced b log ss s := by
    refine visits_induction (P := fun log ss s => Knows b log s ∧ Priced b log ss s) ⟨⟨rfl, rfl⟩, trivial⟩ ?_ h ho
    intro log ss s q a s' seen hb hP ht
    exact ⟨knows_of_passes hb.1 hP ht, priced_of_passes hb.1 hb.2 hP ht⟩
  exact hboth.2

/-! ## Terms -/

theorem handed_of_priced {round : Option Round} {x : SignedTransaction} (hp : Priced b log ss (sending n offer round x))
    (hl : leases log = [n]) : Handed b n ss log x := by
  obtain ⟨⟨⟨gas, hgas, hlimit⟩, htip⟩, -, hx, hsigned⟩ := hp
  have hkeeper : (b.plan n).keeper = b.item.target.keeper := rfl
  have hchain : (b.plan n).chain.chainId = b.chainId := b.chainId_chain
  constructor
  case leased => exact hl
  case nonce => rw [hx]; rfl
  case recipient => rw [hx]; rfl
  case input => rw [hx]; rfl
  case value => rw [hx]; rfl
  case chain => rw [hx, Plan.chainId?_transaction, hchain]
  case signed => rwa [hx, ← hchain]
  case simulated => exact ⟨gas, by rwa [hx, ← hkeeper, Plan.simulation_transaction], by rw [hx]; exact hlimit⟩
  case tip =>
    intro chainId feeCap tip hformat
    rw [hx] at hformat
    cases hlegacy : offer.legacy with
    | true => simp [Plan.transaction, hlegacy] at hformat
    | false =>
      simp only [Plan.transaction, hlegacy, Bool.false_eq_true, if_false, FeeFormat.dynamic.injEq] at hformat
      obtain ⟨-, rfl, rfl⟩ := hformat
      exact htip hlegacy

end Station

section Terms

variable {b : Brief} {log seen : List Event} {ss ss' : List Signing} {n : UInt64} {x : SignedTransaction}

theorem Handed.mono (h : Handed b n ss log x) (hss : ss ⊆ ss') : Handed b n ss' log x :=
  { h with signed := hss h.signed }

/-- Without a broadcast, there is nothing to say. -/
theorem terms_of_unsent (h : sends log = []) : Terms b n log ss := by
  constructor
  case each =>
    intro before x after hlog
    have hx := mem_sends hlog
    rw [h] at hx
    cases hx
  case format => simp [h]
  case once => simp [h]
  case budget => simp [h]
  case rising =>
    intro _ before x y after hxs
    simp [h] at hxs

theorem Terms.unsent (h : Terms b n log ss) (hseen : sends seen = []) (hss : ss ⊆ ss') :
    Terms b n (log ++ seen) ss' := by
  have hsends : sends (log ++ seen) = sends log := by simp [hseen]
  constructor
  case each =>
    refine each_append (h.each.mono fun before x hx => hx.mono hss) fun before x after hs => ?_
    have hx := mem_sends hs
    rw [hseen] at hx
    cases hx
  case format => rw [hsends]; exact h.format
  case once => rw [hsends]; exact h.once
  case budget => rw [hsends]; exact h.budget
  case rising => rw [hsends]; exact h.rising

theorem Terms.send (h : Terms b n log ss) (a : Except Fault Hash) (hx : Handed b n ss log x)
    (hformat : ∀ y ∈ sends log, y.transaction.isLegacy = x.transaction.isLegacy)
    (honce : b.mode = .simple → sends log = [])
    (hbudget : b.mode = .optimized → (sends log).length ≤ b.settings.maxEscalations.toNat)
    (hrising : b.settings.maxEscalations.toNat + 1 < UInt32.size → ∀ y, (sends log).getLast? = some y →
      y.transaction.price < x.transaction.price ∨ y.transaction.price = Wei.top) :
    Terms b n (log ++ exchange (.send x) a) ss := by
  have hsends : sends (log ++ exchange (.send x) a) = sends log ++ [x] := by
    rw [sends_append, sends_exchange_send]
  constructor
  case each =>
    refine each_append h.each fun before y after hs => ?_
    cases before with
    | nil =>
      cases hs
      rwa [List.append_nil]
    | cons e before =>
      -- the answer is no call
      injection hs with _ hs
      have hm : Event.called (.send y) ∈ [Event.replied (.send x) a] := by rw [hs]; simp
      simp at hm
  case format =>
    have hall (y : SignedTransaction) (hy : y ∈ sends log ++ [x]) :
        y.transaction.isLegacy = x.transaction.isLegacy := by
      rcases List.mem_append.1 hy with hy | hy
      · exact hformat y hy
      · rw [List.mem_singleton.1 hy]
    intro y hy z hz
    rw [hsends] at hy hz
    rw [hall y hy, hall z hz]
  case once =>
    intro hm
    simp [hsends, honce hm]
  case budget =>
    intro hm
    have hle := hbudget hm
    rw [hsends, List.length_append, List.length_singleton]
    omega
  case rising =>
    intro hsize
    rw [hsends]
    exact climbing_concat (h.rising hsize) (hrising hsize)

/-- A broadcast at a station keeps the terms. -/
theorem Terms.of_priced {offer : Offer} {round : Option Round} (h : Terms b n log ss) (a : Except Fault Hash)
    (hk : Station.Knows b log (.sending n offer round x)) (hp : Station.Priced b log ss (.sending n offer round x))
    (hl : leases log = [n]) : Terms b n (log ++ exchange (.send x) a) ss := by
  have hx := Station.handed_of_priced hp hl
  obtain ⟨-, hraises, htx, -⟩ := hp
  cases round with
  | none =>
    obtain ⟨hm, hnil, -⟩ := hk
    refine h.send a hx ?_ (fun _ => hnil) ?_ ?_
    · simp [hnil]
    · simp [hnil]
    · simp [hnil]
  | some r =>
    have hk : r.Due b log := hk
    have hf := hraises.follows r rfl
    refine h.send a hx ?_ ?_ ?_ ?_
    · intro y hy
      rw [hf.format y hy, htx, Plan.isLegacy_transaction, hraises.legacy r rfl]
    · intro hm
      rw [hk.mode] at hm
      cases hm
    · intro _
      have hb := hk.budget
      omega
    · intro hsize y hy
      have hpos : 0 < (sends log).length := List.length_pos_of_mem (List.mem_of_getLast? hy)
      have hattempt : r.attempt.toNat = (sends log).length + 1 := by
        have hb := hk.budget
        rw [hk.attempt, UInt32.toNat_ofNat_of_lt' (by omega)]
      rw [hf.price y hy, htx, Plan.price_transaction, hraises.feeCap r rfl]
      exact Fee.lt_escalatedCap _ (by omega)

/-- What is seen of an answered question keeps the terms. -/
theorem terms_of_goes {s : Station} {q : Question} {e : KeeperError} {f : q.Answer → Station} {a : q.Answer}
    (hv : Visits b log ss s) (hG : Station.Goes b s q e f) (ht : Tells q a seen)
    (h : ∃ n, (leases log = [] ∨ leases log = [n]) ∧ Terms b n log ss) :
    ∃ n, (leases (log ++ seen) = [] ∨ leases (log ++ seen) = [n]) ∧ Terms b n (log ++ seen) (ss ++ signed q a) := by
  have ho := Station.not_over_of_goes hG
  have hk := Station.knows_of_visits hv ho
  have hp := Station.priced_of_visits hv ho
  have hl := Station.leases_of_visits hv ho
  obtain ⟨n, hn, hT⟩ := h
  have hss (ss' : List Signing) : ss ⊆ ss ++ ss' := fun _ hx => List.mem_append_left _ hx
  cases hG with
  | lease =>
    have hnil : sends (log ++ seen) = [] := (ht.unsent rfl).sends_append.trans hk.1
    have hnone : leases log = [] := hl
    rw [leases_append, hnone]
    cases ht with
    | follow m | sync m => exact ⟨m, .inr rfl, terms_of_unsent hnil⟩
    | refuse f => exact ⟨n, .inl rfl, terms_of_unsent hnil⟩
  | @send m offer round x =>
    cases ht
    have hm : leases log = [m] := hl
    have hnm : n = m := by
      rw [hm] at hn
      simpa [eq_comm] using hn
    subst hnm
    refine ⟨n, .inr ?_, ?_⟩
    · rw [leases_append, hm]
      rfl
    · rw [signed, List.append_nil]
      exact hT.of_priced a hk hp hm
  | _ =>
    refine ⟨n, ?_, hT.unsent (ht.unsent rfl).sends (hss _)⟩
    rwa [leases_append, ht.unleased rfl, List.append_nil]

theorem terms_of_visits {s : Station} (h : Visits b log ss s) :
    ∃ n, (leases log = [] ∨ leases log = [n]) ∧ Terms b n log ss := by
  induction h with
  | start => exact ⟨0, .inl rfl, terms_of_unsent rfl⟩
  | answer hv hG ht ih => exact terms_of_goes hv hG ht ih

/-- What is true of a log is true of a beginning of it. -/
theorem Terms.of_append (h : Terms b n (log ++ seen) ss) : Terms b n log ss := by
  obtain ⟨heach, hformat, honce, hbudget, hrising⟩ := h
  rw [sends_append] at hformat honce hbudget hrising
  rw [List.length_append] at honce hbudget
  constructor
  case each => exact each_of_append heach
  case format =>
    intro x hx y hy
    exact hformat x (List.mem_append_left _ hx) y (List.mem_append_left _ hy)
  case once =>
    intro hm
    have hle := honce hm
    omega
  case budget =>
    intro hm
    have hle := hbudget hm
    omega
  case rising => exact fun hsize => climbing_of_append (hrising hsize)

end Terms

section Floor

variable {f : Floor} {t : Ticket} {task : Task} {ms : List Floor.Move}

/-- **Whatever a ledger answers, and wherever a submission is cancelled or given up, what it hands to its node keeps the
terms of its work item.** -/
theorem terms_of_run (h : Floor.run? {} ms = some f) (ht : f.tasks.get? t = some task) :
    ∃ nonce, Terms task.brief nonce task.log (Floor.signings {} t ms) := by
  obtain ⟨log, rest, s, hv, hlog⟩ := exists_visits_of_narrated (narrated_of_run h ht)
  obtain ⟨n, -, hT⟩ := terms_of_visits hv
  refine ⟨n, ?_⟩
  rcases hlog with hlog | hlog
  · rw [hlog]
    exact hT.of_append
  · rw [hlog]
    exact hT.of_append.unsent rfl fun _ hx => hx

/-- Both broadcasts of an escalation are signed, and the second costs more for the same gas. -/
theorem terms_of_escalation :
    ∃ f task nonce, Floor.run? {} Sample.escalation = some f ∧ f.tasks.get? 0 = some task ∧
      (sends task.log).map (fun x => (x.transaction.price, x.transaction.gasLimit)) = [(3, 21000), (4, 21000)] ∧
      (Floor.signings {} 0 Sample.escalation).length = 2 ∧
      Terms task.brief nonce task.log (Floor.signings {} 0 Sample.escalation) := by
  have h : ((Floor.run? {} Sample.escalation).bind fun f => (f.tasks.get? 0).map fun task =>
      (sends task.log).map fun x => (x.transaction.price, x.transaction.gasLimit)) = some [(3, 21000), (4, 21000)] := by
    decide +kernel
  have hsigned : (Floor.signings {} 0 Sample.escalation).length = 2 := by decide +kernel
  obtain ⟨f, hf, h⟩ := Option.bind_eq_some_iff.1 h
  obtain ⟨task, ht, hprices⟩ := Option.map_eq_some_iff.1 h
  obtain ⟨nonce, hT⟩ := terms_of_run hf ht
  exact ⟨f, task, nonce, hf, ht, hprices, hsigned, hT⟩

end Floor

end Submission

end OrderKeeper
