import OrderKeeper.Proofs.Dialogue.Stops
import OrderKeeper.Proofs.Submission.Journey

/-!
# Stations of a submission

Everything that a submission knows at one of its questions is its `Station`. `Station.Goes` has one row for each kind
of station: which question is put there, what a cancellation results in, and to which station each answer leads. The
course of every submission goes by these rows (`minds_course`); what is true of all stations is proved by cases on them
and by no other look at the course.
-/

namespace OrderKeeper.Submission

open Dialogue

namespace Brief

/-- The chain of the submission. -/
def chain (b : Brief) : ChainInfo :=
  match b.chainOf b.item.target.network with
  | .ok chain => chain
  | .error _ => ⟨b.item.target.network, 0⟩

theorem chainId_chain (b : Brief) : b.chain.chainId = b.chainId := by
  rw [chain, chainId]
  cases b.chainOf b.item.target.network <;> rfl

/-- The transaction of the submission under a nonce, all but its price. -/
def plan (b : Brief) (nonce : UInt64) : Plan := .ofItem b.chain b.item nonce

end Brief

namespace Plan

theorem network_subject (p : Plan) : p.subject.network = p.chain.network := by
  unfold subject Fee.Subject.withGasMultiplier
  split <;> rfl

theorem request_subject (p : Plan) : p.subject.request = p.request := by
  unfold subject Fee.Subject.withGasMultiplier
  split <;> rfl

end Plan

/-- A round of an escalation. -/
structure Round where
  /-- The number of its broadcast. -/
  attempt : UInt32
  /-- How many broadcasts may follow it. -/
  left : Nat
  /-- The hashes of the broadcasts before it, newest first. -/
  hashes : List Hash
  /-- Where the escalation stood before it. -/
  last : Progress

namespace Round

/-- The first round, from the first price. -/
def first (settings : Settings) (offer : Offer) : Round := ⟨1, settings.maxEscalations.toNat, [], ⟨offer, 0⟩⟩

/-- The hashes with that of its own broadcast. -/
def known (r : Round) (hash : Hash) : List Hash := Escalation.addHash hash r.hashes

/-- The round after a broadcast that nothing has settled. -/
def next (r : Round) (left : Nat) (offer : Offer) (hash : Hash) : Round :=
  ⟨r.attempt + 1, left, r.known hash, ⟨offer, r.attempt⟩⟩

/-- The fee cap of its broadcast. -/
def feeCap (r : Round) : Wei := Fee.escalatedCap r.last.offer.feeCap r.attempt

/-- The tip of its broadcast, which the cap may lower. -/
def tip (r : Round) : Wei := if r.last.offer.tip.toNat ≤ r.feeCap.toNat then r.last.offer.tip else r.feeCap

/-- Its offer, once its gas limit is known. -/
def offer (r : Round) (gasLimit : UInt64) : Offer :=
  ⟨r.tip, r.feeCap, gasLimit, Fee.attemptMultiplier r.attempt, r.attempt, r.last.offer.legacy⟩

end Round

/-- What a submission knows at a question. -/
inductive Station where
  | outset
  /-- There is something to do. -/
  | cleared
  | leased (nonce : UInt64)
  /-- The base fee, if there is one, is known, and the network's suggestion is asked for. -/
  | based (nonce : UInt64) (base : Option Wei)
  /-- The first price is known but for its gas limit. -/
  | quoting (nonce : UInt64) (tip feeCap : Wei) (legacy : Bool)
  /-- The price of a round is known but for its gas limit. -/
  | requoting (nonce : UInt64) (round : Round)
  /-- A transaction is signed, outside of an escalation or in a round of one. -/
  | signing (nonce : UInt64) (offer : Offer) (round : Option Round)
  | sending (nonce : UInt64) (offer : Offer) (round : Option Round) (signed : SignedTransaction)
  | watching (nonce : UInt64) (sent : Broadcast)
  | pausing (nonce : UInt64) (offer : Offer) (round : Round) (hash : Hash)
  /-- A hash is looked up, and then others, after the broadcast of `hash`. -/
  | looking (nonce : UInt64) (offer : Offer) (round : Round) (hash : Hash) (looked : Hash) (others : List Hash)
  | ended (result : Except KeeperError Outcome)

namespace Station

variable (b : Brief)

/-! ## Where answers lead -/

/-- Without success. -/
def failed (e : KeeperError) : Station := ended (.error e)

/-- Without a price. -/
def unpriced (e : PricingFailure) : Station := failed (.ofPricingFailure b.item.target.contract e)

/-- A wait has ended without success. -/
def unsettled (e : WaitFailure) : Station := failed (.ofWaitFailure b.item.target.contract e)

/-- From the first price on. -/
def priced (nonce : UInt64) (offer : Offer) : Station :=
  match b.mode with
  | .simple => signing nonce offer none
  | .optimized => requoting nonce (.first b.settings offer)

/-- Through the rest of the hashes to look up, and then on to the next round, if there is one. -/
def afterLook (nonce : UInt64) (offer : Offer) (round : Round) (hash : Hash) : List Hash → Station
  | looked :: others => looking nonce offer round hash looked others
  | [] =>
    match round.left with
    | 0 => unsettled b (.budgetExhausted b.settings.maxEscalations (some hash))
    | left + 1 => requoting nonce (round.next left offer hash)

/-- From the upkeep check. -/
def onCheck (a : Except Fault Bytes) : Station :=
  match Upkeep.judge b.item.target.contract b.chain.chainId a with
  | .error f => failed (.ofUpkeepFault b.item.target.contract f)
  | .ok false => ended (.ok .notExecutable)
  | .ok true => cleared

/-- From a request for a lease. -/
def onLease : Except Fault UInt64 → Station
  | .error f => failed (.ofLeaseFault b.item.target.keeper f)
  | .ok nonce => leased nonce

/-- With the base fee, if there is one. -/
def onBase (nonce : UInt64) (base : Option Wei) : Station :=
  if b.isAdaptive then based nonce base
  else
    match base with
    | none => unpriced b (.noBaseFee b.chain.network)
    | some base => quoting nonce Fee.minTip (Fee.minTip.satAdd (base.satMul 2)) false

/-- From what the network says of fees. -/
def onFeeData {α : Type} (f : α → Station) : Except Fault α → Station
  | .error e => unpriced b (.feeData e)
  | .ok x => f x

/-- From a simulation, which gives a gas limit. -/
def onGas (nonce : UInt64) (f : UInt64 → Station) : Except Fault UInt64 → Station
  | .error e => unpriced b (.gasEstimation e)
  | .ok gas => f (Fee.scaledGas gas (b.plan nonce).subject.gasMultiplier)

/-- From the signer. -/
def onSignature (f : SignedTransaction → Station) : Except Fault SignedTransaction → Station
  | .error e => failed (.ofSigningFault e)
  | .ok x => f x

/-- The number of a broadcast. -/
def attemptOf : Option Round → UInt32
  | none => 1
  | some r => r.attempt

/-- From a broadcast. -/
def onSend (nonce : UInt64) (offer : Offer) (round : Option Round) (x : SignedTransaction) (a : Except Fault Hash) :
    Station :=
  match Broadcast.judge x.hash (attemptOf round) a with
  | .error e => failed e
  | .ok sent =>
    match round with
    | none => watching nonce sent
    | some r => pausing nonce offer r sent.hash

/-- From a watch. -/
def onWatch (nonce : UInt64) : Except WaitFailure Receipt → Station
  | .error e => unsettled b e
  | .ok r => ended (.ok (.ofReceipt r nonce 1))

/-- From a look-up in a round. -/
def onLook (nonce : UInt64) (offer : Offer) (round : Round) (hash looked : Hash) (others : List Hash)
    (a : Except Fault (Option Receipt)) : Station :=
  match Receipt.judge looked a with
  | .error e => unsettled b e
  | .ok (some r) => ended (.ok (.ofReceipt r nonce round.attempt))
  | .ok none => afterLook b nonce offer round hash others

/-! ## Questions -/

/-- What a cancellation of a broadcast or of its price results in. -/
def stopOf : Option Round → KeeperError
  | none => .cancelled "broadcasting" none
  | some r => .cancelled "waiting for receipt" r.hashes.head?

/-- The question of a station, what a cancellation there results in, and where the answers lead. -/
inductive Goes : Station → (q : Question) → KeeperError → (q.Answer → Station) → Prop where
  | check : Goes outset (.ledger (.call (Upkeep.request b.item.target.contract b.item.target.keeper b.item.payload)))
      (.cancelled "checking upkeep" none) (onCheck b)
  | lease : Goes cleared (.lease b.item.target.keeper) (.cancelled "leasing nonce" none) (onLease b)
  | baseFee {n} : Goes (leased n) (.ledger .baseFee) (.cancelled "pricing transaction" none) (onFeeData b (onBase b n))
  | gasPrice {n} : Goes (based n none) (.ledger .gasPrice) (.cancelled "pricing transaction" none)
      (onFeeData b fun price => quoting n 0 price true)
  | priorityFee {n base} : Goes (based n (some base)) (.ledger .priorityFee) (.cancelled "pricing transaction" none)
      (onFeeData b fun tip =>
        quoting n tip (tip.satAdd (base.satMul b.item.feeOverrides.baseFeeMultiplier.toNat)) false)
  | quote {n tip feeCap legacy} : Goes (quoting n tip feeCap legacy)
      (.ledger (.estimateGas ((b.plan n).subject.at tip feeCap legacy))) (.cancelled "pricing transaction" none)
      (onGas b n fun gasLimit => priced b n ⟨tip, feeCap, gasLimit, 1.0, 0, legacy⟩)
  | requote {n r} : Goes (requoting n r)
      (.ledger (.estimateGas ((b.plan n).subject.at r.tip r.feeCap r.last.offer.legacy)))
      (.cancelled "waiting for receipt" r.hashes.head?)
      (onGas b n fun gasLimit => signing n (r.offer gasLimit) (some r))
  | sign {n offer round} : Goes (signing n offer round) (.sign (b.plan n).signing ((b.plan n).transaction offer))
      (stopOf round) (onSignature fun x => sending n offer round x)
  | send {n offer round x} : Goes (sending n offer round x) (.ledger (.send x)) (stopOf round) (onSend n offer round x)
  | watch {n sent} : Goes (watching n sent) (.watch ⟨sent.hash, b.settings.times.pollInterval, sent.bound⟩)
      (.cancelled "waiting for receipt" (some sent.hash)) (onWatch b n)
  | pause {n offer r hash} : Goes (pausing n offer r hash) (.pause b.settings.times.escalationWait)
      (.cancelled "waiting for receipt" (some hash)) (fun () => afterLook b n offer r hash (r.known hash))
  | look {n offer r hash looked others} : Goes (looking n offer r hash looked others) (.ledger (.receipt looked))
      (.cancelled "waiting for receipt" (some looked)) (onLook b n offer r hash looked others)

/-- The hash that a cancellation at a station tells of. -/
def hash? : Station → Option Hash
  | requoting _ r | signing _ _ (some r) | sending _ _ (some r) _ => r.hashes.head?
  | watching _ sent => some sent.hash
  | pausing _ _ _ hash => some hash
  | looking _ _ _ _ looked _ => some looked
  | outset | cleared | leased _ | based .. | quoting .. | signing _ _ none | sending _ _ none _ | ended _ => none

/-- Where a submission starts; without its network or the key of its keeper it is over. -/
def start : Station :=
  match b.chainOf b.item.target.network with
  | .error f => failed (.ofChainFault b.item.target.network f)
  | .ok _ =>
    if b.hasKey b.item.target.keeper then outset
    else failed (.validation ("no signing key available for keeper " ++ b.item.target.keeper.display))

/-- What a dialogue does from a station: it puts the question of the station and goes where the answer leads. -/
def care : Care Question Question.Answer KeeperError Station := fun q stop K s =>
  ∃ e f, stop = some e ∧ Goes b s q e f ∧ ∀ a, K a (f a)

/-- The dialogue comes to its end at the station of its result. -/
def IsOver (r : Except KeeperError Outcome) (s : Station) : Prop := s = ended r

variable {b} {s : Station}

theorem care_of_goes {q : Question} {e : KeeperError} {f : q.Answer → Station} {K : q.Answer → Station → Prop}
    (h : Goes b s q e f) (hK : ∀ a, K a (f a)) : care b q (some e) K s :=
  ⟨e, f, rfl, h, hK⟩

/-- A cancellation results in nothing else. -/
theorem stop_of_goes {q : Question} {e : KeeperError} {f : q.Answer → Station} (h : Goes b s q e f) :
    ∃ stage, e = .cancelled stage s.hash? := by
  cases h with
  | @sign _ _ round | @send _ _ round =>
    cases round with
    | none => exact ⟨_, rfl⟩
    | some r => exact ⟨_, rfl⟩
  | _ => exact ⟨_, rfl⟩

/-- A submission that knows its network and has the key of its keeper starts with a question. -/
theorem start_of_known {chain : ChainInfo} (hn : b.chainOf b.item.target.network = .ok chain)
    (hk : b.hasKey b.item.target.keeper = true) : start b = outset := by
  unfold start
  rw [hn, hk]
  rfl

/-! ## The course -/

section Course

variable {n : UInt64}

theorem keeps_offer {stop : KeeperError} {tip feeCap : Wei} {legacy : Bool} {multiplier : Float} {attempt : UInt32}
    {f : UInt64 → Station} {K : Except PricingFailure Offer → Station → Prop}
    (h : Goes b s (.ledger (.estimateGas ((b.plan n).subject.at tip feeCap legacy))) stop (onGas b n f))
    (hE : ∀ e, K (.error e) (unpriced b e))
    (hK : ∀ gasLimit, K (.ok ⟨tip, feeCap, gasLimit, multiplier, attempt, legacy⟩) (f gasLimit)) :
    ((b.plan n).subject.offer tip feeCap legacy multiplier attempt).Keeps (fun c => care b (.ledger c) (some stop))
      K s := by
  rw [Fee.Subject.keeps_offer]
  refine care_of_goes h fun a => ?_
  cases a with
  | error f => exact hE _
  | ok gas => exact hK _

theorem minds_price {K : Except KeeperError Offer → Station → Prop} (hE : ∀ e, K (.error e) (failed e))
    (hK : ∀ offer, K (.ok offer) (priced b n offer)) :
    (price (b.plan n) b.isAdaptive b.item.feeOverrides).Minds (care b) K (leased n) := by
  rw [price, minds_mapResult, minds_guarded, ofLedger, keeps_rephrase]
  cases ha : b.isAdaptive with
  | false =>
    rw [if_neg Bool.false_ne_true, Fee.keeps_initial]
    refine care_of_goes .baseFee fun a => ?_
    cases a with
    | error f => exact hE _
    | ok base =>
      cases base with
      | none =>
        rw [onFeeData, onBase, ha, Plan.network_subject]
        exact hE _
      | some base =>
        rw [onFeeData, onBase, ha]
        exact keeps_offer .quote (fun e => hE _) fun gasLimit => hK _
  | true =>
    rw [if_pos rfl, Fee.keeps_adaptive]
    refine care_of_goes .baseFee fun a => ?_
    cases a with
    | error f => exact hE _
    | ok base =>
      cases base with
      | none =>
        rw [onFeeData, onBase, ha]
        refine care_of_goes .gasPrice fun a => ?_
        cases a with
        | error f => exact hE _
        | ok price => exact keeps_offer .quote (fun e => hE _) fun gasLimit => hK _
      | some base =>
        rw [onFeeData, onBase, ha]
        refine care_of_goes .priorityFee fun a => ?_
        cases a with
        | error f => exact hE _
        | ok tip => exact keeps_offer .quote (fun e => hE _) fun gasLimit => hK _

theorem keeps_broadcast {offer : Offer} (round : Option Round) {K : Except KeeperError Broadcast → Station → Prop}
    (hE : ∀ e, K (.error e) (failed e))
    (hK : ∀ sent, K (.ok sent) (match round with
      | none => watching n sent
      | some r => pausing n offer r sent.hash)) :
    (broadcast (b.plan n) offer (attemptOf round)).Keeps (fun q => care b q (some (stopOf round))) K
      (signing n offer round) := by
  refine care_of_goes .sign fun a => ?_
  cases a with
  | error f => exact hE _
  | ok x =>
    refine care_of_goes .send fun a => ?_
    change K (Broadcast.judge x.hash (attemptOf round) a) (onSend n offer round x a)
    rw [onSend]
    cases Broadcast.judge x.hash (attemptOf round) a with
    | error e => exact hE e
    | ok sent => exact hK sent

theorem minds_simple (hm : b.mode = .simple) :
    (simple (b.plan n) b.settings.times b.item.feeOverrides).Minds (care b) IsOver (leased n) := by
  rw [simple, minds_onOk, ← Brief.isAdaptive_of_simple hm]
  refine minds_price (fun e => rfl) fun offer => ?_
  rw [priced, hm]
  change ((broadcast _ offer 1).guarded _ |>.onOk _).Minds _ _ _
  rw [minds_onOk, minds_guarded]
  refine keeps_broadcast none (fun e => rfl) fun sent => ?_
  refine care_of_goes .watch fun a => ?_
  cases a with
  | error e => rfl
  | ok r => rfl

/-- What comes of the result of an escalation. -/
def Concludes (b : Brief) (n : UInt64) (r : Except (Escalation.Failure KeeperError) Receipt)
    (s : Progress × Station) : Prop :=
  IsOver (match (r, s.1) with
    | (.ok r, s) => .ok (.ofReceipt r n s.attempts)
    | (.error (.send _ e), _) => .error e
    | (.error (.receipt e), _) => .error (.ofWaitFailure b.item.target.contract e)) s.2

/-- How an escalation of the submission is answered. -/
abbrev escalating (b : Brief) (n : UInt64) :
    Care Escalation.Question (Escalation.Question.Answer KeeperError) WaitFailure (Progress × Station) :=
  (care b).through (KeeperError.ofWaitFailure b.item.target.contract) (escalationAnswer (b.plan n) b.settings.times)

theorem minds_lookAll {offer : Offer} {r : Round} {hash : Hash}
    {K : Except WaitFailure (Option Receipt) → Progress × Station → Prop}
    (hE : ∀ e, K (.error e) (⟨offer, r.attempt⟩, unsettled b e))
    (hK : ∀ found : Receipt, K (.ok (some found))
      (⟨offer, r.attempt⟩, ended (.ok (.ofReceipt found n r.attempt))))
    (hN : K (.ok none) (⟨offer, r.attempt⟩, afterLook b n offer r hash [])) (hashes : List Hash) :
    (Escalation.lookAll hashes).Minds (escalating b n) K (⟨offer, r.attempt⟩, afterLook b n offer r hash hashes) := by
  induction hashes with
  | nil => exact hN
  | cons looked others ih =>
    refine care_of_goes .look fun a => ?_
    change Dialogue.Minds (escalating b n) _ K (⟨offer, r.attempt⟩, onLook b n offer r hash looked others a)
    dsimp only
    rw [onLook]
    obtain e | found := Receipt.judge looked a
    · exact hE e
    · cases found with
      | none => exact ih
      | some r => exact hK r

/-- A round as its course has it: a price, a broadcast, and what follows the broadcast. -/
theorem minds_round {r : Round} {K : Except KeeperError Hash → Progress × Station → Prop}
    (hE : ∀ e, K (.error e) (r.last, failed e))
    (hK : ∀ gasLimit hash, K (.ok hash) (⟨r.offer gasLimit, r.attempt⟩, pausing n (r.offer gasLimit) r hash)) :
    escalating b n (.send r.attempt) (some (.cancelled r.hashes.head?)) K (r.last, requoting n r) := by
  change (resend (b.plan n) r.attempt r.last).Keeps (fun q => care b q (some (stopOf (some r)))) _ (requoting n r)
  rw [resend, keeps_bind, ofLedger, keeps_rephrase]
  refine keeps_offer .requote (fun e => hE _) fun gasLimit => ?_
  change ((broadcast (b.plan n) (r.offer gasLimit) (attemptOf (some r))).bind _).Keeps _ _ _
  rw [keeps_bind]
  exact keeps_broadcast (some r) (fun e => hE e) fun sent => hK gasLimit sent.hash

/-- The rounds are careful if what follows a round that settled nothing is. -/
theorem minds_rounds_of_next {left : Nat} {attempt : UInt32} {hashes : List Hash} {last : Progress}
    (h : ∀ offer hash, Dialogue.Minds (escalating b n)
      (match left with
        | 0 => .done (.error (.receipt (.budgetExhausted b.settings.maxEscalations (some hash))))
        | left + 1 => Escalation.rounds b.settings.maxEscalations left (attempt + 1) (Escalation.addHash hash hashes))
      (Concludes b n) (⟨offer, attempt⟩, afterLook b n offer ⟨attempt, left, hashes, last⟩ hash [])) :
    (Escalation.rounds b.settings.maxEscalations left attempt hashes).Minds (escalating b n) (Concludes b n)
      (last, requoting n ⟨attempt, left, hashes, last⟩) := by
  rw [Escalation.rounds, minds_ask]
  refine minds_round (r := ⟨attempt, left, hashes, last⟩) (fun e => ?_) fun gasLimit hash => ?_
  · rfl
  refine care_of_goes .pause fun _ => ?_
  change ((Escalation.lookAll (Escalation.addHash hash hashes)).bind _).Minds _ _ _
  rw [minds_bind]
  exact minds_lookAll (fun e => rfl) (fun found => rfl) (h _ hash) _

theorem minds_rounds (left : Nat) (attempt : UInt32) (hashes : List Hash) (last : Progress) :
    (Escalation.rounds b.settings.maxEscalations left attempt hashes).Minds (escalating b n) (Concludes b n)
      (last, requoting n ⟨attempt, left, hashes, last⟩) := by
  induction left generalizing attempt hashes last with
  | zero => exact minds_rounds_of_next fun offer hash => rfl
  | succ left ih => exact minds_rounds_of_next fun offer hash => ih ..

theorem minds_optimized (hm : b.mode = .optimized) :
    (optimized (b.plan n) b.settings b.item.feeOverrides).Minds (care b) IsOver (leased n) := by
  rw [optimized, minds_onOk, ← Brief.isAdaptive_of_optimized hm]
  refine minds_price (fun e => rfl) fun offer => ?_
  rw [priced, hm]
  change (((Escalation.run b.settings.maxEscalations).interpret _ _ _).mapResult _).Minds _ _ _
  rw [minds_mapResult, minds_interpret]
  exact minds_rounds ..

/-- **The course of every submission goes from station to station.** -/
theorem minds_course (b : Brief) : b.course.Minds (care b) IsOver (start b) := by
  rw [Brief.course, run, start]
  cases hchain : b.chainOf b.item.target.network with
  | error f => rfl
  | ok chain =>
    have hb : b.chain = chain := by rw [Brief.chain, hchain]
    dsimp only
    split
    · rw [onChain, minds_onOk, minds_mapResult, minds_guarded, ofLedger, keeps_rephrase, Upkeep.keeps_check]
      refine care_of_goes .check fun a => ?_
      rw [onCheck, ← hb]
      dsimp only
      cases Upkeep.judge b.item.target.contract b.chain.chainId a with
      | error f => exact rfl
      | ok executable =>
        cases executable with
        | false => exact rfl
        | true =>
          refine care_of_goes .lease fun a => ?_
          cases a with
          | error f => exact rfl
          | ok n =>
            change (match b.mode with
              | .simple => simple (b.plan n) b.settings.times b.item.feeOverrides
              | .optimized => optimized (b.plan n) b.settings b.item.feeOverrides).Minds (care b) IsOver (leased n)
            cases hm : b.mode with
            | simple => exact minds_simple hm
            | optimized => exact minds_optimized hm
    · rfl

end Course

end Station

end OrderKeeper.Submission
