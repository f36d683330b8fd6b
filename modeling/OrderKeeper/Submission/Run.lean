import OrderKeeper.Order.Check
import OrderKeeper.Receipt.Escalation
import OrderKeeper.Receipt.Watch
import OrderKeeper.Signing.Options
import OrderKeeper.Submission.Outcome
import OrderKeeper.Submission.Settings
import OrderKeeper.WorkItem.Basic

/-!
# Carrying out a work item

One submission from the upkeep check to the receipt: the order is checked, a nonce is leased, the transaction is priced,
and it is broadcast and waited for in the way of its mode. Nothing is leased before the check says that there is something
to do, and every broadcast of a submission uses its one nonce.

- `simple`: one price, one broadcast, then a watch of its hash, which has a bound if the broadcast was refused.
- `optimized`: an escalation, each of whose broadcasts has a price of its own.
- `run` is the whole course. What cancels it while it waits says where it was.
-/

namespace OrderKeeper.Submission

/-- What a submission asks for. -/
inductive Question where
  | ledger (call : LedgerCall)
  /-- A nonce of the keeper, which stays leased until the submission is over. -/
  | lease (keeper : Address)
  | sign (options : SigningOptions) (transaction : Transaction)
  | pause (milliseconds : UInt64)
  | watch (watch : Watch)

/-- The answers. -/
abbrev Question.Answer : Question → Type
  | ledger call => Except Fault call.Answer
  | lease _ => Except Fault UInt64
  | sign .. => Except Fault SignedTransaction
  | pause _ => Unit
  | watch _ => Except WaitFailure Receipt

/-- A course of action over these questions; `R` is its result when cancelled. -/
abbrev Talk (R α : Type) := Dialogue Question Question.Answer R α

/-- A dialogue with the ledger as a part of a submission. -/
def ofLedger {R α : Type} (d : Dialogue LedgerCall (fun c => Except Fault c.Answer) R α) : Talk R α :=
  d.rephrase Question.ledger fun _ a => a

/-- Look-ups spent on a hash that the node refused. -/
def refusedBound : UInt32 := 30

/-- The one transaction of a submission, all but its price. -/
structure Plan where
  chain : ChainInfo
  contract : Address
  keeper : Address
  nonce : UInt64
  input : Bytes
  gasMultiplier : Float

namespace Plan

/-- The transaction of a work item under a nonce. -/
def ofItem (chain : ChainInfo) (item : WorkItem) (nonce : UInt64) : Plan where
  chain
  contract := item.target.contract
  keeper := item.target.keeper
  nonce
  input := item.payload.performUpkeepCall
  gasMultiplier := item.feeOverrides.gasLimitMultiplier

/-- The call that is priced. -/
def request (p : Plan) : CallRequest where
  from? := some p.keeper
  to? := some p.contract
  nonce? := some p.nonce
  chainId? := some p.chain.chainId
  value? := some 0
  input? := some p.input

/-- What is priced. -/
def subject (p : Plan) : Fee.Subject := Fee.Subject.withGasMultiplier ⟨p.chain.network, p.request, 1.0⟩ p.gasMultiplier

/-- The transaction at a price. -/
def transaction (p : Plan) (offer : Offer) : Transaction where
  format :=
    if offer.legacy then .legacy (some p.chain.chainId) offer.feeCap
    else .dynamic p.chain.chainId offer.feeCap offer.tip
  nonce := p.nonce
  gasLimit := offer.gasLimit
  recipient := some p.contract
  value := 0
  input := p.input

/-- Who signs it. -/
def signing (p : Plan) : SigningOptions := ⟨p.keeper, p.chain.chainId⟩

end Plan

/-- What became of a broadcast. -/
inductive Broadcast where
  | accepted (hash : Hash)
  /-- The node refused it, but may hold it or another transaction of its nonce. -/
  | possiblySent (hash : Hash)
  deriving DecidableEq, Repr

/-- The hash to look for. -/
def Broadcast.hash : Broadcast → Hash
  | accepted h | possiblySent h => h

/-- The bound on the watch of a broadcast that is never made again. -/
def Broadcast.bound : Broadcast → Option UInt32
  | accepted _ => none
  | possiblySent _ => some refusedBound

/-- What a node's answer says of a broadcast whose own hash is known. -/
def Broadcast.judge (own : Hash) (attempt : UInt32) : Except Fault Hash → Except KeeperError Broadcast
  | .ok hash => .ok (.accepted hash)
  | .error f => if f.isPossiblySent then .ok (.possiblySent own) else .error (.ofSendFault attempt f)

/-- Signs the transaction at a price and broadcasts it. -/
def broadcast (p : Plan) (offer : Offer) (attempt : UInt32) : Talk Empty (Except KeeperError Broadcast) := do
  match ← Dialogue.question (Question.sign p.signing (p.transaction offer)) with
  | .error f => return .error (.ofSigningFault f)
  | .ok signed => return Broadcast.judge signed.hash attempt (← Dialogue.question (Question.ledger (.send signed)))

/-- The first price of a work item. -/
def price (p : Plan) (adaptive : Bool) (overrides : FeeOverrides) : Talk KeeperError (Except KeeperError Offer) :=
  let offer := if adaptive then Fee.adaptive p.subject overrides else Fee.initial p.subject
  ((ofLedger offer).guarded (.cancelled "pricing transaction" none)).mapResult
    fun r => r.mapError (KeeperError.ofPricingFailure p.contract)

/-- One broadcast at the network's price, then the watch for its receipt. -/
def simple (p : Plan) (times : PollTimes) (overrides : FeeOverrides) : Talk KeeperError (Except KeeperError Outcome) :=
  (price p true overrides).onOk fun offer =>
  ((broadcast p offer 1).guarded (.cancelled "broadcasting" none)).onOk fun sent =>
    .ask (.watch ⟨sent.hash, times.pollInterval, sent.bound⟩) (some (.cancelled "waiting for receipt" (some sent.hash)))
      fun
      | .ok r => .done (.ok (.ofReceipt r p.nonce 1))
      | .error e => .done (.error (.ofWaitFailure p.contract e))

/-- Where an escalation stands: its last offer and the number of its last broadcast. -/
structure Progress where
  offer : Offer
  attempts : UInt32

/-- Makes a broadcast of an escalation at a price of its own. -/
def resend (p : Plan) (attempt : UInt32) (last : Progress) :
    Talk Empty (Except KeeperError Hash × Progress) :=
  (ofLedger (Fee.escalate p.subject last.offer attempt)).bind fun
    | .error e => .done (.error (.ofPricingFailure p.contract e), last)
    | .ok offer => (broadcast p offer attempt).bind fun
      | .error e => .done (.error e, last)
      | .ok sent => .done (.ok sent.hash, ⟨offer, attempt⟩)

/-- How a submission does what an escalation asks for. -/
def escalationAnswer (p : Plan) (times : PollTimes) :
    (q : Escalation.Question) → Progress → Talk Empty (q.Answer KeeperError × Progress)
  | .send attempt, s => resend p attempt s
  | .pause, s => (Dialogue.question (Question.pause times.escalationWait)).mapResult fun () => ((), s)
  | .lookup hash, s => (Dialogue.question (Question.ledger (.receipt hash))).mapResult fun a => (a, s)

/-- Broadcasts at rising prices under one nonce. -/
def optimized (p : Plan) (settings : Settings) (overrides : FeeOverrides) :
    Talk KeeperError (Except KeeperError Outcome) :=
  (price p overrides.isAdaptive overrides).onOk fun offer =>
    ((Escalation.run settings.maxEscalations).interpret (KeeperError.ofWaitFailure p.contract)
      (escalationAnswer p settings.times) (Progress.mk offer 0)).mapResult fun
      | (.ok r, s) => .ok (.ofReceipt r p.nonce s.attempts)
      | (.error (.send _ e), _) => .error e
      | (.error (.receipt e), _) => .error (.ofWaitFailure p.contract e)

/-- The mode of a work item. -/
def modeOf (settings : Settings) (item : WorkItem) : Mode := item.mode.getD settings.mode

/-- A work item on its chain. -/
def onChain (settings : Settings) (chain : ChainInfo) (item : WorkItem) : Talk KeeperError (Except KeeperError Outcome) :=
  let target := item.target
  let check := (ofLedger (Upkeep.check chain.chainId target.contract target.keeper item.payload)).guarded
    (.cancelled "checking upkeep" none)
  (check.mapResult fun r => r.mapError (KeeperError.ofUpkeepFault target.contract)).onOk fun executable =>
    if !executable then .done (.ok .notExecutable)
    else
      .ask (.lease target.keeper) (some (.cancelled "leasing nonce" none)) fun
        | .error f => .done (.error (.ofLeaseFault target.keeper f))
        | .ok nonce =>
          let plan := Plan.ofItem chain item nonce
          match modeOf settings item with
          | .simple => simple plan settings.times item.feeOverrides
          | .optimized => optimized plan settings item.feeOverrides

/-- The whole course of a work item, from the look-up of its network and of its keeper's key. -/
def run (settings : Settings) (chainOf : String → Except Fault ChainInfo) (hasKey : Address → Bool) (item : WorkItem) :
    Talk KeeperError (Except KeeperError Outcome) :=
  match chainOf item.target.network with
  | .error f => .done (.error (.ofChainFault item.target.network f))
  | .ok chain =>
    if hasKey item.target.keeper then onChain settings chain item
    else .done (.error (.validation ("no signing key available for keeper " ++ item.target.keeper.display)))

end OrderKeeper.Submission
