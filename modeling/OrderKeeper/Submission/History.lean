import OrderKeeper.Submission.Floor

/-!
# Histories of submissions

What the steps of a floor show of one submission. A log holds what passed between a submission and its ledger; what the
signer was asked is no event, and is told by the steps themselves (`Floor.signings`). `finale?` says with what a
submission that has ended came to its end. The steps also tell when an event was seen (`Floor.timeline`), so that a
log can be held against what became of the ledger meanwhile (`Chronicle`).
-/

namespace OrderKeeper.Submission

open Nonce (Ticket)

/-! ## Events -/

namespace Event

/-- The answer of the ledger that is heard. -/
def reply? : Event → Option (Σ c : LedgerCall, Except Fault c.Answer)
  | replied c a => some ⟨c, a⟩
  | _ => none

/-- The hash that a broadcast gives: the node took the transaction, or may hold it in spite of its answer. -/
def obtained? : Event → Option Hash
  | replied (.send _) (.ok hash) => some hash
  | replied (.send x) (.error f) => if f.isPossiblySent then some x.hash else none
  | _ => none

/-- The nonce of a lease that becomes live. -/
def nonce? : Event → Option UInt64
  | leased n => some n
  | _ => none

/-- The hash that is looked up, and what is found. -/
def found? : Event → Option (Hash × Option Receipt)
  | replied (.receipt hash) (.ok found) => some (hash, found)
  | _ => none

end Event

/-- The answers of the ledger that are heard in a log, in order. -/
def replies (log : List Event) : List (Σ c : LedgerCall, Except Fault c.Answer) := log.filterMap Event.reply?

/-- The transactions that a log hands to the node, in order. -/
def sends (log : List Event) : List SignedTransaction := log.filterMap Event.sent?

/-- The hashes that the broadcasts of a log gave, in order. -/
def obtained (log : List Event) : List Hash := log.filterMap Event.obtained?

/-- The nonces of the leases that became live in a log, in order. -/
def leases (log : List Event) : List UInt64 := log.filterMap Event.nonce?

/-! ## Signatures -/

/-- What a signer was asked to sign, and its answer. -/
structure Signing where
  options : SigningOptions
  transaction : Transaction
  answer : Except Fault SignedTransaction

/-- What the signer is asked when something is done with a submission. -/
def Task.signing? (task : Task) : Act → Option Signing
  | .go x =>
    match task.standing with
    | .underWay (.ask (.sign o t) _ _) .idle => some ⟨o, t, x.signer o t⟩
    | _ => none
  | _ => none

namespace Floor

/-- What a step asks the signer of a submission. -/
def signing? (f : Floor) (t : Ticket) (m : Move) : Option Signing :=
  if m.ticket = t then (f.tasks.get? t).bind fun task => task.signing? m.act else none

/-- What steps in a row ask the signer of a submission, up to the first that is not possible. -/
def signings (f : Floor) (t : Ticket) : List Move → List Signing
  | [] => []
  | m :: ms =>
    match f.apply m with
    | some g => (f.signing? t m).toList ++ g.signings t ms
    | none => []

end Floor

/-! ## Moments -/

namespace Floor

/-- What has been seen of a submission. -/
def logOf (f : Floor) (t : Ticket) : List Event :=
  match f.tasks.get? t with
  | some task => task.log
  | none => []

/-- What steps in a row write to the log of a submission, up to the first that is not possible, each event with its
moment. Every step takes one moment, whichever submission makes it. -/
def timeline (f : Floor) (t : Ticket) (now : Nat) : List Move → List (Nat × Event)
  | [] => []
  | m :: ms =>
    match f.apply m with
    | some g => ((g.logOf t).drop (f.logOf t).length).map (now, ·) ++ g.timeline t (now + 1) ms
    | none => []

end Floor

/-- A look-up that was answered. -/
structure Look where
  moment : Nat
  hash : Hash
  found : Option Receipt
  deriving DecidableEq, Repr

/-- The look-ups that were answered, in order. -/
def looks (line : List (Nat × Event)) : List Look :=
  line.filterMap fun (n, e) => e.found?.map fun (hash, found) => ⟨n, hash, found⟩

/-- The receipt that a ledger holds of each hash, from moment to moment. -/
abbrev Chronicle := Nat → Hash → Option Receipt

/-- At a moment, the ledger holds a receipt of success for a hash. -/
def Chronicle.includes (chain : Chronicle) (now : Nat) (hash : Hash) : Bool :=
  (chain now hash).any Receipt.isSuccess

/-- Look-ups are answered with what the ledger holds at their moment. -/
def Truthful (chain : Chronicle) (line : List (Nat × Event)) : Prop :=
  ∀ l ∈ looks line, l.found = chain l.moment l.hash

/-! ## Endings -/

/-- The ending of a submission that is over but for its last step. -/
def Standing.exit? : Standing → Option Exit
  | closing e | ended e => some e
  | underWay .. => none

/-- What a submission that succeeded reports. -/
def Exit.outcome? : Exit → Option Outcome
  | finished (.ok o) => some o
  | finished (.error _) | stopped _ | dropped => none

/-- Why a submission ended without success. One that was given up has no result. -/
def Exit.error? : Exit → Option KeeperError
  | finished (.error e) | stopped e => some e
  | finished (.ok _) | dropped => none

/-- What a submission hands back. One that was given up hands nothing back. -/
def Exit.result? : Exit → Option (Except KeeperError Outcome)
  | finished r => some r
  | stopped e => some (.error e)
  | dropped => none

/-- What a submission that is over has handed back. -/
def Standing.result? : Standing → Option (Except KeeperError Outcome)
  | ended e => e.result?
  | underWay .. | closing _ => none

/-- What the submission of a ticket has handed back. -/
def Floor.result? (f : Floor) (t : Ticket) : Option (Except KeeperError Outcome) :=
  (f.tasks.get? t).bind fun task => task.standing.result?

/-- What a submission came to its end with. -/
inductive Finale where
  | cancelled
  /-- The signer did not sign. -/
  | unsigned (fault : Fault)
  /-- The last answer of the ledger. -/
  | replied (call : LedgerCall) (answer : Except Fault call.Answer)

/-- The last answer that a submission got: a refusal of its signer, after which it asks nothing, or that of its
ledger. -/
def lastAnswer? (log : List Event) (signed : List Signing) : Option Finale :=
  match signed.getLast?.map Signing.answer with
  | some (.error f) => some (.unsigned f)
  | _ => (replies log).getLast?.map fun r => .replied r.1 r.2

/-- With what a submission came to its end, by its log and by what was signed for it. -/
def finale? (log : List Event) (signed : List Signing) : Exit → Option Finale
  | .stopped _ => some .cancelled
  | .dropped => none
  | .finished _ => lastAnswer? log signed

end OrderKeeper.Submission
