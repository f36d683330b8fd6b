import OrderKeeper.Nonce.Allocator

/-!
# Histories of the allocator

What a run of moves shows: its transitions one after the other, the nonces they issue on an account, and whether a
counter had room for them. Each account has a share of a state (`only`) and of a run (`movesOf`): what is left if all
other accounts are struck.
-/

namespace OrderKeeper.Nonce

/-- One move with the states before and after it. -/
structure Transition where
  before : Allocator
  move : Move
  after : Allocator
  deriving DecidableEq, Repr

/-- The transitions of moves in a row, up to the first that is not possible. -/
def Allocator.transitions (a : Allocator) : List Move → List Transition
  | [] => []
  | m :: ms =>
    match a.apply m with
    | some b => ⟨a, m, b⟩ :: b.transitions ms
    | none => []

/-- What an allocator holds of one account alone. -/
def Allocator.only (a : Allocator) (k : Key) : Allocator where
  slots := a.slots.filter fun e => e.1 = k
  requests := a.requests.filter fun e => e.2.key = k

/-- Whether a move concerns an account: that of its request, or that of the request it begins. -/
def Allocator.concerns (a : Allocator) (k : Key) (m : Move) : Bool := (a.site? m).any fun site => site.1 = k

/-- Whether something passes between a request and the ledger. -/
def Step.isInquiry : Step → Bool
  | ask | answer _ | fail => true
  | begin _ | join | recheck | settle | leave | abandon | release => false

/-- Whether there is room for one nonce and one lease more: neither counter is at its end. -/
def Slot.hasRoom (s : Slot) : Bool :=
  s.currentNonce.toNat + 1 < UInt64.size && s.activeLeases.toNat + 1 < UInt64.size

namespace Transition

/-- The nonce that the move issues on an account: its ticket has a lease there now, and had none before. -/
def issued? (x : Transition) (k : Key) : Option UInt64 :=
  match x.before.nonce? k x.move.ticket with
  | none => x.after.nonce? k x.move.ticket
  | some _ => none

/-- Whether the move takes no counter past its end: a lease that follows another one finds room. -/
def fits (x : Transition) : Bool :=
  match x.after.requests.get? x.move.ticket with
  | none => true
  | some r =>
    let s := x.before.slot r.key
    (x.issued? r.key).isNone || s.activeLeases == 0 || s.hasRoom

/-- Whether the ledger answers a query of an account. -/
def answers (x : Transition) (k : Key) : Bool :=
  match x.before.requests.get? x.move.ticket, x.move.step with
  | some r, .answer _ => r.key = k
  | _, _ => false

/-- Whether a request of an account is given up although its query was answered. -/
def wastes (x : Transition) (k : Key) : Bool :=
  match x.before.requests.get? x.move.ticket, x.move.step with
  | some r, .abandon => r.isAnswered k
  | _, _ => false

/-- Whether the number of leases of an account goes from none to one. -/
def opens (x : Transition) (k : Key) : Bool :=
  (x.before.slot k).activeLeases == 0 && (x.after.slot k).activeLeases == 1

/-- Whether the move concerns an account. -/
def concerns (x : Transition) (k : Key) : Bool := x.before.concerns k x.move

/-- What the transition is to one account alone. -/
def only (x : Transition) (k : Key) : Transition := ⟨x.before.only k, x.move, x.after.only k⟩

/-- The move, if by it the ledger is asked for the pending nonce of an account, answers, or does not. -/
def inquiry? (x : Transition) (k : Key) : Option Move :=
  if x.concerns k && x.move.step.isInquiry then some x.move else none

end Transition

/-- The nonces issued on an account by moves in a row, in order. -/
def Allocator.issues (a : Allocator) (k : Key) (ms : List Move) : List UInt64 :=
  (a.transitions ms).filterMap fun x => x.issued? k

/-- The moves of a run that concern an account, in order. -/
def Allocator.movesOf (a : Allocator) (k : Key) (ms : List Move) : List Move :=
  ((a.transitions ms).filter fun x => x.concerns k).map Transition.move

/-- What passes between the requests of an account and the ledger in a run of moves, in order. -/
def Allocator.inquiries (a : Allocator) (k : Key) (ms : List Move) : List Move :=
  (a.transitions ms).filterMap fun x => x.inquiry? k

/-- How many requests of an account have their answer and not yet their lease. -/
def Allocator.answered (a : Allocator) (k : Key) : Nat := a.requests.countP fun e => e.2.isAnswered k

end OrderKeeper.Nonce
