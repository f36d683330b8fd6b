import OrderKeeper.Dialogue
import OrderKeeper.Receipt.Basic

/-!
# Escalating broadcasts

Broadcasting one logical transaction again and again until one of its broadcasts is settled. After each broadcast there
is one pause; then all distinct hashes are looked up, newest first, since any of them may be the one that is mined. The
budget allows `maxAttempts` broadcasts after the first.
-/

namespace OrderKeeper.Escalation

/-- What an escalation asks for. -/
inductive Question where
  /-- Broadcast number `attempt`, counted from one. -/
  | send (attempt : UInt32)
  | pause
  | lookup (hash : Hash)
  deriving DecidableEq, Repr

/-- The answers, where a failed broadcast has a cause in `E`. -/
abbrev Question.Answer (E : Type) : Question → Type
  | send _ => Except E Hash
  | pause => Unit
  | lookup _ => Except Fault (Option Receipt)

/-- Why an escalation ended without success. -/
inductive Failure (E : Type) where
  /-- The broadcast of this number could not be made. -/
  | send (attempt : UInt32) (cause : E)
  | receipt (cause : WaitFailure)
  deriving DecidableEq, Repr

variable {E : Type}

/-- An escalation under way. -/
abbrev Talk (E α : Type) := Dialogue Question (Question.Answer E) WaitFailure α

/-- Adds a hash to those broadcast, newest first, unless it is among them. -/
def addHash (hash : Hash) (hashes : List Hash) : List Hash := if hash ∈ hashes then hashes else hash :: hashes

/-- Looks up hashes in order, up to the first that is settled. -/
def lookAll : List Hash → Talk E (Except WaitFailure (Option Receipt))
  | [] => .done (.ok none)
  | h :: hs => .ask (.lookup h) (some (.cancelled (some h))) fun a =>
      match Receipt.judge h a with
      | .ok none => lookAll hs
      | settled => .done settled

/-- The rounds from broadcast `attempt` on, with `left` broadcasts allowed after it. -/
def rounds (maxAttempts : UInt32) : Nat → UInt32 → List Hash → Talk E (Except (Failure E) Receipt)
  | left, attempt, hashes =>
    .ask (.send attempt) (some (.cancelled hashes.head?)) fun
      | .error e => .done (.error (.send attempt e))
      | .ok hash =>
        .ask .pause (some (.cancelled (some hash))) fun () =>
          (lookAll (addHash hash hashes)).bind fun
            | .error e => .done (.error (.receipt e))
            | .ok (some r) => .done (.ok r)
            | .ok none =>
              match left with
              | 0 => .done (.error (.receipt (.budgetExhausted maxAttempts (some hash))))
              | left + 1 => rounds maxAttempts left (attempt + 1) (addHash hash hashes)

/-- An escalation from its first broadcast. -/
def run (maxAttempts : UInt32) : Talk E (Except (Failure E) Receipt) := rounds maxAttempts maxAttempts.toNat 1 []

end OrderKeeper.Escalation
