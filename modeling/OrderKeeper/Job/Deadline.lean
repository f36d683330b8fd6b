import OrderKeeper.Polling

/-!
# Deadlines

An attempt that has not ended at its deadline is cancelled, and is polled on, so that it ends in its own way. The
cancellation concerns this attempt alone: whoever set the deadline is not cancelled by it.
-/

namespace OrderKeeper

/-- An attempt with a deadline. -/
structure Deadline (S : Type) where
  expiresAt : Nat
  /-- Whether the deadline has cancelled the attempt. -/
  expired : Bool := false
  inner : S

namespace Deadline

variable {W S α : Type}

/-- Polls an attempt with a deadline. The attempt comes first: if it ends at its deadline, it ends uncancelled. -/
def poll (clock : W → Nat) (attempt : (W → Bool) → W → S → W × Polled S α) (parent : W → Bool) (w : W)
    (d : Deadline S) : W × Polled (Deadline S) α :=
  match attempt (fun w => parent w || d.expired) w d.inner with
  | (w, .ready a) => (w, .ready a)
  | (w, .waiting s wake) =>
    if d.expired then (w, .waiting { d with inner := s } wake)
    else if d.expiresAt ≤ clock w then
      match attempt (fun _ => true) w s with
      | (w, p) => (w, p.mapState fun s => ⟨d.expiresAt, true, s⟩)
    else (w, .waiting { d with inner := s } (earlier wake (some d.expiresAt)))

end Deadline

end OrderKeeper
