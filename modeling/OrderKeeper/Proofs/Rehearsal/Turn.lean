import OrderKeeper.Proofs.Nonce.Attempt
import OrderKeeper.Proofs.Submission.Account
import OrderKeeper.Rehearsal.Act
import OrderKeeper.Rehearsal.Reader

/-!
# Turns in a rehearsal

A floor mirrors a world if both have the same allocator (`Mirrors`). What a rehearsal does for one submission is steps
of this submission on the floor (`Follows`): a turn is one step (`follows_of_turn`), and a row of steps of a request,
which a rehearsal makes as far as they are possible, is as many steps as are (`follows_attempt`).
-/

namespace OrderKeeper.Rehearsal

open Nonce (Stage Allocator)
open Submission (Floor Task Turn Answers Brief Sound Rest Exit)

/-! ## Signers -/

/-- What is signed is the transaction that was given. -/
def Signer.IsFaithful (s : Signer) : Prop := ∀ n o t x, s.sign n o t = .ok x → x.transaction = t

theorem Signer.isFaithful_counting (accounts : List Address) (faults : List (Option (UInt64 → Fault))) :
    (counting accounts faults).IsFaithful := by
  intro n o t x h
  simp only [counting] at h
  split at h
  · cases h
  · cases h
    rfl

theorem Signer.isFaithful_ofKeyring (r : Keyring) : (ofKeyring r).IsFaithful :=
  fun _ _ _ _ => Keyring.transaction_of_sign

/-! ## Steps of one submission -/

section Follows

variable {p : Place} {b : Brief} {w w' w'' : World} {st st' st'' : Submission.Standing}

/-- A floor has come to where a world is; no ticket that is still to be given out stands for a submission. -/
structure Matches (w : World) (f : Floor) : Prop where
  sound : Sound f
  allocator : f.allocator = w.allocator
  faithful : w.signer.IsFaithful
  fresh : ∀ t, w.tickets ≤ t → f.tasks.get? t = none

/-- A floor has come to where a world is, with one submission at some point. -/
structure Mirrors (p : Place) (b : Brief) (w : World) (st : Submission.Standing) (f : Floor) : Prop extends
    Matches w f where
  chain : b.chainId = p.chain.chainId
  task : ∃ log, f.tasks.get? p.ticket = some ⟨b, log, st⟩

/-- What of a world no poll of a submission changes. -/
structure Alike (w w' : World) : Prop where
  signer : w'.signer = w.signer
  tickets : w'.tickets = w.tickets

theorem Alike.attempt (w : World) (t : Nonce.Ticket) (xs : List Nonce.Step) : Alike w (w.attempt t xs) := ⟨rfl, rfl⟩

theorem Alike.refl : Alike w w := ⟨rfl, rfl⟩

theorem Matches.of_alike {f : Floor} (h : Matches w f) (ha : w'.allocator = w.allocator) (hw : Alike w w') :
    Matches w' f :=
  ⟨h.sound, h.allocator.trans ha.symm, by rw [hw.signer]; exact h.faithful, by rw [hw.tickets]; exact h.fresh⟩

/-- Steps of one submission bring a floor to where a condition holds. -/
def CanReach (t : Nonce.Ticket) (f : Floor) (P : Floor → Prop) : Prop :=
  ∃ ms g, f.run? ms = some g ∧ (∀ m ∈ ms, m.ticket = t) ∧ P g

theorem CanReach.refl {t : Nonce.Ticket} {f : Floor} {P : Floor → Prop} (h : P f) : CanReach t f P :=
  ⟨[], f, rfl, (fun m hm => by cases hm), h⟩

theorem CanReach.trans {t : Nonce.Ticket} {f : Floor} {P Q : Floor → Prop} (h : CanReach t f P)
    (hQ : ∀ g, P g → CanReach t g Q) : CanReach t f Q := by
  obtain ⟨ms, g, hg, hms, hP⟩ := h
  obtain ⟨ns, e, he, hns, hQ⟩ := hQ g hP
  refine ⟨ms ++ ns, e, (Floor.run?_append hg).trans he, fun m hm => ?_, hQ⟩
  rcases List.mem_append.1 hm with hm | hm
  · exact hms m hm
  · exact hns m hm

/-- Steps of one submission lead every floor that mirrors a world to where it mirrors another. -/
def Follows (p : Place) (b : Brief) (w : World) (st : Submission.Standing) (w' : World) (st' : Submission.Standing) :
    Prop :=
  ∀ f, Mirrors p b w st f → CanReach p.ticket f (Mirrors p b w' st')

theorem Follows.of_eq (ha : w'.allocator = w.allocator) (hw : Alike w w') : Follows p b w st w' st :=
  fun _ hf => .refl ⟨hf.of_alike ha hw, hf.chain, hf.task⟩

theorem Follows.trans (h : Follows p b w st w' st') (h' : Follows p b w' st' w'' st'') : Follows p b w st w'' st'' :=
  fun f hf => (h f hf).trans h'

/-- The answers of a world at some moment, where the call that is answered has a number. -/
def Place.answers (p : Place) (w : World) (number : Nat) (h : w.signer.IsFaithful) : Answers where
  ledger c := p.replyTo w number c
  signer o t := w.signer.sign number o t
  faithful h' := h _ _ _ _ h'

/-- A turn that is possible is one step. -/
theorem follows_of_turn (turn : Turn) (act : w.signer.IsFaithful → Submission.Act)
    (hturn : ∀ h log, b.chainId = p.chain.chainId →
      Task.turn? ⟨b, log, st⟩ (w.allocator.stage? p.ticket) (act h) = some turn)
    (ha : match turn.step with
      | none => w'.allocator = w.allocator
      | some x => w.allocator.apply ⟨p.ticket, x⟩ = some w'.allocator)
    (hw : Alike w w') : Follows p b w st w' turn.standing := by
  intro f hf
  obtain ⟨log, ht⟩ := hf.task
  have hcarry : f.carry? p.ticket turn.step = some w'.allocator := by
    cases hx : turn.step with
    | none =>
      rw [hx] at ha
      rw [Floor.carry?, hf.allocator, ha]
    | some x =>
      rw [hx] at ha
      rw [Floor.carry?, hf.allocator]
      exact ha
  have happly : f.apply ⟨p.ticket, act hf.faithful⟩ = some (f.record p.ticket ⟨b, log, st⟩ turn w'.allocator) := by
    rw [Floor.apply, ht]
    change (Task.turn? ⟨b, log, st⟩ (f.allocator.stage? p.ticket) _).bind _ = _
    rw [hf.allocator, hturn hf.faithful log hf.chain]
    change (f.carry? p.ticket turn.step).map _ = _
    rw [hcarry]
    rfl
  have hfresh (t : Nonce.Ticket) (h : w'.tickets ≤ t) :
      (f.record p.ticket ⟨b, log, st⟩ turn w'.allocator).tasks.get? t = none := by
    have hnone := hf.fresh t (hw.tickets ▸ h)
    have hne : p.ticket ≠ t := by
      rintro rfl
      rw [ht] at hnone
      cases hnone
    exact (Table.get?_set_of_ne _ _ hne).trans hnone
  refine ⟨[⟨p.ticket, act hf.faithful⟩], _, Floor.run?_cons.2 ⟨_, happly, rfl⟩,
    (fun m hm => by rw [List.mem_singleton.1 hm]), ?_⟩
  exact ⟨⟨Submission.sound_apply hf.sound happly, rfl, by rw [hw.signer]; exact hf.faithful, hfresh⟩, hf.chain, _,
    Floor.task_record ..⟩

/-! ## Requests for a lease -/

variable {keeper : Address} {stop : Option KeeperError} {next : Except Fault UInt64 → Rest}

/-- A step that a waiting request makes without hearing from the ledger. -/
def IsSilent (x : Nonce.Step) : Prop := x = .join ∨ x = .recheck ∨ x = .ask ∨ x = .settle ∨ x = .leave

/-- A request makes a step if it is possible. -/
theorem follows_attempt_one {x : Nonce.Step} (hx : IsSilent x) :
    Follows p b w (.underWay (.ask (.lease keeper) stop next) .lease) (w.attempt p.ticket [x])
      (.underWay (.ask (.lease keeper) stop next) .lease) := by
  cases ha : w.allocator.apply ⟨p.ticket, x⟩ with
  | none =>
    refine Follows.of_eq ?_ (.attempt ..)
    change (w.allocator.apply ⟨p.ticket, x⟩).getD w.allocator = _
    rw [ha]
    rfl
  | some a =>
    have hw : (w.attempt p.ticket [x]).allocator = a := by
      change (w.allocator.apply ⟨p.ticket, x⟩).getD w.allocator = _
      rw [ha]
      rfl
    obtain ⟨k, stage, s', stage', hr, hs, -⟩ := Allocator.apply_cases ha
    have hstage := Allocator.stage?_eq hr
    have step (event : Option Submission.Event)
        (hturn : ∀ h log, Task.turn? ⟨b, log, .underWay (.ask (.lease keeper) stop next) .lease⟩ stage
          (.go (p.answers w 0 h)) = some { step := some x, event := event, standing := _ }) :
        Follows p b w (.underWay (.ask (.lease keeper) stop next) .lease) (w.attempt p.ticket [x])
          (.underWay (.ask (.lease keeper) stop next) .lease) :=
      follows_of_turn { step := some x, event := event, standing := _ } (fun h => .go (p.answers w 0 h))
        (fun h log _ => by rw [hstage]; exact hturn h log) (by rw [hw]; exact ha) (.attempt ..)
    cases hs with
    | join | followLate | enter | settle | leave => exact step none fun _ _ => rfl
    | ask => exact step (some (.called (.pendingNonce keeper))) fun _ _ => rfl
    | follow | arrive | answer | fail | abandon | release => simp [IsSilent] at hx

/-- A request makes those steps in a row that are possible. -/
theorem follows_attempt : ∀ {xs : List Nonce.Step} {w : World}, (∀ x ∈ xs, IsSilent x) →
    Follows p b w (.underWay (.ask (.lease keeper) stop next) .lease) (w.attempt p.ticket xs)
      (.underWay (.ask (.lease keeper) stop next) .lease)
  | [], _, _ => .of_eq rfl .refl
  | x :: _, _, hxs => (follows_attempt_one (hxs x List.mem_cons_self)).trans
      (follows_attempt fun y hy => hxs y (List.mem_cons_of_mem _ hy))

/-- A request that has its lease goes on with it. -/
theorem follows_take {n : UInt64} (hn : w.allocator.stage? p.ticket = some (.leased n)) :
    Follows p b w (.underWay (.ask (.lease keeper) stop next) .lease) w (.underWay (next (.ok n)) .idle) :=
  follows_of_turn { standing := .underWay (next (.ok n)) .idle } (fun h => .go (p.answers w 0 h))
    (fun _ _ _ => by rw [hn]; rfl) rfl .refl

end Follows

end OrderKeeper.Rehearsal
