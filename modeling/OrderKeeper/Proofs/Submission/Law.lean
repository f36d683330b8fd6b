import OrderKeeper.Proofs.Dialogue
import OrderKeeper.Proofs.Submission.Turn

/-!
# Laws of conduct

A `Law` says, event by event, what a submission may be seen to do. Its `rule` tells what a question comes down to in
events, so that the course of a submission can be followed by it without any other submission in sight. What the course
keeps (`Dialogue.Keeps`), every submission keeps among all others: its log is lawful in every state that a floor can get
to (`lawful_of_run`), because no step of another submission touches what it waits for.
-/

namespace OrderKeeper.Submission

open Nonce (Ticket Key Stage Allocator Slot)

/-- What may be seen next after what was seen. A release says nothing new. -/
structure Law (σ : Type) where
  step : σ → Event → Option σ
  released : ∀ s, step s .released = some s

namespace Law

variable {σ : Type} (L : Law σ)

/-- Where a log leads, if all of it is lawful. -/
def after (s : σ) (log : List Event) : Option σ := log.foldlM L.step s

/-- An event is lawful, and a condition holds after it. -/
def Does (e : Event) (K : σ → Prop) (s : σ) : Prop := ∃ s', L.step s e = some s' ∧ K s'

/-- A call is lawful, and so is every answer to it, after which a condition holds. -/
def Calls (c : LedgerCall) (K : Except Fault c.Answer → σ → Prop) : σ → Prop :=
  L.Does (.called c) fun s => ∀ a, L.Does (.replied c a) (K a) s

/-- What comes of the ledger's answer to a request for a lease. -/
def Heeds (K : Except Fault UInt64 → σ → Prop) : Except Fault UInt64 → σ → Prop
  | .ok p => L.Does (.leased p) (K (.ok p))
  | .error f => K (.error f)

/-- A request for a lease follows another lease, or asks the ledger. -/
def Grants (keeper : Address) (K : Except Fault UInt64 → σ → Prop) (s : σ) : Prop :=
  (∀ n, L.Does (.leased n) (K (.ok n)) s) ∧ L.Calls (.pendingNonce keeper) (L.Heeds K) s

/-- What comes of an answer to a watch: it ends, or it pauses and `I` holds. -/
def Judges (w : Watch) (K : Except WaitFailure Receipt → σ → Prop) (I : Nat → σ → Prop) (polls : Nat)
    (a : Except Fault (Option Receipt)) (s : σ) : Prop :=
  (∀ r, w.answer polls a = .ended r → K r s) ∧ ∀ n, w.answer polls a = .pausing n → I n s

/-- A condition that holds before every look-up of a watch. -/
def Watches (w : Watch) (K : Except WaitFailure Receipt → σ → Prop) (I : Nat → σ → Prop) : Prop :=
  ∀ polls s, I polls s → L.Calls (.receipt w.hash) (Judges w K I polls) s

/-- What questions come down to in events. -/
def rule : Dialogue.Rule Question Question.Answer σ
  | .ledger c, K => L.Calls c K
  | .lease keeper, K => L.Does (.requested keeper) (L.Grants keeper K)
  | .sign _ t, K => fun s => ∀ a, (∀ x, a = .ok x → x.transaction = t) → K a s
  | .pause _, K => K ()
  | .watch w, K => fun s => ∃ I, I 0 s ∧ L.Watches w K I

variable {L} {s : σ}

theorem after_cons {e : Event} {log : List Event} {s' : σ} :
    L.after s (e :: log) = some s' ↔ ∃ s₁, L.step s e = some s₁ ∧ L.after s₁ log = some s' := by
  rw [after, List.foldlM_cons]
  exact Option.bind_eq_some_iff

theorem after_append {l m : List Event} : L.after s (l ++ m) = (L.after s l).bind fun s => L.after s m := by
  simp only [after, List.foldlM_append]
  rfl

/-- What happens at some point of a log. -/
theorem after_append_cons {before after : List Event} {e : Event} {s' : σ} :
    L.after s (before ++ e :: after) = some s' ↔
      ∃ s₁ s₂, L.after s before = some s₁ ∧ L.step s₁ e = some s₂ ∧ L.after s₂ after = some s' := by
  rw [after_append, Option.bind_eq_some_iff]
  constructor
  · rintro ⟨s₁, hs, h⟩
    obtain ⟨s₂, he, h⟩ := after_cons.1 h
    exact ⟨s₁, s₂, hs, he, h⟩
  · rintro ⟨s₁, s₂, hs, he, h⟩
    exact ⟨s₁, hs, after_cons.2 ⟨s₂, he, h⟩⟩

theorem after_singleton {e : Event} : L.after s [e] = L.step s e := by
  simp [after]

/-! ## Submissions under way -/

/-- What a submission that waits for a lease still has to see, by the stage of its request. -/
def Awaits (L : Law σ) (keeper : Address) (K : Except Fault UInt64 → σ → Prop) : Stage → σ → Prop
  | .arriving | .waiting => L.Grants keeper K
  | .admitted => L.Calls (.pendingNonce keeper) (L.Heeds K)
  | .querying => fun s => ∀ a, L.Does (.replied (.pendingNonce keeper) a) (L.Heeds K a) s
  | .answered p => L.Does (.leased p) (K (.ok p))
  | .settled n | .leased n => K (.ok n)

/-- What a submission still has to see, by where it stands and by the stage of its request. -/
inductive Holds (L : Law σ) (K : Except KeeperError Outcome → σ → Prop) (stage : Option Stage) :
    Standing → σ → Prop where
  | idle {talk s} : talk.Keeps L.rule K s → Holds L K stage (.underWay talk .idle) s
  | reply {c stop next s} : (∀ a, L.Does (.replied c a) ((next a).Keeps L.rule K) s) →
      Holds L K stage (.underWay (.ask (.ledger c) stop next) .reply) s
  | lease {keeper stop next s st} : stage = some st → L.Awaits keeper (fun a => (next a).Keeps L.rule K) st s →
      Holds L K stage (.underWay (.ask (.lease keeper) stop next) .lease) s
  | looking {w stop next s polls I} : L.Watches w (fun a => (next a).Keeps L.rule K) I →
      (∀ a, L.Does (.replied (.receipt w.hash) a) (Judges w (fun a => (next a).Keeps L.rule K) I polls a) s) →
      Holds L K stage (.underWay (.ask (.watch w) stop next) (.watch (.looking polls))) s
  | pausing {w stop next s polls I} : L.Watches w (fun a => (next a).Keeps L.rule K) I → I polls s →
      Holds L K stage (.underWay (.ask (.watch w) stop next) (.watch (.pausing polls))) s
  | closing {e s} : (∀ r, e = .finished r → K r s) → Holds L K stage (.closing e) s
  | ended {e s} : (∀ r, e = .finished r → K r s) → Holds L K stage (.ended e) s

theorem issued?_self (stage : Option Stage) : issued? stage stage = none := by
  unfold issued?
  split <;> simp_all

theorem issued?_none (stage : Option Stage) : issued? stage none = none := by
  unfold issued?
  split <;> rfl

theorem answer_cases (w : Watch) (polls : Nat) (a : Except Fault (Option Receipt)) :
    (∃ r, w.answer polls a = .ended r) ∨ w.answer polls a = .pausing (polls + 1) := by
  unfold Watch.answer
  split
  · exact .inl ⟨_, rfl⟩
  · exact .inl ⟨_, rfl⟩
  · split
    · exact .inl ⟨_, rfl⟩
    · exact .inr rfl

/-- What holds of a submission holds after its turn, and what is seen of the turn is lawful. -/
theorem holds_of_turns {K : Except KeeperError Outcome → σ → Prop} {b : Brief} {t : Ticket}
    {stage stage' : Option Stage} {st st' : Standing} {x : Option Nonce.Step} {event : Option Event}
    (hT : Task.Turns b stage st x event st') (hx : Floor.Carries t stage x stage') (h : L.Holds K stage st s) :
    ∃ s', L.after s (event.toList ++ (issued? stage stage').toList.map .leased) = some s' ∧
      L.Holds K stage' st' s' := by
  cases hT with
  | finish =>
    cases hx
    rw [issued?_self]
    cases h with
    | idle hk => exact ⟨s, rfl, .closing fun r hr => by cases hr; exact hk⟩
  | call =>
    cases hx
    rw [issued?_self]
    cases h with
    | idle hk =>
      obtain ⟨s', hs, hk⟩ := hk
      exact ⟨s', after_singleton.trans hs, .reply hk⟩
  | reply a =>
    cases hx
    rw [issued?_self]
    cases h with
    | reply hk =>
      obtain ⟨s', hs, hk⟩ := hk a
      exact ⟨s', after_singleton.trans hs, .idle hk⟩
  | sign a ha =>
    cases hx
    rw [issued?_self]
    cases h with
    | idle hk => exact ⟨s, rfl, .idle (hk a ha)⟩
  | pause =>
    cases hx
    rw [issued?_self]
    cases h with
    | idle hk => exact ⟨s, rfl, .idle hk⟩
  | request =>
    obtain ⟨k, r, r', hr⟩ := hx
    cases h with
    | idle hk =>
      obtain ⟨s', hs, hn, hc⟩ := hk
      cases hr with
      | follow =>
        obtain ⟨s'', hs', hk⟩ := hn _
        refine ⟨s'', ?_, .lease rfl hk⟩
        rw [after_append]
        exact (congrArg (Option.bind · _) (after_singleton.trans hs)).trans (after_singleton.trans hs')
      | arrive => exact ⟨s', after_singleton.trans hs, .lease rfl ⟨hn, hc⟩⟩
  | join =>
    obtain ⟨k, r, r', hr⟩ := hx
    cases hr
    cases h with
    | lease hst hk => cases hst; exact ⟨s, rfl, .lease rfl hk⟩
  | recheck =>
    obtain ⟨k, r, r', hr⟩ := hx
    cases h with
    | lease hst hk =>
      cases hst
      cases hr with
      | followLate =>
        obtain ⟨s', hs, hk⟩ := hk.1 _
        exact ⟨s', after_singleton.trans hs, .lease rfl hk⟩
      | enter => exact ⟨s, rfl, .lease rfl hk.2⟩
  | ask =>
    obtain ⟨k, r, r', hr⟩ := hx
    cases hr
    cases h with
    | lease hst hk =>
      cases hst
      obtain ⟨s', hs, hk⟩ := hk
      exact ⟨s', after_singleton.trans hs, .lease rfl hk⟩
  | answer p =>
    obtain ⟨k, r, r', hr⟩ := hx
    cases hr
    cases h with
    | lease hst hk =>
      cases hst
      obtain ⟨s', hs, hk⟩ := hk (.ok p)
      exact ⟨s', after_singleton.trans hs, .lease rfl hk⟩
  | fail f =>
    obtain ⟨k, r, r', hr⟩ := hx
    cases hr
    cases h with
    | lease hst hk =>
      cases hst
      obtain ⟨s', hs, hk⟩ := hk (.error f)
      exact ⟨s', after_singleton.trans hs, .idle hk⟩
  | settle =>
    obtain ⟨k, r, r', hr⟩ := hx
    cases hr
    cases h with
    | lease hst hk =>
      cases hst
      obtain ⟨s', hs, hk⟩ := hk
      exact ⟨s', after_singleton.trans hs, .lease rfl hk⟩
  | leave =>
    obtain ⟨k, r, r', hr⟩ := hx
    cases hr
    cases h with
    | lease hst hk => cases hst; exact ⟨s, rfl, .lease rfl hk⟩
  | take =>
    cases hx
    cases h with
    | lease hst hk => cases hst; exact ⟨s, rfl, .idle hk⟩
  | look =>
    cases hx
    rw [issued?_self]
    cases h with
    | idle hk =>
      obtain ⟨I, h0, hw⟩ := hk
      obtain ⟨s', hs, hk⟩ := hw 0 s h0
      exact ⟨s', after_singleton.trans hs, .looking hw hk⟩
  | judge a =>
    cases hx
    rw [issued?_self]
    cases h with
    | looking hw hk =>
      obtain ⟨s', hs, hr, hp⟩ := hk a
      refine ⟨s', after_singleton.trans hs, ?_⟩
      rcases answer_cases _ _ a with ⟨r, hj⟩ | hj
      · rw [hj]
        exact .idle (hr r hj)
      · rw [hj]
        exact .pausing hw (hp _ hj)
  | wake =>
    cases hx
    rw [issued?_self]
    cases h with
    | pausing hw hi =>
      obtain ⟨s', hs, hk⟩ := hw _ s hi
      exact ⟨s', after_singleton.trans hs, .looking hw hk⟩
  | stop | drop =>
    cases hx
    rw [issued?_self]
    exact ⟨s, rfl, .closing fun r hr => by cases hr⟩
  | close =>
    cases hx
    cases h with
    | closing hk => exact ⟨s, rfl, .ended hk⟩
  | release =>
    obtain ⟨k, r, r', hr⟩ := hx
    cases hr
    cases h with
    | closing hk => exact ⟨s, after_singleton.trans (L.released s), .ended hk⟩
  | abandon =>
    obtain ⟨k, r, r', hr⟩ := hx
    cases hr with
    | abandon hst =>
      cases h with
      | closing hk => rcases hst with rfl | rfl | ⟨p, rfl⟩ <;> exact ⟨s, rfl, .ended hk⟩

end Law

/-! ## Submissions among others -/

section Lawful

variable {σ : Type} (L : Brief → Law σ) (K : Brief → Except KeeperError Outcome → σ → Prop) (start : σ)

/-- Every submission has kept to its law so far, and what it still has to see keeps to it as well. -/
def Lawful (f : Floor) : Prop :=
  ∀ t task, f.tasks.get? t = some task → ∃ s, (L task.brief).after start task.log = some s ∧
    (L task.brief).Holds (K task.brief) (f.allocator.stage? t) task.standing s

variable {L K start} {f g : Floor} {m : Floor.Move}

theorem lawful_apply (hL : ∀ b : Brief, b.course.Keeps (L b).rule (K b) start) (hf : Lawful L K start f)
    (h : f.apply m = some g) : Lawful L K start g := by
  intro t task ht
  by_cases hm : m.ticket = t
  · subst hm
    rcases Floor.apply_cases h with ⟨b, -, -, rfl⟩ | ⟨task₀, turn, a, ht₀, hT, ha, rfl⟩
    · rw [Table.get?_set_self] at ht
      cases ht
      exact ⟨start, rfl, .idle (hL b)⟩
    · rw [Floor.task_record] at ht
      cases ht
      obtain ⟨s, hs, hh⟩ := hf m.ticket task₀ ht₀
      obtain ⟨s', hs', hh'⟩ := Law.holds_of_turns hT (Floor.carries_of_carry? ha) hh
      exact ⟨s', by rw [Law.after_append, hs]; exact hs', hh'⟩
  · rw [Floor.task_of_apply h hm] at ht
    obtain ⟨s, hs, hh⟩ := hf t task ht
    refine ⟨s, hs, ?_⟩
    rwa [Allocator.stage?, Floor.request_of_apply h hm, ← Allocator.stage?]

/-- **What every course keeps alone, every submission keeps among all others.** -/
theorem lawful_of_run (hL : ∀ b : Brief, b.course.Keeps (L b).rule (K b) start) {ms : List Floor.Move}
    (h : Floor.run? {} ms = some f) : Lawful L K start f :=
  Floor.run_induction (P := Lawful L K start) (lawful_apply hL) (fun _ _ ht => by cases ht) h

end Lawful

end OrderKeeper.Submission
