import OrderKeeper.Proofs.Polling
import OrderKeeper.Proofs.Rehearsal.Turn

/-!
# Polls of a submission

A poll carries a submission as far as it can go in the time of the world. Whatever it does, a floor that mirrors the
world can do in steps of that submission (`exists_run_of_poll`), and the floor waits for what the rehearsal waits for
(`Place.Awaits`).
-/

namespace OrderKeeper

namespace Rehearsal

open Nonce (Stage Allocator)
open Submission (Floor Task Turn Answers Brief Sound Rest Exit)

variable {p : Place} {b : Brief} {w w' : World} {st st' : Submission.Standing}

/-! ## What is waited for -/

theorem Place.allocator_beginCall (p : Place) (w : World) (c : LedgerCall) :
    (p.beginCall w c).1.allocator = w.allocator := by
  unfold Place.beginCall
  dsimp only
  split <;> rfl

theorem Place.alike_beginCall (p : Place) (w : World) (c : LedgerCall) : Alike w (p.beginCall w c).1 := by
  unfold Place.beginCall
  dsimp only
  split <;> exact ⟨rfl, rfl⟩

/-- What a rehearsal and a floor wait for when they wait for the same. A pause and a signature take no step of a floor
before they end. -/
inductive Place.Awaits (p : Place) (w : World) : Rest → Option Wait → Submission.Wait → Prop where
  | fresh {talk} : p.Awaits w talk none .idle
  | call {c stop next ready number} : p.Awaits w (.ask (.ledger c) stop next) (some (.call ready number)) .reply
  | sign {o t stop next ready number} : p.Awaits w (.ask (.sign o t) stop next) (some (.call ready number)) .idle
  | pause {ms stop next ready} : p.Awaits w (.ask (.pause ms) stop next) (some (.until ready)) .idle
  | gate {keeper stop next k st} : w.allocator.requests.get? p.ticket = some ⟨k, st⟩ →
      (st = .waiting ∨ ∃ n, st = .leased n) → p.Awaits w (.ask (.lease keeper) stop next) (some .gate) .lease
  | nonce {keeper stop next k ready number} : w.allocator.requests.get? p.ticket = some ⟨k, .querying⟩ →
      p.Awaits w (.ask (.lease keeper) stop next) (some (.nonce ready number)) .lease
  | start {watch stop next ready} : p.Awaits w (.ask (.watch watch) stop next) (some (.rest 0 ready)) .idle
  | look {watch stop next polls ready number} :
      p.Awaits w (.ask (.watch watch) stop next) (some (.look polls ready number)) (.watch (.looking polls))
  | rest {watch stop next polls ready} :
      p.Awaits w (.ask (.watch watch) stop next) (some (.rest polls ready)) (.watch (.pausing polls))

/-- A poll of a question is steps of its submission, which has its answer or waits for it as before. -/
def Answered (p : Place) (b : Brief) (w : World) (st : Submission.Standing) (q : Submission.Question)
    (stop : Option KeeperError) (next : q.Answer → Rest) : World × Polled Wait q.Answer → Prop
  | (w', .ready a) => Follows p b w st w' (.underWay (next a) .idle)
  | (w', .waiting s _) => ∃ wait, Follows p b w st w' (.underWay (.ask q stop next) wait) ∧
      p.Awaits w' (.ask q stop next) (some s) wait

theorem Follows.answered {q : Submission.Question} {stop : Option KeeperError} {next : q.Answer → Rest}
    {r : World × Polled Wait q.Answer} (h : Follows p b w st w' st') (h' : Answered p b w' st' q stop next r) :
    Answered p b w st q stop next r := by
  obtain ⟨w'', a | ⟨s, wake⟩⟩ := r
  · exact h.trans h'
  · obtain ⟨wait, hf, ha⟩ := h'
    exact ⟨wait, h.trans hf, ha⟩

/-- What a floor waits for when a question has just been put. -/
def beginWait : Submission.Question → Submission.Wait
  | .ledger _ => .reply
  | .lease _ => .lease
  | .sign .. | .pause _ | .watch _ => .idle

/-- A question is put on a floor as in a rehearsal, by a submission that has no request yet. -/
theorem follows_begin (q : Submission.Question) (stop : Option KeeperError) (next : q.Answer → Rest)
    (h : ∀ keeper, q = .lease keeper → w.allocator.requests.get? p.ticket = none) :
    Follows p b w (.underWay (.ask q stop next) .idle) (p.submission.begin w q).1
        (.underWay (.ask q stop next) (beginWait q)) ∧
      p.Awaits (p.submission.begin w q).1 (.ask q stop next) (some (p.submission.begin w q).2) (beginWait q) := by
  cases q with
  | ledger c =>
    refine ⟨?_, .call⟩
    exact follows_of_turn
      { event := some (.called c), standing := .underWay (.ask (.ledger c) stop next) .reply }
      (fun h => .go (p.answers w 0 h)) (fun _ _ _ => rfl) (p.allocator_beginCall w c) (p.alike_beginCall w c)
  | lease keeper =>
    have h0 := h keeper rfl
    obtain ⟨s', hreq, hs'⟩ := Allocator.request_attempt_begin h0 (p.key keeper)
    obtain ⟨a, ha⟩ := Allocator.exists_apply_begin h0 (p.key keeper)
    have hw : (w.attempt p.ticket [.begin (p.key keeper)]).allocator = a := Allocator.attempt_of_apply ha
    have hbegin : Follows p b w (.underWay (.ask (.lease keeper) stop next) .idle)
        (w.attempt p.ticket [.begin (p.key keeper)]) (.underWay (.ask (.lease keeper) stop next) .lease) :=
      follows_of_turn
        { step := some (.begin (p.key keeper)), event := some (.requested keeper),
          standing := .underWay (.ask (.lease keeper) stop next) .lease }
        (fun h => .go (p.answers w 0 h))
        (fun _ _ hc => by
          change some _ = some _
          rw [hc]
          rfl)
        (by rw [hw]; exact ha) (.attempt ..)
    have hjoin : Follows p b (w.attempt p.ticket [.begin (p.key keeper)])
        (.underWay (.ask (.lease keeper) stop next) .lease) (w.attempt p.ticket [.begin (p.key keeper), .join])
        (.underWay (.ask (.lease keeper) stop next) .lease) :=
      follows_attempt fun x hx => by rw [List.mem_singleton.1 hx]; exact .inl rfl
    exact ⟨hbegin.trans hjoin, .gate hreq hs'⟩
  | sign o t => exact ⟨.of_eq rfl ⟨rfl, rfl⟩, .sign⟩
  | pause ms => exact ⟨.of_eq rfl .refl, .pause⟩
  | watch watch => exact ⟨.of_eq rfl .refl, .start⟩

/-! ## Polls of a question -/

section Polls

variable {keeper : Address} {stop : Option KeeperError} {next : Except Fault UInt64 → Rest}

/-- A query that is looked at. -/
theorem answered_pollNonce {k : Nonce.Key} (h : w.allocator.requests.get? p.ticket = some ⟨k, .querying⟩)
    (ready number : Nat) :
    Answered p b w (.underWay (.ask (.lease keeper) stop next) .lease) (.lease keeper) stop next
      (p.pollNonce w keeper ready number) := by
  have hstage : w.allocator.stage? p.ticket = some .querying := by
    rw [Allocator.stage?, h]
    rfl
  unfold Place.pollNonce
  split
  · split
    · rename_i n hn
      -- the answer, then the lease in silent steps, which is taken at once
      have hw : w.allocator.apply ⟨p.ticket, .answer n⟩ = some (w.attempt p.ticket [.answer n]).allocator := by
        have ha := Allocator.apply_of_step? (x := .answer n) h rfl
        have hattempt : w.allocator.attempt p.ticket [.answer n] = _ := Allocator.attempt_of_apply ha
        rw [ha]
        exact congrArg some hattempt.symm
      have hanswer : Follows p b w (.underWay (.ask (.lease keeper) stop next) .lease)
          (w.attempt p.ticket [.answer n]) (.underWay (.ask (.lease keeper) stop next) .lease) :=
        follows_of_turn
          { step := some (.answer n), event := some (.replied (.pendingNonce keeper) (.ok n)),
            standing := .underWay (.ask (.lease keeper) stop next) .lease }
          (fun h => .go (p.answers w number h))
          (fun h _ _ => by
            rw [hstage]
            change some (Task.leaseTurn (p.answers w number h) keeper _ next .querying) = _
            have hl : (p.answers w number h).ledger (.pendingNonce keeper) = .ok n := hn
            rw [Task.leaseTurn, hl])
          hw (.attempt ..)
      have hsettle : Follows p b (w.attempt p.ticket [.answer n]) (.underWay (.ask (.lease keeper) stop next) .lease)
          (w.attempt p.ticket [.answer n, .settle, .leave]) (.underWay (.ask (.lease keeper) stop next) .lease) :=
        follows_attempt fun x hx => by
          rcases List.mem_cons.1 hx with rfl | hx
          · exact .inr (.inr (.inr (.inl rfl)))
          · rw [List.mem_singleton.1 hx]
            exact .inr (.inr (.inr (.inr rfl)))
      have hreq := Allocator.request_attempt_answer h n
      refine (hanswer.trans hsettle).trans (follows_take (w := w.attempt p.ticket [.answer n, .settle, .leave]) ?_)
      change ((w.allocator.attempt p.ticket [.answer n, .settle, .leave]).requests.get? p.ticket).map _ = _
      rw [hreq]
      rfl
    · rename_i f hf
      have hw : w.allocator.apply ⟨p.ticket, .fail⟩ = some (w.attempt p.ticket [.fail]).allocator := by
        have ha := Allocator.apply_of_step? (x := .fail) h rfl
        have hattempt : w.allocator.attempt p.ticket [.fail] = _ := Allocator.attempt_of_apply ha
        rw [ha]
        exact congrArg some hattempt.symm
      exact follows_of_turn
        { step := some .fail, event := some (.replied (.pendingNonce keeper) (.error f)),
          standing := .underWay (next (.error f)) .idle }
        (fun h => .go (p.answers w number h))
        (fun h _ _ => by
          rw [hstage]
          change some (Task.leaseTurn (p.answers w number h) keeper _ next .querying) = _
          have hl : (p.answers w number h).ledger (.pendingNonce keeper) = .error f := hf
          rw [Task.leaseTurn, hl])
        hw (.attempt ..)
  · exact ⟨.lease, .of_eq rfl .refl, .nonce h⟩

/-- A request at the gate that is looked at. -/
theorem answered_pollGate {k : Nonce.Key} {s : Stage} (h : w.allocator.requests.get? p.ticket = some ⟨k, s⟩)
    (hs : s = .waiting ∨ ∃ n, s = .leased n) :
    Answered p b w (.underWay (.ask (.lease keeper) stop next) .lease) (.lease keeper) stop next
      (p.pollGate w keeper) := by
  obtain ⟨s', hreq, hs'⟩ := Allocator.request_attempt_recheck h hs
  have hf : Follows p b w (.underWay (.ask (.lease keeper) stop next) .lease)
      (w.attempt p.ticket [.recheck, .leave, .ask]) (.underWay (.ask (.lease keeper) stop next) .lease) :=
    follows_attempt fun x hx => by
      simp only [List.mem_cons, List.not_mem_nil, or_false] at hx
      rcases hx with rfl | rfl | rfl
      · exact .inr (.inl rfl)
      · exact .inr (.inr (.inr (.inr rfl)))
      · exact .inr (.inr (.inl rfl))
  change (w.attempt p.ticket [.recheck, .leave, .ask]).allocator.requests.get? p.ticket = _ at hreq
  rw [Place.pollGate]
  refine hf.answered ?_
  generalize w.attempt p.ticket [.recheck, .leave, .ask] = w₁ at hreq
  rw [hreq]
  rcases hs' with rfl | rfl | ⟨n, rfl⟩
  · exact ⟨.lease, .of_eq rfl .refl, .gate hreq (.inl rfl)⟩
  · have hcall : Follows p b w₁ (.underWay (.ask (.lease keeper) stop next) .lease)
        (p.beginCall w₁ (.pendingNonce keeper)).1 (.underWay (.ask (.lease keeper) stop next) .lease) :=
      .of_eq (p.allocator_beginCall _ _) (p.alike_beginCall _ _)
    exact hcall.answered (answered_pollNonce (by rw [p.allocator_beginCall]; exact hreq) _ _)
  · exact follows_take (by rw [Allocator.stage?, hreq]; rfl)

end Polls

/-- A look-up is judged in one turn. -/
theorem turn?_looking (x : Answers) (log : List Submission.Event) (stage : Option Stage) (watch : Watch)
    (stop : Option KeeperError) (next : Except WaitFailure Receipt → Rest) (polls : Nat) :
    Task.turn? ⟨b, log, .underWay (.ask (.watch watch) stop next) (.watch (.looking polls))⟩ stage (.go x) =
      some {
        event := some (.replied (.receipt watch.hash) (x.ledger (.receipt watch.hash)))
        standing := .ofWatch (.ask (.watch watch) stop next) next
          (watch.answer polls (x.ledger (.receipt watch.hash))) } := by
  rw [Task.turn?]
  dsimp only
  rw [Task.goTurn?]
  cases watch.answer polls (x.ledger (.receipt watch.hash)) <;> rfl

/-- A watch that is looked at, for as many look-ups as one poll may make. -/
theorem answered_pollWatch {watch : Watch} {stop : Option KeeperError} {next : Except WaitFailure Receipt → Rest}
    {fuel : Nat} {s : Wait} {wait : Submission.Wait} (h : p.Awaits w (.ask (.watch watch) stop next) (some s) wait) :
    Answered p b w (.underWay (.ask (.watch watch) stop next) wait) (.watch watch) stop next
      (p.pollWatch watch fuel w s) := by
  induction fuel generalizing w s wait with
  | zero =>
    rw [Place.pollWatch]
    exact ⟨wait, .of_eq rfl .refl, h⟩
  | succ fuel ih =>
    have begun (wait : Submission.Wait) (polls : Nat)
        (hturn : ∀ x log stage, Task.turn? ⟨b, log, .underWay (.ask (.watch watch) stop next) wait⟩ stage (.go x) =
          some { event := some (.called (.receipt watch.hash)),
                 standing := .underWay (.ask (.watch watch) stop next) (.watch (.looking polls)) }) :
        Answered p b w (.underWay (.ask (.watch watch) stop next) wait) (.watch watch) stop next
          (p.pollWatch watch fuel (p.beginCall w (.receipt watch.hash)).1
            (.look polls (p.beginCall w (.receipt watch.hash)).2.1 (p.beginCall w (.receipt watch.hash)).2.2)) := by
      have hcall : Follows p b w (.underWay (.ask (.watch watch) stop next) wait)
          (p.beginCall w (.receipt watch.hash)).1
          (.underWay (.ask (.watch watch) stop next) (.watch (.looking polls))) :=
        follows_of_turn { event := some (.called (.receipt watch.hash)), standing := _ }
          (fun h => .go (p.answers w 0 h)) (fun _ _ _ => hturn ..) (p.allocator_beginCall ..) (p.alike_beginCall ..)
      exact hcall.answered (ih .look)
    cases h with
    | start =>
      rw [Place.pollWatch]
      split
      · exact begun .idle 0 fun _ _ _ => rfl
      · exact ⟨.idle, .of_eq rfl .refl, .start⟩
    | rest =>
      rw [Place.pollWatch]
      split
      · exact begun _ _ fun _ _ _ => rfl
      · exact ⟨_, .of_eq rfl .refl, .rest⟩
    | look =>
      rename_i polls ready number
      rw [Place.pollWatch]
      split
      · have hjudge : Follows p b w (.underWay (.ask (.watch watch) stop next) (.watch (.looking polls))) w
            (.ofWatch (.ask (.watch watch) stop next) next
              (watch.answer polls (p.replyTo w number (.receipt watch.hash)))) :=
          follows_of_turn
            { event := some (.replied (.receipt watch.hash) (p.replyTo w number (.receipt watch.hash))), standing := _ }
            (fun h => .go (p.answers w number h)) (fun _ _ _ => turn?_looking ..) rfl .refl
        revert hjudge
        rcases Submission.Law.answer_cases watch polls (p.replyTo w number (.receipt watch.hash)) with ⟨r, hr⟩ | hr
        · rw [hr]
          exact id
        · rw [hr]
          intro hjudge
          exact hjudge.answered (ih .rest)
      · exact ⟨_, .of_eq rfl .refl, .look⟩

/-- A question that is looked at has its answer, or is waited for as before. -/
theorem answered_poll {q : Submission.Question} {stop : Option KeeperError} {next : q.Answer → Rest} {s : Wait}
    {wait : Submission.Wait} (h : p.Awaits w (.ask q stop next) (some s) wait) :
    Answered p b w (.underWay (.ask q stop next) wait) q stop next (p.submission.poll w q s) := by
  cases q with
  | ledger c =>
    cases h with
    | call =>
      rename_i ready number
      change Answered _ _ _ _ _ _ _ (w, if ready ≤ w.now then _ else _)
      split
      · exact follows_of_turn { event := some (.replied c (p.replyTo w number c)), standing := _ }
          (fun h => .go (p.answers w number h)) (fun _ _ _ => rfl) rfl .refl
      · exact ⟨.reply, .of_eq rfl .refl, .call⟩
  | lease keeper =>
    cases h with
    | gate hreq hs => exact answered_pollGate hreq hs
    | nonce hreq => exact answered_pollNonce hreq ..
  | sign o t =>
    cases h with
    | sign =>
      rename_i ready number
      exact follows_of_turn { standing := .underWay (next (w.signer.sign number o t)) .idle }
        (fun h => .go (p.answers w number h)) (fun _ _ _ => rfl) rfl .refl
  | pause ms =>
    cases h with
    | pause =>
      rename_i ready
      change Answered _ _ _ _ _ _ _ (w, if ready ≤ w.now then _ else _)
      split
      · intro f hf
        exact follows_of_turn { standing := .underWay (next ()) .idle } (fun h => .go (p.answers w 0 h))
          (fun _ _ _ => rfl) rfl .refl f hf
      · exact ⟨.idle, .of_eq rfl .refl, .pause⟩
  | watch watch => exact answered_pollWatch h

/-! ## Polls of a submission -/

/-- A submission under way has no request for a lease before it asks for one. -/
theorem Mirrors.unasked {f : Floor} {keeper : Address} {stop : Option KeeperError} {next : Except Fault UInt64 → Rest}
    (h : Mirrors p b w (.underWay (.ask (.lease keeper) stop next) .idle) f) :
    w.allocator.requests.get? p.ticket = none := by
  obtain ⟨log, ht⟩ := h.task
  obtain ⟨τ, hτ, hacc⟩ := h.sound.accounts.task _ _ ht
  obtain ⟨τ', hτ', hk⟩ := h.sound.lawful _ _ ht
  cases hτ.symm.trans hτ'
  cases hk with
  | idle hk =>
    obtain ⟨s', hs', -⟩ := hk
    rw [← h.allocator]
    exact hacc.unasked (Submission.step_requested hs').1

/-- A submission that waits can let go of what it has. -/
theorem Mirrors.canLetGo {f : Floor} {talk : Rest} {begun : Option Wait} {wait : Submission.Wait}
    (h : Mirrors p b w (.underWay talk wait) f) (ha : p.Awaits w talk begun wait) :
    Submission.canLetGo (w.allocator.stage? p.ticket) = true := by
  have hstage {k : Nonce.Key} {st : Stage} (hreq : w.allocator.requests.get? p.ticket = some ⟨k, st⟩) :
      w.allocator.stage? p.ticket = some st := by
    rw [Allocator.stage?, hreq]
    rfl
  cases ha with
  | gate hreq hs =>
    rw [hstage hreq]
    rcases hs with rfl | ⟨n, rfl⟩ <;> rfl
  | nonce hreq =>
    rw [hstage hreq]
    rfl
  | fresh | call | sign | pause | start | look | rest =>
    obtain ⟨log, ht⟩ := h.task
    obtain ⟨τ, -, hacc⟩ := h.sound.accounts.task _ _ ht
    rw [← h.allocator]
    exact hacc.calm rfl

/-- How a submission ends with the result of a poll. -/
def exitOf : Except KeeperError (Except KeeperError Outcome) → Exit
  | .ok r => .finished r
  | .error e => .stopped e

/-- A floor mirrors what a poll shows: the submission has come to its end, or waits on the floor as in the rehearsal. -/
def Shows (p : Place) (b : Brief) :
    World × Polled (Course Submission.Question Submission.Question.Answer KeeperError (Except KeeperError Outcome) Wait)
      (Except KeeperError (Except KeeperError Outcome)) → Floor → Prop
  | (w, .ready r), f => Mirrors p b w (.closing (exitOf r)) f
  | (w, .waiting c _), f => ∃ wait, Mirrors p b w (.underWay c.talk wait) f ∧ p.Awaits w c.talk c.begun wait

/-- **A poll is steps of its submission.** -/
theorem canReach_poll {f : Floor} {talk : Rest} {begun : Option Wait} {wait : Submission.Wait}
    (cancelled : World → Bool) (h : Mirrors p b w (.underWay talk wait) f) (ha : p.Awaits w talk begun wait) :
    CanReach p.ticket f (Shows p b (talk.poll p.submission cancelled begun w)) := by
  induction talk generalizing f w begun wait with
  | done r =>
    cases ha
    exact follows_of_turn { standing := .closing (.finished r) } (fun h => .go (p.answers w 0 h)) (fun _ _ _ => rfl)
      rfl .refl f h
  | ask q stop next ih =>
    cases hstop : stop.filter fun _ => cancelled w with
    | some e =>
      obtain ⟨rfl, -⟩ := Option.filter_eq_some_iff.1 hstop
      rw [Dialogue.poll_of_stop hstop]
      have hgo := h.canLetGo ha
      exact follows_of_turn { standing := .closing (.stopped e) } (fun _ => .stop)
        (fun _ _ _ => by exact if_pos hgo) rfl .refl f h
    | none =>
      -- the question is put if it has not been put yet
      obtain ⟨wait', hput, ha⟩ : ∃ wait', Follows p b w (.underWay (.ask q stop next) wait)
            (Dialogue.put p.submission w q begun).1 (.underWay (.ask q stop next) wait') ∧
          p.Awaits (Dialogue.put p.submission w q begun).1 (.ask q stop next)
            (some (Dialogue.put p.submission w q begun).2) wait' := by
        cases begun with
        | some s => exact ⟨wait, .of_eq rfl .refl, ha⟩
        | none =>
          cases ha
          refine ⟨_, follows_begin q stop next fun keeper hq => ?_⟩
          subst hq
          exact h.unasked
      refine (hput f h).trans fun g hg => ?_
      have hanswered := answered_poll (b := b) ha
      cases hr : p.submission.poll _ q _ with
      | mk w' shown =>
        rw [hr] at hanswered
        cases shown with
        | ready a =>
          rw [Dialogue.poll_of_ready hstop hr]
          exact (hanswered g hg).trans fun e he => ih a he .fresh
        | waiting s' wake =>
          rw [Dialogue.poll_of_waiting hstop hr]
          obtain ⟨wait'', hf, ha'⟩ := hanswered
          exact (hf g hg).trans fun e he => .refl ⟨wait'', he, ha'⟩

end Rehearsal

end OrderKeeper
