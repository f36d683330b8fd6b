import OrderKeeper.Job.Verdict
import OrderKeeper.Proofs.Submission.Knowledge

/-!
# Which endings are tried again

What brought an ending without success about decides its verdict (`verdict_of_run`): a cancellation, a nonce or a
receipt that could not be read, a refused broadcast that was looked for in vain, and trouble on the way to the node or
back (`Fault.InTransit`) are tried again after five seconds, and nothing else ever is.
-/

namespace OrderKeeper

/-! ## Trouble on the way -/

/-- Trouble on the way to the node or back: it gave no value, or what it gave could not be read, or the transport failed.
A status that blames the request is none. -/
inductive Fault.InTransit : Fault → Prop where
  | noValue {chainId url m} : InTransit (.rpc chainId url m .nullResponse)
  | unreadable {chainId url m reason text} : InTransit (.rpc chainId url m (.unreadableResponse reason text))
  | transport {chainId url m reason} : InTransit (.rpc chainId url m (.transport reason))
  | status {chainId url m status body} : status.toNat < 400 ∨ 500 ≤ status.toNat →
      InTransit (.rpc chainId url m (.httpStatus status body))

namespace Fault

variable {f : Fault}

theorem isTransient_iff : f.isTransient = true ↔ f.InTransit := by
  constructor
  · intro h
    cases f with
    | rpc chainId url m kind =>
      cases kind with
      | nullResponse => exact .noValue
      | unreadableResponse reason text => exact .unreadable
      | transport reason => exact .transport
      | httpStatus status body =>
        refine .status ?_
        simp [isTransient, response?, rpcKind?, RpcFault.isRetryable] at h
        omega
      | errorResponse | unsupportedFeature | localUsage | unwritableRequest => cases h
    | configuration | contract | validation | signing | internal => cases h
  · intro h
    cases h with
    | noValue | unreadable | transport => rfl
    | status hs =>
      simp [isTransient, response?, rpcKind?, RpcFault.isRetryable]
      omega

/-- What a node has answered is no trouble on the way. -/
theorem not_inTransit_of_response (h : f.response?.isSome = true) : ¬ f.InTransit := by
  intro ht
  cases ht <;> cases h

end Fault

namespace Upkeep

variable {contract : Address} {chainId : UInt64} {f : Fault}

theorem isTransient_ofCallFault : (ofCallFault contract f).isTransient = f.isTransient := by
  unfold ofCallFault
  split
  · split <;> rfl
  · rfl

/-- An upkeep check fails with the trouble of its call, or by what the contract answered. -/
theorem judge_eq_error {a : Except Fault Bytes} (h : judge contract chainId a = .error f) :
    (∃ g, a = .error g ∧ f.isTransient = g.isTransient) ∨ ∃ data, a = .ok data ∧ f.isTransient = false := by
  cases a with
  | error g =>
    cases h
    exact .inl ⟨g, rfl, isTransient_ofCallFault⟩
  | ok data =>
    refine .inr ⟨data, rfl, ?_⟩
    change decode contract chainId data = _ at h
    unfold decode at h
    split at h <;> cases h <;> rfl

end Upkeep

theorem KeeperError.verdict_of_isRetryable {e : KeeperError} (h : e.isRetryable = true) :
    e.verdict = .nack e (some 5000) := by
  rw [verdict, if_pos h]
  rfl

theorem KeeperError.verdict_of_not_isRetryable {e : KeeperError} (h : e.isRetryable = false) : e.verdict = .fail e := by
  rw [verdict, h]
  rfl

namespace Submission

open Nonce (Ticket)

/-! ## What may pass -/

@[simp] theorem replies_append {log log' : List Event} : replies (log ++ log') = replies log ++ replies log' :=
  List.filterMap_append

@[simp] theorem replies_exchange {c : LedgerCall} {a : Except Fault c.Answer} : replies (exchange c a) = [⟨c, a⟩] := rfl

/-- A broadcast outside of an escalation was refused although the node may hold it, and was looked for in vain as often
as its bound allows, which is thirty times. -/
def RanOut (b : Brief) (log : List Event) : Prop :=
  b.mode = .simple ∧ ∃ earlier x f, ∃ found : List (Option Receipt), f.isPossiblySent = true ∧
    replies log = earlier ++ ⟨.send x, .error f⟩ :: found.map (fun r => ⟨.receipt x.hash, .ok r⟩) ∧
      found.length = 30 ∧ ∀ r ∈ found, Receipt.Undecided x.hash (.ok r)

/-- What ended a submission may have passed when it is tried again. -/
inductive Passing (b : Brief) (log : List Event) : Finale → Prop where
  | cancelled : Passing b log .cancelled
  | unleased {keeper f} : Passing b log (.replied (.pendingNonce keeper) (.error f))
  | unread {hash f} : Passing b log (.replied (.receipt hash) (.error f))
  | unfound {hash found} : RanOut b log → Receipt.Undecided hash (.ok found) →
      Passing b log (.replied (.receipt hash) (.ok found))
  | inTransit {c f} : f.InTransit → Passing b log (.replied c (.error f))

/-- The verdict on an ending without success, by what brought it about. -/
structure Judged (b : Brief) (log : List Event) (last : Option Finale) (e : KeeperError) : Prop where
  retried : (∃ x, last = some x ∧ Passing b log x) → e.verdict = .nack e (some 5000)
  dropped : (¬ ∃ x, last = some x ∧ Passing b log x) → e.verdict = .fail e
  /-- The node answered with an error object. -/
  refused : ∀ c f, last = some (.replied c (.error f)) → f.response?.isSome = true →
    (∀ keeper, c ≠ .pendingNonce keeper) → (∀ hash, c ≠ .receipt hash) → e.verdict = .fail e
  /-- The contract answered the upkeep check with nothing that could be read. -/
  undecodable : ∀ request data, last = some (.replied (.call request) (.ok data)) → e.verdict = .fail e
  unsigned : ∀ f, last = some (.unsigned f) → e.verdict = .fail e
  reverted : ∀ hash r, last = some (.replied (.receipt hash) (.ok (some r))) → r.status = false → e.verdict = .fail e
  exhausted : ∀ contract attempts hash, e = .budgetExhausted contract attempts hash → e.verdict = .fail e

section Passing

variable {b : Brief} {log : List Event} {ss : List Signing} {s : Station} {e : KeeperError}

/-- A call that reads neither a nonce nor a receipt may be tried again after trouble on the way only. -/
theorem passing_error_iff {c : LedgerCall} {f : Fault} (hn : ∀ keeper, c ≠ .pendingNonce keeper)
    (hr : ∀ hash, c ≠ .receipt hash) : Passing b log (.replied c (.error f)) ↔ f.isTransient = true := by
  rw [Fault.isTransient_iff]
  constructor
  · intro h
    cases h with
    | unleased => exact absurd rfl (hn _)
    | unread => exact absurd rfl (hr _)
    | inTransit h => exact h
  · exact .inTransit

/-- A failure on chain does not pass. -/
theorem not_passing_of_status {hash : Hash} {r : Receipt} (hstatus : r.status = false) :
    ¬ Passing b log (.replied (.receipt hash) (.ok (some r))) := by
  intro h
  cases h with
  | unfound _ hu => exact hu _ (.reverted hstatus)

/-- If what may pass is what is retryable, the verdict goes by it. -/
theorem judged_of_iff {last : Option Finale} (h : (∃ x, last = some x ∧ Passing b log x) ↔ e.isRetryable = true) :
    Judged b log last e := by
  have hdropped (hnot : ¬ ∃ x, last = some x ∧ Passing b log x) : e.verdict = .fail e := by
    rw [h] at hnot
    exact KeeperError.verdict_of_not_isRetryable (by simpa using hnot)
  have hlast {y : Finale} (hy : last = some y) (hnot : ¬ Passing b log y) : e.verdict = .fail e := by
    refine hdropped ?_
    rintro ⟨x, hx, hp⟩
    rw [hy] at hx
    cases hx
    exact hnot hp
  constructor
  case retried => exact fun hp => KeeperError.verdict_of_isRetryable (h.1 hp)
  case dropped => exact hdropped
  case refused =>
    intro c f hc hf hn hr
    refine hlast hc fun hp => Fault.not_inTransit_of_response hf ?_
    rwa [passing_error_iff hn hr, Fault.isTransient_iff] at hp
  case undecodable => exact fun request data hc => hlast hc fun hp => by cases hp
  case unsigned => exact fun f hf => hlast hf fun hp => by cases hp
  case reverted =>
    intro hash r hc hstatus
    exact hlast hc (not_passing_of_status hstatus)
  case exhausted =>
    rintro contract attempts hash rfl
    rfl

/-! ## Looking in vain -/

/-- The look-ups of a watch that goes on have shown nothing. -/
theorem in_vain_of_looked {w : Watch} {n : Nat} {seen : List Event} (h : Looked w n seen) :
    (n = 0 ∨ w.isSpent n = false) ∧ ∃ found : List (Option Receipt),
      replies seen = found.map (fun r => ⟨.receipt w.hash, .ok r⟩) ∧ found.length = n ∧
        ∀ r ∈ found, Receipt.Undecided w.hash (.ok r) := by
  induction h with
  | none => exact ⟨.inl rfl, [], rfl, rfl, by simp⟩
  | more _ ha ih =>
    obtain ⟨-, found, hfound, hlen, hall⟩ := ih
    obtain ⟨-, hr, hs⟩ := Watch.pausing_of_answer ha
    obtain ⟨r, rfl⟩ := hr.exists_ok
    refine ⟨.inr hs, found ++ [r], by simp [hfound], by simp [hlen], ?_⟩
    intro r' hr'
    rcases List.mem_append.1 hr' with hr' | hr'
    · exact hall r' hr'
    · rw [List.mem_singleton.1 hr']
      exact hr

/-- A watch that has used up its bound is one of a broadcast that was refused. -/
theorem ranOut_of_unfound {n : UInt64} {sent : Broadcast} {polls : Nat} {seen log' : List Event}
    {found : Option Receipt} (hk : Station.Knows b log (.watching n sent))
    (hl : Looked ⟨sent.hash, b.settings.times.pollInterval, sent.bound⟩ polls seen)
    (hu : Receipt.Undecided sent.hash (.ok found))
    (hspent : sent.bound.any (fun bound => bound.toNat ≤ polls + 1) = true)
    (hlog : replies log' = replies (log ++ (seen ++ exchange (.receipt sent.hash) (.ok found)))) : RanOut b log' := by
  obtain ⟨hm, before, x, a, rfl, -, -, ha⟩ := hk
  cases a with
  | ok hash =>
    cases ha
    cases hspent
  | error f =>
    rw [Broadcast.judge] at ha
    split at ha
    · rename_i hf
      cases ha
      obtain ⟨hbound, others, hothers, hlen, hall⟩ := in_vain_of_looked hl
      refine ⟨hm, replies before, x, f, others ++ [found], hf, ?_, ?_, ?_⟩
      · rw [hlog]
        simp [hothers, Broadcast.hash]
      · have hle : refusedBound.toNat ≤ polls + 1 := by simpa [Broadcast.bound] using hspent
        have hlt : polls = 0 ∨ polls < refusedBound.toNat := by
          rcases hbound with h | h
          · exact .inl h
          · right
            simpa [Watch.isSpent, Broadcast.bound] using h
        have hthirty : refusedBound.toNat = 30 := rfl
        rw [List.length_append, List.length_singleton, hlen]
        omega
      · intro r hr
        rcases List.mem_append.1 hr with hr | hr
        · exact hall r hr
        · rw [List.mem_singleton.1 hr]
          exact hu
    · cases ha

/-! ## Endings -/

/-- What the ledger's last answer makes of a submission is retryable just if it may pass. -/
theorem passing_iff_of_finishes {before log' : List Event} {c : LedgerCall} {x : Except Fault c.Answer}
    (hk : Station.Knows b log s) (hF : Station.Finishes b s before c x (.error e))
    (hlog : replies log' = replies (log ++ (before ++ exchange c x))) :
    Passing b log' (.replied c x) ↔ e.isRetryable = true := by
  generalize hr : Except.error e = result at hF
  cases hF with
  | undeployed hj =>
    cases hr
    rcases Upkeep.judge_eq_error hj with ⟨g, rfl, hg⟩ | ⟨data, rfl, -⟩
    · rw [passing_error_iff (by simp) (by simp), ← hg]
      exact Iff.rfl
    · exact iff_of_false (fun h => by cases h) Bool.false_ne_true
  | unchecked hj =>
    cases hr
    rcases Upkeep.judge_eq_error hj with ⟨g, rfl, hg⟩ | ⟨data, rfl, hg⟩
    · rw [passing_error_iff (by simp) (by simp), ← hg]
      exact Iff.rfl
    · refine iff_of_false (fun h => by cases h) ?_
      rw [KeeperError.isRetryable, hg]
      exact Bool.false_ne_true
  | nothing | found => cases hr
  | unleased =>
    cases hr
    exact iff_of_true .unleased rfl
  | unread =>
    cases hr
    exact iff_of_true .unread rfl
  | noBaseFee | noGasPrice | noPriorityFee | unquoted | unrequoted | unsent =>
    cases hr
    exact passing_error_iff (by simp) (by simp)
  | unsupported =>
    cases hr
    exact iff_of_false (fun h => by cases h) Bool.false_ne_true
  | reverted _ hstatus =>
    cases hr
    exact iff_of_false (not_passing_of_status hstatus) Bool.false_ne_true
  | unfound hl hc hspent =>
    cases hr
    exact iff_of_true (.unfound (ranOut_of_unfound hk hl hc hspent hlog) hc) rfl
  | spent =>
    cases hr
    refine iff_of_false (fun h => ?_) Bool.false_ne_true
    cases h with
    | unfound hran _ =>
      -- only a broadcast outside of an escalation has a bound
      have hm := hk.1.mode
      rw [hran.1] at hm
      cases hm

/-- What is signed before a submission is over has been signed. -/
theorem signed_of_visits (h : Visits b log ss s) (ho : ∀ r, s ≠ .ended r) : ∀ x ∈ ss, ∃ y, x.answer = .ok y := by
  refine Station.visits_induction (P := fun _ ss _ => ∀ x ∈ ss, ∃ y, x.answer = .ok y) (by simp) ?_ h ho
  intro log ss s q a s' seen hs hP ht x hx
  rcases List.mem_append.1 hx with hx | hx
  · exact hs x hx
  · cases hP with
    | sign =>
      rw [signed, List.mem_singleton] at hx
      exact ⟨_, by rw [hx]⟩
    | _ => cases hx

/-- If nothing was refused by the signer, the last answer is that of the ledger. -/
theorem lastAnswer?_of_replies {earlier : List (Σ c : LedgerCall, Except Fault c.Answer)} {c : LedgerCall}
    {x : Except Fault c.Answer} (hs : ∀ x ∈ ss, ∃ y, x.answer = .ok y) (hlog : replies log = earlier ++ [⟨c, x⟩]) :
    lastAnswer? log ss = some (.replied c x) := by
  unfold lastAnswer?
  split
  · rename_i f hf
    obtain ⟨y, hy, hf⟩ := Option.map_eq_some_iff.1 hf
    obtain ⟨z, hz⟩ := hs y (List.mem_of_getLast? hy)
    rw [hz] at hf
    cases hf
  · rw [hlog, List.getLast?_concat]
    rfl

/-- An ending without success is retryable just if what ended it may pass. -/
theorem passing_iff_of_finished {log' : List Event} {result : Except KeeperError Outcome}
    (h : Station.Finished b log ss result) (hr : result = .error e) (hlog : replies log' = replies log) :
    (∃ x, lastAnswer? log' ss = some x ∧ Passing b log' x) ↔ e.isRetryable = true := by
  cases h with
  | unbegun hs =>
    have hnone : lastAnswer? log' [] = none := by
      rw [lastAnswer?, hlog]
      rfl
    refine iff_of_false ?_ ?_
    · rintro ⟨x, hx, -⟩
      cases hnone.symm.trans hx
    · rcases Station.result_of_start hs with ⟨f, -, hr'⟩ | ⟨-, hr'⟩
      · cases hr.symm.trans hr'
        exact Bool.false_ne_true
      · cases hr.symm.trans hr'
        exact Bool.false_ne_true
  | @unsigned _ ss _ _ _ f hv =>
    cases hr
    refine iff_of_false ?_ Bool.false_ne_true
    rintro ⟨x, hx, hp⟩
    rw [lastAnswer?, List.getLast?_concat] at hx
    cases hx
    cases hp
  | @replied log _ _ before c x _ hv ho hF =>
    subst hr
    have hreplies : replies log' = replies (log ++ before) ++ [⟨c, x⟩] := by
      rw [hlog, ← List.append_assoc, replies_append, replies_exchange]
    have hlast : lastAnswer? log' ss = some (.replied c x) :=
      lastAnswer?_of_replies (signed_of_visits hv ho) hreplies
    rw [← passing_iff_of_finishes (Station.knows_of_visits hv ho) hF hlog]
    constructor
    · rintro ⟨y, hy, hp⟩
      cases hlast.symm.trans hy
      exact hp
    · exact fun hp => ⟨_, hlast, hp⟩

/-- So is one that was cut short. -/
theorem passing_iff_of_ends {log' : List Event} {exit : Exit} (h : Ends b log ss exit) (he : exit.error? = some e)
    (hlog : replies log' = replies log) :
    (∃ x, finale? log' ss exit = some x ∧ Passing b log' x) ↔ e.isRetryable = true := by
  cases h with
  | stopped _ hG _ =>
    cases he
    obtain ⟨stage, rfl⟩ := Station.stop_of_goes hG
    exact iff_of_true ⟨_, rfl, .cancelled⟩ rfl
  | dropped | late => cases he
  | @finished _ _ result hv =>
    cases result with
    | ok o => cases he
    | error e' =>
      cases he
      exact passing_iff_of_finished (Station.finished_of_visits hv) rfl hlog

end Passing

section Floor

variable {f : Floor} {t : Ticket} {task : Task} {ms : List Floor.Move} {exit : Exit} {e : KeeperError}

/-- **Whatever a ledger or a signer answers, and at whatever stage, what ended a submission decides whether it is tried
again.** -/
theorem verdict_of_run (h : Floor.run? {} ms = some f) (ht : f.tasks.get? t = some task)
    (he : task.standing.exit? = some exit) (hr : exit.error? = some e) :
    Judged task.brief task.log (finale? task.log (Floor.signings {} t ms) exit) e := by
  obtain ⟨log, hends, hlog⟩ := ends_of_narrated (narrated_of_run h ht) he
  refine judged_of_iff (passing_iff_of_ends hends hr ?_)
  rcases hlog with hlog | hlog
  · rw [hlog]
  · rw [hlog, replies_append]
    exact List.append_nil _

/-- A broadcast that was looked for in vain is tried again. -/
theorem verdict_of_search :
    ∃ f task exit, Floor.run? {} Sample.search = some f ∧ f.tasks.get? 0 = some task ∧
      task.standing.exit? = some exit ∧ exit.error? = some (.notFound 1 5) ∧
      (KeeperError.notFound 1 5).verdict = .nack (.notFound 1 5) (some 5000) ∧
      Judged task.brief task.log (finale? task.log (Floor.signings {} 0 Sample.search) exit) (.notFound 1 5) := by
  have h : ((Floor.run? {} Sample.search).bind fun f => (f.tasks.get? 0).bind fun task =>
      task.standing.exit?.bind Exit.error?) = some (.notFound 1 5) := by
    decide +kernel
  obtain ⟨f, hf, h⟩ := Option.bind_eq_some_iff.1 h
  obtain ⟨task, ht, h⟩ := Option.bind_eq_some_iff.1 h
  obtain ⟨exit, he, hr⟩ := Option.bind_eq_some_iff.1 h
  exact ⟨f, task, exit, hf, ht, he, hr, rfl, verdict_of_run hf ht he hr⟩

end Floor

end Submission

end OrderKeeper
