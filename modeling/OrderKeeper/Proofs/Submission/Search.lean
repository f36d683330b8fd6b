import OrderKeeper.Proofs.Submission.Findings
import OrderKeeper.Proofs.Submission.Verdicts

/-!
# Whether a failure can hide an inclusion

A submission that fails for good has looked up every hash that its broadcasts gave, and no look-up came at a moment at
which the ledger held a success for the hash (`searched_of_run`). The last look-ups follow the last broadcast that gave a
hash, but for those that a failure on chain cuts short. What happens after them goes unseen: the price of the next
broadcast may fail for the very reason that an earlier one has been included meanwhile, and the submission then fails for
good (`not_forall_unincluded`).
-/

namespace OrderKeeper.Submission

open Nonce (Ticket)

/-! ## Look-ups in a log -/

section Looks

variable {log seen : List Event} {hash : Hash} {found : Option Receipt}

/-- A hash was looked up. -/
def LookedUp (log : List Event) (hash : Hash) : Prop := ∃ found, .replied (.receipt hash) (.ok found) ∈ log

/-- A hash was looked up after the last broadcast that gave one. -/
def LookedUpLast (log : List Event) (hash : Hash) : Prop :=
  ∃ before found after, log = before ++ .replied (.receipt hash) (.ok found) :: after ∧ obtained after = []

theorem LookedUp.append (h : LookedUp log hash) : LookedUp (log ++ seen) hash := by
  obtain ⟨found, hm⟩ := h
  exact ⟨found, List.mem_append_left _ hm⟩

theorem LookedUpLast.lookedUp (h : LookedUpLast log hash) : LookedUp log hash := by
  obtain ⟨before, found, after, rfl, -⟩ := h
  exact ⟨found, by simp⟩

/-- What gives no hash leaves the last look-ups the last. -/
theorem LookedUpLast.append (h : LookedUpLast log hash) (hs : obtained seen = []) :
    LookedUpLast (log ++ seen) hash := by
  obtain ⟨before, found, after, rfl, ha⟩ := h
  refine ⟨before, found, after ++ seen, by simp, ?_⟩
  rw [obtained_append, ha, hs]
  rfl

theorem lookedUpLast_exchange :
    LookedUpLast (log ++ (seen ++ exchange (.receipt hash) (.ok found))) hash :=
  ⟨log ++ seen ++ [.called (.receipt hash)], found, [], by simp [exchange], rfl⟩

end Looks

/-! ## Look-ups on the way -/

theorem Round.hashes_of_known {r : Round} {hash looked : Hash} {others : List Hash}
    (h : r.known hash = looked :: others) : ∀ g ∈ others, g ∈ r.hashes := by
  unfold Round.known Escalation.addHash at h
  split at h
  · rw [h]
    exact fun g => List.mem_cons_of_mem _
  · cases h
    exact fun g => id

namespace Station

variable {b : Brief} {log seen : List Event} {ss : List Signing} {s : Station}

/-- What a station says of the look-ups so far: before each broadcast, all hashes have been looked up since the last one;
after it, the older ones have been looked up at least once, and those not yet looked up again are left to look up. -/
def Sought (log : List Event) : Station → Prop
  | requoting _ _ | signing _ _ (some _) | sending _ _ (some _) _ => ∀ h ∈ obtained log, LookedUpLast log h
  | pausing _ _ r _ => ∀ h ∈ r.hashes, LookedUp log h
  | looking _ _ _ _ looked others =>
    (∀ h ∈ others, LookedUp log h) ∧ ∀ h ∈ obtained log, h ∈ looked :: others ∨ LookedUpLast log h
  | outset | cleared | leased _ | based .. | quoting .. | signing _ _ none | sending _ _ none _ | watching .. | ended _ =>
    True

/-- After the look-up of one of some hashes, the others are left. -/
theorem looked_up_of_look {looked : Hash} {others : List Hash} {found : Option Receipt}
    (h : ∀ h ∈ obtained log, h ∈ looked :: others ∨ LookedUpLast log h) :
    ∀ h ∈ obtained (log ++ exchange (.receipt looked) (.ok found)),
      h ∈ others ∨ LookedUpLast (log ++ exchange (.receipt looked) (.ok found)) h := by
  intro g hg
  rw [obtained_append] at hg
  rcases h g (by simpa [exchange, obtained, Event.obtained?] using hg) with hm | hl
  · rcases List.mem_cons.1 hm with rfl | hm
    · exact .inr (@lookedUpLast_exchange log [] g found)
    · exact .inl hm
  · exact .inr (hl.append rfl)

theorem sought_of_passes {q : Question} {a : q.Answer} {s' : Station} (hk : Knows b log s) (hs : Sought log s)
    (hP : Passes b s q a s') (ht : Tells q a seen) : Sought (log ++ seen) s' := by
  cases hP with
  | check | lease | baseFee | plainFee | gasPrice | priorityFee | quoteOnce | sendOnce => trivial
  | quoteFirst =>
    intro h hh
    rw [(ht.unsent rfl).obtained_append, hk.2] at hh
    cases hh
  | requote =>
    have hu := ht.unsent rfl
    intro h hh
    rw [hu.obtained_append] at hh
    exact (hs h hh).append hu.obtained
  | @sign n offer round x =>
    cases round with
    | none => trivial
    | some r =>
      have hu := ht.unsent rfl
      intro h hh
      rw [hu.obtained_append] at hh
      exact (hs h hh).append hu.obtained
  | send => exact fun h hh => (hs h ((hk.hashes h).1 hh)).lookedUp.append
  | pause hr =>
    refine ⟨fun h hh => (hs h (Round.hashes_of_known hr h hh)).append, fun h hh => .inl ?_⟩
    rw [(ht.unsent rfl).obtained_append, ← hk.hashes, hr] at hh
    exact hh
  | look ha =>
    obtain ⟨found, rfl⟩ := ha.exists_ok
    cases ht
    exact ⟨fun h hh => (hs.1 h (List.mem_cons_of_mem _ hh)).append, looked_up_of_look hs.2⟩
  | escalate ha =>
    obtain ⟨found, rfl⟩ := ha.exists_ok
    cases ht
    intro h hh
    exact (looked_up_of_look hs.2 h hh).resolve_left List.not_mem_nil

theorem sought_of_visits (h : Visits b log ss s) (ho : ∀ r, s ≠ ended r) : Sought log s := by
  refine (visits_induction (P := fun log _ s => Knows b log s ∧ Sought log s) ⟨⟨rfl, rfl⟩, trivial⟩ ?_ h ho).2
  rintro log ss s q a s' seen ⟨hk, hs⟩ hP ht
  exact ⟨knows_of_passes hk hP ht, sought_of_passes hk hs hP ht⟩

end Station

/-! ## Look-ups before a failure -/

/-- The failure is one on chain. -/
def OnChain (e : KeeperError) : Prop := ∃ contract hash block, e = .reverted contract hash block

/-- What a log tells of a hash when the submission has failed for good. -/
structure Pursued (log : List Event) (e : KeeperError) (hash : Hash) : Prop where
  unseen : ∀ found, .replied (.receipt hash) (.ok found) ∈ log → found.any Receipt.isSuccess = false
  looked : LookedUp log hash
  last : ¬ OnChain e → LookedUpLast log hash

section Failures

variable {b : Brief} {log seen : List Event} {ss : List Signing} {s : Station} {e : KeeperError} {hash : Hash}

theorem unseen_of_quiet (h : Station.Quiet log) :
    ∀ found, .replied (.receipt hash) (.ok found) ∈ log → found.any Receipt.isSuccess = false :=
  fun found hm => (h hash (.ok found) hm).not_success

theorem quiet_of_looked {w : Watch} {n : Nat} (h : Looked w n seen) : Station.Quiet seen := by
  induction h with
  | none => exact fun _ _ hm => absurd hm List.not_mem_nil
  | more _ ha ih =>
    intro g a hm
    rcases List.mem_append.1 hm with hm | hm
    · exact ih g a hm
    · cases reply_of_mem_exchange hm
      exact (Watch.pausing_of_answer ha).2.1

/-- What is left to look up at a look-up has been looked up before. -/
theorem looked_up_of_looking {looked : Hash} {n : UInt64} {attempts : UInt32} (hk : Station.Knows b log s)
    (hs : Station.Sought log s) (hl : Station.Looking b s seen looked n attempts) (hh : hash ∈ obtained log) :
    hash = looked ∨ LookedUp log hash := by
  cases hl with
  | watching =>
    obtain ⟨-, before, x, a, rfl, -, hnone, ha⟩ := hk
    rw [obtained_append, hnone, obtained_of_judge ha] at hh
    exact .inl (by simpa using hh)
  | looking =>
    rcases hs.2 hash hh with hm | hl
    · rcases List.mem_cons.1 hm with rfl | hm
      · exact .inl rfl
      · exact .inr (hs.1 hash hm)
    · exact .inr hl.lookedUp

/-- Where all hashes have been looked up since the last broadcast, nothing is left to look up. -/
theorem pursued_of_lookedUpLast (hq : Station.Quiet log) (hl : LookedUpLast log hash) : Pursued log e hash :=
  ⟨unseen_of_quiet hq, hl.lookedUp, fun _ => hl⟩

/-- What neither gives a hash nor looks one up changes nothing. -/
theorem Pursued.append (h : Pursued log e hash) (ho : obtained seen = [])
    (hn : ∀ found, .replied (.receipt hash) (.ok found) ∉ seen) : Pursued (log ++ seen) e hash := by
  constructor
  case unseen =>
    intro found hm
    rcases List.mem_append.1 hm with hm | hm
    · exact h.unseen found hm
    · exact absurd hm (hn found)
  case looked => exact h.looked.append
  case last => exact fun he => (h.last he).append ho

/-- The last look-up shows a failure on chain. -/
theorem pursued_of_reverted {looked : Hash} {n : UInt64} {attempts : UInt32} {r : Receipt}
    (hv : Visits b log ss s) (ho : ∀ r, s ≠ .ended r) (hl : Station.Looking b s seen looked n attempts)
    (hr : r.status = false) (he : OnChain e) (hh : hash ∈ obtained log) :
    Pursued (log ++ (seen ++ exchange (.receipt looked) (.ok (some r)))) e hash := by
  constructor
  case unseen =>
    intro found hm
    rcases List.mem_append.1 hm with hm | hm
    · exact unseen_of_quiet (Station.quiet_of_visits hv ho) found hm
    · rcases List.mem_append.1 hm with hbefore | hlast
      · cases hl with
        | watching hlooked => exact unseen_of_quiet (quiet_of_looked hlooked) found hbefore
        | looking => cases hbefore
      · cases reply_of_mem_exchange hlast
        simp [Receipt.isSuccess, hr]
  case looked =>
    rcases looked_up_of_looking (Station.knows_of_visits hv ho) (Station.sought_of_visits hv ho) hl hh with rfl | hm
    · exact lookedUpLast_exchange.lookedUp
    · exact hm.append
  case last => exact fun hn => absurd he hn

/-- The last look-up of the last round shows nothing. -/
theorem pursued_of_spent {n : UInt64} {offer : Offer} {r : Round} {last looked : Hash} {found : Option Receipt}
    (hv : Visits b log ss (.looking n offer r last looked []))
    (ho : ∀ r', Station.looking n offer r last looked [] ≠ .ended r')
    (hu : Receipt.Undecided looked (.ok found)) (hh : hash ∈ obtained log) :
    Pursued (log ++ ([] ++ exchange (.receipt looked) (.ok found))) e hash := by
  have hl : LookedUpLast (log ++ ([] ++ exchange (.receipt looked) (.ok found))) hash := by
    rcases (Station.sought_of_visits hv ho).2 hash hh with hm | hl
    · rw [List.mem_singleton.1 hm]
      exact lookedUpLast_exchange
    · exact hl.append rfl
  constructor
  case unseen =>
    intro g hm
    rcases List.mem_append.1 hm with hm | hm
    · exact unseen_of_quiet (Station.quiet_of_visits hv ho) g hm
    · cases reply_of_mem_exchange hm
      exact hu.not_success
  case looked => exact hl.lookedUp
  case last => exact fun _ => hl

/-- The ledger's last answer leaves no hash of a failure unsought. -/
theorem pursued_of_finishes {before : List Event} {c : LedgerCall} {x : Except Fault c.Answer}
    (hv : Visits b log ss s) (ho : ∀ r, s ≠ .ended r) (hF : Station.Finishes b s before c x (.error e))
    (hr : e.isRetryable = false) (hh : hash ∈ obtained (log ++ (before ++ exchange c x))) :
    Pursued (log ++ (before ++ exchange c x)) e hash := by
  have hk := Station.knows_of_visits hv ho
  have hs := Station.sought_of_visits hv ho
  have hq := Station.quiet_of_visits hv ho
  -- before any broadcast there is no hash
  have hfresh (hk : obtained log = []) (hx : obtained (before ++ exchange c x) = []) : False := by
    rw [obtained_append, hk, hx] at hh
    cases hh
  generalize hresult : Except.error e = result at hF
  cases hF with
  | undeployed | unchecked | noBaseFee | unsupported | noGasPrice | noPriorityFee | unquoted =>
    exact (hfresh hk.2 rfl).elim
  | nothing | found => cases hresult
  | unleased | unread | unfound =>
    cases hresult
    cases hr
  | unrequoted =>
    rw [Unsent.obtained_append ⟨rfl, rfl⟩] at hh
    exact (pursued_of_lookedUpLast hq (hs hash hh)).append rfl (by simp [exchange])
  | @unsent n offer round x f hf =>
    have hnone : obtained (exchange (.send x) (.error f)) = [] := by
      simp [obtained, exchange, List.filterMap_cons, Event.obtained?, hf]
    cases round with
    | none => exact (hfresh hk.2.2 hnone).elim
    | some r =>
      rw [obtained_append, List.nil_append, hnone, List.append_nil] at hh
      exact (pursued_of_lookedUpLast hq (hs hash hh)).append hnone (by simp [exchange])
  | @reverted _ _ looked _ _ r hl hstatus =>
    cases hresult
    have hu : Unsent (before ++ exchange (.receipt looked) (.ok (some r))) :=
      (given_of_looking hk hl).2.2.1.append ⟨rfl, rfl⟩
    rw [hu.obtained_append] at hh
    exact pursued_of_reverted hv ho hl hstatus ⟨_, _, _, rfl⟩ hh
  | spent hc =>
    rw [Unsent.obtained_append ⟨rfl, rfl⟩] at hh
    exact pursued_of_spent hv ho hc hh

theorem pursued_of_visits (h : Visits b log ss (.ended (.error e))) (hr : e.isRetryable = false)
    (hh : hash ∈ obtained log) : Pursued log e hash := by
  cases Station.finished_of_visits h with
  | unbegun => cases hh
  | @unsigned _ _ n offer round f hv =>
    have ho (r : Except KeeperError Outcome) : Station.signing n offer round ≠ .ended r := by
      intro h
      cases h
    have hk := Station.knows_of_visits hv ho
    cases round with
    | none =>
      rw [hk.2.2] at hh
      cases hh
    | some r => exact pursued_of_lookedUpLast (Station.quiet_of_visits hv ho) (Station.sought_of_visits hv ho hash hh)
  | replied hv ho hF => exact pursued_of_finishes hv ho hF hr hh

end Failures

/-! ## Logs in time -/

namespace Floor

variable {f g : Floor} {t : Ticket} {m : Move}

theorem logOf_of_get? {task : Task} (h : f.tasks.get? t = some task) : f.logOf t = task.log := by
  rw [logOf, h]

theorem logOf_of_apply (h : f.apply m = some g) : ∃ seen, g.logOf t = f.logOf t ++ seen := by
  cases ht : f.tasks.get? t with
  | none => exact ⟨g.logOf t, by rw [logOf, logOf, ht]; rfl⟩
  | some task =>
    obtain ⟨task', seen, hg, -, hlog⟩ := log_of_apply h ht
    exact ⟨seen, by rw [logOf_of_get? hg, logOf_of_get? ht, hlog]⟩

/-- A timeline is what has been added to the log. -/
theorem logOf_of_run : ∀ {ms : List Move} {f : Floor} (now : Nat), f.run? ms = some g →
    g.logOf t = f.logOf t ++ (f.timeline t now ms).map Prod.snd
  | [], f, now, h => by
    cases h
    simp [timeline]
  | m :: ms, f, now, h => by
    obtain ⟨e, he, h⟩ := run?_cons.1 h
    obtain ⟨seen, hseen⟩ := logOf_of_apply (t := t) he
    have hsnd : (seen.map (now, ·)).map Prod.snd = seen := by simp [Function.comp_def]
    rw [logOf_of_run (now + 1) h]
    simp [timeline, he, hseen, hsnd, -List.map_map]

end Floor

theorem found_eq_of_mem_looks {line : List (Nat × Event)} {l : Look} (h : l ∈ looks line) :
    (l.moment, .replied (.receipt l.hash) (.ok l.found)) ∈ line := by
  obtain ⟨⟨n, e⟩, hm, hl⟩ := List.mem_filterMap.1 h
  obtain ⟨⟨hash, found⟩, he, rfl⟩ := Option.map_eq_some_iff.1 hl
  unfold Event.found? at he
  split at he
  · cases he
    exact hm
  · cases he

theorem mem_looks {line : List (Nat × Event)} {hash : Hash} {found : Option Receipt}
    (h : .replied (.receipt hash) (.ok found) ∈ line.map Prod.snd) : ∃ n, ⟨n, hash, found⟩ ∈ looks line := by
  obtain ⟨⟨n, e⟩, hm, rfl⟩ := List.mem_map.1 h
  exact ⟨n, List.mem_filterMap.2 ⟨_, hm, rfl⟩⟩

/-! ## Inclusions -/

/-- What is true of a hash when a submission fails for good, by what its ledger held from moment to moment. -/
structure Searched (chain : Chronicle) (line : List (Nat × Event)) (e : KeeperError) (hash : Hash) : Prop where
  /-- Whenever it was looked up, the ledger held no success for it. -/
  unseen : ∀ l ∈ looks line, l.hash = hash → chain.includes l.moment hash = false
  looked : ∃ l ∈ looks line, l.hash = hash
  /-- It was looked up after the last broadcast that gave a hash, unless a failure on chain cut the look-ups short. -/
  last : ¬ OnChain e → ∃ before after, line = before ++ after ∧ (∃ l ∈ looks after, l.hash = hash) ∧
    obtained (after.map Prod.snd) = []

section Floor

variable {f : Floor} {t : Ticket} {task : Task} {ms : List Floor.Move} {exit : Exit} {e : KeeperError} {hash : Hash}
  {chain : Chronicle} {line : List (Nat × Event)}

theorem searched_of_pursued (hp : Pursued (line.map Prod.snd) e hash) (hchain : Truthful chain line) :
    Searched chain line e hash := by
  constructor
  case unseen =>
    intro l hl hhash
    subst hhash
    rw [Chronicle.includes, ← hchain l hl]
    exact hp.unseen l.found (List.mem_map_of_mem (found_eq_of_mem_looks hl))
  case looked =>
    obtain ⟨found, hm⟩ := hp.looked
    obtain ⟨n, hl⟩ := mem_looks hm
    exact ⟨_, hl, rfl⟩
  case last =>
    intro he
    obtain ⟨before, found, after, heq, ho⟩ := hp.last he
    obtain ⟨before', after', rfl, -, hafter⟩ := List.map_eq_append_iff.1 heq
    have hm : .replied (.receipt hash) (.ok found) ∈ after'.map Prod.snd := by
      rw [hafter]
      exact List.mem_cons_self
    obtain ⟨n, hl⟩ := mem_looks hm
    exact ⟨before', after', rfl, ⟨_, hl, rfl⟩, by rw [hafter]; exact ho⟩

/-- **A submission that failed for good has not overlooked any success that its ledger held when it last looked.** -/
theorem searched_of_run (h : Floor.run? {} ms = some f) (ht : f.tasks.get? t = some task)
    (he : task.standing.exit? = some exit) (hr : exit.error? = some e) (hv : e.verdict = .fail e)
    (hchain : Truthful chain (Floor.timeline {} t 0 ms)) :
    ∀ hash ∈ obtained task.log, Searched chain (Floor.timeline {} t 0 ms) e hash := by
  intro hash hh
  have hlog : (Floor.timeline {} t 0 ms).map Prod.snd = task.log := by
    rw [← Floor.logOf_of_get? ht, Floor.logOf_of_run 0 h]
    rfl
  have hfail : e.isRetryable = false := by
    cases hf : e.isRetryable with
    | false => rfl
    | true =>
      rw [KeeperError.verdict_of_isRetryable hf] at hv
      cases hv
  refine searched_of_pursued ?_ hchain
  rw [hlog]
  obtain ⟨log, hends, hlog⟩ := ends_of_narrated (narrated_of_run h ht) he
  cases hends with
  | stopped _ hG _ =>
    cases hr
    obtain ⟨stage, rfl⟩ := Station.stop_of_goes hG
    cases hfail
  | dropped | late => cases hr
  | @finished _ _ result hvisits =>
    cases result with
    | ok o => cases hr
    | error e' =>
      cases hr
      rcases hlog with hlog | hlog
      · rw [hlog] at hh ⊢
        exact pursued_of_visits hvisits hfail hh
      · rw [hlog] at hh ⊢
        rw [obtained_append] at hh
        exact (pursued_of_visits hvisits hfail (by simpa [obtained, Event.obtained?] using hh)).append rfl (by simp)

/-- The look-up after the only broadcast finds nothing; then the order is executed, and the next broadcast gets no price.
One more step ends the submission. -/
def Sample.overtaken : List Floor.Move :=
  ⟨0, .enter (Sample.brief .optimized)⟩ :: Sample.goes 0 22 none ++ List.replicate 2 ⟨0, .go Sample.executed⟩

/-- A ledger that has included every broadcast from a moment on. -/
def Sample.includedFrom (moment : Nat) : Chronicle := fun now hash =>
  if now < moment then none else some ⟨hash, some 1, true, 21000⟩

/-- The last look-up came before the inclusion. -/
theorem Sample.truthful_overtaken : Truthful (Sample.includedFrom 23)
    (Floor.timeline {} 0 0 (Sample.overtaken ++ [⟨0, .go Sample.executed⟩])) := by
  have hlooks : looks (Floor.timeline {} 0 0 (Sample.overtaken ++ [⟨0, .go Sample.executed⟩])) = [⟨22, 5, none⟩] := by
    decide +kernel
  rw [Truthful, hlooks]
  decide

/-- The only broadcast has been looked up in vain. -/
theorem searched_of_overtaken :
    ∃ f task exit e, Floor.run? {} (Sample.overtaken ++ [⟨0, .go Sample.executed⟩]) = some f ∧
      f.tasks.get? 0 = some task ∧ task.standing.exit? = some exit ∧ Exit.error? exit = some e ∧
      e.verdict = .fail e ∧ 5 ∈ obtained task.log ∧
      Truthful (Sample.includedFrom 23) (Floor.timeline {} 0 0 (Sample.overtaken ++ [⟨0, .go Sample.executed⟩])) ∧
      Searched (Sample.includedFrom 23) (Floor.timeline {} 0 0 (Sample.overtaken ++ [⟨0, .go Sample.executed⟩])) e 5 := by
  have h : ((Floor.run? {} (Sample.overtaken ++ [⟨0, .go Sample.executed⟩])).bind fun f =>
      (f.tasks.get? 0).bind fun task => task.standing.exit?.bind fun exit => exit.error?.map fun e =>
        (e.isRetryable, obtained task.log)) = some (false, [5]) := by
    decide +kernel
  obtain ⟨f, hf, h⟩ := Option.bind_eq_some_iff.1 h
  obtain ⟨task, ht, h⟩ := Option.bind_eq_some_iff.1 h
  obtain ⟨exit, he, h⟩ := Option.bind_eq_some_iff.1 h
  obtain ⟨e, hr, h⟩ := Option.map_eq_some_iff.1 h
  obtain ⟨hfail, hobtained⟩ := Prod.mk.inj h
  have hv := KeeperError.verdict_of_not_isRetryable hfail
  have hgiven : 5 ∈ obtained task.log := by
    rw [hobtained]
    exact List.mem_singleton_self 5
  exact ⟨f, task, exit, e, hf, ht, he, hr, hv, hgiven, Sample.truthful_overtaken,
    searched_of_run hf ht he hr hv Sample.truthful_overtaken 5 hgiven⟩

/-- A broadcast may well be included at the moment at which the submission fails for good: here it is from the moment on
at which the price of the next one is asked for. -/
theorem not_forall_unincluded :
    ¬ ∀ (ms : List Floor.Move) (m : Floor.Move) (f g : Floor) (t : Ticket) (task : Task) (e : KeeperError)
      (chain : Chronicle) (hash : Hash), Floor.run? {} ms = some f → f.apply m = some g →
      (f.tasks.get? t).bind (·.standing.exit?) = none → g.tasks.get? t = some task → task.brief.mode = .optimized →
      task.standing.exit?.bind Exit.error? = some e → e.verdict = .fail e →
      Truthful chain (Floor.timeline {} t 0 (ms ++ [m])) → hash ∈ obtained task.log →
      chain.includes ms.length hash = false := by
  intro hclaim
  have h : ((Floor.run? {} Sample.overtaken).bind fun f => (f.apply ⟨0, .go Sample.executed⟩).bind fun g =>
      (g.tasks.get? 0).bind fun task => (task.standing.exit?.bind Exit.error?).map fun e =>
        (((f.tasks.get? 0).bind (·.standing.exit?)).isNone, task.brief.mode, e.isRetryable, obtained task.log)) =
      some (true, .optimized, false, [5]) := by
    decide +kernel
  obtain ⟨f, hf, h⟩ := Option.bind_eq_some_iff.1 h
  obtain ⟨g, hg, h⟩ := Option.bind_eq_some_iff.1 h
  obtain ⟨task, ht, h⟩ := Option.bind_eq_some_iff.1 h
  obtain ⟨e, he, h⟩ := Option.map_eq_some_iff.1 h
  simp only [Prod.mk.injEq, Option.isNone_iff_eq_none] at h
  obtain ⟨hopen, hmode, hfail, hobtained⟩ := h
  have hfalse := hclaim Sample.overtaken ⟨0, .go Sample.executed⟩ f g 0 task e (Sample.includedFrom 23) 5 hf hg hopen
    ht hmode he (KeeperError.verdict_of_not_isRetryable hfail) Sample.truthful_overtaken (by simp [hobtained])
  exact absurd hfalse (by decide)

end Floor

end OrderKeeper.Submission
