import OrderKeeper.Proofs.Keeper.Dispatch
import OrderKeeper.Proofs.Submission.Terms

/-!
# How often a work item is carried out

A ledger includes at most one transaction of an account under a nonce. All that an attempt hands to its node carries one
nonce, so that at most one of it is included (`once_of_run`), and an execution, which is attempted once, is carried out
once at most. A cancellation whose attempt ended without an answer is attempted again under a nonce of its own while the
transaction of the first may still be pending, and both may be included (`not_forall_once`); to cancel twice does no harm.
-/

namespace OrderKeeper

open Nonce (Ticket Key)
open Submission (Answers sends)

/-! ## Ledgers -/

/-- A ledger, by what it ever includes of each account: under each nonce at most one transaction. -/
structure Inclusions where
  included : Key → SignedTransaction → Prop
  unique : ∀ {k x y}, included k x → included k y → x.transaction.nonce = y.transaction.nonce → x = y

/-- The ledger that includes the transactions of a list, whose nonces are different. -/
def Inclusions.ofList (xs : List SignedTransaction) (h : (xs.map fun x => x.transaction.nonce).Nodup) : Inclusions where
  included _ x := x ∈ xs
  unique hx hy he := List.inj_on_of_nodup_map h hx hy he

namespace Shift

/-! ## Attempts -/

/-- What a ledger includes of the broadcasts of a work item. -/
structure Once (k : Keeper) (s : Shift) (n : Nat) (item : WorkItem) (ledger : Inclusions) : Prop where
  /-- At most one of each attempt. -/
  attempt : ∀ t ∈ s.attemptsOf n, ∀ x ∈ sends (s.floor.logOf t), ∀ y ∈ sends (s.floor.logOf t),
    ledger.included (k.brief item).key x → ledger.included (k.brief item).key y → x = y
  /-- Not more than there are attempts that have broadcast something. -/
  count : ∀ xs : List SignedTransaction, xs.Nodup →
    (∀ x ∈ xs, x ∈ s.broadcasts n ∧ ledger.included (k.brief item).key x) →
      xs.length ≤ ((s.attemptsOf n).filter fun t => !(sends (s.floor.logOf t)).isEmpty).length
  budget : (s.attemptsOf n).length ≤ item.maxRetries.toNat + 1
  /-- At most one of all if it is an execution. -/
  execute : item.action = .execute → ∀ x ∈ s.broadcasts n, ∀ y ∈ s.broadcasts n,
    ledger.included (k.brief item).key x → ledger.included (k.brief item).key y → x = y

section Once

variable {k : Keeper} {ids : Nat → String} {lines : List String} {s : Shift} {n : Nat} {line : String}
  {item : WorkItem} {ms : List Move} {t : Ticket} {x y : SignedTransaction} {ledger : Inclusions}

/-- All that a submission hands to its node carries one nonce. -/
theorem nonce_eq_of_sends {f : Submission.Floor} (hf : Submission.Sound f) (hx : x ∈ sends (f.logOf t))
    (hy : y ∈ sends (f.logOf t)) : x.transaction.nonce = y.transaction.nonce := by
  cases ht : f.tasks.get? t with
  | none =>
    rw [Submission.Floor.logOf, ht] at hx
    cases hx
  | some task =>
    obtain ⟨τ, hτ, -⟩ := hf.accounts.task t task ht
    rw [Submission.Floor.logOf, ht] at hx hy
    have hnonce := Submission.nonce?_of_broadcast hτ (Submission.called_of_mem_sends hx)
    rw [Submission.nonce?_of_broadcast hτ (Submission.called_of_mem_sends hy)] at hnonce
    exact (Option.some.inj hnonce).symm

/-- Of an attempt, at most one broadcast is included. -/
theorem eq_of_included {f : Submission.Floor} {key : Key} (hf : Submission.Sound f) (hx : x ∈ sends (f.logOf t))
    (hy : y ∈ sends (f.logOf t)) (hix : ledger.included key x) (hiy : ledger.included key y) : x = y :=
  ledger.unique hix hiy (nonce_eq_of_sends hf hx hy)

/-- Of all broadcasts of a line, as many are included as there are attempts that have broadcast something, at most. -/
theorem length_le_of_included {key : Key} (hf : Submission.Sound s.floor) {xs : List SignedTransaction}
    (hxs : xs.Nodup) (h : ∀ x ∈ xs, x ∈ s.broadcasts n ∧ ledger.included key x) :
    xs.length ≤ ((s.attemptsOf n).filter fun t => !(sends (s.floor.logOf t)).isEmpty).length := by
  -- each is one of the broadcasts of some attempt, and no two are of the same
  have hall : ∀ x ∈ xs, ∃ t, t ∈ s.attemptsOf n ∧ x ∈ sends (s.floor.logOf t) := fun x hx =>
    List.mem_flatMap.1 (h x hx).1
  choose! ticket hticket using hall
  have hnodup : (xs.map ticket).Nodup := by
    refine hxs.map_on fun x hx y hy he => ?_
    have hy' := (hticket y hy).2
    rw [← he] at hy'
    exact eq_of_included hf (hticket x hx).2 hy' (h x hx).2 (h y hy).2
  rw [← List.length_map ticket]
  refine hnodup.length_le_of_subset fun t ht => ?_
  obtain ⟨x, hx, rfl⟩ := List.mem_map.1 ht
  refine List.mem_filter.2 ⟨(hticket x hx).1, ?_⟩
  simp [List.ne_nil_of_mem (hticket x hx).2]

theorem Booked.length_le {o : Option JobRecord} (hb : Booked ids s n line o) (hl : Intake.ofLine line = .accepted item) :
    (s.attemptsOf n).length ≤ item.maxRetries.toNat + 1 := by
  cases hb with
  | blank hl' | rejected hl' =>
    rw [hl] at hl'
    cases hl'
  | working hl' _ ht =>
    rw [hl] at hl'
    cases hl'
    cases ht with
    | ready _ hb | pending _ _ hb | pausing _ _ hb => omega
  | reported hl' _ _ _ hb =>
    rw [hl] at hl'
    cases hl'
    exact hb

/-- The attempts of a line do not exceed the budget of its work item. -/
theorem length_attemptsOf_le (hs : Consistent k ids lines s) (hline : lines[n]? = some line)
    (hparse : WorkItem.parse line = .ok item) : (s.attemptsOf n).length ≤ item.maxRetries.toNat + 1 := by
  obtain ⟨out, hb⟩ := hs.books
  cases hattempts : s.attemptsOf n with
  | nil => exact Nat.zero_le _
  | cons t ts =>
    -- a line that was attempted was accepted
    obtain ⟨line', item', task, hat⟩ := hs.attributed.each n t (mem_attemptsOf.1 (by rw [hattempts]; exact .head _))
    have hsame := hat.given
    rw [hline] at hsame
    cases hsame
    have hitem := (Intake.ofLine_eq_accepted hat.accepted).2
    rw [hparse] at hitem
    cases hitem
    have hn : n < out.length := by
      rw [hb.length]
      by_contra hge
      rw [(hb.idle n (Nat.le_of_not_lt hge)).attempts] at hattempts
      cases hattempts
    rw [← hattempts]
    exact (hb.booked n line _ hline (List.getElem?_eq_getElem hn)).length_le hat.accepted

/-- **Of the broadcasts of a work item, a ledger includes at most one for each of its attempts.** -/
theorem once_of_run (h : (start lines).run? k ids ms = some s) (hline : lines[n]? = some line)
    (hparse : WorkItem.parse line = .ok item) (ledger : Inclusions) : Once k s n item ledger := by
  have hs := consistent_of_run h
  obtain ⟨fs, hfs⟩ := hs.floor
  have hf := Submission.sound_of_run hfs
  have hbudget := length_attemptsOf_le hs hline hparse
  constructor
  case attempt => exact fun t _ x hx y hy hix hiy => eq_of_included hf hx hy hix hiy
  case count => exact fun xs hxs => length_le_of_included hf hxs
  case budget => exact hbudget
  case execute =>
    intro he x hx y hy hix hiy
    rw [WorkItem.maxRetries, he] at hbudget
    by_contra hne
    have hpair : ∀ z ∈ [x, y], z ∈ s.broadcasts n ∧ ledger.included (k.brief item).key z := by
      intro z hz
      rcases List.mem_pair.1 hz with rfl | rfl
      · exact ⟨hx, hix⟩
      · exact ⟨hy, hiy⟩
    have htwo : 2 ≤ _ := length_le_of_included hf (List.nodup_cons.2 ⟨by simpa using hne, by simp⟩) hpair
    have hle := List.length_filter_le (fun t => !(sends (s.floor.logOf t)).isEmpty) (s.attemptsOf n)
    exact absurd (htwo.trans (hle.trans hbudget)) (by decide)

/-! ## A cancellation that is carried out twice -/

namespace Sample

/-- A ledger that takes broadcasts, and breaks off when it is asked for receipts. -/
def forgetful : Answers :=
  replying (Submission.Sample.answers none) fun
    | .receipt _ => .error (.rpc 1 "" "" (.transport ""))
    | c => (Submission.Sample.answers none).ledger c

/-- The same ledger a little later: the transaction of nonce 10 is pending. -/
def later : Answers :=
  replying forgetful fun
    | .pendingNonce _ => .ok 11
    | c => forgetful.ledger c

/-- One attempt of the first line, which loses its ledger after its broadcast. -/
def losing (t : Ticket) (x : Answers) : List Move :=
  .attempt 0 t :: List.replicate 23 (.go t x) ++ [.close t, .report 0]

/-- A cancellation is attempted, and attempted again. -/
def twice : List Move := .read :: losing 0 forgetful ++ [.resume 0] ++ losing 1 later

end Sample

theorem exists_run_twice : ∃ s item, (start [Sample.cancellation]).run? Sample.keeper toString Sample.twice = some s ∧
    WorkItem.parse Sample.cancellation = .ok item ∧
      (s.broadcasts 0).map (fun x => x.transaction.nonce) = [10, 11] := by
  have h : (((start [Sample.cancellation]).run? Sample.keeper toString Sample.twice).map fun s =>
      ((WorkItem.parse Sample.cancellation).toOption.isSome, (s.broadcasts 0).map fun x => x.transaction.nonce)) =
        some (true, [10, 11]) := by
    decide +kernel
  obtain ⟨s, hs, hboth⟩ := Option.map_eq_some_iff.1 h
  obtain ⟨hitem, hnonces⟩ := Prod.mk.inj hboth
  cases hparse : WorkItem.parse Sample.cancellation with
  | error e =>
    rw [hparse] at hitem
    cases hitem
  | ok item => exact ⟨s, item, hs, rfl, hnonces⟩

/-- Two attempts at a cancellation have broadcast one transaction each. -/
theorem once_of_two_attempts : ∃ s item, (start [Sample.cancellation]).run? Sample.keeper toString Sample.twice = some s ∧
    WorkItem.parse Sample.cancellation = .ok item ∧
      (s.broadcasts 0).map (fun x => x.transaction.nonce) = [10, 11] ∧
        ∀ ledger, Once Sample.keeper s 0 item ledger := by
  obtain ⟨s, item, hs, hparse, hnonces⟩ := exists_run_twice
  exact ⟨s, item, hs, hparse, hnonces, once_of_run hs rfl hparse⟩

/-- **A cancellation may be carried out more than once**: its second attempt broadcasts under the next nonce while the
transaction of the first is pending, and a ledger includes both. -/
theorem not_forall_once : ¬ ∀ (k : Keeper) (ids : Nat → String) (lines : List String) (ms : List Move) (s : Shift)
    (n : Nat) (line : String) (item : WorkItem) (ledger : Inclusions), (start lines).run? k ids ms = some s →
    lines[n]? = some line → WorkItem.parse line = .ok item → ∀ x ∈ s.broadcasts n, ∀ y ∈ s.broadcasts n,
      ledger.included (k.brief item).key x → ledger.included (k.brief item).key y → x = y := by
  intro hall
  obtain ⟨s, item, hs, hparse, hnonces⟩ := exists_run_twice
  have hnodup : ((s.broadcasts 0).map fun x => x.transaction.nonce).Nodup := by
    rw [hnonces]
    decide
  obtain ⟨x, xs, hbroadcasts, hx, hxs⟩ := List.map_eq_cons_iff.1 hnonces
  obtain ⟨y, ys, rfl, hy, -⟩ := List.map_eq_cons_iff.1 hxs
  have hxm : x ∈ s.broadcasts 0 := by simp [hbroadcasts]
  have hym : y ∈ s.broadcasts 0 := by simp [hbroadcasts]
  obtain rfl := hall _ _ _ _ s 0 _ item (.ofList (s.broadcasts 0) hnodup) hs rfl hparse x hxm y hym hxm hym
  exact absurd (hx.symm.trans hy) (by decide)

end Once

end Shift

end OrderKeeper
