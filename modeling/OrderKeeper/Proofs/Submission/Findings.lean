import OrderKeeper.Proofs.Submission.Terms

/-!
# What a submission's result says of its run

A submission reports nothing that its ledger did not show it (`findings_of_run`). An inclusion is that of a receipt
which answers the look-up of a hash that one of its own broadcasts gave, and counts its broadcasts; a failure on chain is
shown by such a receipt, too; and the budget is exhausted only after all of its broadcasts, none of which was ever found.
-/

namespace OrderKeeper.Submission

open Nonce (Ticket)

/-! ## Findings -/

/-- The ledger showed a receipt for a hash that a broadcast had given before. -/
def Shows (log : List Event) (hash : Hash) (receipt : Receipt) : Prop :=
  ∃ before after, log = before ++ .replied (.receipt hash) (.ok (some receipt)) :: after ∧ hash ∈ obtained before

/-- What is true of a run that reports an inclusion. -/
structure Included (b : Brief) (log : List Event) (hash : Hash) (block : Option UInt64) (gas : UInt64)
    (nonce : UInt64) (attempts : UInt32) : Prop where
  /-- The receipt of one of its broadcasts shows just this. -/
  shown : ∃ looked, Shows log looked ⟨hash, block, true, gas⟩
  placed : ∃ number, block = some number ∧ 0 < number
  nonces : ∀ x ∈ sends log, x.transaction.nonce = nonce
  tally : attempts = UInt32.ofNat (sends log).length
  /-- The broadcasts are counted; only the greatest budget allows for more than the counter can tell. -/
  counted : (sends log).length < UInt32.size → attempts.toNat = (sends log).length
  bounded : (sends log).length ≤ b.settings.maxEscalations.toNat + 1

/-- What is true of a run that has used up its budget. -/
structure Exhausted (b : Brief) (log : List Event) (last : Option Hash) : Prop where
  all : (sends log).length = b.settings.maxEscalations.toNat + 1
  given : ∃ hash, last = some hash ∧ LastGave log hash
  quiet : Station.Quiet log

/-- What a result says of the run. -/
def Findings (b : Brief) (log : List Event) : Except KeeperError Outcome → Prop
  | .ok (.included hash block gas nonce attempts) => Included b log hash block gas nonce attempts
  | .error (.reverted _ hash _) => ∃ receipt, Shows log hash receipt ∧ receipt.status = false
  | .error (.budgetExhausted _ _ last) => Exhausted b log last
  | _ => True

theorem Exit.outcome?_eq_some {exit : Exit} {o : Outcome} : exit.outcome? = some o ↔ exit = .finished (.ok o) := by
  cases exit with
  | finished r => cases r <;> simp [outcome?]
  | stopped e => simp [outcome?]
  | dropped => simp [outcome?]

/-! ## The last look-up -/

section Looks

variable {b : Brief} {log seen : List Event} {ss : List Signing} {s : Station} {n : UInt64} {hash : Hash}
  {receipt : Receipt} {attempts : UInt32}

/-- A look-up at the end of a log. -/
theorem shows_of_exchange (h : hash ∈ obtained log) :
    Shows (log ++ (seen ++ exchange (.receipt hash) (.ok (some receipt)))) hash receipt := by
  refine ⟨log ++ seen ++ [.called (.receipt hash)], [], by simp [exchange], ?_⟩
  simp [h]

theorem Shows.append (h : Shows log hash receipt) : Shows (log ++ seen) hash receipt := by
  obtain ⟨before, after, rfl, hh⟩ := h
  exact ⟨before, after ++ seen, by simp, hh⟩

/-- What is looked up was given by a broadcast, and the broadcasts are counted. -/
theorem given_of_looking (hk : Station.Knows b log s) (hl : Station.Looking b s seen hash n attempts) :
    hash ∈ obtained log ∧ attempts = UInt32.ofNat (sends log).length ∧ Unsent seen ∧ leases seen = [] ∧
      s.nonce? = some n := by
  cases hl with
  | watching hlooked =>
    obtain ⟨-, before, x, a, rfl, hs, -, ha⟩ := hk
    refine ⟨?_, ?_, hlooked.unsent, hlooked.unleased, rfl⟩
    · simp [obtained_of_judge ha]
    · simp [hs, sends_exchange_send]
  | looking =>
    obtain ⟨hout, hothers⟩ := hk
    exact ⟨(hout.hashes hash).1 (hothers hash List.mem_cons_self), hout.attempt, ⟨rfl, rfl⟩, rfl, rfl⟩

/-- All transactions of a submission have the nonce of its lease. -/
theorem Terms.nonce_eq (h : Terms b n log ss) {x : SignedTransaction} (hx : x ∈ sends log) :
    x.transaction.nonce = n := by
  obtain ⟨before, after, rfl⟩ := List.append_of_mem (called_of_mem_sends hx)
  exact (h.each before x after rfl).nonce

/-- What a receipt that shows a success tells of the run. -/
theorem included_of_looking {log' : List Event} {m : UInt64} (hv : Visits b log ss s) (ho : ∀ r, s ≠ .ended r)
    (hl : Station.Looking b s seen hash n attempts) (hstatus : receipt.status = true)
    (hblock : ∃ number, receipt.blockNumber = some number ∧ 0 < number)
    (hlog : log' = log ++ (seen ++ exchange (.receipt hash) (.ok (some receipt))))
    (hm : leases log' = [] ∨ leases log' = [m]) (hT : Terms b m log' ss) :
    Included b log' receipt.transactionHash receipt.blockNumber receipt.gasUsed n attempts := by
  obtain ⟨hgiven, hcount, hunsent, hunleased, hnonce⟩ := given_of_looking (Station.knows_of_visits hv ho) hl
  have htail : Unsent (seen ++ exchange (.receipt hash) (.ok (some receipt))) := hunsent.append ⟨rfl, rfl⟩
  have hsends : sends log' = sends log := by rw [hlog, htail.sends_append]
  have hleases : leases log' = [n] := by
    rw [hlog, leases_append, leases_append, hunleased, Station.leases_of_visits hv ho, hnonce]
    rfl
  have hmn : m = n := by
    rw [hleases] at hm
    simpa [eq_comm] using hm
  constructor
  case shown =>
    refine ⟨hash, ?_⟩
    rw [hlog, ← hstatus]
    exact shows_of_exchange hgiven
  case placed => exact hblock
  case nonces =>
    intro x hx
    rw [← hmn]
    exact hT.nonce_eq hx
  case tally =>
    rw [hsends]
    exact hcount
  case counted =>
    intro hsize
    rw [hsends] at hsize ⊢
    rw [hcount, UInt32.toNat_ofNat_of_lt' hsize]
  case bounded =>
    cases hmode : b.mode with
    | simple =>
      have hle := hT.once hmode
      omega
    | optimized => exact hT.budget hmode

/-- The budget is exhausted after the last look-up of the last round. -/
theorem exhausted_of_spent {offer : Offer} {r : Round} {looked : Hash} {found : Option Receipt}
    (hv : Visits b log ss (.looking n offer r hash looked [])) (hu : Receipt.Undecided looked (.ok found))
    (hleft : r.left = 0) :
    Exhausted b (log ++ ([] ++ exchange (.receipt looked) (.ok found))) (some hash) := by
  have ho (result : Except KeeperError Outcome) : Station.looking n offer r hash looked [] ≠ .ended result := by
    intro h
    cases h
  obtain ⟨hout, -⟩ := Station.knows_of_visits hv ho
  have hunsent : Unsent ([] ++ exchange (.receipt looked) (.ok found)) := ⟨rfl, rfl⟩
  constructor
  case all =>
    have hb := hout.budget
    rw [hunsent.sends_append]
    omega
  case given => exact ⟨hash, rfl, hout.last.append hunsent⟩
  case quiet =>
    intro looked' a' hm
    rcases List.mem_append.1 hm with hm | hm
    · exact Station.quiet_of_visits hv ho looked' a' hm
    · cases reply_of_mem_exchange hm
      exact hu

end Looks

/-! ## Results -/

section Results

variable {b : Brief} {log : List Event} {ss : List Signing} {result : Except KeeperError Outcome}

/-- The ending of a submission tells what its result says of it. -/
theorem findings_of_visits (h : Visits b log ss (.ended result)) : Findings b log result := by
  obtain ⟨m, hm, hT⟩ := terms_of_visits h
  cases Station.finished_of_visits h with
  | unbegun hs =>
    rcases Station.result_of_start hs with ⟨f, -, rfl⟩ | ⟨-, rfl⟩
    · trivial
    · trivial
  | unsigned => trivial
  | replied hv ho hF =>
    cases hF with
    | found hl hstatus hblock => exact included_of_looking hv ho hl hstatus hblock rfl hm hT
    | reverted hl hstatus =>
      obtain ⟨hgiven, -⟩ := given_of_looking (Station.knows_of_visits hv ho) hl
      exact ⟨_, shows_of_exchange hgiven, hstatus⟩
    | spent hu hleft => exact exhausted_of_spent hv hu hleft
    | _ => trivial

/-- The release of a lease tells nothing of broadcasts. -/
theorem Findings.released (h : Findings b log result) : Findings b (log ++ [.released]) result := by
  have hunsent : Unsent [Event.released] := ⟨rfl, rfl⟩
  have hsends : sends (log ++ [.released]) = sends log := hunsent.sends_append
  cases result with
  | ok o =>
    cases o with
    | notExecutable => trivial
    | included =>
      obtain ⟨⟨looked, hshown⟩, hplaced, hnonces, htally, hcounted, hbounded⟩ := h
      rw [← hsends] at hnonces htally hcounted hbounded
      exact ⟨⟨looked, hshown.append⟩, hplaced, hnonces, htally, hcounted, hbounded⟩
  | error e =>
    cases e with
    | reverted =>
      obtain ⟨receipt, hshown, hstatus⟩ := h
      exact ⟨receipt, hshown.append, hstatus⟩
    | budgetExhausted =>
      obtain ⟨hall, ⟨hash, hlast, hgave⟩, hquiet⟩ := h
      refine ⟨?_, ⟨hash, hlast, hgave.append hunsent⟩, fun looked a hm => hquiet looked a ?_⟩
      · rw [hsends, hall]
      · simpa using hm
    | _ => trivial

end Results

section Floor

variable {f : Floor} {t : Ticket} {task : Task} {ms : List Floor.Move} {result : Except KeeperError Outcome}

/-- **Whatever a ledger answers, and whatever happens meanwhile, what a submission reports is what its ledger has shown
it.** -/
theorem findings_of_run (h : Floor.run? {} ms = some f) (ht : f.tasks.get? t = some task)
    (he : task.standing.exit? = some (.finished result)) : Findings task.brief task.log result := by
  obtain ⟨log, hends, hlog⟩ := ends_of_narrated (narrated_of_run h ht) he
  have hfindings : Findings task.brief log result := by
    cases hends with
    | finished hv => exact findings_of_visits hv
  rcases hlog with hlog | hlog
  · rw [hlog]
    exact hfindings
  · rw [hlog]
    exact hfindings.released

/-- The second broadcast of an escalation is found, and so both are counted. -/
theorem findings_of_inclusion :
    ∃ f task, Floor.run? {} Sample.inclusion = some f ∧ f.tasks.get? 0 = some task ∧
      task.standing.exit? = some (.finished (.ok (.included 5 (some 1) 21000 10 2))) ∧
      Findings task.brief task.log (.ok (.included 5 (some 1) 21000 10 2)) := by
  have h : ((Floor.run? {} Sample.inclusion).bind fun f => (f.tasks.get? 0).bind fun task =>
      task.standing.exit?.bind Exit.outcome?) = some (.included 5 (some 1) 21000 10 2) := by
    decide +kernel
  obtain ⟨f, hf, h⟩ := Option.bind_eq_some_iff.1 h
  obtain ⟨task, ht, h⟩ := Option.bind_eq_some_iff.1 h
  obtain ⟨exit, he, h⟩ := Option.bind_eq_some_iff.1 h
  have hexit := Exit.outcome?_eq_some.1 h
  subst hexit
  exact ⟨f, task, hf, ht, he, findings_of_run hf ht he⟩

end Floor

end OrderKeeper.Submission
