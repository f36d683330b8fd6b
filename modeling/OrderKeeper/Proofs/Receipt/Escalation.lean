import Mathlib.Data.List.Basic
import OrderKeeper.Proofs.Dialogue.Transcript
import OrderKeeper.Proofs.Receipt.Judge
import OrderKeeper.Receipt.Escalation
import OrderKeeper.Submission.Run

/-!
# The account of an escalation

What a whole escalation asks and how it ends, whatever its broadcasts and look-ups answer (`account_of_run`). Its history
is a list of rounds: a broadcast, one pause, and look-ups of all distinct hashes, newest first, up to the first answer that
settles one of them (`Looked`). It ends with what that answer says, with the first broadcast that fails, or with its budget
when no look-up of `maxAttempts + 1` rounds settles anything.
-/

namespace OrderKeeper.Escalation

open Receipt (Settles Undecided)

variable {E : Type}

/-- A question of an escalation with its answer. -/
abbrev Entry (E : Type) := Σ q : Question, q.Answer E

/-- A look-up of a hash with its answer. -/
abbrev Look := Hash × Except Fault (Option Receipt)

/-- A broadcast that was made, and the look-ups after it. -/
structure Round where
  attempt : UInt32
  hash : Hash
  looks : List Look

/-- What a history holds of a look-up. -/
def Look.entry (l : Look) : Entry E := ⟨.lookup l.1, l.2⟩

/-- What a history holds of a round. -/
def Round.entries (r : Round) : List (Entry E) :=
  ⟨.send r.attempt, .ok r.hash⟩ :: ⟨.pause, ()⟩ :: r.looks.map Look.entry

/-- The distinct hashes of broadcasts, in reverse order of their first appearance. -/
def newestFirst (sent : List Hash) : List Hash := sent.eraseDups.reverse

/-- Hashes are looked up in order until one is settled. -/
inductive Looked : List Hash → List Look → Option (Except WaitFailure Receipt) → Prop where
  /-- All have been looked up, and none is settled. -/
  | all : Looked [] [] none
  | undecided {hash : Hash} {hashes : List Hash} {a : Except Fault (Option Receipt)} {looks : List Look}
      {c : Option (Except WaitFailure Receipt)} (h : Undecided hash a) (rest : Looked hashes looks c) :
      Looked (hash :: hashes) ((hash, a) :: looks) c
  | settled {hash : Hash} {hashes : List Hash} {a : Except Fault (Option Receipt)} {c : Except WaitFailure Receipt}
      (h : Settles hash a c) : Looked (hash :: hashes) [(hash, a)] (some c)

/-- Rounds after which nothing is settled: each looks up all hashes that were broadcast up to then. -/
inductive Open : List Round → Prop where
  | nil : Open []
  | concat {rounds : List Round} {r : Round} (h : Open rounds)
      (hlooks : Looked (newestFirst ((rounds ++ [r]).map Round.hash)) r.looks none) : Open (rounds ++ [r])

/-- The result of an escalation in which a look-up settles a hash. -/
def conclude (c : Except WaitFailure Receipt) : Except (Failure E) Receipt := c.mapError .receipt

/-- How an escalation ends after its rounds, and what its history holds beyond them. -/
inductive Ending (maxAttempts : UInt32) : List Round → List (Entry E) → Except (Failure E) Receipt → Prop where
  /-- A look-up of the last round settles a hash. -/
  | settled {rounds : List Round} {r : Round} {c : Except WaitFailure Receipt} (h : Open rounds)
      (hlooks : Looked (newestFirst ((rounds ++ [r]).map Round.hash)) r.looks (some c)) :
      Ending maxAttempts (rounds ++ [r]) [] (conclude c)
  /-- The next broadcast fails. -/
  | refused {rounds : List Round} {attempt : UInt32} {e : E} (h : Open rounds)
      (hattempt : attempt.toNat = rounds.length + 1) :
      Ending maxAttempts rounds [⟨.send attempt, .error e⟩] (.error (.send attempt e))
  /-- No broadcast is left. -/
  | exhausted {rounds : List Round} {r : Round} (h : Open (rounds ++ [r]))
      (hspent : (rounds ++ [r]).length = maxAttempts.toNat + 1) :
      Ending maxAttempts (rounds ++ [r]) [] (.error (.receipt (.budgetExhausted maxAttempts (some r.hash))))

/-- What an escalation of some rounds did and how it ended; `rest` is what its history holds beyond them. -/
structure Account (maxAttempts : UInt32) (rounds : List Round) (rest : List (Entry E))
    (t : List (Entry E) × Except (Failure E) Receipt) : Prop where
  history : t.1 = rounds.flatMap Round.entries ++ rest
  /-- Broadcasts are numbered from one. -/
  numbered : rounds.map (fun r => r.attempt.toNat) = List.range' 1 rounds.length
  /-- A broadcast that fails counts like every other. -/
  budget : rounds.length + rest.length ≤ maxAttempts.toNat + 1
  ending : Ending maxAttempts rounds rest t.2
  /-- The budget is the reason exactly if all broadcasts it allows were made and no look-up settled anything. -/
  exhausted : t.2 = .error (.receipt (.budgetExhausted maxAttempts (rounds.getLast?.map Round.hash))) ↔
    rounds.length = maxAttempts.toNat + 1 ∧ ∀ r ∈ rounds, ∀ l ∈ r.looks, Undecided l.1 l.2

/-! ## Hashes -/

theorem mem_newestFirst {sent : List Hash} {hash : Hash} : hash ∈ newestFirst sent ↔ hash ∈ sent := by
  simp [newestFirst]

/-- A hash that is broadcast again keeps its place. -/
theorem newestFirst_concat (sent : List Hash) (hash : Hash) :
    newestFirst (sent ++ [hash]) = addHash hash (newestFirst sent) := by
  have hsplit : (sent ++ [hash]).eraseDups = sent.eraseDups ++ ([hash].removeAll sent).eraseDups :=
    List.eraseDups_append
  rw [newestFirst, hsplit, List.reverse_append, addHash]
  by_cases h : hash ∈ sent
  · rw [if_pos (mem_newestFirst.2 h), newestFirst]
    simp [List.removeAll, h]
  · rw [if_neg (mt mem_newestFirst.1 h), newestFirst]
    simp [List.removeAll, h, List.eraseDups_cons]

/-! ## Look-ups -/

theorem Looked.undecided_of_mem {hashes : List Hash} {looks : List Look} (h : Looked hashes looks none) {l : Look}
    (hl : l ∈ looks) : Undecided l.1 l.2 := by
  generalize hc : (none : Option (Except WaitFailure Receipt)) = c at h
  induction h with
  | all => cases hl
  | undecided ha rest ih =>
    rcases List.mem_cons.1 hl with rfl | hl
    · exact ha
    · exact ih hl hc
  | settled _ => cases hc

theorem Looked.exists_settled {hashes : List Hash} {looks : List Look} {c : Except WaitFailure Receipt}
    (h : Looked hashes looks (some c)) : ∃ l ∈ looks, Settles l.1 l.2 c := by
  generalize hc : some c = c' at h
  induction h with
  | all => cases hc
  | undecided ha rest ih =>
    obtain ⟨l, hl, hsettles⟩ := ih hc
    exact ⟨l, List.mem_cons_of_mem _ hl, hsettles⟩
  | settled h =>
    cases hc
    exact ⟨_, List.mem_singleton_self _, h⟩

/-- What look-ups say together. -/
def said : Option (Except WaitFailure Receipt) → Except WaitFailure (Option Receipt)
  | none => .ok none
  | some c => c.map some

variable (answer : Dialogue.Respondent Question (Question.Answer E))

/-- The first look-up of several: if it settles nothing, the others follow. -/
theorem transcript_lookAll_cons (hash : Hash) (hashes : List Hash) (h : List (Entry E)) :
    (lookAll (hash :: hashes)).transcript answer h =
      match Receipt.judge hash (answer h (.lookup hash)) with
      | .ok none => (lookAll hashes).transcript answer (h ++ [Look.entry (hash, answer h (.lookup hash))])
      | settled => (h ++ [Look.entry (hash, answer h (.lookup hash))], settled) := by
  rw [lookAll, Dialogue.transcript]
  generalize Receipt.judge hash (answer h (.lookup hash)) = j
  rcases j with e | (_ | r) <;> rfl

/-- Hashes are looked up in order until one is settled. -/
theorem looked_of_lookAll (hashes : List Hash) (h : List (Entry E)) :
    ∃ looks c, Looked hashes looks c ∧
      (lookAll hashes).transcript answer h = (h ++ looks.map Look.entry, said c) := by
  induction hashes generalizing h with
  | nil => exact ⟨[], none, .all, by simp [lookAll, Dialogue.transcript, said]⟩
  | cons hash hashes ih =>
    rw [transcript_lookAll_cons]
    generalize answer h (.lookup hash) = a
    by_cases hundecided : Undecided hash a
    · obtain ⟨looks, c, hlooked, ht⟩ := ih (h ++ [Look.entry (hash, a)])
      refine ⟨(hash, a) :: looks, c, .undecided hundecided hlooked, ?_⟩
      rw [Receipt.undecided_iff.1 hundecided]
      simpa using ht
    · obtain ⟨c, hc⟩ := not_forall_not.1 hundecided
      refine ⟨[(hash, a)], some c, .settled hc, ?_⟩
      rw [Receipt.settles_iff.1 hc]
      cases c <;> rfl

/-! ## Rounds -/

theorem Open.undecided {rounds : List Round} (h : Open rounds) : ∀ r ∈ rounds, ∀ l ∈ r.looks, Undecided l.1 l.2 := by
  induction h with
  | nil => simp
  | concat _ hlooks ih =>
    intro r hr l hl
    rcases List.mem_append.1 hr with hr | hr
    · exact ih r hr l hl
    · obtain rfl := List.mem_singleton.1 hr
      exact hlooks.undecided_of_mem hl

/-- What settles a hash never speaks of a budget. -/
theorem conclude_ne_exhausted {hash : Hash} {a : Except Fault (Option Receipt)} {c : Except WaitFailure Receipt}
    (h : Settles hash a c) (attempts : UInt32) (last : Option Hash) :
    (conclude c : Except (Failure E) Receipt) ≠ .error (.receipt (.budgetExhausted attempts last)) := by
  cases h <;> simp [conclude, Except.mapError]

/-- An escalation ends with its budget exactly if no look-up of all the rounds it allows settles a hash. -/
theorem exhausted_iff {maxAttempts : UInt32} {rounds : List Round} {rest : List (Entry E)}
    {result : Except (Failure E) Receipt} (h : Ending maxAttempts rounds rest result)
    (hbudget : rounds.length + rest.length ≤ maxAttempts.toNat + 1) :
    result = .error (.receipt (.budgetExhausted maxAttempts (rounds.getLast?.map Round.hash))) ↔
      rounds.length = maxAttempts.toNat + 1 ∧ ∀ r ∈ rounds, ∀ l ∈ r.looks, Undecided l.1 l.2 := by
  cases h with
  | @settled rounds r c _ hlooks =>
    obtain ⟨l, hl, hsettles⟩ := hlooks.exists_settled
    refine ⟨fun h => absurd h (conclude_ne_exhausted hsettles _ _), fun h => ?_⟩
    exact absurd hsettles (h.2 r (by simp) l hl c)
  | refused _ _ =>
    refine ⟨fun h => by simp at h, fun h => ?_⟩
    simp only [List.length_singleton] at hbudget
    omega
  | exhausted hopen hspent => simpa [hspent] using hopen.undecided

/-- What follows a round that leaves all hashes unsettled. -/
def next (maxAttempts : UInt32) (r : Round) (hashes : List Hash) : Nat → Talk E (Except (Failure E) Receipt)
  | 0 => .done (.error (.receipt (.budgetExhausted maxAttempts (some r.hash))))
  | left + 1 => rounds maxAttempts left (r.attempt + 1) (addHash r.hash hashes)

/-- One round: its broadcast fails, a look-up settles a hash, or the budget decides. -/
theorem transcript_rounds (maxAttempts : UInt32) (left : Nat) (attempt : UInt32) (hashes : List Hash)
    (h : List (Entry E)) :
    (∃ e, (rounds maxAttempts left attempt hashes).transcript answer h =
      (h ++ [⟨.send attempt, .error e⟩], .error (.send attempt e))) ∨
    ∃ r c, r.attempt = attempt ∧ Looked (addHash r.hash hashes) r.looks c ∧
      (rounds maxAttempts left attempt hashes).transcript answer h =
        match c with
        | some c => (h ++ r.entries, conclude c)
        | none => (next maxAttempts r hashes left).transcript answer (h ++ r.entries) := by
  rw [rounds, Dialogue.transcript]
  generalize answer h (.send attempt) = sent
  cases sent with
  | error e => exact .inl ⟨e, rfl⟩
  | ok hash =>
    obtain ⟨looks, c, hlooked, ht⟩ := looked_of_lookAll answer (addHash hash hashes)
      (h ++ [⟨.send attempt, .ok hash⟩] ++ [⟨.pause, ()⟩])
    refine .inr ⟨⟨attempt, hash, looks⟩, c, rfl, hlooked, ?_⟩
    have hround : h ++ [⟨.send attempt, .ok hash⟩] ++ [⟨.pause, ()⟩] ++ looks.map Look.entry =
        h ++ (Round.mk attempt hash looks).entries := by
      simp [Round.entries]
    rw [Dialogue.transcript, Dialogue.transcript_bind, ht, hround]
    cases c with
    | none => cases left <;> rfl
    | some c => cases c <;> rfl

theorem account_of_ending {maxAttempts : UInt32} {rounds : List Round} {rest : List (Entry E)}
    {t : List (Entry E) × Except (Failure E) Receipt} (history : t.1 = rounds.flatMap Round.entries ++ rest)
    (numbered : rounds.map (fun r => r.attempt.toNat) = List.range' 1 rounds.length)
    (budget : rounds.length + rest.length ≤ maxAttempts.toNat + 1) (ending : Ending maxAttempts rounds rest t.2) :
    Account maxAttempts rounds rest t where
  history
  numbered
  budget
  ending
  exhausted := exhausted_iff ending budget

/-- One more round keeps the numbers. -/
theorem numbered_concat {before : List Round} {r : Round}
    (h : before.map (fun r => r.attempt.toNat) = List.range' 1 before.length)
    (hr : r.attempt.toNat = before.length + 1) :
    (before ++ [r]).map (fun r => r.attempt.toNat) = List.range' 1 (before ++ [r]).length := by
  rw [List.map_append, h, List.map_singleton, hr, List.length_append, List.length_singleton, List.range'_concat,
    Nat.one_mul, Nat.add_comm 1]

/-- From open rounds on, an escalation comes to its end within its budget. The broadcasts that are left are counted
down, and every round that stays open is put to those before it. -/
theorem account_of_rounds {maxAttempts : UInt32} (hmax : maxAttempts.toNat + 1 < UInt32.size) (left : Nat)
    {attempt : UInt32} {before : List Round} (hopen : Open before)
    (hnumbered : before.map (fun r => r.attempt.toNat) = List.range' 1 before.length)
    (hattempt : attempt.toNat = before.length + 1) (hleft : before.length + left = maxAttempts.toNat) :
    ∃ all rest, Account maxAttempts all rest
      ((rounds maxAttempts left attempt (newestFirst (before.map Round.hash))).transcript answer
        (before.flatMap Round.entries)) := by
  induction left using Nat.strongRecOn generalizing attempt before with
  | ind left ih =>
    rcases transcript_rounds answer maxAttempts left attempt (newestFirst (before.map Round.hash))
      (before.flatMap Round.entries) with ⟨e, ht⟩ | ⟨r, c, rfl, hlooked, ht⟩
    · refine ⟨before, _, account_of_ending (congrArg Prod.fst ht) hnumbered ?_ ?_⟩
      · simp only [List.length_singleton]
        omega
      · rw [ht]
        exact .refused hopen hattempt
    · have hhashes : addHash r.hash (newestFirst (before.map Round.hash)) =
          newestFirst ((before ++ [r]).map Round.hash) := by
        rw [List.map_append, List.map_singleton, newestFirst_concat]
      have hhistory : before.flatMap Round.entries ++ (r.entries : List (Entry E)) =
          (before ++ [r]).flatMap Round.entries := by
        simp
      have hall := numbered_concat hnumbered hattempt
      have hlength : (before ++ [r]).length = before.length + 1 := List.length_append
      have hbudget : (before ++ [r]).length + ([] : List (Entry E)).length ≤ maxAttempts.toNat + 1 := by
        simp only [hlength, List.length_nil]
        omega
      rw [hhashes] at hlooked
      rw [hhistory] at ht
      cases c with
      | some c =>
        refine ⟨before ++ [r], [], account_of_ending ?_ hall hbudget ?_⟩
        · simp [ht]
        · rw [ht]
          exact .settled hopen hlooked
      | none =>
        have hopen' := hopen.concat hlooked
        cases left with
        | zero =>
          refine ⟨before ++ [r], [], account_of_ending ?_ hall hbudget ?_⟩
          · simp [ht, next, Dialogue.transcript]
          · rw [ht]
            exact .exhausted hopen' (by omega)
        | succ left =>
          have hnext : (r.attempt + 1).toNat = (before ++ [r]).length + 1 := by
            have hone : (1 : UInt32).toNat = 1 := rfl
            rw [UInt32.toNat_add, hone]
            simp only [UInt32.size] at hmax
            omega
          have hrest := ih left (by omega) hopen' hall hnext (by omega)
          rw [ht, next, hhashes]
          exact hrest

/-- What an escalation asks and how it ends, whatever it is answered; in a submission, each of its pauses is one wait of
the length that is set. The bound keeps the numbers of broadcasts below the size of their type. -/
theorem account_of_run {maxAttempts : UInt32} (hmax : maxAttempts.toNat + 1 < UInt32.size) :
    (∃ all rest, Account maxAttempts all rest ((run maxAttempts).transcript answer [])) ∧
      ∀ plan times s, Submission.escalationAnswer plan times .pause s =
        (Dialogue.question (Submission.Question.pause times.escalationWait)).mapResult fun () => ((), s) :=
  ⟨account_of_rounds answer hmax maxAttempts.toNat .nil rfl rfl (Nat.zero_add _), fun _ _ _ => rfl⟩

/-- A node that takes every broadcast under one hash and never mines it. -/
def idle : Dialogue.Respondent Question (Question.Answer Fault)
  | _, .send _ => .ok 7
  | _, .pause => ()
  | _, .lookup _ => .ok none

/-- One rise of the price and one hash: two rounds, and the budget is spent. -/
theorem account_of_idle : (1 : UInt32).toNat + 1 < UInt32.size ∧
    (∃ all rest, Account 1 all rest ((run 1).transcript idle [])) ∧
    ((run 1).transcript idle []).2 = .error (.receipt (.budgetExhausted 1 (some 7))) := by
  refine ⟨by decide, (account_of_run idle (by decide)).1, ?_⟩
  simp [run, rounds, Dialogue.transcript, Dialogue.bind, lookAll, idle, addHash, Receipt.judge, Receipt.classify]

end OrderKeeper.Escalation
