import OrderKeeper.Receipt.Watch

/-!
# What look-ups say

Whatever a ledger answers to a look-up, it fails, shows a failure on chain or a success in a block, or says nothing yet;
a watch ends with what its last look-up says, or when it says nothing and the bound is used up.
-/

namespace OrderKeeper

namespace Receipt

variable {hash : Hash} {a : Except Fault (Option Receipt)}

/-- A look-up without success failed, or shows a transaction that failed. -/
theorem judge_eq_error {e : WaitFailure} (h : judge hash a = .error e) :
    (∃ f, a = .error f ∧ e = .queryFailed hash f) ∨
    ∃ r, a = .ok (some r) ∧ r.status = false ∧ e = .reverted hash r.blockNumber r.gasUsed := by
  cases a with
  | error f =>
    cases h
    exact .inl ⟨f, rfl, rfl⟩
  | ok found =>
    cases found with
    | none => cases h
    | some r =>
      right
      change classify hash (some r) = _ at h
      unfold classify at h
      cases hs : r.status with
      | false =>
        simp only [hs, Bool.not_false, if_true, Except.error.injEq] at h
        exact ⟨r, rfl, hs, h.symm⟩
      | true =>
        simp only [hs, Bool.not_true, Bool.false_eq_true, if_false] at h
        split at h <;> cases h

/-- A look-up with success shows a transaction that succeeded in a block. -/
theorem judge_eq_some {r : Receipt} (h : judge hash a = .ok (some r)) :
    a = .ok (some r) ∧ r.status = true ∧ ∃ block, r.blockNumber = some block ∧ 0 < block := by
  cases a with
  | error f => cases h
  | ok found =>
    cases found with
    | none => cases h
    | some x =>
      change classify hash (some x) = _ at h
      unfold classify at h
      cases hs : x.status with
      | false => simp [hs] at h
      | true =>
        simp only [hs, Bool.not_true, Bool.false_eq_true, if_false] at h
        split at h
        · rename_i hincluded
          cases h
          unfold isIncluded at hincluded
          cases hb : r.blockNumber with
          | none => simp [hb] at hincluded
          | some block => exact ⟨rfl, hs, block, rfl, by simpa [hb] using hincluded⟩
        · cases h

/-- What an answer to a look-up of a hash says for good: a success in a block, a failure wherever it stands, or that the
ledger could not be asked. -/
inductive Settles (hash : Hash) : Except Fault (Option Receipt) → Except WaitFailure Receipt → Prop where
  | included {r : Receipt} {block : UInt64} (hstatus : r.status = true) (hblock : r.blockNumber = some block)
      (hpos : 0 < block) : Settles hash (.ok (some r)) (.ok r)
  | reverted {r : Receipt} (hstatus : r.status = false) :
      Settles hash (.ok (some r)) (.error (.reverted hash r.blockNumber r.gasUsed))
  | failed (f : Fault) : Settles hash (.error f) (.error (.queryFailed hash f))

/-- An answer that says nothing for good. -/
def Undecided (hash : Hash) (a : Except Fault (Option Receipt)) : Prop := ∀ c, ¬ Settles hash a c

theorem settles_iff {c : Except WaitFailure Receipt} : Settles hash a c ↔ judge hash a = c.map some := by
  constructor
  · rintro (⟨hstatus, hblock, hpos⟩ | hstatus | f)
    · simp [judge, classify, isIncluded, hstatus, hblock, hpos]
      rfl
    · simp [judge, classify, hstatus]
      rfl
    · rfl
  · intro h
    cases c with
    | error e =>
      obtain ⟨f, rfl, rfl⟩ | ⟨r, rfl, hstatus, rfl⟩ := judge_eq_error h
      · exact .failed f
      · exact .reverted hstatus
    | ok r =>
      obtain ⟨rfl, hstatus, block, hblock, hpos⟩ := judge_eq_some h
      exact .included hstatus hblock hpos

theorem undecided_iff : Undecided hash a ↔ judge hash a = .ok none := by
  constructor
  · intro h
    cases hj : judge hash a with
    | error e => exact absurd (settles_iff.2 hj) (h (.error e))
    | ok found =>
      cases found with
      | none => rfl
      | some r => exact absurd (settles_iff.2 hj) (h (.ok r))
  · intro h c hc
    rw [settles_iff.1 hc] at h
    cases c <;> cases h

/-- A look-up that says nothing for good did not fail. -/
theorem Undecided.exists_ok (h : Undecided hash a) : ∃ found, a = .ok found := by
  cases a with
  | error f => exact absurd (.failed f) (h _)
  | ok found => exact ⟨found, rfl⟩

/-- What says nothing for good is no success. -/
theorem Undecided.not_success {found : Option Receipt} (h : Undecided hash (.ok found)) :
    found.any isSuccess = false := by
  have hc : classify hash found = .ok none := undecided_iff.1 h
  cases found with
  | none => rfl
  | some r =>
    unfold classify at hc
    cases hs : r.status with
    | false => simp [hs] at hc
    | true =>
      simp only [hs, Bool.not_true, Bool.false_eq_true, if_false] at hc
      split at hc
      · cases hc
      · simpa [isSuccess, hs] using ‹¬ r.isIncluded = true›

end Receipt

namespace Watch

variable {w : Watch} {polls : Nat} {a : Except Fault (Option Receipt)}

/-- A watch ends with what its last look-up says, or with its bound. -/
theorem cases_of_ended {r : Except WaitFailure Receipt} (h : w.answer polls a = .ended r) :
    (∃ e, Receipt.judge w.hash a = .error e ∧ r = .error e) ∨
    (∃ x, Receipt.judge w.hash a = .ok (some x) ∧ r = .ok x) ∨
    Receipt.Undecided w.hash a ∧ w.isSpent (polls + 1) = true ∧
      r = .error (.notFound w.hash (UInt32.ofNat (polls + 1))) := by
  unfold answer at h
  split at h
  · cases h
    exact .inl ⟨_, ‹_›, rfl⟩
  · cases h
    exact .inr (.inl ⟨_, ‹_›, rfl⟩)
  · split at h
    · cases h
      exact .inr (.inr ⟨Receipt.undecided_iff.2 ‹_›, ‹_›, rfl⟩)
    · cases h

/-- A watch that pauses has seen nothing that settles it, and its bound is not used up. -/
theorem pausing_of_answer {n : Nat} (h : w.answer polls a = .pausing n) :
    n = polls + 1 ∧ Receipt.Undecided w.hash a ∧ w.isSpent (polls + 1) = false := by
  unfold answer at h
  split at h
  · cases h
  · cases h
  · rename_i hj
    split at h
    · cases h
    · rename_i hs
      cases h
      exact ⟨rfl, Receipt.undecided_iff.2 hj, by simpa using hs⟩

end Watch

end OrderKeeper
