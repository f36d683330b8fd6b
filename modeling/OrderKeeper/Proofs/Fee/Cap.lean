import Mathlib.Data.Rat.Floor
import OrderKeeper.Fee.Offer

/-!
# How a fee cap rises

What becomes of a fee cap at a broadcast, in exact arithmetic (`Fee.escalatedCap_exact`).

- From the second broadcast on, every cap is above the one before it, unless that one was already the largest amount
  (`Fee.lt_escalatedCap`), and it is the product with the factor, rounded up, as long as the product with the tenths is an
  amount.
- The first broadcast keeps a cap only up to a tenth of the largest amount, rounded up: the product is cut off before it
  is divided, so that a cap above that falls (`Fee.escalatedCap_top_lt`).
-/

namespace OrderKeeper

namespace Wei

theorem toNat_top : top.toNat = size - 1 := by decide

/-- What is not below the largest amount is the largest amount. -/
theorem eq_top_of_le {a : Wei} (h : size - 1 ≤ a.toNat) : a = top := by
  have ha : a.toNat < size := a.isLt
  have ht := toNat_top
  exact BitVec.eq_of_toNat_eq (by omega)

theorem toNat_le_top (a : Wei) : a.toNat ≤ top.toNat := by
  have ha : a.toNat < size := a.isLt
  have ht := toNat_top
  omega

theorem le_satAdd (a b : Wei) : a ≤ a.satAdd b := by
  have ha : a.toNat < size := a.isLt
  rw [BitVec.le_def, toNat_satAdd]
  omega

end Wei

namespace Fee

variable (cap : Wei) {attempt : UInt32}

theorem lt_escalatedCap (h : 2 ≤ attempt.toNat) :
    cap < escalatedCap cap attempt ∨ cap = Wei.top := by
  have hraised : 10 < 10 + raises attempt := by
    unfold raises
    omega
  have hcap : cap.toNat < Wei.size := cap.isLt
  by_cases htop : Wei.size - 1 ≤ cap.toNat
  · exact .inr (Wei.eq_top_of_le htop)
  · left
    rw [BitVec.lt_def]
    simp only [escalatedCap, if_pos hraised, Wei.toNat_saturate, Wei.toNat_satAdd]
    have hone : (1 : Wei).toNat = 1 := rfl
    omega

/-! ## In exact arithmetic -/

/-- A tenth, rounded up. -/
theorem ceil_tenth (n : Nat) : ⌈(n / 10 : ℚ)⌉₊ = (n + 9) / 10 := by
  apply le_antisymm
  · rw [Nat.ceil_le, div_le_iff₀ (by norm_num)]
    have h : n ≤ (n + 9) / 10 * 10 := by omega
    exact_mod_cast h
  · rw [← Nat.lt_succ_iff, Nat.succ_eq_add_one, Nat.div_lt_iff_lt_mul (by norm_num)]
    have h : (n : ℚ) ≤ ⌈(n / 10 : ℚ)⌉₊ * 10 := (div_le_iff₀ (by norm_num)).1 (Nat.le_ceil _)
    have h' : n ≤ ⌈(n / 10 : ℚ)⌉₊ * 10 := by exact_mod_cast h
    omega

/-- The first broadcast. -/
theorem toNat_escalatedCap_first (h : attempt.toNat ≤ 1) :
    (escalatedCap cap attempt).toNat = min cap.toNat ⌈(Wei.top.toNat / 10 : ℚ)⌉₊ := by
  have hraises : raises attempt = 0 := by
    unfold raises
    omega
  have hcap := cap.toNat_le_top
  rw [ceil_tenth, escalatedCap, hraises]
  simp only [Nat.add_zero, Nat.lt_irrefl, if_false, Wei.toNat_saturate, Wei.toNat_satMul, Wei.toNat_top] at hcap ⊢
  omega

/-- A broadcast after the first. -/
theorem toNat_escalatedCap_later (h : 2 ≤ attempt.toNat) :
    (escalatedCap cap attempt).toNat =
      max ⌈(min (cap.toNat * (9 + attempt.toNat)) Wei.top.toNat : ℕ) / (10 : ℚ)⌉₊
        (min (cap.toNat + 1) Wei.top.toNat) := by
  have hraises : 10 + raises attempt = 9 + attempt.toNat := by
    unfold raises
    omega
  have hone : (1 : Wei).toNat = 1 := rfl
  rw [ceil_tenth, escalatedCap, hraises]
  simp only [if_pos (show 10 < 9 + attempt.toNat by omega), Wei.toNat_saturate, Wei.toNat_satMul, Wei.toNat_satAdd,
    Wei.toNat_top, hone]
  generalize cap.toNat * (9 + attempt.toNat) = product
  omega

theorem escalatedCap_eq_self (h : attempt.toNat ≤ 1) (hfits : cap.toNat * 10 ≤ Wei.top.toNat) :
    escalatedCap cap attempt = cap := by
  apply BitVec.eq_of_toNat_eq
  rw [toNat_escalatedCap_first cap h, ceil_tenth]
  omega

theorem toNat_escalatedCap_of_fits (h : 2 ≤ attempt.toNat)
    (hfits : cap.toNat * (9 + attempt.toNat) ≤ Wei.top.toNat) :
    (escalatedCap cap attempt).toNat = max ⌈(cap.toNat * (9 + attempt.toNat) / 10 : ℚ)⌉₊ (cap.toNat + 1) := by
  have hroom : cap.toNat + 1 ≤ Wei.top.toNat := by
    have htenths : cap.toNat * 11 ≤ cap.toNat * (9 + attempt.toNat) := Nat.mul_le_mul_left _ (by omega)
    have htop : 1 ≤ Wei.top.toNat := by decide
    omega
  rw [toNat_escalatedCap_later cap h, Nat.min_eq_left hfits, Nat.min_eq_left hroom]
  push_cast
  rfl

variable (attempt)

/-- A fee cap after a broadcast, in natural numbers. The first broadcast keeps it, as far as a tenth of the largest amount
allows; every other one raises it, unless it is the largest amount already, and exactly by its factor as long as the
product with the tenths is an amount. -/
theorem escalatedCap_exact :
    (attempt.toNat ≤ 1 →
      (escalatedCap cap attempt).toNat = min cap.toNat ⌈(Wei.top.toNat / 10 : ℚ)⌉₊ ∧
      (cap.toNat * 10 ≤ Wei.top.toNat → escalatedCap cap attempt = cap)) ∧
    (2 ≤ attempt.toNat →
      (escalatedCap cap attempt).toNat =
        max ⌈(min (cap.toNat * (9 + attempt.toNat)) Wei.top.toNat : ℕ) / (10 : ℚ)⌉₊
          (min (cap.toNat + 1) Wei.top.toNat) ∧
      cap ≤ escalatedCap cap attempt ∧ (cap < Wei.top → cap < escalatedCap cap attempt) ∧
      (cap.toNat * (9 + attempt.toNat) ≤ Wei.top.toNat → (escalatedCap cap attempt).toNat =
        max ⌈(cap.toNat * (9 + attempt.toNat) / 10 : ℚ)⌉₊ (cap.toNat + 1))) := by
  refine ⟨fun h => ⟨toNat_escalatedCap_first cap h, escalatedCap_eq_self cap h⟩, fun h =>
    ⟨toNat_escalatedCap_later cap h, ?_, fun hlt => ?_, toNat_escalatedCap_of_fits cap h⟩⟩
  · have hcap := cap.toNat_le_top
    rw [BitVec.le_def, toNat_escalatedCap_later cap h]
    omega
  · rcases lt_escalatedCap cap h with hlater | rfl
    · exact hlater
    · exact absurd hlt (BitVec.lt_irrefl _)

/-- The first broadcast lowers the largest cap to a tenth. -/
theorem escalatedCap_top_lt :
    (escalatedCap Wei.top 1).toNat = 34028236692093846346337460743176821146 ∧ escalatedCap Wei.top 1 < Wei.top := by
  decide

end Fee

end OrderKeeper
