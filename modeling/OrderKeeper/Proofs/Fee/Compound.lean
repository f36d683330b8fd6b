import Mathlib.Algebra.BigOperators.Intervals
import Mathlib.Algebra.BigOperators.Ring.Finset
import Mathlib.Tactic.GCongr
import Mathlib.Tactic.Linarith
import Mathlib.Tactic.Ring
import OrderKeeper.Proofs.Fee.Cap

/-!
# Fee caps over many broadcasts

`Fee.compounded cap n` is the fee cap after the broadcasts from the first to number `n`. As long as every product with
the tenths is an amount, it is the exact product of the factors up to the rounding of each broadcast, which the later
broadcasts multiply (`Fee.compounded_bounds`).

A broadcast adds at most one to its exact price (`Fee.escalatedCap_bounds`); the rest is an induction on the broadcasts.
Caps soon double with every broadcast, so only few products are amounts at all (`Fee.Fits.lt`), and no broadcast has a
number beyond its type.
-/

namespace OrderKeeper.Fee

variable {cap : Wei} {n : Nat}

/-- The fee cap after the broadcasts from the first to number `n`. -/
def compounded (cap : Wei) (n : Nat) : Wei := ((List.range' 1 n).map UInt32.ofNat).foldl escalatedCap cap

/-- The factor of a broadcast. -/
def factor (attempt : Nat) : ℚ := (9 + attempt) / 10

/-- The products of caps with the tenths of the next broadcast are amounts, up to broadcast number `n`. -/
def Fits (cap : Wei) (n : Nat) : Prop := ∀ i < n, (compounded cap i).toNat * (9 + (i + 1)) ≤ Wei.top.toNat

theorem compounded_succ (cap : Wei) (n : Nat) :
    compounded cap (n + 1) = escalatedCap (compounded cap n) (UInt32.ofNat (n + 1)) := by
  rw [compounded, compounded, List.range'_concat, List.map_append, List.foldl_append, Nat.one_mul, Nat.add_comm 1]
  rfl

theorem Fits.mono (h : Fits cap n) {m : Nat} (hm : m ≤ n) : Fits cap m :=
  fun i hi => h i (hi.trans_le hm)

/-! ## One broadcast -/

theorem one_le_factor {attempt : Nat} (h : 1 ≤ attempt) : 1 ≤ factor attempt := by
  have h' : (1 : ℚ) ≤ attempt := by exact_mod_cast h
  rw [factor, le_div_iff₀ (by norm_num)]
  linarith

/-- A cap that is raised is its exact price, or above it by at most one. -/
theorem escalatedCap_bounds (cap : Wei) {attempt : UInt32} (hone : 1 ≤ attempt.toNat)
    (hfits : cap.toNat * (9 + attempt.toNat) ≤ Wei.top.toNat) :
    cap.toNat * factor attempt.toNat ≤ (escalatedCap cap attempt).toNat ∧
      ((escalatedCap cap attempt).toNat : ℚ) ≤ cap.toNat * factor attempt.toNat + 1 := by
  rcases Nat.lt_or_ge attempt.toNat 2 with hfirst | hlater
  · have hattempt : attempt.toNat = 1 := by omega
    have hfactor : factor 1 = 1 := by norm_num [factor]
    rw [hattempt] at hfits
    rw [escalatedCap_eq_self cap (by omega) hfits, hattempt, hfactor]
    constructor <;> linarith
  · have hexact : (cap.toNat * (9 + attempt.toNat) / 10 : ℚ) = cap.toNat * factor attempt.toNat := by
      rw [factor]
      ring
    have hcap : (cap.toNat : ℚ) ≤ cap.toNat * factor attempt.toNat :=
      le_mul_of_one_le_right (Nat.cast_nonneg _) (one_le_factor hone)
    have hround := Nat.ceil_lt_add_one ((Nat.cast_nonneg _).trans hcap)
    rw [toNat_escalatedCap_of_fits cap hlater hfits, hexact]
    push_cast
    refine ⟨(Nat.le_ceil _).trans (le_max_left ..), max_le hround.le ?_⟩
    linarith

/-! ## The numbers of broadcasts -/

theorem Fits.product (h : Fits cap (n + 1)) (hn : n + 1 < UInt32.size) :
    (compounded cap n).toNat * (9 + (UInt32.ofNat (n + 1)).toNat) ≤ Wei.top.toNat := by
  rw [UInt32.toNat_ofNat_of_lt' hn]
  exact h n (Nat.lt_succ_self n)

/-- From the second broadcast on a cap rises by one, and from the eleventh on it doubles. -/
theorem Fits.raised (h : Fits cap (n + 1)) (hn : n + 1 < UInt32.size) (hlater : 1 ≤ n) :
    (compounded cap n).toNat + 1 ≤ (compounded cap (n + 1)).toNat ∧
      (10 ≤ n → 2 * (compounded cap n).toNat ≤ (compounded cap (n + 1)).toNat) := by
  have hnumber : (UInt32.ofNat (n + 1)).toNat = n + 1 := UInt32.toNat_ofNat_of_lt' hn
  have hproduct := h.product hn
  rw [compounded_succ]
  constructor
  · rw [toNat_escalatedCap_of_fits _ (by omega) hproduct]
    exact le_max_right ..
  · intro hten
    have hfactor : (2 : ℚ) ≤ factor (n + 1) := by
      have hten' : (10 : ℚ) ≤ n := by exact_mod_cast hten
      rw [factor, le_div_iff₀ (by norm_num)]
      push_cast
      linarith
    have hlow := (escalatedCap_bounds _ (by omega) hproduct).1
    rw [hnumber] at hlow
    have hdouble : (2 : ℚ) * (compounded cap n).toNat ≤ (compounded cap n).toNat * factor (n + 1) := by
      rw [mul_comm]
      exact mul_le_mul_of_nonneg_left hfactor (Nat.cast_nonneg _)
    exact_mod_cast hdouble.trans hlow

/-- No more broadcasts than these have products that are amounts. -/
theorem Fits.lt (h : Fits cap n) : n < 138 := by
  by_contra hn
  have hall : Fits cap 138 := h.mono (by omega)
  have hraised (i : Nat) (hi : i + 1 ≤ 138) :=
    (hall.mono hi).raised (by simp only [UInt32.size]; omega)
  have hpower (k : Nat) (hk : k ≤ 128) : 2 ^ k ≤ (compounded cap (10 + k)).toNat := by
    induction k with
    | zero => exact (Nat.le_add_left ..).trans (hraised 9 (by omega) (by omega)).1
    | succ k ih =>
      calc 2 ^ (k + 1) = 2 * 2 ^ k := pow_succ' ..
        _ ≤ 2 * (compounded cap (10 + k)).toNat := Nat.mul_le_mul_left _ (ih (by omega))
        _ ≤ (compounded cap (10 + k + 1)).toNat := (hraised (10 + k) (by omega) (by omega)).2 (by omega)
  exact absurd (hpower 128 (Nat.le_refl _)) (Nat.not_le.2 (compounded cap 138).isLt)

/-! ## All broadcasts -/

theorem Fits.step (h : Fits cap (n + 1)) :
    (compounded cap n).toNat * factor (n + 1) ≤ (compounded cap (n + 1)).toNat ∧
      ((compounded cap (n + 1)).toNat : ℚ) ≤ (compounded cap n).toNat * factor (n + 1) + 1 := by
  have hn : n + 1 < UInt32.size := h.lt.trans (by decide)
  have hnumber : (UInt32.ofNat (n + 1)).toNat = n + 1 := UInt32.toNat_ofNat_of_lt' hn
  have hstep := escalatedCap_bounds (compounded cap n) (by omega) (h.product hn)
  rw [hnumber, ← compounded_succ] at hstep
  exact hstep

theorem prod_factor_succ {k : Nat} (h : k ≤ n + 1) :
    ∏ i ∈ Finset.Icc k (n + 1), factor i = (∏ i ∈ Finset.Icc k n, factor i) * factor (n + 1) :=
  Finset.prod_Icc_succ_top h factor

/-- What rounding has added so far is multiplied by the next factor, and grows by one. -/
theorem sum_prod_factor_succ (n : Nat) :
    ∑ k ∈ Finset.Icc 1 (n + 1), ∏ i ∈ Finset.Icc (k + 1) (n + 1), factor i =
      (∑ k ∈ Finset.Icc 1 n, ∏ i ∈ Finset.Icc (k + 1) n, factor i) * factor (n + 1) + 1 := by
  have hlast : Finset.Icc (n + 1 + 1) (n + 1) = ∅ := Finset.Icc_eq_empty (by omega)
  rw [Finset.sum_Icc_succ_top (Nat.le_add_left ..), Finset.sum_mul, hlast, Finset.prod_empty]
  congr 1
  exact Finset.sum_congr rfl fun k hk => prod_factor_succ (Nat.succ_le_succ (Finset.mem_Icc.1 hk).2)

/-- The fee cap after many broadcasts is no less than the exact product of all factors, and above it by no more than what
each broadcast has rounded up by, times the factors of the broadcasts after it. -/
theorem compounded_bounds (h : Fits cap n) :
    cap.toNat * ∏ i ∈ Finset.Icc 1 n, factor i ≤ (compounded cap n).toNat ∧
      ((compounded cap n).toNat : ℚ) ≤ cap.toNat * ∏ i ∈ Finset.Icc 1 n, factor i +
        ∑ k ∈ Finset.Icc 1 n, ∏ i ∈ Finset.Icc (k + 1) n, factor i := by
  induction n with
  | zero => simp [compounded]
  | succ n ih =>
    obtain ⟨hlow, hhigh⟩ := ih (h.mono (Nat.le_succ n))
    obtain ⟨hstep, hstep'⟩ := h.step
    have hpos : 0 ≤ factor (n + 1) := zero_le_one.trans (one_le_factor (Nat.le_add_left ..))
    rw [prod_factor_succ (Nat.le_add_left ..), sum_prod_factor_succ]
    constructor
    · calc (cap.toNat : ℚ) * ((∏ i ∈ Finset.Icc 1 n, factor i) * factor (n + 1))
          = cap.toNat * (∏ i ∈ Finset.Icc 1 n, factor i) * factor (n + 1) := by ring
        _ ≤ (compounded cap n).toNat * factor (n + 1) := mul_le_mul_of_nonneg_right hlow hpos
        _ ≤ (compounded cap (n + 1)).toNat := hstep
    · calc ((compounded cap (n + 1)).toNat : ℚ)
          ≤ (compounded cap n).toNat * factor (n + 1) + 1 := hstep'
        _ ≤ (cap.toNat * ∏ i ∈ Finset.Icc 1 n, factor i +
              ∑ k ∈ Finset.Icc 1 n, ∏ i ∈ Finset.Icc (k + 1) n, factor i) * factor (n + 1) + 1 := by
            gcongr
        _ = _ := by ring

/-- Three wei after four broadcasts: each of the last three rounds up. -/
theorem compounded_bounds_three : Fits 3 4 ∧ (compounded 3 4).toNat = 7 ∧
    (3 : Wei).toNat * ∏ i ∈ Finset.Icc 1 4, factor i ≤ (compounded 3 4).toNat ∧
      ((compounded 3 4).toNat : ℚ) ≤ (3 : Wei).toNat * ∏ i ∈ Finset.Icc 1 4, factor i +
        ∑ k ∈ Finset.Icc 1 4, ∏ i ∈ Finset.Icc (k + 1) 4, factor i := by
  have hfits : Fits 3 4 := by
    unfold Fits
    decide
  exact ⟨hfits, by decide, compounded_bounds hfits⟩

end OrderKeeper.Fee
