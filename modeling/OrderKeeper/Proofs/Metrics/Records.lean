import Mathlib.Data.Int.Order.Basic
import Mathlib.Data.Prod.Lex
import Mathlib.Order.Compare
import OrderKeeper.Metrics.Submission

/-!
# What is on record

Records are made event by event, and show how many events of each kind were recorded, whatever came between them.

- A counter shows how many events are counted under its labels (`get?_outcomes_foldl`), a histogram is that of the
  samples taken under its labels (`get?_attempts_foldl`, `get?_durations_foldl`).
- Under rising bounds a histogram shows for each bound how many samples are at most that bound (`cumulative_ofSamples`).
-/

namespace OrderKeeper.Metrics

/-! ## The order of floating-point numbers -/

section Order

open Float.Model (UnpackedFloat)

/-- Where a number stands among all others; what is no number stands nowhere. -/
def rank? : UnpackedFloat → Option (ℤ ×ₗ ℤ ×ₗ ℤ)
  | .notANumber => none
  | .infinity .negative => some (toLex (-2, toLex (0, 0)))
  | .finite .negative m e _ => some (toLex (-1, toLex (-e, -m)))
  | .zero _ => some (toLex (0, toLex (0, 0)))
  | .finite .positive m e _ => some (toLex (1, toLex (e, m)))
  | .infinity .positive => some (toLex (2, toLex (0, 0)))

theorem isLE_compare_then (e e' : ℤ) (m m' : ℕ) :
    ((compare e e').then (compare m m')).isLE = true ↔ e < e' ∨ e = e' ∧ m ≤ m' := by
  rw [Ordering.isLE_then_iff_or, compare_lt_iff_lt, compare_eq_iff_eq, Std.isLE_compare]

theorem isGE_compare_then (e e' : ℤ) (m m' : ℕ) :
    ((compare e e').then (compare m m')).isGE = true ↔ e' < e ∨ e = e' ∧ m' ≤ m := by
  rw [← Ordering.isLE_swap, Ordering.swap_then, ← Std.OrientedOrd.eq_swap, ← Std.OrientedOrd.eq_swap,
    isLE_compare_then, eq_comm (a := e')]

theorem le_iff_rank? (x y : UnpackedFloat) :
    x.le y = true ↔ ∃ r s, rank? x = some r ∧ rank? y = some s ∧ r ≤ s := by
  -- a zero is compared without its sign; of all others the sign decides, then the exponent
  rcases x with s | _ | _ | ⟨s, m, e, -⟩ <;> rcases y with s' | _ | _ | ⟨s', m', e', -⟩ <;>
    try cases s
  all_goals try cases s'
  all_goals dsimp only [UnpackedFloat.le, UnpackedFloat.compare, rank?]
  all_goals simp [Prod.Lex.toLex_le_toLex, isLE_compare_then, isGE_compare_then]
  all_goals rfl

theorem le_trans {x y z : Float} (hxy : x ≤ y) (hyz : y ≤ z) : x ≤ z := by
  obtain ⟨r, s, hr, hs, hrs⟩ := (le_iff_rank? _ _).1 (of_decide_eq_true hxy)
  obtain ⟨s', t, hs', ht, hst⟩ := (le_iff_rank? _ _).1 (of_decide_eq_true hyz)
  rw [hs] at hs'
  cases hs'
  exact decide_eq_true ((le_iff_rank? _ _).2 ⟨r, t, hr, ht, hrs.trans hst⟩)

end Order

/-! ## Histograms -/

namespace Histogram

/-- The histogram of some samples. -/
def ofSamples (bounds xs : List Float) : Histogram := xs.foldl observe (empty bounds)

theorem count_foldl (xs : List Float) (h : Histogram) : (xs.foldl observe h).count = h.count + xs.length := by
  induction xs generalizing h with
  | nil => rfl
  | cons x xs ih =>
    rw [List.foldl_cons, ih, List.length_cons, Nat.add_comm xs.length, ← Nat.add_assoc]
    rfl

@[simp] theorem count_ofSamples (bounds xs : List Float) : (ofSamples bounds xs).count = xs.length :=
  (count_foldl xs _).trans (Nat.zero_add _)

theorem totals_add_one (n : Nat) (bs : List (Float × Nat)) :
    totals (n + 1) bs = (totals n bs).map fun e => (e.1, e.2 + 1) := by
  induction bs generalizing n with
  | nil => rfl
  | cons b bs ih =>
    rw [totals, totals, List.map_cons, Nat.add_right_comm, ih]

theorem fst_totals (n : Nat) (bs : List (Float × Nat)) : (totals n bs).map Prod.fst = bs.map Prod.fst := by
  induction bs generalizing n with
  | nil => rfl
  | cons b bs ih => rw [totals, List.map_cons, List.map_cons, ih]

/-- Under rising bounds, a sample counts for each bound that it does not exceed. -/
theorem totals_place {bs : List (Float × Nat)} (hb : (bs.map Prod.fst).Pairwise (· ≤ ·)) (x : Float) (n : Nat) :
    totals n (place x bs) = (totals n bs).map fun e => (e.1, e.2 + if x ≤ e.1 then 1 else 0) := by
  induction bs generalizing n with
  | nil => rfl
  | cons b bs ih =>
    obtain ⟨hle, hb⟩ := List.pairwise_cons.1 hb
    rw [place, totals, List.map_cons]
    split
    · rename_i hx
      rw [totals, ← Nat.add_assoc, totals_add_one]
      refine congrArg (_ :: ·) (List.map_congr_left fun e he => ?_)
      have hmem : e.1 ∈ bs.map Prod.fst := fst_totals .. ▸ List.mem_map_of_mem he
      rw [if_pos (le_trans hx (hle e.1 hmem))]
    · rename_i hx
      rw [totals, ih hb]
      rfl

theorem fst_place (x : Float) (bs : List (Float × Nat)) : (place x bs).map Prod.fst = bs.map Prod.fst := by
  induction bs with
  | nil => rfl
  | cons b bs ih =>
    rw [place]
    split
    · rfl
    · rw [List.map_cons, List.map_cons, ih]

theorem cumulative_foldl {h : Histogram} (hb : (h.buckets.map Prod.fst).Pairwise (· ≤ ·)) (xs : List Float) :
    (xs.foldl observe h).cumulative = h.cumulative.map fun e => (e.1, e.2 + xs.countP (· ≤ e.1)) := by
  induction xs generalizing h with
  | nil => exact (List.map_id _).symm
  | cons x xs ih =>
    rw [List.foldl_cons, ih (h := h.observe x) (by rw [observe, fst_place]; exact hb), cumulative, observe,
      totals_place hb, List.map_map]
    refine List.map_congr_left fun e _ => ?_
    rw [Function.comp, List.countP_cons]
    simp only [decide_eq_true_eq]
    exact congrArg _ (by omega)

theorem totals_zero (bounds : List Float) : totals 0 (bounds.map (·, 0)) = bounds.map (·, 0) := by
  induction bounds with
  | nil => rfl
  | cons b bounds ih => rw [List.map_cons, totals, ih]

/-- Under rising bounds, a histogram shows for each bound how many samples are at most that bound. -/
theorem cumulative_ofSamples {bounds : List Float} (hb : bounds.Pairwise (· ≤ ·)) (xs : List Float) :
    (ofSamples bounds xs).cumulative = bounds.map fun b => (b, xs.countP (· ≤ b)) := by
  have hfst : ((empty bounds).buckets.map Prod.fst) = bounds := by
    rw [empty, List.map_map]
    exact List.map_id _
  rw [ofSamples, cumulative_foldl (by rw [hfst]; exact hb), cumulative, empty, totals_zero, List.map_map]
  exact List.map_congr_left fun b _ => congrArg _ (Nat.zero_add _)

/-- What is shown of a histogram's buckets: each bound, and above all of them the bound that takes every sample. -/
def shown (h : Histogram) : List (String × Nat) :=
  h.cumulative.map (fun e => (Decimal.display e.1, e.2)) ++ [("+Inf", h.count)]

/-- The buckets that are shown are the first lines of a histogram. -/
theorem lines_eq (name : String) (labels : List (String × String)) (h : Histogram) :
    h.lines name labels = h.shown.map (fun e => line (name ++ "_bucket") (labels ++ [("le", e.1)]) (toString e.2)) ++
      [line (name ++ "_sum") labels (Decimal.display h.sum), line (name ++ "_count") labels (toString h.count)] := by
  rw [lines, shown, List.map_append, List.map_map, List.append_assoc]
  rfl

/-- From bucket to bucket, no fewer samples are shown. -/
theorem pairwise_shown {bounds : List Float} (hb : bounds.Pairwise (· ≤ ·)) (xs : List Float) :
    ((ofSamples bounds xs).shown.map Prod.snd).Pairwise (· ≤ ·) := by
  rw [shown, cumulative_ofSamples hb, count_ofSamples, List.map_append, List.map_map, List.map_map]
  refine List.pairwise_append.2 ⟨?_, List.pairwise_singleton _ _, ?_⟩
  · refine List.pairwise_map.2 (hb.imp fun hle => List.countP_mono_left fun x _ hx => ?_)
    exact decide_eq_true (le_trans (of_decide_eq_true hx) hle)
  · intro n hn m hm
    obtain ⟨b, -, rfl⟩ := List.mem_map.1 hn
    rw [List.mem_singleton.1 hm]
    exact List.countP_le_length

end Histogram

theorem pairwise_attemptBounds : attemptBounds.Pairwise (· ≤ ·) := by decide +kernel

/-! ## Series -/

/-- A sample with the labels of its series. -/
abbrev Sample := Labels × Float

/-- The samples of one series, in order. -/
def samplesOf (labels : Labels) (xs : List Sample) : List Float := (xs.filter (·.1 = labels)).map Prod.snd

theorem samplesOf_cons (labels : Labels) (x : Sample) (xs : List Sample) :
    samplesOf labels (x :: xs) = if x.1 = labels then x.2 :: samplesOf labels xs else samplesOf labels xs := by
  by_cases h : x.1 = labels <;> simp [samplesOf, h]

namespace Event

/-- The labels of the counter that an event is counted under. -/
def counter? : Event → Option Labels
  | .outcome network action kind => some [action, network, kind]
  | .duration .. | .attempts .. => none

/-- The sample of a duration. -/
def duration? : Event → Option Sample
  | .duration mode network seconds => some ([mode, network], seconds)
  | .attempts .. | .outcome .. => none

/-- The sample of a number of broadcasts. -/
def attempts? : Event → Option Sample
  | .attempts network count => some ([network], (UInt64.ofNat count.toNat).toFloat)
  | .duration .. | .outcome .. => none

end Event

namespace Records

/-- Adds samples to their series. -/
def sampleAll (bounds : List Float) (t : Table Labels Histogram) (xs : List Sample) : Table Labels Histogram :=
  xs.foldl (fun t x => sample t bounds x.1 x.2) t

/-- A series gets the samples of its labels alone, in their order. -/
theorem get?_sampleAll (bounds : List Float) (t : Table Labels Histogram) (xs : List Sample) (labels : Labels) :
    ((sampleAll bounds t xs).get? labels).getD (.empty bounds) =
      (samplesOf labels xs).foldl Histogram.observe ((t.get? labels).getD (.empty bounds)) := by
  induction xs generalizing t with
  | nil => rfl
  | cons x xs ih =>
    refine (ih (sample t bounds x.1 x.2)).trans ?_
    rw [samplesOf_cons, sample]
    split
    · rename_i h
      subst h
      rw [Table.get?_set_self]
      rfl
    · rename_i h
      rw [Table.get?_set_of_ne _ _ h]

/-- What a counter of endings shows; one that never counted shows nothing. -/
def outcome (r : Records) (network action kind : String) : Nat := (r.outcomes.get? [action, network, kind]).getD 0

/-- The histogram of the durations in a mode on a network. -/
def durationsOf (r : Records) (mode network : String) : Histogram :=
  (r.durations.get? [mode, network]).getD (.empty durationBounds)

/-- The histogram of the broadcasts of inclusions on a network. -/
def attemptsOf (r : Records) (network : String) : Histogram := (r.attempts.get? [network]).getD (.empty attemptBounds)

variable (es : List Event) (r : Records) (labels : Labels)

theorem durations_foldl :
    (es.foldl record r).durations = sampleAll durationBounds r.durations (es.filterMap Event.duration?) := by
  induction es generalizing r with
  | nil => rfl
  | cons e es ih =>
    refine (ih _).trans ?_
    cases e <;> rfl

theorem attempts_foldl :
    (es.foldl record r).attempts = sampleAll attemptBounds r.attempts (es.filterMap Event.attempts?) := by
  induction es generalizing r with
  | nil => rfl
  | cons e es ih =>
    refine (ih _).trans ?_
    cases e <;> rfl

/-- A counter shows how many events are counted under its labels. -/
theorem get?_outcomes_foldl : ((es.foldl record r).outcomes.get? labels).getD 0 =
    (r.outcomes.get? labels).getD 0 + (es.filterMap Event.counter?).count labels := by
  induction es generalizing r with
  | nil => rfl
  | cons e es ih =>
    refine (ih _).trans ?_
    cases e with
    | duration | attempts => rfl
    | outcome network action kind =>
      have hfilter : (Event.outcome network action kind :: es).filterMap Event.counter? =
          [action, network, kind] :: es.filterMap Event.counter? := rfl
      rw [hfilter, List.count_cons, record]
      by_cases h : [action, network, kind] = labels
      · subst h
        rw [Table.get?_set_self, beq_self_eq_true, if_pos rfl, Option.getD_some]
        omega
      · rw [Table.get?_set_of_ne _ _ h, beq_eq_false_iff_ne.2 h]
        rfl

/-- The durations of a series are those that were recorded under its labels. -/
theorem get?_durations_foldl : ((es.foldl record {}).durations.get? labels).getD (.empty durationBounds) =
    .ofSamples durationBounds (samplesOf labels (es.filterMap Event.duration?)) := by
  rw [durations_foldl, get?_sampleAll]
  rfl

/-- The numbers of broadcasts of a series are those that were recorded under its labels. -/
theorem get?_attempts_foldl : ((es.foldl record {}).attempts.get? labels).getD (.empty attemptBounds) =
    .ofSamples attemptBounds (samplesOf labels (es.filterMap Event.attempts?)) := by
  rw [attempts_foldl, get?_sampleAll]
  rfl

end Records

end OrderKeeper.Metrics
