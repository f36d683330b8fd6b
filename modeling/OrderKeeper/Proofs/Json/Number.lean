import OrderKeeper.Proofs.Json.Token

/-!
# Numbers wherever a value may stand

A text that is read as a number by itself is read as that number wherever a value may stand (`writes_of_number?`), since what
follows a value continues no number. What is read as a number at the front of a text is read as that number by itself
(`exists_number?_of_number?`): each of its parts ends where it does without what follows.
-/

namespace OrderKeeper.Json

open Token

variable {s t rest : List Char} {v : Json} {c : Char}

theorem digits_append_of_delimited (s : List Char) (hrest : Delimited rest) :
    digits (s ++ rest) = ((digits s).1, (digits s).2 ++ rest) := by
  induction s with
  | nil =>
    have hnil : ∀ c ∈ ([] : List Char), c.isDigit := by simp
    exact digits_append hnil hrest
  | cons c s ih => by_cases hc : c.isDigit <;> simp [digits, hc, ih]

theorem fraction?_append {f : List Nat} (h : fraction? s = some (f, t)) (hrest : Delimited rest) :
    fraction? (s ++ rest) = some (f, t ++ rest) := by
  unfold fraction? at h
  split at h
  · rename_i r
    simp only [Option.ite_none_left_eq_some] at h
    obtain ⟨hdigits, h⟩ := h
    cases h
    simp [fraction?, digits_append_of_delimited r hrest, hdigits]
  · rename_i hpoint
    cases h
    cases s with
    | nil => exact fraction?_of_delimited hrest
    | cons c s =>
      rw [List.cons_append, fraction?]
      exact fun r hr => hpoint s (by rw [(List.cons.inj hr).1])

theorem exponent?_append {e : Option Int} (h : exponent? s = some (e, t)) (hrest : Delimited rest) :
    exponent? (s ++ rest) = some (e, t ++ rest) := by
  cases s with
  | nil =>
    cases h
    exact exponent?_of_delimited hrest
  | cons c r =>
    by_cases hc : c = 'e' ∨ c = 'E'
    · cases r with
      | nil => simp [exponent?, hc, digits] at h
      | cons d r =>
        -- The digits begin after a sign or with `d` itself.
        have hsigned := digits_append_of_delimited r hrest
        have hplain := digits_append_of_delimited (d :: r) hrest
        rw [List.cons_append] at hplain
        simp only [exponent?, hc, if_true, List.cons_append] at h ⊢
        by_cases hminus : d = '-'
        · subst hminus
          simp_all
        · by_cases hplus : d = '+'
          · subst hplus
            simp_all
          · simpa [hminus, hplus, hplain] using h
    · simp only [exponent?, hc, if_false, Option.some.injEq, Prod.mk.injEq, List.cons_append] at h ⊢
      obtain ⟨rfl, rfl⟩ := h
      exact ⟨rfl, rfl⟩

/-- The number at the front of a text without its sign. -/
def unsigned? (negative : Bool) (s : List Char) : Option (Json × List Char) := do
  let (whole, r) := digits s
  if whole.isEmpty || (whole.head? == some 0 && 1 < whole.length) then none
  else
    let (fraction, r) ← fraction? r
    let (exponent, r) ← exponent? r
    let v ← (Number.Literal.mk negative whole fraction (fraction.isEmpty && exponent.isNone) (exponent.getD 0)).value?
    return (v, r)

theorem number?_minus (s : List Char) : number? ('-' :: s) = unsigned? true s := rfl

theorem number?_of_ne (hc : c ≠ '-') : number? (c :: s) = unsigned? false (c :: s) := by
  rw [number?]
  · rfl
  · exact fun r h => hc (List.cons.inj h).1

theorem unsigned?_append {negative : Bool} (h : unsigned? negative s = some (v, t)) (hrest : Delimited rest) :
    unsigned? negative (s ++ rest) = some (v, t ++ rest) := by
  simp only [unsigned?, Option.bind_eq_bind] at h ⊢
  rw [digits_append_of_delimited s hrest]
  split_ifs at h ⊢ with hwhole
  simp only [Option.bind_eq_some_iff, Option.pure_def, Option.some.injEq, Prod.mk.injEq] at h
  obtain ⟨⟨fraction, q⟩, hfraction, ⟨exponent, r⟩, hexponent, value, hvalue, rfl, rfl⟩ := h
  simp only [fraction?_append hfraction hrest, exponent?_append hexponent hrest, Option.bind_some, hvalue]
  rfl

/-- The number at the front of a text is the same before whatever may follow a value. -/
theorem number?_append (h : number? s = some (v, t)) (hrest : Delimited rest) :
    number? (s ++ rest) = some (v, t ++ rest) := by
  cases s with
  | nil => simp [number?, digits] at h
  | cons c s =>
    by_cases hc : c = '-'
    · subst hc
      rw [number?_minus] at h
      rw [List.cons_append, number?_minus]
      exact unsigned?_append h hrest
    · rw [number?_of_ne hc] at h
      rw [List.cons_append, number?_of_ne hc]
      exact unsigned?_append h hrest

theorem numeric_of_number? (h : number? (c :: s) = some (v, t)) : c = '-' ∨ c.isDigit := by
  by_contra hc
  obtain ⟨hminus, hdigit⟩ := not_or.1 hc
  rw [number?_of_ne hminus] at h
  simp [unsigned?, digits, hdigit] at h

/-- A text that is read as a number by itself is read as that number wherever a value may stand. -/
theorem writes_of_number? (h : number? s = some (v, [])) : Writes s [.leaf v] := by
  cases s with
  | nil => simp [number?, digits] at h
  | cons c s => exact writes_number (numeric_of_number? h) fun rest hrest => number?_append h hrest

/-! ## The parts of a number -/

/-- Digits at the front of a text are the same before anything but a digit. -/
theorem exists_digits (s : List Char) : ∃ ws, s = ws ++ (digits s).2 ∧
    ∀ rest : List Char, (∀ c ∈ rest.head?, c.isDigit = false) → digits (ws ++ rest) = ((digits s).1, rest) := by
  induction s with
  | nil =>
    refine ⟨[], rfl, fun rest hrest => ?_⟩
    cases rest with
    | nil => rfl
    | cons c rest => simp [digits, hrest c rfl]
  | cons c s ih =>
    by_cases hc : c.isDigit
    · obtain ⟨ws, hs, hws⟩ := ih
      refine ⟨c :: ws, by simpa [digits, hc] using hs, fun rest hrest => ?_⟩
      simp [digits, hc, hws rest hrest]
    · refine ⟨[], by simp [digits, hc], fun rest hrest => ?_⟩
      cases rest with
      | nil => simp [digits, hc]
      | cons d rest => simp [digits, hc, hrest d rfl]

/-- A text is empty or begins with the mark of an exponent. -/
def Marked (s : List Char) : Prop := ∀ c ∈ s.head?, c = 'e' ∨ c = 'E'

theorem Marked.not_isDigit (h : Marked s) : ∀ c ∈ s.head?, c.isDigit = false := by
  intro c hc
  rcases h c hc with rfl | rfl <;> rfl

/-- The exponent whose digits, with a sign before them, stand at the front of a text. -/
def exponentOf? (negative : Bool) (s : List Char) : Option (Option Int × List Char) :=
  let (ds, t) := digits s
  if ds.isEmpty then none
  else
    let n : Nat := min (ds.foldl (fun n d => 10 * n + d) 0) 0x80000000
    some (some (if negative then -(n : Int) else n), t)

section Exponent

variable {e : Option Int} (hc : c = 'e' ∨ c = 'E')

include hc

theorem exponent?_minus (s : List Char) : exponent? (c :: '-' :: s) = exponentOf? true s := by
  rw [exponent?, if_pos hc]
  rfl

theorem exponent?_plus (s : List Char) : exponent? (c :: '+' :: s) = exponentOf? false s := by
  rw [exponent?, if_pos hc]
  rfl

theorem exponent?_plain {d : Char} (hminus : d ≠ '-') (hplus : d ≠ '+') (s : List Char) :
    exponent? (c :: d :: s) = exponentOf? false (d :: s) := by
  simp [exponent?, exponentOf?, hc, hminus, hplus]

end Exponent

theorem exists_exponentOf? {negative : Bool} {e : Option Int} (h : exponentOf? negative s = some (e, t)) :
    ∃ ws, s = ws ++ t ∧ exponentOf? negative ws = some (e, []) := by
  obtain ⟨ws, hs, hws⟩ := exists_digits s
  have hdigits : digits ws = ((digits s).1, []) := by simpa using hws [] nofun
  simp only [exponentOf?, Option.ite_none_left_eq_some, Option.some.injEq, Prod.mk.injEq] at h
  obtain ⟨hne, he, rfl⟩ := h
  refine ⟨ws, hs, ?_⟩
  simp only [exponentOf?, hdigits, Option.ite_none_left_eq_some, Option.some.injEq, Prod.mk.injEq]
  exact ⟨hne, he, trivial⟩

theorem exists_exponent? {e : Option Int} (h : exponent? s = some (e, t)) :
    ∃ es, s = es ++ t ∧ Marked es ∧ exponent? es = some (e, []) := by
  cases s with
  | nil =>
    cases h
    exact ⟨[], rfl, nofun, rfl⟩
  | cons c r =>
    by_cases hc : c = 'e' ∨ c = 'E'
    · have hmarked (es : List Char) : Marked (c :: es) := fun d hd => by
        cases hd
        exact hc
      cases r with
      | nil => simp [exponent?, hc, digits] at h
      | cons d r =>
        by_cases hminus : d = '-'
        · subst hminus
          rw [exponent?_minus hc] at h
          obtain ⟨ws, rfl, hws⟩ := exists_exponentOf? h
          exact ⟨c :: '-' :: ws, rfl, hmarked _, (exponent?_minus hc ws).trans hws⟩
        · by_cases hplus : d = '+'
          · subst hplus
            rw [exponent?_plus hc] at h
            obtain ⟨ws, rfl, hws⟩ := exists_exponentOf? h
            exact ⟨c :: '+' :: ws, rfl, hmarked _, (exponent?_plus hc ws).trans hws⟩
          · rw [exponent?_plain hc hminus hplus] at h
            obtain ⟨ws, hs, hws⟩ := exists_exponentOf? h
            cases ws with
            | nil => cases hws
            | cons d' ws =>
              obtain ⟨rfl, rfl⟩ := List.cons.inj hs
              exact ⟨c :: d :: ws, rfl, hmarked _, (exponent?_plain hc hminus hplus ws).trans hws⟩
    · simp only [exponent?, hc, if_false, Option.some.injEq, Prod.mk.injEq] at h
      obtain ⟨rfl, rfl⟩ := h
      exact ⟨[], rfl, nofun, rfl⟩

theorem exists_fraction? {f : List Nat} (h : fraction? s = some (f, t)) : ∃ fs, s = fs ++ t ∧
    (∀ c ∈ fs.head?, c.isDigit = false) ∧ ∀ es, Marked es → fraction? (fs ++ es) = some (f, es) := by
  unfold fraction? at h
  split at h
  · rename_i r
    simp only [Option.ite_none_left_eq_some, Option.some.injEq, Prod.mk.injEq] at h
    obtain ⟨hne, rfl, rfl⟩ := h
    obtain ⟨ws, hs, hws⟩ := exists_digits r
    refine ⟨'.' :: ws, by rw [List.cons_append, ← hs], fun c hc => by cases hc; rfl, fun es hes => ?_⟩
    simp [fraction?, hws es hes.not_isDigit, hne]
  · cases h
    refine ⟨[], rfl, nofun, fun es hes => ?_⟩
    cases es with
    | nil => rfl
    | cons c es => rcases hes c rfl with rfl | rfl <;> rfl

theorem exists_unsigned? {negative : Bool} (h : unsigned? negative s = some (v, t)) :
    ∃ cs, s = cs ++ t ∧ unsigned? negative cs = some (v, []) := by
  simp only [unsigned?, Option.bind_eq_bind, Option.ite_none_left_eq_some] at h
  obtain ⟨hwhole, h⟩ := h
  simp only [Option.bind_eq_some_iff, Option.pure_def, Option.some.injEq, Prod.mk.injEq] at h
  obtain ⟨⟨fraction, q⟩, hfraction, ⟨exponent, r⟩, hexponent, value, hvalue, rfl, rfl⟩ := h
  obtain ⟨ws, hs, hws⟩ := exists_digits s
  obtain ⟨fs, hq, hfs, hfs'⟩ := exists_fraction? hfraction
  obtain ⟨es, rfl, hes, hes'⟩ := exists_exponent? hexponent
  refine ⟨ws ++ fs ++ es, by rw [hs, hq]; simp, ?_⟩
  have hstop : ∀ c ∈ (fs ++ es).head?, c.isDigit = false := by
    cases fs with
    | nil => exact hes.not_isDigit
    | cons => exact hfs
  rw [List.append_assoc]
  simp only [unsigned?, hws _ hstop, hwhole, hfs' es hes, hes', Option.bind_eq_bind, Option.bind_some, hvalue]
  rfl

/-- The number at the front of a text has a text of its own. -/
theorem exists_number?_of_number? (h : number? s = some (v, t)) : ∃ cs, s = cs ++ t ∧ number? cs = some (v, []) := by
  cases s with
  | nil => simp [number?, digits] at h
  | cons c s =>
    by_cases hc : c = '-'
    · subst hc
      rw [number?_minus] at h
      obtain ⟨cs, rfl, hcs⟩ := exists_unsigned? h
      exact ⟨'-' :: cs, rfl, (number?_minus cs).trans hcs⟩
    · rw [number?_of_ne hc] at h
      obtain ⟨cs, hs, hcs⟩ := exists_unsigned? h
      cases cs with
      | nil => simp [unsigned?, digits] at hcs
      | cons d cs =>
        obtain ⟨rfl, rfl⟩ := List.cons.inj hs
        exact ⟨c :: cs, rfl, (number?_of_ne hc).trans hcs⟩

end OrderKeeper.Json
