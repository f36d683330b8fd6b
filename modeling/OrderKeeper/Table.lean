/-!
# Tables

Finite maps as lists of entries in the order of their first insertion.

- `get?_set_self` and `get?_set_of_ne` say what an insertion does to a look-up, `get?_erase_self` and `get?_erase_of_ne`
  what a removal does.
- A table whose keys are distinct keeps them so (`nodup_keys_set`, `nodup_keys_erase`), and is the entry of any of its keys
  and the table without it, in some order (`perm_of_get?`, `set_perm`).
- A part of a table is a table again (`get?_filter`, `filter_set`, `filter_erase`).
-/

namespace OrderKeeper

/-- Entries by key. -/
abbrev Table (κ ν : Type) := List (κ × ν)

namespace Table

variable {κ ν : Type} [DecidableEq κ]

/-- The value of a key. -/
def get? : Table κ ν → κ → Option ν
  | [], _ => none
  | (k, v) :: t, i => if k = i then some v else get? t i

/-- Sets the value of a key. -/
def set : Table κ ν → κ → ν → Table κ ν
  | [], i, w => [(i, w)]
  | (k, v) :: t, i, w => if k = i then (k, w) :: t else (k, v) :: set t i w

/-- Removes the entries of a key. -/
def erase : Table κ ν → κ → Table κ ν
  | [], _ => []
  | (k, v) :: t, i => if k = i then erase t i else (k, v) :: erase t i

/-- The keys in order. -/
def keys (t : Table κ ν) : List κ := t.map (·.1)

theorem get?_set_self (t : Table κ ν) (i : κ) (w : ν) : (t.set i w).get? i = some w := by
  induction t with
  | nil => simp [set, get?]
  | cons e t ih =>
    obtain ⟨k, v⟩ := e
    by_cases h : k = i <;> simp [set, get?, h, ih]

theorem get?_set_of_ne (t : Table κ ν) {i j : κ} (w : ν) (h : i ≠ j) : (t.set i w).get? j = t.get? j := by
  induction t with
  | nil => simp [set, get?, h]
  | cons e t ih =>
    obtain ⟨k, v⟩ := e
    by_cases hk : k = i
    · subst hk
      simp [set, get?, h]
    · simp [set, get?, hk, ih]

theorem get?_erase_self (t : Table κ ν) (i : κ) : (t.erase i).get? i = none := by
  induction t with
  | nil => rfl
  | cons e t ih =>
    obtain ⟨k, v⟩ := e
    by_cases h : k = i <;> simp [erase, get?, h, ih]

theorem get?_erase_of_ne (t : Table κ ν) {i j : κ} (h : i ≠ j) : (t.erase i).get? j = t.get? j := by
  induction t with
  | nil => rfl
  | cons e t ih =>
    obtain ⟨k, v⟩ := e
    by_cases hk : k = i
    · subst hk
      simp [erase, get?, h, ih]
    · simp [erase, get?, hk, ih]

/-! ## Distinct keys -/

/-- A removal keeps the entries of all other keys. -/
theorem mem_erase {t : Table κ ν} {i : κ} {e : κ × ν} : e ∈ t.erase i ↔ e ∈ t ∧ e.1 ≠ i := by
  induction t with
  | nil => simp [erase]
  | cons d t ih =>
    obtain ⟨k, v⟩ := d
    by_cases h : k = i
    · rw [erase, if_pos h, ih, List.mem_cons]
      exact ⟨fun ⟨hm, hi⟩ => ⟨.inr hm, hi⟩, fun ⟨hm, hi⟩ => ⟨hm.resolve_left fun e => hi (by rw [e, h]), hi⟩⟩
    · rw [erase, if_neg h, List.mem_cons, List.mem_cons, ih]
      constructor
      · rintro (rfl | ⟨hm, hi⟩)
        · exact ⟨.inl rfl, h⟩
        · exact ⟨.inr hm, hi⟩
      · rintro ⟨rfl | hm, hi⟩
        · exact .inl rfl
        · exact .inr ⟨hm, hi⟩

theorem keys_erase_subset (t : Table κ ν) (i : κ) : (t.erase i).keys ⊆ t.keys := by
  intro j hj
  obtain ⟨e, he, rfl⟩ := List.mem_map.1 hj
  exact List.mem_map_of_mem (mem_erase.1 he).1

theorem nodup_keys_erase {t : Table κ ν} (h : t.keys.Nodup) (i : κ) : (t.erase i).keys.Nodup := by
  induction t with
  | nil => exact h
  | cons e t ih =>
    obtain ⟨k, v⟩ := e
    obtain ⟨hk, ht⟩ := List.nodup_cons.1 h
    by_cases hi : k = i
    · rw [erase, if_pos hi]
      exact ih ht
    · rw [erase, if_neg hi]
      exact List.nodup_cons.2 ⟨fun hm => hk (keys_erase_subset t i hm), ih ht⟩

theorem get?_eq_none_iff {t : Table κ ν} {i : κ} : t.get? i = none ↔ i ∉ t.keys := by
  induction t with
  | nil => simp [get?, keys]
  | cons e t ih =>
    obtain ⟨k, v⟩ := e
    by_cases h : k = i
    · simp [get?, keys, h]
    · rw [get?, if_neg h, ih]
      simp [keys, Ne.symm h]

/-- What is found is an entry. -/
theorem mem_of_get? {t : Table κ ν} {i : κ} {v : ν} (h : t.get? i = some v) : (i, v) ∈ t := by
  induction t with
  | nil => cases h
  | cons e t ih =>
    obtain ⟨k, w⟩ := e
    by_cases hk : k = i
    · subst hk
      rw [get?, if_pos rfl] at h
      cases h
      exact List.mem_cons_self
    · rw [get?, if_neg hk] at h
      exact List.mem_cons_of_mem _ (ih h)

/-- If the keys are distinct, every entry is found. -/
theorem get?_of_mem {t : Table κ ν} (h : t.keys.Nodup) {i : κ} {v : ν} (hm : (i, v) ∈ t) : t.get? i = some v := by
  induction t with
  | nil => cases hm
  | cons e t ih =>
    obtain ⟨k, w⟩ := e
    obtain ⟨hk, ht⟩ := List.nodup_cons.1 h
    rcases List.mem_cons.1 hm with he | hm
    · cases he
      rw [get?, if_pos rfl]
    · have hi : i ∈ keys t := List.mem_map.2 ⟨(i, v), hm, rfl⟩
      have hki : k ≠ i := by
        rintro rfl
        exact hk hi
      rw [get?, if_neg hki, ih ht hm]

/-- A table has no entry to remove for a key that it lacks. -/
theorem erase_of_get?_eq_none {t : Table κ ν} {i : κ} (h : t.get? i = none) : t.erase i = t := by
  induction t with
  | nil => rfl
  | cons e t ih =>
    obtain ⟨k, v⟩ := e
    by_cases hk : k = i
    · simp [get?, hk] at h
    · rw [get?, if_neg hk] at h
      rw [erase, if_neg hk, ih h]

/-- A table with an entry for a key is that entry and the rest. -/
theorem perm_of_get? {t : Table κ ν} (h : t.keys.Nodup) {i : κ} {v : ν} (hi : t.get? i = some v) :
    List.Perm t ((i, v) :: t.erase i) := by
  induction t with
  | nil => cases hi
  | cons e t ih =>
    obtain ⟨k, w⟩ := e
    obtain ⟨hk, ht⟩ := List.nodup_cons.1 h
    by_cases hki : k = i
    · subst hki
      rw [get?, if_pos rfl] at hi
      cases hi
      rw [erase, if_pos rfl, erase_of_get?_eq_none (get?_eq_none_iff.2 hk)]
    · rw [get?, if_neg hki] at hi
      rw [erase, if_neg hki]
      exact ((ih ht hi).cons _).trans (List.Perm.swap _ _ _)

/-- An insertion replaces the entry of its key, if there is one. -/
theorem set_perm {t : Table κ ν} (h : t.keys.Nodup) (i : κ) (w : ν) :
    List.Perm (t.set i w) ((i, w) :: t.erase i) := by
  induction t with
  | nil => exact .refl _
  | cons e t ih =>
    obtain ⟨k, v⟩ := e
    obtain ⟨hk, ht⟩ := List.nodup_cons.1 h
    by_cases hki : k = i
    · subst hki
      rw [set, if_pos rfl, erase, if_pos rfl, erase_of_get?_eq_none (get?_eq_none_iff.2 hk)]
    · rw [set, if_neg hki, erase, if_neg hki]
      exact ((ih ht).cons _).trans (List.Perm.swap _ _ _)

theorem nodup_keys_set {t : Table κ ν} (h : t.keys.Nodup) (i : κ) (w : ν) : (t.set i w).keys.Nodup := by
  have hp : List.Perm (t.set i w).keys (i :: (t.erase i).keys) := (set_perm h i w).map Prod.fst
  refine hp.nodup_iff.2 (List.nodup_cons.2 ⟨?_, nodup_keys_erase h i⟩)
  exact get?_eq_none_iff.1 (get?_erase_self t i)

/-- What is in a table after an insertion was inserted or there before. -/
theorem mem_set {t : Table κ ν} {i : κ} {w : ν} {e : κ × ν} (h : e ∈ t.set i w) : e = (i, w) ∨ e ∈ t := by
  induction t with
  | nil => exact .inl (List.mem_singleton.1 h)
  | cons d t ih =>
    obtain ⟨k, v⟩ := d
    by_cases hk : k = i
    · rw [set, if_pos hk] at h
      exact (List.mem_cons.1 h).imp (fun he => by rw [he, hk]) (List.mem_cons_of_mem _)
    · rw [set, if_neg hk] at h
      rcases List.mem_cons.1 h with rfl | h
      · exact .inr List.mem_cons_self
      · exact (ih h).imp_right (List.mem_cons_of_mem _)

/-- A new key comes last. -/
theorem set_of_get?_eq_none {t : Table κ ν} {i : κ} {w : ν} (h : t.get? i = none) : t.set i w = t ++ [(i, w)] := by
  induction t with
  | nil => rfl
  | cons e t ih =>
    obtain ⟨k, v⟩ := e
    by_cases hk : k = i
    · simp [get?, hk] at h
    · rw [get?, if_neg hk] at h
      rw [set, if_neg hk, ih h]
      rfl

theorem keys_set_of_get?_eq_none {t : Table κ ν} {i : κ} {w : ν} (h : t.get? i = none) :
    (t.set i w).keys = t.keys ++ [i] := by
  rw [set_of_get?_eq_none h]
  exact List.map_append

/-- The value of a key is replaced in its place. -/
theorem keys_set_of_get? {t : Table κ ν} {i : κ} {v w : ν} (h : t.get? i = some v) : (t.set i w).keys = t.keys := by
  induction t with
  | nil => cases h
  | cons e t ih =>
    obtain ⟨k, u⟩ := e
    by_cases hk : k = i
    · rw [set, if_pos hk]
      rfl
    · rw [get?, if_neg hk] at h
      rw [set, if_neg hk]
      exact congrArg (k :: ·) (ih h)

@[simp] theorem erase_set_self (t : Table κ ν) (i : κ) (w : ν) : (t.set i w).erase i = t.erase i := by
  induction t with
  | nil => simp [set, erase]
  | cons e t ih =>
    obtain ⟨k, v⟩ := e
    by_cases h : k = i <;> simp [set, erase, h, ih]

@[simp] theorem set_set_self (t : Table κ ν) (i : κ) (v w : ν) : (t.set i v).set i w = t.set i w := by
  induction t with
  | nil => simp [set]
  | cons e t ih =>
    obtain ⟨k, u⟩ := e
    by_cases h : k = i <;> simp [set, h, ih]

@[simp] theorem erase_erase_self (t : Table κ ν) (i : κ) : (t.erase i).erase i = t.erase i :=
  erase_of_get?_eq_none (get?_erase_self t i)

/-- How many values have a property: the value of a key, and those of all others. -/
theorem countP_eq {t : Table κ ν} (h : t.keys.Nodup) (i : κ) (p : ν → Bool) :
    t.countP (fun e => p e.2) = (t.get? i).toList.countP p + (t.erase i).countP fun e => p e.2 := by
  cases hi : t.get? i with
  | none => simp [erase_of_get?_eq_none hi]
  | some v =>
    rw [(perm_of_get? h hi).countP_eq, List.countP_cons]
    simp [Nat.add_comm]

/-! ## Parts of a table -/

section Filter

variable {t : Table κ ν} {p : κ × ν → Bool} {i : κ} {w : ν}

omit [DecidableEq κ] in
theorem nodup_keys_filter (h : t.keys.Nodup) (p : κ × ν → Bool) : (keys (t.filter p)).Nodup :=
  h.sublist (List.filter_sublist.map Prod.fst)

/-- What is found in a part of a table is found in the table, and is in the part. -/
theorem get?_filter (h : t.keys.Nodup) (p : κ × ν → Bool) (i : κ) :
    get? (t.filter p) i = (t.get? i).filter fun v => p (i, v) := by
  cases hi : t.get? i with
  | none =>
    refine get?_eq_none_iff.2 fun hm => get?_eq_none_iff.1 hi ?_
    exact (List.filter_sublist.map Prod.fst).subset hm
  | some v =>
    rw [Option.filter_some]
    split
    · rename_i hp
      exact get?_of_mem (nodup_keys_filter h p) (List.mem_filter.2 ⟨mem_of_get? hi, hp⟩)
    · rename_i hp
      cases hf : get? (t.filter p) i with
      | none => rfl
      | some u =>
        obtain ⟨hm, hu⟩ := List.mem_filter.1 (mem_of_get? hf)
        rw [Option.some.inj (hi.symm.trans (get?_of_mem h hm))] at hp
        exact absurd hu hp

/-- A part of a table to which the new value belongs just if the old one does. -/
theorem filter_set (h : ∀ v, t.get? i = some v → p (i, v) = p (i, w)) :
    (t.set i w).filter p = if p (i, w) then set (t.filter p) i w else t.filter p := by
  induction t with
  | nil => cases hp : p (i, w) <;> simp [set, hp]
  | cons e t ih =>
    obtain ⟨k, v⟩ := e
    by_cases hk : k = i
    · subst hk
      have hv : p (k, v) = p (k, w) := h v (by simp [get?])
      cases hp : p (k, w) <;> simp [set, hv, hp]
    · have ih := ih fun u hu => h u (by rwa [get?, if_neg hk])
      cases hp : p (i, w) <;> cases hv : p (k, v) <;> simp_all [set]

theorem filter_erase (t : Table κ ν) (p : κ × ν → Bool) (i : κ) : (t.erase i).filter p = erase (t.filter p) i := by
  induction t with
  | nil => rfl
  | cons e t ih =>
    obtain ⟨k, v⟩ := e
    by_cases hk : k = i <;> cases hv : p (k, v) <;> simp [erase, hk, hv, ih]
    all_goals simp_all [erase]

end Filter

end Table

end OrderKeeper
