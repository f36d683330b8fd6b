import OrderKeeper.Proofs.Json.Edit
import OrderKeeper.Proofs.Json.Record

/-!
# Records of members in any order

- A record is steady if the readers of its members are (`Record.Steady`): it looks at its own members alone, by their names
  (`Record.ofMembers_eq_ok`).
- Several records may be read from the same members, each from its own (`SteadyMembers.both`).
- A tagged value may have its tag anywhere, but once (`Alternatives.ofMembers_eq_ok`).
-/

namespace OrderKeeper.Json

variable {α β : Type} {decode : Decoder α} {s : Shape} {v v' : Json} {name tag : String} {ms ms' ns : Members}

/-! ## Records -/

namespace Record

/-- What is read of a member before and after an edit of the members. -/
def Follows (member : String → Shape) (name : String) (o o' : Option Json) : Prop :=
  o' = o ∨ ∃ v v', o = some v ∧ o' = some v' ∧ Edits (member name) v v'

/-- A record makes the same of members that are edited, and refuses one in which a name repeats. -/
structure Steady (member : String → Shape) (r : Record α) : Prop where
  check {name : String} {v v' : Json} : name ∈ r.names → r.check name v = .ok () → Edits (member name) v v' →
    r.check name v' = .ok ()
  repeats {name : String} {v v' : Json} : name ∈ r.names → r.check name v = .ok () → Repeats (member name) v v' →
    r.check name v' ≠ .ok ()
  read {look look' : String → Option Json} {a : α} : (∀ name ∈ r.names, Follows member name (look name) (look' name)) →
    r.read look = .ok a → r.read look' = .ok a

variable {member : String → Shape} {r : Record α}

theorem steady_member {absent short : Except Mismatch α} (h : Json.Steady (member name) decode) :
    (Record.member name decode absent short).Steady member where
  check {name' v v'} hn hv he := by
    obtain rfl := List.mem_singleton.1 hn
    obtain ⟨a, ha, -⟩ := map_eq_ok.1 hv
    exact map_eq_ok.2 ⟨a, h.edits ha he, rfl⟩
  repeats {name' v v'} hn hv hr hv' := by
    obtain rfl := List.mem_singleton.1 hn
    obtain ⟨a, ha, -⟩ := map_eq_ok.1 hv
    obtain ⟨b, hb, -⟩ := map_eq_ok.1 hv'
    exact h.repeats ha hr hb
  read {look look' a} hlook hread := by
    dsimp only [Record.member] at hread ⊢
    rcases hlook name (List.mem_singleton_self name) with he | ⟨v, v', hv, hv', he⟩
    · rw [he]
      exact hread
    · rw [hv] at hread
      rw [hv']
      exact h.edits hread he

theorem Steady.map (h : r.Steady member) (g : α → β) : (g <$> r).Steady member where
  check := h.check
  repeats := h.repeats
  read hlook hread := by
    obtain ⟨a, ha, hg⟩ := map_eq_ok.1 hread
    exact map_eq_ok.2 ⟨a, h.read hlook ha, hg⟩

theorem Steady.seq {f : Record (α → β)} (hf : f.Steady member) (hr : r.Steady member) : (f <*> r).Steady member where
  check {name v v'} hn hv he := by
    change (if name ∈ f.names then f.check name v else r.check name v) = .ok () at hv
    change (if name ∈ f.names then f.check name v' else r.check name v') = .ok ()
    split at hv
    · rename_i hfn
      rw [if_pos hfn]
      exact hf.check hfn hv he
    · rename_i hfn
      rw [if_neg hfn]
      exact hr.check ((List.mem_append.1 hn).resolve_left hfn) hv he
  repeats {name v v'} hn hv hrep := by
    change (if name ∈ f.names then f.check name v else r.check name v) = .ok () at hv
    change (if name ∈ f.names then f.check name v' else r.check name v') ≠ .ok ()
    split at hv
    · rename_i hfn
      rw [if_pos hfn]
      exact hf.repeats hfn hv hrep
    · rename_i hfn
      rw [if_neg hfn]
      exact hr.repeats ((List.mem_append.1 hn).resolve_left hfn) hv hrep
  read {look look' b} hlook hread := by
    change (do let g ← f.read look; let x ← r.read look; return g x) = .ok b at hread
    change (do let g ← f.read look'; let x ← r.read look'; return g x) = .ok b
    obtain ⟨g, hg, hread⟩ := bind_eq_ok.1 hread
    obtain ⟨x, hx, hb⟩ := bind_eq_ok.1 hread
    have hg' := hf.read (fun name hn => hlook name (List.mem_append_left _ hn)) hg
    have hx' := hr.read (fun name hn => hlook name (List.mem_append_right _ hn)) hx
    rw [hg', hx']
    exact hb

/-! ### The members of a record -/

/-- The members whose names belong to a record. -/
def own (r : Record α) (ms : Members) : Members := ms.filter (·.1 ∈ r.names)

theorem scan_eq_ok {seen : List String} : r.scan seen ms = .ok () ↔
    ((r.own ms).map Prod.fst).Nodup ∧ (∀ m ∈ r.own ms, m.1 ∉ seen) ∧ ∀ m ∈ r.own ms, r.check m.1 m.2 = .ok () := by
  induction ms generalizing seen with
  | nil => simp [scan, own]
  | cons m ms ih =>
    rw [scan]
    by_cases hn : m.1 ∈ r.names
    · have hown : r.own (m :: ms) = m :: r.own ms := List.filter_cons_of_pos (decide_eq_true hn)
      rw [if_pos hn, hown]
      by_cases hs : m.1 ∈ seen
      · simp [hs]
      · rw [if_neg hs, bind_eq_ok]
        simp only [ih, List.map_cons, List.nodup_cons, List.forall_mem_cons, hs, not_false_eq_true, true_and]
        constructor
        · rintro ⟨⟨⟩, hc, hnodup, hseen, hcheck⟩
          have hnew : m.1 ∉ (r.own ms).map Prod.fst := fun hm => by
            obtain ⟨m', hm', he⟩ := List.mem_map.1 hm
            exact hseen m' hm' (he ▸ List.mem_cons_self)
          exact ⟨⟨hnew, hnodup⟩, fun m' hm' h => hseen m' hm' (List.mem_cons_of_mem _ h), hc, hcheck⟩
        · rintro ⟨⟨hnew, hnodup⟩, hseen, hc, hcheck⟩
          refine ⟨(), hc, hnodup, fun m' hm' h => ?_, hcheck⟩
          rcases List.mem_cons.1 h with he | h
          · exact hnew (he ▸ List.mem_map_of_mem hm')
          · exact hseen m' hm' h
    · have hown : r.own (m :: ms) = r.own ms := List.filter_cons_of_neg (by simpa using hn)
      rw [if_neg hn, hown, ih]

/-- A record accepts members of which its own are distinct and have the forms that their names ask for. -/
theorem ofMembers_eq_ok {a : α} : r.ofMembers ms = .ok a ↔ ((r.own ms).map Prod.fst).Nodup ∧
    (∀ m ∈ r.own ms, r.check m.1 m.2 = .ok ()) ∧ r.read (Json.find? ms) = .ok a := by
  have hscan : r.scan [] ms = .ok () ↔
      ((r.own ms).map Prod.fst).Nodup ∧ ∀ m ∈ r.own ms, r.check m.1 m.2 = .ok () := by
    simp [scan_eq_ok]
  rw [ofMembers, bind_eq_ok, ← and_assoc, ← hscan]
  constructor
  · rintro ⟨_, h⟩
    exact h
  · exact fun h => ⟨(), h⟩

theorem find?_own (hn : name ∈ r.names) : Json.find? (r.own ms) name = Json.find? ms name := by
  rw [Json.find?, Json.find?, own, List.find?_filter]
  congr 2
  funext m
  by_cases hm : m.1 = name
  · subst hm
    simp [hn]
  · simp [hm]

/-- A member of a name that belongs to a record is found if there is no other of its name. -/
theorem find?_eq_some (h : ((r.own ms).map Prod.fst).Nodup) (hn : name ∈ r.names) :
    Json.find? ms name = some v ↔ (name, v) ∈ ms := by
  rw [← find?_own hn]
  constructor
  · intro hv
    obtain ⟨m, hm, rfl⟩ := Option.map_eq_some_iff.1 hv
    have hname : m.1 = name := by simpa using List.find?_some hm
    exact hname ▸ (List.mem_filter.1 (List.mem_of_find?_eq_some hm)).1
  · intro hm
    exact find?_of_mem h (List.mem_filter.2 ⟨hm, decide_eq_true hn⟩)

theorem find?_congr (h : ((r.own ms).map Prod.fst).Nodup) (h' : ((r.own ms').map Prod.fst).Nodup) (hn : name ∈ r.names)
    (hm : ∀ v, (name, v) ∈ ms' ↔ (name, v) ∈ ms) : Json.find? ms' name = Json.find? ms name := by
  ext v
  rw [find?_eq_some h' hn, find?_eq_some h hn, hm]

variable {names : List String}

/-- What a record makes of members does not depend on their order. -/
theorem Steady.ofMembers_of_perm (hr : r.Steady member) {a : α} (h : r.ofMembers ms = .ok a) (hp : ms.Perm ms') :
    r.ofMembers ms' = .ok a := by
  obtain ⟨hnodup, hcheck, hread⟩ := ofMembers_eq_ok.1 h
  have hown : (r.own ms).Perm (r.own ms') := hp.filter _
  have hnodup' : ((r.own ms').map Prod.fst).Nodup := (hown.map Prod.fst).nodup_iff.1 hnodup
  refine ofMembers_eq_ok.2 ⟨hnodup', fun m hm => hcheck m (hown.mem_iff.2 hm), hr.read (fun name hn => .inl ?_) hread⟩
  exact find?_congr hnodup hnodup' hn fun v => hp.mem_iff.symm

/-- A record does not see a member of another name. -/
theorem Steady.ofMembers_of_foreign (hr : r.Steady member) (hforeign : name ∉ r.names) {a : α}
    (h : r.ofMembers (ms ++ ns) = .ok a) : r.ofMembers (ms ++ (name, v) :: ns) = .ok a := by
  obtain ⟨hnodup, hcheck, hread⟩ := ofMembers_eq_ok.1 h
  have hown : r.own (ms ++ (name, v) :: ns) = r.own (ms ++ ns) := by simp [own, hforeign]
  refine ofMembers_eq_ok.2 ⟨hown ▸ hnodup, hown ▸ hcheck, hr.read (fun name' hn' => .inl ?_) hread⟩
  have hne : name' ≠ name := fun e => hforeign (e ▸ hn')
  exact find?_congr hnodup (hown ▸ hnodup) hn' fun v => by simp [hne]

/-- The names of the own members do not change with the value of one. -/
theorem keys_own_append_cons (r : Record α) (ms ns : Members) (name : String) (v v' : Json) :
    (r.own (ms ++ (name, v') :: ns)).map Prod.fst = (r.own (ms ++ (name, v) :: ns)).map Prod.fst := by
  rw [own, own, List.filter_append, List.filter_append, List.filter_cons, List.filter_cons]
  split <;> simp

/-- What a record makes of members does not change with an edit of the value of one. -/
theorem Steady.ofMembers_of_member (hr : r.Steady member) {a : α} (h : r.ofMembers (ms ++ (name, v) :: ns) = .ok a)
    (hv : Edits (member name) v v') : r.ofMembers (ms ++ (name, v') :: ns) = .ok a := by
  obtain ⟨hnodup, hcheck, hread⟩ := ofMembers_eq_ok.1 h
  have hnodup' : ((r.own (ms ++ (name, v') :: ns)).map Prod.fst).Nodup := r.keys_own_append_cons ms ns name v v' ▸ hnodup
  refine ofMembers_eq_ok.2 ⟨hnodup', fun m hm => ?_, hr.read (fun name' hn' => ?_) hread⟩
  · obtain ⟨hm, hmn⟩ := List.mem_filter.1 hm
    have hmn : m.1 ∈ r.names := of_decide_eq_true hmn
    have hold (hm : m ∈ ms ++ (name, v) :: ns) : r.check m.1 m.2 = .ok () :=
      hcheck m (List.mem_filter.2 ⟨hm, decide_eq_true hmn⟩)
    rcases List.mem_append.1 hm with hm | hm
    · exact hold (by simp [hm])
    · rcases List.mem_cons.1 hm with rfl | hm
      · exact hr.check hmn (hcheck (name, v) (List.mem_filter.2 ⟨by simp, decide_eq_true hmn⟩)) hv
      · exact hold (by simp [hm])
  · by_cases hne : name' = name
    · subst hne
      exact .inr ⟨v, v', (find?_eq_some hnodup hn').2 (by simp), (find?_eq_some hnodup' hn').2 (by simp), hv⟩
    · exact .inl (find?_congr hnodup hnodup' hn' fun w => by simp [hne])

/-- What a record makes of members does not change with an edit of them. -/
theorem Steady.ofMembers (hr : r.Steady member) (hnames : ∀ name ∈ r.names, name ∈ names) {a : α}
    (h : r.ofMembers ms = .ok a) (he : Edits (.object names member) (.obj ms) (.obj ms')) : r.ofMembers ms' = .ok a := by
  cases he with
  | reorder hp => exact hr.ofMembers_of_perm h hp
  | add hn => exact hr.ofMembers_of_foreign (fun hown => hn (hnames _ hown)) h
  | member hv => exact hr.ofMembers_of_member h hv

/-- A record refuses members of which two have one of its names. -/
theorem ofMembers_ne_of_repeated (hn : name ∈ r.names) (hm : name ∈ (ms ++ ns).map Prod.fst) {a : α} :
    r.ofMembers (ms ++ (name, v) :: ns) ≠ .ok a := by
  intro h
  obtain ⟨hnodup, -, -⟩ := ofMembers_eq_ok.1 h
  have hown : r.own (ms ++ (name, v) :: ns) = r.own ms ++ (name, v) :: r.own ns := by simp [own, hn]
  have hperm : ((r.own ms ++ (name, v) :: r.own ns).map Prod.fst).Perm (name :: (r.own ms ++ r.own ns).map Prod.fst) :=
    List.perm_middle.map Prod.fst
  rw [hown, hperm.nodup_iff, List.nodup_cons] at hnodup
  refine hnodup.1 ?_
  have happend : r.own ms ++ r.own ns = r.own (ms ++ ns) := (List.filter_append ..).symm
  obtain ⟨m, hmem, rfl⟩ := List.mem_map.1 hm
  rw [happend]
  exact List.mem_map_of_mem (List.mem_filter.2 ⟨hmem, decide_eq_true hn⟩)

/-- A record refuses members in one of which a name repeats. -/
theorem Steady.ofMembers_ne (hr : r.Steady member) (hn : name ∈ r.names) {a b : α}
    (h : r.ofMembers (ms ++ (name, v) :: ns) = .ok a) (hv : Repeats (member name) v v') :
    r.ofMembers (ms ++ (name, v') :: ns) ≠ .ok b := by
  intro h'
  have hown (w : Json) : (name, w) ∈ r.own (ms ++ (name, w) :: ns) :=
    List.mem_filter.2 ⟨by simp, decide_eq_true hn⟩
  exact hr.repeats hn ((ofMembers_eq_ok.1 h).2.1 _ (hown v)) hv ((ofMembers_eq_ok.1 h').2.1 _ (hown v'))

end Record

/-! ## Readers of members -/

/-- A reader of members makes the same of them after every edit, and refuses them with a member of its own that repeats;
other members may be the business of other readers. -/
structure SteadyMembers (names own : List String) (member : String → Shape) (read : Members → Except Mismatch α) :
    Prop where
  edits {ms ms' : Members} {a : α} : read ms = .ok a → Edits (.object names member) (.obj ms) (.obj ms') →
    read ms' = .ok a
  here {ms ns : Members} {name : String} {v : Json} {a : α} : name ∈ own → name ∈ (ms ++ ns).map Prod.fst →
    read (ms ++ (name, v) :: ns) ≠ .ok a
  member {ms ns : Members} {name : String} {v v' : Json} {a b : α} : name ∈ own →
    read (ms ++ (name, v) :: ns) = .ok a → Repeats (member name) v v' → read (ms ++ (name, v') :: ns) ≠ .ok b

section Readers

variable {names own : List String} {member : String → Shape}

theorem Record.Steady.members {r : Record α} (hr : r.Steady member) (hnames : ∀ name ∈ r.names, name ∈ names) :
    SteadyMembers names r.names member r.ofMembers where
  edits := hr.ofMembers hnames
  here hn hm := Record.ofMembers_ne_of_repeated hn hm
  member hn h hv := hr.ofMembers_ne hn h hv

/-- Two readers of the same members. -/
def both (f : Members → Except Mismatch α) (g : Members → Except Mismatch β) (ms : Members) :
    Except Mismatch (α × β) := do
  let a ← f ms
  let b ← g ms
  return (a, b)

theorem both_eq_ok {f : Members → Except Mismatch α} {g : Members → Except Mismatch β} {x : α × β} :
    both f g ms = .ok x ↔ f ms = .ok x.1 ∧ g ms = .ok x.2 := by
  obtain ⟨a, b⟩ := x
  simp only [both, bind_eq_ok, pure, Except.pure, Except.ok.injEq, Prod.mk.injEq]
  constructor
  · rintro ⟨a, ha, b, hb, rfl, rfl⟩
    exact ⟨ha, hb⟩
  · rintro ⟨ha, hb⟩
    exact ⟨a, ha, b, hb, rfl, rfl⟩

/-- Of two readers of the same members, each refuses repeated members of its own. -/
theorem SteadyMembers.both {own' : List String} {f : Members → Except Mismatch α} {g : Members → Except Mismatch β}
    (hf : SteadyMembers names own member f) (hg : SteadyMembers names own' member g) :
    SteadyMembers names (own ++ own') member (both f g) where
  edits h he := by
    obtain ⟨ha, hb⟩ := both_eq_ok.1 h
    exact both_eq_ok.2 ⟨hf.edits ha he, hg.edits hb he⟩
  here hn hm h := by
    obtain ⟨ha, hb⟩ := both_eq_ok.1 h
    rcases List.mem_append.1 hn with hn | hn
    · exact hf.here hn hm ha
    · exact hg.here hn hm hb
  member hn h hv h' := by
    obtain ⟨ha, hb⟩ := both_eq_ok.1 h
    obtain ⟨ha', hb'⟩ := both_eq_ok.1 h'
    rcases List.mem_append.1 hn with hn | hn
    · exact hf.member hn ha hv ha'
    · exact hg.member hn hb hv hb'

theorem SteadyMembers.map {read : Members → Except Mismatch α} (h : SteadyMembers names own member read) (g : α → β) :
    SteadyMembers names own member fun ms => (read ms).map g where
  edits hread he := by
    obtain ⟨a, ha, hg⟩ := map_eq_ok.1 hread
    exact map_eq_ok.2 ⟨a, h.edits ha he, hg⟩
  here hn hm hread := by
    obtain ⟨a, ha, -⟩ := map_eq_ok.1 hread
    exact h.here hn hm ha
  member hn hread hv hread' := by
    obtain ⟨a, ha, -⟩ := map_eq_ok.1 hread
    obtain ⟨b, hb, -⟩ := map_eq_ok.1 hread'
    exact h.member hn ha hv hb

theorem SteadyMembers.of_subset {own' : List String} {read : Members → Except Mismatch α}
    (h : SteadyMembers names own member read) (hown : ∀ name ∈ own', name ∈ own) :
    SteadyMembers names own' member read where
  edits := h.edits
  here hn hm := h.here (hown _ hn) hm
  member hn := h.member (hown _ hn)

/-- Where the members of names that belong to no reader have no members that are known, all repetitions are refused. -/
theorem SteadyMembers.repeats {read : Members → Except Mismatch α} (h : SteadyMembers names own member read)
    (hown : ∀ name ∈ names, name ∈ own) (hany : ∀ name, name ∉ own → member name = .any) {a b : α} (hread : read ms = .ok a)
    (hr : Repeats (.object names member) (.obj ms) (.obj ms')) : read ms' ≠ .ok b := by
  cases hr with
  | here hn hm => exact h.here (hown _ hn) hm
  | @member _ ms ns name v v' hv =>
    by_cases hn : name ∈ own
    · exact h.member hn hread hv
    · have hv : Repeats (member name) v v' := hv
      rw [hany name hn] at hv
      exact absurd hv not_repeats_any

end Readers

/-! ## Records in place of values -/

namespace Record

variable {names : List String} {member : String → Shape} {r : Record α}

/-- There is nothing to edit in the elements that a record takes. -/
def RigidElements (r : Record α) : Prop := ∀ xs a left, r.readElements xs = .ok (a, left) →
  ∃ taken, xs = taken ++ left ∧ ∀ x ∈ taken, ∀ x', Edits .any x x' → x' = x

theorem rigidElements_member {absent short : Except Mismatch α} (h : Rigid decode) :
    (Record.member name decode absent short).RigidElements := by
  intro xs a left hread
  cases xs with
  | nil =>
    obtain ⟨b, -, hb⟩ := map_eq_ok.1 hread
    cases hb
    exact ⟨[], rfl, nofun⟩
  | cons x xs =>
    obtain ⟨b, hx, hb⟩ := map_eq_ok.1 hread
    cases hb
    refine ⟨[x], rfl, fun y hy x' he => ?_⟩
    obtain rfl := List.mem_singleton.1 hy
    exact h _ _ _ hx he

theorem RigidElements.map (h : r.RigidElements) (g : α → β) : (g <$> r).RigidElements := by
  intro xs b left hread
  obtain ⟨⟨a, left'⟩, ha, hb⟩ := map_eq_ok.1 hread
  cases hb
  exact h _ _ _ ha

theorem RigidElements.seq {f : Record (α → β)} (hf : f.RigidElements) (hr : r.RigidElements) :
    (f <*> r).RigidElements := by
  intro xs b left hread
  obtain ⟨⟨g, ys⟩, hg, hread⟩ := bind_eq_ok.1 hread
  obtain ⟨⟨a, zs⟩, ha, hb⟩ := bind_eq_ok.1 hread
  cases hb
  obtain ⟨taken, rfl, htaken⟩ := hf _ _ _ hg
  obtain ⟨taken', rfl, htaken'⟩ := hr _ _ _ ha
  refine ⟨taken ++ taken', (List.append_assoc ..).symm, fun x hx => ?_⟩
  exact (List.mem_append.1 hx).elim (htaken x) (htaken' x)

theorem ofElements_eq_ok {xs : List Json} {a : α} : r.ofElements xs = .ok a ↔ r.readElements xs = .ok (a, []) := by
  rw [ofElements, bind_eq_ok]
  constructor
  · rintro ⟨⟨b, left⟩, hread, hleft⟩
    cases left with
    | nil =>
      cases hleft
      exact hread
    | cons => cases hleft
  · exact fun hread => ⟨(a, []), hread, rfl⟩

/-- A record of rigid members is read from an object or from an array, in which there is nothing to edit. -/
theorem steady_decode (hr : r.Steady member) (helements : r.RigidElements) (hnames : ∀ name, name ∈ names ↔ name ∈ r.names)
    (hany : ∀ name, name ∉ r.names → member name = .any) : Json.Steady (.object names member) r.decode where
  edits {v v' a} hv he := by
    cases v with
    | null | bool | int | real | str => cases he
    | obj ms =>
      have hms := hr.members fun name hn => (hnames name).2 hn
      cases he with
      | reorder hp => exact hms.edits hv (.reorder hp)
      | add hn htext => exact hms.edits hv (.add hn htext)
      | member hm => exact hms.edits hv (.member hm)
    | arr xs =>
      cases he with
      | @element _ xs ys x x' hx =>
        obtain ⟨taken, htaken, hrigid⟩ := helements _ _ _ (ofElements_eq_ok.1 hv)
        rw [List.append_nil] at htaken
        rw [hrigid x (htaken ▸ by simp) x' hx]
        exact hv
  repeats {v v' a b} hv hrep := by
    cases hrep with
    | here hn hm => exact (hr.members fun name hn => (hnames name).2 hn).here ((hnames _).1 hn) hm
    | member hm =>
      exact (hr.members fun name hn => (hnames name).2 hn).repeats (fun name hn => (hnames name).1 hn) hany hv (.member hm)
    | element hx => exact absurd hx not_repeats_any

end Record

/-! ## Tagged values -/

namespace Alternatives

variable {alts : Alternatives α}

theorem tagged_eq_ok {c : Content α} : tagged tag alts ms = .ok (some c) ↔
    ∃ v, ms.filter (·.1 == tag) = [(tag, v)] ∧ select alts v = .ok c := by
  induction ms with
  | nil => simp [tagged]
  | cons m ms ih =>
    obtain ⟨name, v⟩ := m
    rw [tagged]
    split
    · rename_i hname
      subst hname
      have hany : ms.any (·.1 == name) = true ↔ ms.filter (·.1 == name) ≠ [] := by simp
      have hfilter : ((name, v) :: ms).filter (·.1 == name) = (name, v) :: ms.filter (·.1 == name) :=
        List.filter_cons_of_pos (beq_self_eq_true name)
      rw [hfilter, bind_eq_ok]
      by_cases h : ms.any (·.1 == name) = true
      · simp [h, hany.1 h]
      · have hnil : ms.filter (·.1 == name) = [] := not_not.1 (mt hany.2 h)
        simp [h, hnil]
    · rename_i hname
      have hfilter : ((name, v) :: ms).filter (·.1 == tag) = ms.filter (·.1 == tag) :=
        List.filter_cons_of_neg (by simpa using hname)
      rw [hfilter, ih]

/-- A tagged value has one member for its tag, and the others make up its content. -/
theorem ofMembers_eq_ok {a : α} : ofMembers tag alts ms = .ok a ↔ ∃ v c, ms.filter (·.1 == tag) = [(tag, v)] ∧
    select alts v = .ok c ∧ c.ofMembers (ms.filter (·.1 != tag)) = .ok a := by
  rw [ofMembers, bind_eq_ok]
  constructor
  · rintro ⟨o, ho, h⟩
    cases o with
    | none => cases h
    | some c =>
      obtain ⟨v, hv, hc⟩ := tagged_eq_ok.1 ho
      exact ⟨v, c, hv, hc, h⟩
  · rintro ⟨v, c, hv, hc, h⟩
    exact ⟨some c, tagged_eq_ok.2 ⟨v, hv, hc⟩, h⟩

section Kind

variable {names own : List String} {member : String → Shape} {read : Members → Except Mismatch α} {kind : String} {a b : α}

theorem ofMembers_of_kind (hkind : select alts (.str kind) = .ok (.members read))
    (htag : ms.filter (·.1 == tag) = [(tag, .str kind)]) :
    ofMembers tag alts ms = .ok a ↔ read (ms.filter (·.1 != tag)) = .ok a := by
  rw [ofMembers_eq_ok]
  constructor
  · rintro ⟨v, c, hv, hc, h⟩
    rw [htag] at hv
    cases hv
    rw [hkind] at hc
    cases hc
    exact h
  · exact fun h => ⟨_, _, htag, hkind, h⟩

theorem filter_ne_append_cons (h : name ≠ tag) : (ms ++ (name, v) :: ns).filter (·.1 != tag) =
    ms.filter (·.1 != tag) ++ (name, v) :: ns.filter (·.1 != tag) := by
  simp [h]

/-- The tag of a tagged value is its kind. -/
theorem eq_str_of_filter (htag : (ms ++ (tag, v) :: ns).filter (·.1 == tag) = [(tag, .str kind)]) : v = .str kind := by
  have hmem : (tag, v) ∈ (ms ++ (tag, v) :: ns).filter (·.1 == tag) := by simp
  rw [htag, List.mem_singleton] at hmem
  exact congrArg Prod.snd hmem

/-- An edit of a tagged value is none of its tag. -/
theorem filter_tag_of_edits (htag : ms.filter (·.1 == tag) = [(tag, .str kind)]) (hnames : tag ∈ names)
    (he : Edits (.object names member) (.obj ms) (.obj ms')) : ms'.filter (·.1 == tag) = [(tag, .str kind)] := by
  cases he with
  | reorder hp => exact List.perm_singleton.1 (htag ▸ (hp.filter _).symm)
  | @add _ _ ms ns name v hn =>
    have hne : name ≠ tag := fun e => hn (e ▸ hnames)
    simpa [hne] using htag
  | @member _ ms ns name v v' hv =>
    by_cases hname : name = tag
    · subst hname
      rw [eq_str_of_filter htag] at hv
      exact absurd hv not_edits_str
    · simpa [hname] using htag

/-- A tagged value is the same after every edit of its members. -/
theorem ofMembers_of_edits (hkind : select alts (.str kind) = .ok (.members read))
    (hread : SteadyMembers names own member read) (hnames : tag ∈ names)
    (htag : ms.filter (·.1 == tag) = [(tag, .str kind)]) (h : ofMembers tag alts ms = .ok a)
    (he : Edits (.object names member) (.obj ms) (.obj ms')) : ofMembers tag alts ms' = .ok a := by
  have hrest := (ofMembers_of_kind hkind htag).1 h
  refine (ofMembers_of_kind hkind (filter_tag_of_edits htag hnames he)).2 ?_
  rcases he.filter (· != tag) with heq | he
  · rw [heq]
    exact hrest
  · exact hread.edits hrest he

/-- A tagged value whose tag is there twice is refused. -/
theorem ofMembers_ne_of_two_tags {w : Json} (htag : (ms ++ ns).filter (·.1 == tag) = [(tag, w)]) :
    ofMembers tag alts (ms ++ (tag, v) :: ns) ≠ .ok b := by
  intro h
  have hlength : ((ms ++ (tag, v) :: ns).filter (·.1 == tag)).length =
      ((ms ++ ns).filter (·.1 == tag)).length + 1 := by
    simp
    omega
  obtain ⟨v', c, htag', -, -⟩ := ofMembers_eq_ok.1 h
  rw [htag, htag'] at hlength
  cases hlength

/-- A tagged value with a member that repeats is refused. -/
theorem ofMembers_ne_of_repeats (hkind : select alts (.str kind) = .ok (.members read))
    (hread : SteadyMembers names own member read) (hnames : ∀ name ∈ names, name = tag ∨ name ∈ own)
    (hany : ∀ name, name ∉ own → member name = .any) (htag : ms.filter (·.1 == tag) = [(tag, .str kind)])
    (h : ofMembers tag alts ms = .ok a) (hr : Repeats (.object names member) (.obj ms) (.obj ms')) :
    ofMembers tag alts ms' ≠ .ok b := by
  have hrest := (ofMembers_of_kind hkind htag).1 h
  cases hr with
  | @here _ _ ms ns name v hn hm =>
    by_cases hname : name = tag
    · subst hname
      exact ofMembers_ne_of_two_tags htag
    · intro h'
      have hsame : (ms ++ (name, v) :: ns).filter (·.1 == tag) = (ms ++ ns).filter (·.1 == tag) := by simp [hname]
      have hrest' := (ofMembers_of_kind hkind (hsame.trans htag)).1 h'
      have hmem : name ∈ (ms.filter (·.1 != tag) ++ ns.filter (·.1 != tag)).map Prod.fst := by
        obtain ⟨m, hmem, rfl⟩ := List.mem_map.1 hm
        rw [← List.filter_append]
        exact List.mem_map_of_mem (List.mem_filter.2 ⟨hmem, by simpa using hname⟩)
      rw [filter_ne_append_cons hname] at hrest'
      exact hread.here ((hnames name hn).resolve_left hname) hmem hrest'
  | @member _ ms ns name v v' hv =>
    by_cases hname : name = tag
    · subst hname
      rw [eq_str_of_filter htag] at hv
      exact absurd hv not_repeats_str
    · intro h'
      have hsame : (ms ++ (name, v') :: ns).filter (·.1 == tag) = (ms ++ (name, v) :: ns).filter (·.1 == tag) := by
        simp [hname]
      have hrest' := (ofMembers_of_kind hkind (hsame.trans htag)).1 h'
      have hown : name ∈ own := by
        by_contra hn
        have hv : Repeats (member name) v v' := hv
        rw [hany name hn] at hv
        exact not_repeats_any hv
      rw [filter_ne_append_cons hname] at hrest hrest'
      exact hread.member hown hrest hv hrest'

end Kind

end Alternatives

end OrderKeeper.Json
