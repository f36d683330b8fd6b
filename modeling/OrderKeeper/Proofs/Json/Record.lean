import Mathlib.Data.List.Nodup
import OrderKeeper.Json.Record

/-!
# Records read back

`Record.Makes r ms a` says that the members `ms`, in order of declaration, make up `a`. It is built up as records are:
from single members (`makes_required`, `makes_optional`), by a function (`Makes.map`) and by one record after another
(`Makes.seq`). A record whose names are distinct then reads the object of these members (`Makes.ofMembers`), also where they
stand among others (`Makes.ofMembers_of_sublist`), and a tagged value reads it beside its tag
(`Alternatives.decode_record`).
-/

namespace OrderKeeper.Json

variable {α β : Type} {name tag kind : String} {v : Json} {ms ns : Members} {a : α}

namespace Record

variable {r : Record α} {decode : Decoder α}

/-- The members `ms`, in order of declaration, make up `a`. -/
structure Makes (r : Record α) (ms : Members) (a : α) : Prop where
  names : r.names = ms.map Prod.fst
  check : r.names.Nodup → ∀ m ∈ ms, r.check m.1 m.2 = .ok ()
  read : ∀ look, (∀ m ∈ ms, look m.1 = some m.2) → r.read look = .ok a

/-- A member that is given. -/
theorem makes_member {absent short : Except Mismatch α} (h : decode v = .ok a) :
    (member name decode absent short).Makes [(name, v)] a where
  names := rfl
  check _ m hm := by
    obtain rfl := List.mem_singleton.1 hm
    exact congrArg (Except.map fun _ => ()) h
  read look hlook := by
    have hv : look name = some v := hlook (name, v) (by simp)
    simp [member, hv, h]

theorem makes_required (h : decode v = .ok a) : (required name decode).Makes [(name, v)] a := makes_member h

/-- A member that may be absent is written as null. -/
theorem makes_optional {write : α → Json} (h : ∀ a, decode (write a) = .ok a) (hnull : ∀ a, write a ≠ .null)
    (o : Option α) : (optional name decode).Makes [(name, Json.option write o)] o := by
  refine makes_member ?_
  cases o with
  | none => rfl
  | some a =>
    have hread := congrArg (Except.map some) (h a)
    have hwrite := hnull a
    rw [Json.option]
    split
    · contradiction
    · exact hread

/-- A function applied to what the members make up. -/
theorem Makes.map (h : r.Makes ms a) (g : α → β) : (g <$> r).Makes ms (g a) where
  names := h.names
  check := h.check
  read look hlook := congrArg (Except.map g) (h.read look hlook)

/-- Members of one record after those of another; the check of a member goes by its name. -/
theorem Makes.seq {f : Record (α → β)} {g : α → β} (hf : f.Makes ms g) (ha : r.Makes ns a) :
    (f <*> r).Makes (ms ++ ns) (g a) where
  names := by rw [List.map_append, ← hf.names, ← ha.names]; rfl
  check hnodup m hm := by
    obtain ⟨hfirst, hsecond, hdisjoint⟩ := List.nodup_append.1 (show (f.names ++ r.names).Nodup from hnodup)
    show (if m.1 ∈ f.names then f.check m.1 m.2 else r.check m.1 m.2) = .ok ()
    rcases List.mem_append.1 hm with hm | hm
    · rw [if_pos (hf.names ▸ List.mem_map_of_mem hm)]
      exact hf.check hfirst m hm
    · have hname : m.1 ∈ r.names := ha.names ▸ List.mem_map_of_mem hm
      rw [if_neg fun h => hdisjoint _ h _ hname rfl]
      exact ha.check hsecond m hm
  read look hlook := by
    have hg := hf.read look fun m hm => hlook m (List.mem_append_left _ hm)
    have ha := ha.read look fun m hm => hlook m (List.mem_append_right _ hm)
    show (do let g ← f.read look; let x ← r.read look; return g x) = .ok (g a)
    rw [hg, ha]
    rfl

/-- Distinct members are passed if those of known names have the right forms. -/
theorem scan_of_check {seen : List String} (hnodup : (ms.map Prod.fst).Nodup) (hseen : ∀ m ∈ ms, m.1 ∉ seen)
    (hms : ∀ m ∈ ms, m.1 ∈ r.names → r.check m.1 m.2 = .ok ()) : r.scan seen ms = .ok () := by
  induction ms generalizing seen with
  | nil => rfl
  | cons m ms ih =>
    simp only [List.map_cons, List.nodup_cons] at hnodup
    have hms' : ∀ n ∈ ms, n.1 ∈ r.names → r.check n.1 n.2 = .ok () := fun n hn => hms n (by simp [hn])
    by_cases hname : m.1 ∈ r.names
    · have hrest : r.scan (m.1 :: seen) ms = .ok () := by
        refine ih hnodup.2 (fun n hn => ?_) hms'
        have hne : n.1 ≠ m.1 := fun h => hnodup.1 (h ▸ List.mem_map_of_mem hn)
        simp [hne, hseen n (by simp [hn])]
      rw [scan, if_pos hname, if_neg (hseen m (by simp)), hms m (by simp) hname]
      exact hrest
    · rw [scan, if_neg hname]
      exact ih hnodup.2 (fun n hn => hseen n (by simp [hn])) hms'

/-- A member is found if names are distinct. -/
theorem find?_of_mem {m : String × Json} (hnodup : (ms.map Prod.fst).Nodup) (hm : m ∈ ms) :
    Json.find? ms m.1 = some m.2 := by
  induction ms with
  | nil => contradiction
  | cons n ms ih =>
    simp only [List.map_cons, List.nodup_cons] at hnodup
    rcases List.mem_cons.1 hm with rfl | hm
    · simp [Json.find?]
    · have hne : n.1 ≠ m.1 := fun h => hnodup.1 (h ▸ List.mem_map_of_mem hm)
      have hrest := ih hnodup.2 hm
      rw [Json.find?] at hrest ⊢
      rwa [List.find?_cons_of_neg (by simpa using hne)]

/-- A record finds its members among others, if all names are distinct. -/
theorem Makes.ofMembers_of_sublist {all : Members} (h : r.Makes ms a) (hsub : ms.Sublist all)
    (hnodup : (all.map Prod.fst).Nodup) : r.ofMembers all = .ok a := by
  have hfind (m : String × Json) (hm : m ∈ ms) : Json.find? all m.1 = some m.2 := find?_of_mem hnodup (hsub.subset hm)
  have hscan : r.scan [] all = .ok () := by
    refine scan_of_check hnodup (by simp) fun m hm hname => ?_
    obtain ⟨n, hn, hsame⟩ := List.mem_map.1 (h.names ▸ hname)
    have hvalue : n.2 = m.2 := Option.some.inj ((hfind n hn).symm.trans (hsame ▸ find?_of_mem hnodup hm))
    rw [← hsame, ← hvalue]
    exact h.check (h.names ▸ hnodup.sublist (hsub.map Prod.fst)) n hn
  rw [Record.ofMembers, hscan]
  exact h.read (Json.find? all) hfind

/-- A record of distinct names reads the object of its members. -/
theorem Makes.ofMembers (h : r.Makes ms a) (hnodup : (ms.map Prod.fst).Nodup) : r.ofMembers ms = .ok a :=
  h.ofMembers_of_sublist (List.Sublist.refl ms) hnodup

theorem decode_obj (hnodup : r.names.Nodup) (h : r.Makes ms a) : r.decode (.obj ms) = .ok a :=
  h.ofMembers (h.names ▸ hnodup)

end Record

namespace Alternatives

variable {alts : Alternatives α}

/-- A tag selects its alternative, which the other members make up. -/
theorem decode_tagged {c : Content α} (hkind : alts.lookup kind = some c) (htag : tag ∉ ms.map Prod.fst) :
    decode tag alts (.tagged tag kind ms) = c.ofMembers ms := by
  have hother (m : String × Json) (hm : m ∈ ms) : m.1 ≠ tag := fun h => htag (h ▸ List.mem_map_of_mem hm)
  have hselect : select alts (.str kind) = .ok c := by simp [select, hkind]
  have honce : ms.any (·.1 == tag) = false := by simpa using fun name v hm => hother (name, v) hm
  have hcontent : ((tag, Json.str kind) :: ms).filter (·.1 != tag) = ms := by
    simpa using fun name v hm => hother (name, v) hm
  have htagged : tagged tag alts ((tag, Json.str kind) :: ms) = .ok (some c) := by
    rw [tagged, if_pos rfl, hselect]
    simp only [honce]
    rfl
  rw [Json.tagged, decode, ofMembers, htagged, hcontent]
  rfl

/-- An alternative whose names are distinct from the tag and from each other. -/
theorem decode_record {r : Record α} (hkind : alts.lookup kind = some (.record r)) (hnames : (tag :: r.names).Nodup)
    (h : r.Makes ms a) : decode tag alts (.tagged tag kind ms) = .ok a := by
  obtain ⟨htag, hnodup⟩ := List.nodup_cons.1 (h.names ▸ hnames)
  exact (decode_tagged hkind htag).trans (h.ofMembers hnodup)

theorem decode_unit (hkind : alts.lookup kind = some (.unit a)) : decode tag alts (.tagged tag kind []) = .ok a :=
  decode_tagged hkind List.not_mem_nil

end Alternatives

end OrderKeeper.Json
