import Mathlib.Data.List.Perm.Basic
import OrderKeeper.Json.Reader
import OrderKeeper.Json.Scalar

/-!
# Members that do not matter, and members that repeat

What a reader of JSON makes of a value does not depend on the order of members, nor on members whose names it does not
know; but no member that it knows may be there twice (`Steady`). A `Shape` says which names are known where. `Edits`
reorders the members of one object or adds one member of an unknown name, `Repeats` adds one more member of a name that is
known and already there.

Readers of scalars find nothing to edit in what they accept (`Rigid`). A list is steady if the reader of its elements is.
-/

namespace OrderKeeper.Json

variable {α β : Type}

theorem bind_eq_ok {ε : Type} {x : Except ε α} {f : α → Except ε β} {b : β} :
    x >>= f = .ok b ↔ ∃ a, x = .ok a ∧ f a = .ok b := by
  cases x <;> simp [bind, Except.bind]

theorem map_eq_ok {ε : Type} {x : Except ε α} {f : α → β} {b : β} : x.map f = .ok b ↔ ∃ a, x = .ok a ∧ f a = b := by
  cases x <;> simp [Except.map]

/-! ## Shapes and edits -/

/-- What is known of the objects in a value. -/
inductive Shape where
  | any
  /-- An object with the names that it knows, and what is known of its members. -/
  | object (names : List String) (member : String → Shape)
  /-- An array, and what is known of its elements. -/
  | list (element : Shape)

namespace Shape

/-- What is known of a member of an object. -/
def member : Shape → String → Shape
  | .object _ member, name => member name
  | .any, _ | .list _, _ => .any

/-- What is known of the elements of an array. -/
def element : Shape → Shape
  | .list element => element
  | .any | .object .. => .any

end Shape

/-- One object somewhere in a value has its members in another order, or one more member of a name that it does not know,
whose value some text writes. -/
inductive Edits : Shape → Json → Json → Prop where
  | reorder {s ms ns} : ms.Perm ns → Edits s (.obj ms) (.obj ns)
  | add {names member ms ns name v} : name ∉ names → (∃ text, parse? text = some v) →
      Edits (.object names member) (.obj (ms ++ ns)) (.obj (ms ++ (name, v) :: ns))
  | member {s ms ns name v v'} : Edits (s.member name) v v' →
      Edits s (.obj (ms ++ (name, v) :: ns)) (.obj (ms ++ (name, v') :: ns))
  | element {s xs ys v v'} : Edits s.element v v' → Edits s (.arr (xs ++ v :: ys)) (.arr (xs ++ v' :: ys))

/-- One object somewhere in a value has one more member of a name that it knows and has already. -/
inductive Repeats : Shape → Json → Json → Prop where
  | here {names member ms ns name v} : name ∈ names → name ∈ (ms ++ ns).map Prod.fst →
      Repeats (.object names member) (.obj (ms ++ ns)) (.obj (ms ++ (name, v) :: ns))
  | member {s ms ns name v v'} : Repeats (s.member name) v v' →
      Repeats s (.obj (ms ++ (name, v) :: ns)) (.obj (ms ++ (name, v') :: ns))
  | element {s xs ys v v'} : Repeats s.element v v' → Repeats s (.arr (xs ++ v :: ys)) (.arr (xs ++ v' :: ys))

variable {s : Shape} {v v' : Json} {name tag : String} {ms ms' ns : Members}

theorem Edits.exists_obj (h : Edits s (.obj ms) v') : ∃ ms', v' = .obj ms' := by
  cases h with
  | reorder | add | member => exact ⟨_, rfl⟩

theorem Repeats.exists_obj (h : Repeats s (.obj ms) v') : ∃ ms', v' = .obj ms' := by
  cases h with
  | here | member => exact ⟨_, rfl⟩

theorem not_edits_str {text : String} : ¬Edits s (.str text) v := nofun

theorem not_repeats_str {text : String} : ¬Repeats s (.str text) v := nofun

/-- Where no names are known, none repeats. -/
theorem not_repeats_any : ¬Repeats .any v v' := by
  intro h
  generalize hs : Shape.any = s at h
  induction h with
  | here => cases hs
  | member _ ih | element _ ih =>
    subst hs
    exact ih rfl

/-- The members that pass a test of their names are edited, or stay as they are. -/
theorem Edits.filter (p : String → Bool) (h : Edits s (.obj ms) (.obj ms')) :
    ms'.filter (fun m => p m.1) = ms.filter (fun m => p m.1) ∨
      Edits s (.obj (ms.filter fun m => p m.1)) (.obj (ms'.filter fun m => p m.1)) := by
  cases h with
  | reorder hp => exact .inr (.reorder (hp.filter _))
  | @add names member ms ns name v hn hv =>
    cases hp : p name with
    | false => exact .inl (by simp [hp])
    | true =>
      have hadd : Edits (.object names member) (.obj (ms.filter (fun m => p m.1) ++ ns.filter fun m => p m.1))
          (.obj (ms.filter (fun m => p m.1) ++ (name, v) :: ns.filter fun m => p m.1)) := .add hn hv
      exact .inr (by simpa [hp] using hadd)
  | @member _ ms ns name v v' hv =>
    cases hp : p name with
    | false => exact .inl (by simp [hp])
    | true =>
      have hmember : Edits s (.obj (ms.filter (fun m => p m.1) ++ (name, v) :: ns.filter fun m => p m.1))
          (.obj (ms.filter (fun m => p m.1) ++ (name, v') :: ns.filter fun m => p m.1)) := .member hv
      exact .inr (by simpa [hp] using hmember)

/-! ## Steady readers -/

/-- A reader makes the same of a value that it accepts after every edit, and refuses it with a member that repeats. -/
structure Steady (s : Shape) (decode : Decoder α) : Prop where
  edits {v v' : Json} {a : α} : decode v = .ok a → Edits s v v' → decode v' = .ok a
  repeats {v v' : Json} {a b : α} : decode v = .ok a → Repeats s v v' → decode v' ≠ .ok b

/-- There is nothing to edit in what a reader accepts. -/
def Rigid (decode : Decoder α) : Prop := ∀ v v' a, decode v = .ok a → Edits .any v v' → v' = v

variable {decode : Decoder α}

theorem Rigid.steady (h : Rigid decode) : Steady .any decode where
  edits hv he := h _ _ _ hv he ▸ hv
  repeats _ hr := absurd hr not_repeats_any

/-- An optional value is rigid if the value is. -/
theorem Rigid.optional (h : Rigid decode) :
    Rigid (fun | .null => .ok none | v => (decode v).map some : Decoder (Option α)) := by
  intro v v' a hv he
  cases he with
  | reorder hp =>
    obtain ⟨b, hb, -⟩ := map_eq_ok.1 hv
    exact h _ _ _ hb (.reorder hp)
  | member hm =>
    obtain ⟨b, hb, -⟩ := map_eq_ok.1 hv
    exact h _ _ _ hb (.member hm)
  | element hx =>
    obtain ⟨b, hb, -⟩ := map_eq_ok.1 hv
    exact h _ _ _ hb (.element hx)

/-! ### Lists -/

/-- Each element of a list is read by itself. -/
theorem mapM_append_cons_eq_ok {xs ys : List Json} {as : List α} :
    (xs ++ v :: ys).mapM decode = .ok as ↔ ∃ bs b cs, xs.mapM decode = .ok bs ∧ decode v = .ok b ∧
      ys.mapM decode = .ok cs ∧ bs ++ b :: cs = as := by
  rw [List.mapM_append, bind_eq_ok]
  simp only [List.mapM_cons, bind_eq_ok, pure, Except.pure, Except.ok.injEq]
  constructor
  · rintro ⟨bs, hbs, _, ⟨b, hb, cs, hcs, rfl⟩, rfl⟩
    exact ⟨bs, b, cs, hbs, hb, hcs, rfl⟩
  · rintro ⟨bs, b, cs, hbs, hb, hcs, rfl⟩
    exact ⟨bs, hbs, _, ⟨b, hb, cs, hcs, rfl⟩, rfl⟩

/-! ### Scalars -/

/-- A value that is neither an object nor an array has nothing to edit. -/
theorem rigid_of_scalar (h : ∀ {v a}, decode v = .ok a → (∀ ms, v ≠ .obj ms) ∧ ∀ xs, v ≠ .arr xs) : Rigid decode := by
  intro v v' a hv he
  obtain ⟨hobj, harr⟩ := h hv
  cases he with
  | reorder | member => exact absurd rfl (hobj _)
  | element => exact absurd rfl (harr _)

theorem Rigid.map (h : Rigid decode) (f : α → β) : Rigid fun v => (decode v).map f := by
  intro v v' b hv he
  obtain ⟨a, ha, -⟩ := map_eq_ok.1 hv
  exact h _ _ _ ha he

theorem rigid_string : Rigid string := rigid_of_scalar fun {v a} hv => by cases v <;> simp_all [string]

theorem rigid_natBelow (bound : Nat) : Rigid (natBelow bound) :=
  rigid_of_scalar fun {v a} hv => by cases v <;> simp_all [natBelow]

theorem rigid_uint8 : Rigid uint8 := (rigid_natBelow _).map _

theorem rigid_uint64 : Rigid uint64 := (rigid_natBelow _).map _

theorem rigid_float : Rigid float := rigid_of_scalar fun {v a} hv => by cases v <;> simp_all [float]

theorem rigid_word : Rigid word := by
  have h : Rigid (quantityBelow Word.size) := rigid_of_scalar fun {v a} hv => by cases v <;> simp_all [quantityBelow]
  exact h.map _

theorem rigid_bytes : Rigid bytes := by
  intro v v' bs hv he
  cases he with
  | reorder | member => cases hv
  | element hx =>
    obtain ⟨_, b, _, _, hb, -, -⟩ := mapM_append_cons_eq_ok.1 hv
    rw [rigid_uint8 _ _ _ hb hx]

theorem rigid_address : Rigid address := by
  intro v v' a hv he
  obtain ⟨bs, hbs, -⟩ := map_eq_ok.1 hv
  obtain ⟨cs, hcs, -⟩ := bind_eq_ok.1 hbs
  exact rigid_bytes _ _ _ hcs he

/-- There is nothing to edit in a value without parts. -/
theorem eq_of_edits_of_isVoid {v v' : Json} (hv : isVoid v = true) (he : Edits .any v v') : v' = v := by
  cases he with
  | @reorder _ ms ns hp =>
    cases ms with
    | nil => rw [hp.nil_eq]
    | cons => cases hv
  | @member _ ms => cases ms <;> cases hv
  | element => cases hv

/-- An object that stands for a name has one member, whose value has no parts. -/
theorem rigid_name {alts : List (String × α)} : Rigid (Json.name isVoid alts) := by
  intro v v' a hv he
  cases v with
  | null | bool | int | real | str => cases he
  | arr => cases hv
  | obj ms =>
    rcases ms with _ | ⟨⟨name, w⟩, _ | ⟨m, ms⟩⟩
    · cases hv
    · have hvoid : isVoid w = true := by
        simp only [Json.name] at hv
        split at hv
        · split at hv
          · assumption
          · cases hv
        · cases hv
      generalize hobj : Json.obj [(name, w)] = v at he
      cases he with
      | reorder hp =>
        cases hobj
        rw [List.singleton_perm.1 hp]
      | @member _ ms ns name' w' w'' hw =>
        rw [Json.obj.injEq, eq_comm, List.append_eq_singleton_iff] at hobj
        rcases hobj with ⟨rfl, hm⟩ | ⟨-, hm⟩
        · cases hm
          rw [eq_of_edits_of_isVoid hvoid hw]
        · cases hm
      | element => cases hobj
    · cases hv

/-! ### Steady lists -/

theorem Steady.list (h : Steady s decode) : Steady (.list s) (Json.list decode) where
  edits hv he := by
    cases he with
    | reorder | member => cases hv
    | element hx =>
      obtain ⟨bs, b, cs, hbs, hb, hcs, rfl⟩ := mapM_append_cons_eq_ok.1 hv
      exact mapM_append_cons_eq_ok.2 ⟨bs, b, cs, hbs, h.edits hb hx, hcs, rfl⟩
  repeats hv hr hv' := by
    cases hr with
    | member => cases hv
    | element hx =>
      obtain ⟨_, b, _, _, hb, -, -⟩ := mapM_append_cons_eq_ok.1 hv
      obtain ⟨_, b', _, _, hb', -, -⟩ := mapM_append_cons_eq_ok.1 hv'
      exact h.repeats hb hx hb'

end OrderKeeper.Json
