import Mathlib.Logic.Relation
import OrderKeeper.Proofs.Json.Edit
import OrderKeeper.Proofs.Json.Number
import OrderKeeper.Proofs.Json.Reader

/-!
# Values that some text writes

Some text is read as a value exactly if each of its values without parts has a text of its own (`Legible`) and its containers
nest no deeper than the reader allows (`exists_parse?_iff`). One way, the texts of the parts are put together; the other way, a
token holds no value that has no text (`atom_of_mem_tokens`), and each step of the machine keeps every value that it has
finished legible and within the depth that is left where it stands (`sound_step`). Edits keep a value legible.
-/

namespace OrderKeeper.Json

open Token

/-- A value without parts that has a text. -/
def Atom (v : Json) : Prop := tokensOf v = [.leaf v] ∧ ∃ cs, Writes cs [.leaf v]

/-- Every value without parts in a value has a text. -/
inductive Legible : Json → Prop where
  | atom {v : Json} (h : Atom v) : Legible v
  | str (s : String) : Legible (.str s)
  | arr {xs : List Json} (h : ∀ x ∈ xs, Legible x) : Legible (.arr xs)
  | obj {ms : Members} (h : ∀ m ∈ ms, Legible m.2) : Legible (.obj ms)

variable {s t : List Char} {v v' : Json}

theorem legible_arr {xs : List Json} : Legible (.arr xs) ↔ ∀ x ∈ xs, Legible x := by
  refine ⟨fun h => ?_, .arr⟩
  cases h with
  | atom h => cases h.1
  | arr h => exact h

theorem legible_obj {ms : Members} : Legible (.obj ms) ↔ ∀ m ∈ ms, Legible m.2 := by
  refine ⟨fun h => ?_, .obj⟩
  cases h with
  | atom h => cases h.1
  | obj h => exact h

/-! ## The text of a legible value -/

theorem exists_forall₂_tokensOfAll {xs : List Json} (h : ∀ x ∈ xs, ∃ cs, Writes cs (tokensOf x)) :
    ∃ pieces, List.Forall₂ Writes pieces (tokensOfAll xs) := by
  induction xs with
  | nil => exact ⟨[], .nil⟩
  | cons x xs ih =>
    obtain ⟨cs, hcs⟩ := h x (by simp)
    obtain ⟨pieces, hpieces⟩ := ih fun x hx => h x (by simp [hx])
    exact ⟨cs :: pieces, .cons hcs hpieces⟩

theorem exists_forall₂_tokensOfMembers {ms : Members} (h : ∀ m ∈ ms, ∃ cs, Writes cs (tokensOf m.2)) :
    ∃ pieces, List.Forall₂ Writes pieces (tokensOfMembers ms) := by
  induction ms with
  | nil => exact ⟨[], .nil⟩
  | cons m ms ih =>
    obtain ⟨cs, hcs⟩ := h m (by simp)
    obtain ⟨pieces, hpieces⟩ := ih fun m hm => h m (by simp [hm])
    exact ⟨_, .cons (writes_member m.1 hcs) hpieces⟩

theorem Legible.exists_writes (h : Legible v) : ∃ cs, Writes cs (tokensOf v) := by
  induction h with
  | atom h =>
    obtain ⟨htokens, cs, hcs⟩ := h
    exact ⟨cs, htokens ▸ hcs⟩
  | str s => exact ⟨_, writes_quote s⟩
  | arr _ ih =>
    obtain ⟨pieces, hpieces⟩ := exists_forall₂_tokensOfAll ih
    exact ⟨_, writes_array (writes_intercalate hpieces)⟩
  | obj _ ih =>
    obtain ⟨pieces, hpieces⟩ := exists_forall₂_tokensOfMembers ih
    exact ⟨_, writes_object (writes_intercalate hpieces)⟩

/-- Some text is read as a legible value that does not nest too deep. -/
theorem Legible.exists_parse? (h : Legible v) (hnests : Nests Builder.maxDepth v) : ∃ text, parse? text = some v := by
  obtain ⟨cs, hcs⟩ := h.exists_writes
  exact ⟨String.ofList cs, parse?_of_writes (by simpa using hcs) hnests⟩

/-! ## The values in tokens -/

theorem tokensOf_of_value? {l : Number.Literal} (h : l.value? = some v) : tokensOf v = [.leaf v] := by
  simp only [Number.Literal.value?] at h
  split at h
  · split at h
    · cases h
      rfl
    · split at h
      · cases h
        rfl
      · obtain ⟨_, -, rfl⟩ := Option.map_eq_some_iff.1 h
        rfl
  · obtain ⟨_, -, rfl⟩ := Option.map_eq_some_iff.1 h
    rfl

theorem tokensOf_of_unsigned? {negative : Bool} (h : unsigned? negative s = some (v, t)) : tokensOf v = [.leaf v] := by
  simp only [unsigned?, Option.bind_eq_bind, Option.ite_none_left_eq_some] at h
  obtain ⟨-, h⟩ := h
  simp only [Option.bind_eq_some_iff, Option.pure_def, Option.some.injEq, Prod.mk.injEq] at h
  obtain ⟨_, -, _, -, _, hvalue, rfl, -⟩ := h
  exact tokensOf_of_value? hvalue

theorem tokensOf_of_number? (h : number? s = some (v, t)) : tokensOf v = [.leaf v] := by
  cases s with
  | nil => simp [number?, digits] at h
  | cons c s =>
    by_cases hc : c = '-'
    · subst hc
      rw [number?_minus] at h
      exact tokensOf_of_unsigned? h
    · rw [number?_of_ne hc] at h
      exact tokensOf_of_unsigned? h

theorem atom_of_word? {word : List Char} {w : Json} (hw : Atom w) (h : word? word w s = some (v, t)) : Atom v := by
  simp only [word?, Option.ite_none_right_eq_some, Option.some.injEq, Prod.mk.injEq] at h
  obtain ⟨-, rfl, -⟩ := h
  exact hw

theorem atom_of_next? (h : next? s = some (.leaf v, t)) : Atom v := by
  unfold next? at h
  split at h
  case h_9 =>
    obtain ⟨⟨w, q⟩, hw, heq⟩ := Option.map_eq_some_iff.1 h
    cases heq
    split_ifs at hw
    · exact atom_of_word? ⟨rfl, _, writes_true⟩ hw
    · exact atom_of_word? ⟨rfl, _, writes_false⟩ hw
    · exact atom_of_word? ⟨rfl, _, writes_null⟩ hw
    · obtain ⟨cs, -, hcs⟩ := exists_number?_of_number? hw
      exact ⟨tokensOf_of_number? hw, cs, writes_of_number? hcs⟩
  case h_8 =>
    obtain ⟨_, -, heq⟩ := Option.map_eq_some_iff.1 h
    cases heq
  all_goals cases h

/-- A value in a token has no parts and has a text. -/
theorem atom_of_mem_tokens (h : .leaf v ∈ (tokens s).1) : Atom v := by
  fun_induction tokens s with
  | case1 => cases h
  | case2 _ _ _ ih => exact ih h
  | case3 => cases h
  | case4 c r _ t q hnext _ ts whole htokens ih =>
    rcases List.mem_cons.1 h with rfl | hts
    · exact atom_of_next? hnext
    · exact ih (htokens ▸ hts)
  | case5 => cases h

/-! ## The values in the machine -/

namespace Builder

/-- A value that some text may write where `k` containers are open. -/
def Fits (k : Nat) (v : Json) : Prop := Legible v ∧ ∃ d, k + d = maxDepth ∧ Nests d v

variable {k : Nat} {stack : List Frame} {b b' : Builder}

theorem fits_atom (hk : k ≤ maxDepth) (h : Atom v) : Fits k v :=
  ⟨.atom h, maxDepth - k, Nat.add_sub_cancel' hk, .leaf h.1⟩

theorem fits_str (hk : k ≤ maxDepth) (s : String) : Fits k (.str s) :=
  ⟨.str s, maxDepth - k, Nat.add_sub_cancel' hk, .str s⟩

theorem Fits.nests {d : Nat} (h : Fits k v) (hd : k + d = maxDepth) : Nests d v := by
  obtain ⟨-, d', hd', hnests⟩ := h
  obtain rfl : d' = d := by omega
  exact hnests

theorem fits_arr {xs : List Json} (hk : k < maxDepth) (h : ∀ x ∈ xs, Fits (k + 1) x) : Fits k (.arr xs) := by
  obtain ⟨d, hd⟩ := Nat.exists_eq_add_of_lt hk
  exact ⟨.arr fun x hx => (h x hx).1, d + 1, by omega, .arr fun x hx => (h x hx).nests (by omega)⟩

theorem fits_obj {ms : Members} (hk : k < maxDepth) (h : ∀ m ∈ ms, Fits (k + 1) m.2) : Fits k (.obj ms) := by
  obtain ⟨d, hd⟩ := Nat.exists_eq_add_of_lt hk
  exact ⟨.obj fun m hm => (h m hm).1, d + 1, by omega, .obj fun m hm => (h m hm).nests (by omega)⟩

/-- The values that an open container has finished. -/
def parts : Frame → List Json
  | .array done => done
  | .object done _ => done.map Prod.snd

/-- The open containers do not nest too deep, and the values that they have finished fit where they stand. -/
def SoundFrames : List Frame → Prop
  | [] => True
  | f :: stack => stack.length < maxDepth ∧ (∀ v ∈ parts f, Fits (stack.length + 1) v) ∧ SoundFrames stack

/-- The values that have been finished fit where they stand. -/
def Sound : Builder → Prop
  | .value stack => SoundFrames stack
  | .firstElement stack | .firstName stack => SoundFrames (.array [] :: stack)
  | .nextName done stack | .afterMember done stack => SoundFrames (.array (done.map Prod.snd) :: stack)
  | .colon done name stack => SoundFrames (.object done name :: stack)
  | .afterElement done stack => SoundFrames (.array done :: stack)
  | .complete v => Fits 0 v

theorem length_le_of_soundFrames (h : SoundFrames stack) : stack.length ≤ maxDepth := by
  cases stack with
  | nil => exact Nat.zero_le _
  | cons => exact h.1

theorem sound_close (hv : Fits stack.length v) (h : SoundFrames stack) : Sound (close v stack) := by
  cases stack with
  | nil => exact hv
  | cons f stack =>
    obtain ⟨hdepth, hparts, hstack⟩ := h
    cases f <;> exact ⟨hdepth, List.forall_mem_cons.2 ⟨hv, hparts⟩, hstack⟩

theorem soundFrames_begin (hroom : stack.length < maxDepth) (h : SoundFrames stack) : SoundFrames (.array [] :: stack) :=
  ⟨hroom, nofun, h⟩

variable {tok : Token} {ts : List Token}

theorem sound_beginValue (htok : ∀ v, tok = .leaf v → Atom v) (h : SoundFrames stack)
    (hbegin : beginValue stack tok = some b) : Sound b := by
  have hdepth := length_le_of_soundFrames h
  cases tok with
  | leaf v =>
    cases hbegin
    exact sound_close (fits_atom hdepth (htok v rfl)) h
  | text s =>
    cases hbegin
    exact sound_close (fits_str hdepth s) h
  | beginArray | beginObject =>
    obtain ⟨hroom, heq⟩ := Option.ite_none_right_eq_some.1 hbegin
    cases heq
    exact soundFrames_begin hroom h
  | endArray | endObject | colon | comma => cases hbegin

theorem sound_endArray {done : List Json} (h : SoundFrames (.array done :: stack)) :
    Sound (close (.arr done.reverse) stack) :=
  sound_close (fits_arr h.1 fun x hx => h.2.1 x (List.mem_reverse.1 hx)) h.2.2

theorem sound_endObject {done : Members} (h : SoundFrames (.array (done.map Prod.snd) :: stack)) :
    Sound (close (.obj done.reverse) stack) :=
  sound_close (fits_obj h.1 fun m hm => h.2.1 m.2 (List.mem_map_of_mem (List.mem_reverse.1 hm))) h.2.2

/-- Each step of the machine keeps the values that it has finished where they fit. -/
theorem sound_step (htok : ∀ v, tok = .leaf v → Atom v) (h : Sound b) (hstep : step b tok = some b') : Sound b' := by
  unfold step at hstep
  -- One case for each row of `step`: only where a value begins or a container ends is there a new value.
  split at hstep
  · exact sound_beginValue htok h hstep
  · cases hstep
    exact sound_endArray h
  · exact sound_beginValue htok h hstep
  · cases hstep
    exact @sound_endObject _ [] h
  · cases hstep
    exact h
  · cases hstep
    exact h
  · cases hstep
    exact h
  · cases hstep
    exact h
  · cases hstep
    exact sound_endArray h
  · cases hstep
    exact h
  · cases hstep
    exact sound_endObject h
  · cases hstep

theorem sound_run (hts : ∀ v, .leaf v ∈ ts → Atom v) (h : Sound b) : Sound (run b ts).1 := by
  induction ts generalizing b with
  | nil => exact h
  | cons tok ts ih =>
    cases hstep : step b tok with
    | none => simpa [run, hstep] using h
    | some b' =>
      have hb' := sound_step (fun v hv => hts v (by simp [hv])) h hstep
      simpa [run, hstep] using ih (fun v hv => hts v (List.mem_cons_of_mem tok hv)) hb'

end Builder

/-- What a text is read as fits where no container is open. -/
theorem fits_of_parse? {text : String} (h : parse? text = some v) : Builder.Fits 0 v := by
  have hsound : Builder.Sound (Builder.run (.value []) (tokens text.toList).1).1 :=
    Builder.sound_run (fun _ hv => atom_of_mem_tokens hv) trivial
  have hread := reading_of_parse? h
  simp only [reading] at hread
  split at hread
  · rename_i w hw
    rw [hw] at hsound
    split_ifs at hread
    cases hread
    exact hsound
  · cases hread

/-- The values that some text writes. -/
theorem exists_parse?_iff : (∃ text, parse? text = some v) ↔ Legible v ∧ Nests Builder.maxDepth v := by
  constructor
  · rintro ⟨text, h⟩
    exact ⟨(fits_of_parse? h).1, (fits_of_parse? h).nests (Nat.zero_add _)⟩
  · rintro ⟨h, hnests⟩
    exact h.exists_parse? hnests

/-! ## Edits -/

/-- An edit keeps a value legible. -/
theorem Legible.edits {shape : Shape} (h : Legible v) (he : Edits shape v v') : Legible v' := by
  induction he with
  | reorder hp => exact legible_obj.2 fun m hm => legible_obj.1 h m (hp.mem_iff.2 hm)
  | add _ hv =>
    have hadded := (exists_parse?_iff.1 hv).1
    have hall := legible_obj.1 h
    simp only [List.forall_mem_append, List.forall_mem_cons, legible_obj] at hall ⊢
    exact ⟨hall.1, hadded, hall.2⟩
  | member _ ih =>
    simp only [legible_obj, List.forall_mem_append, List.forall_mem_cons] at h ⊢
    exact ⟨h.1, ih h.2.1, h.2.2⟩
  | element _ ih =>
    simp only [legible_arr, List.forall_mem_append, List.forall_mem_cons] at h ⊢
    exact ⟨h.1, ih h.2.1, h.2.2⟩

theorem Legible.of_reflTransGen {shape : Shape} (h : Legible v) (he : Relation.ReflTransGen (Edits shape) v v') :
    Legible v' := by
  induction he with
  | refl => exact h
  | tail _ he ih => exact ih.edits he

end OrderKeeper.Json
