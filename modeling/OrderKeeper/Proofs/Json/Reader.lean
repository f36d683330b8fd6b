import OrderKeeper.Json.Reader
import OrderKeeper.Proofs.Json.Token

/-!
# Compact text is read back

`parse?_compact`: the compact text of a value is read as that value, if its containers nest no deeper than the reader
allows, its integers have at most 64 bits and each other number is read back from its own text (`Written`). The text
writes the tokens `tokensOf v` (`writes_compact`), and wherever a value may stand, not too deep, the machine turns these
into `v` (`reads_of_nests`).
-/

namespace OrderKeeper.Json

mutual

/-- The tokens of the compact text of a value. -/
def tokensOf : Json → List Token
  | .arr xs => .beginArray :: [.comma].intercalate (tokensOfAll xs) ++ [.endArray]
  | .obj ms => .beginObject :: [.comma].intercalate (tokensOfMembers ms) ++ [.endObject]
  | .str s => [.text s]
  | v => [.leaf v]

/-- The tokens of each of several values. -/
def tokensOfAll : List Json → List (List Token)
  | [] => []
  | x :: xs => tokensOf x :: tokensOfAll xs

/-- The tokens of each of several members. -/
def tokensOfMembers : Members → List (List Token)
  | [] => []
  | (name, v) :: ms => (.text name :: .colon :: tokensOf v) :: tokensOfMembers ms

end

/-- The values that can be read back from their text, with containers at most `d` deep. -/
inductive Written : Nat → Json → Prop where
  | null {d : Nat} : Written d .null
  | bool {d : Nat} (b : Bool) : Written d (.bool b)
  | int {d : Nat} {n : Int} (h : n.natAbs < UInt64.size) : Written d (.int n)
  | real {d : Nat} {x : Float} (h : Writes (Decimal.compact x).toList [.leaf (.real x)]) : Written d (.real x)
  | str {d : Nat} (s : String) : Written d (.str s)
  | arr {d : Nat} {xs : List Json} (h : ∀ x ∈ xs, Written d x) : Written (d + 1) (.arr xs)
  | obj {d : Nat} {ms : Members} (h : ∀ m ∈ ms, Written d m.2) : Written (d + 1) (.obj ms)

/-- The containers of a value nest at most `d` deep. -/
inductive Nests : Nat → Json → Prop where
  | leaf {d : Nat} {v : Json} (h : tokensOf v = [.leaf v]) : Nests d v
  | str {d : Nat} (s : String) : Nests d (.str s)
  | arr {d : Nat} {xs : List Json} (h : ∀ x ∈ xs, Nests d x) : Nests (d + 1) (.arr xs)
  | obj {d : Nat} {ms : Members} (h : ∀ m ∈ ms, Nests d m.2) : Nests (d + 1) (.obj ms)

variable {v : Json} {d : Nat}

theorem Written.nests (h : Written d v) : Nests d v := by
  induction h with
  | null | bool _ | int _ | real _ => exact .leaf rfl
  | str s => exact .str s
  | arr _ ih => exact .arr ih
  | obj _ ih => exact .obj ih

/-! ## The text and its tokens -/

theorem forall₂_compactAll {xs : List Json} (h : ∀ x ∈ xs, Writes x.compact.toList (tokensOf x)) :
    List.Forall₂ Writes ((compactAll xs).map String.toList) (tokensOfAll xs) := by
  induction xs with
  | nil => exact .nil
  | cons x xs ih => exact .cons (h x (by simp)) (ih fun x hx => h x (by simp [hx]))

theorem forall₂_compactMembers {ms : Members} (h : ∀ m ∈ ms, Writes m.2.compact.toList (tokensOf m.2)) :
    List.Forall₂ Writes ((compactMembers ms).map String.toList) (tokensOfMembers ms) := by
  induction ms with
  | nil => exact .nil
  | cons m ms ih =>
    refine .cons ?_ (ih fun m hm => h m (by simp [hm]))
    simpa using writes_member m.1 (h m (by simp))

/-- The compact text of a value has the tokens of that value. -/
theorem writes_compact (h : Written d v) : Writes v.compact.toList (tokensOf v) := by
  induction h with
  | null => exact writes_null
  | bool b =>
    cases b with
    | true => exact writes_true
    | false => exact writes_false
  | int hn => exact writes_integer hn
  | real hx => exact hx
  | str s => exact writes_quote s
  | arr _ ih =>
    have helements := writes_intercalate (forall₂_compactAll ih)
    simpa [compact, tokensOf, String.toList_intercalate] using writes_array helements
  | obj _ ih =>
    have hmembers := writes_intercalate (forall₂_compactMembers ih)
    simpa [compact, tokensOf, String.toList_intercalate] using writes_object hmembers

/-! ## The tokens and the value -/

namespace Builder

/-- Wherever a value may stand, not too deep, the machine turns the tokens of `v` into `v`. -/
def Reads (d : Nat) (v : Json) : Prop :=
  ∀ stack ts, stack.length + d ≤ maxDepth → run (.value stack) (tokensOf v ++ ts) = run (close v stack) ts

variable {stack : List Frame} {ts : List Token}

/-- The first element of an array is read like every other. -/
theorem run_firstElement (h : Nests d v) (hdepth : stack.length + 1 + d ≤ maxDepth) :
    run (.firstElement stack) (tokensOf v ++ ts) = run (.value (.array [] :: stack)) (tokensOf v ++ ts) := by
  cases h with
  | leaf htokens =>
    rw [htokens]
    rfl
  | str _ => rfl
  | arr _ | obj _ =>
    have hroom : stack.length + 1 < maxDepth := by omega
    simp [tokensOf, run, step, beginValue, hroom]

/-- The elements that are left, up to the end of their array. -/
theorem run_elements {x : Json} {xs : List Json} (h : ∀ y ∈ x :: xs, Reads d y) (done : List Json)
    (stack : List Frame) (ts : List Token) (hdepth : stack.length + 1 + d ≤ maxDepth) :
    run (.value (.array done :: stack)) ([.comma].intercalate (tokensOfAll (x :: xs)) ++ .endArray :: ts) =
      run (close (.arr (done.reverse ++ x :: xs)) stack) ts := by
  induction xs generalizing x done with
  | nil =>
    have hx := h x (by simp) (.array done :: stack) (.endArray :: ts) hdepth
    simp only [tokensOfAll, List.intercalate_singleton, hx]
    simp [close, run, step]
  | cons y ys ih =>
    have hx := h x (by simp) (.array done :: stack)
      (.comma :: ([.comma].intercalate (tokensOfAll (y :: ys)) ++ .endArray :: ts)) hdepth
    have hrest := ih (fun z hz => h z (List.mem_cons_of_mem x hz)) (x :: done)
    simp only [tokensOfAll, List.intercalate_cons_cons, List.append_assoc, List.cons_append, List.nil_append]
      at hx hrest ⊢
    rw [hx]
    simpa [close, run, step] using hrest

/-- The members that are left, up to the end of their object. -/
theorem run_members {m : String × Json} {ms : Members} (h : ∀ n ∈ m :: ms, Reads d n.2) (done : Members)
    (stack : List Frame) (ts : List Token) (hdepth : stack.length + 1 + d ≤ maxDepth) :
    run (.nextName done stack) ([.comma].intercalate (tokensOfMembers (m :: ms)) ++ .endObject :: ts) =
      run (close (.obj (done.reverse ++ m :: ms)) stack) ts := by
  induction ms generalizing m done with
  | nil =>
    have hm := h m (by simp) (.object done m.1 :: stack) (.endObject :: ts) hdepth
    simp [tokensOfMembers, run, step, hm, close]
  | cons n ns ih =>
    have hm := h m (by simp) (.object done m.1 :: stack)
      (.comma :: ([.comma].intercalate (tokensOfMembers (n :: ns)) ++ .endObject :: ts)) hdepth
    have hrest := ih (fun k hk => h k (List.mem_cons_of_mem m hk)) (m :: done)
    simp only [tokensOfMembers, List.intercalate_cons_cons, List.append_assoc, List.cons_append, List.nil_append]
      at hm hrest ⊢
    simp only [run, step, hm]
    simpa [close, run, step] using hrest

/-- Wherever a value may stand, its tokens are turned into it. -/
theorem reads_of_nests (h : Nests d v) : Reads d v := by
  induction h with
  | leaf htokens =>
    intro stack ts _
    rw [htokens]
    rfl
  | str _ => intro stack ts _; rfl
  | @arr d xs h ih =>
    intro stack ts hdepth
    have hroom : stack.length < maxDepth := by omega
    cases xs with
    | nil => simp [tokensOf, tokensOfAll, run, step, beginValue, hroom]
    | cons x xs =>
      have hrest := run_elements ih [] stack ts (by omega)
      obtain ⟨more, hmore⟩ : ∃ more, [.comma].intercalate (tokensOfAll (x :: xs)) = tokensOf x ++ more := by
        cases xs <;> simp [tokensOfAll, List.intercalate_cons_cons]
      rw [hmore, List.append_assoc, ← run_firstElement (h x (by simp)) (by omega), ← List.append_assoc, ← hmore] at hrest
      simpa [tokensOf, run, step, beginValue, hroom] using hrest
  | @obj d ms _ ih =>
    intro stack ts hdepth
    have hroom : stack.length < maxDepth := by omega
    cases ms with
    | nil => simp [tokensOf, tokensOfMembers, run, step, beginValue, hroom]
    | cons m ms =>
      have hrest := run_members ih [] stack ts (by omega)
      obtain ⟨more, hmore⟩ : ∃ more, [.comma].intercalate (tokensOfMembers (m :: ms)) = .text m.1 :: more := by
        cases ms <;> simp [tokensOfMembers, List.intercalate_cons_cons]
      rw [hmore] at hrest
      simpa [tokensOf, run, step, beginValue, hroom, hmore] using hrest

end Builder

/-- A text with the tokens of a value that does not nest too deep is read as that value. -/
theorem parse?_of_writes {s : String} (h : Writes s.toList (tokensOf v)) (hnests : Nests Builder.maxDepth v) :
    parse? s = some v := by
  have hrun : Builder.run (.value []) (tokensOf v) = (.complete v, true) := by
    simpa [Builder.close, Builder.run] using Builder.reads_of_nests hnests [] [] (by simp)
  simp [parse?, reading, tokens_of_writes h, hrun]

/-- The compact text of a value is read as that value. -/
theorem parse?_compact (h : Written Builder.maxDepth v) : parse? v.compact = some v :=
  parse?_of_writes (writes_compact h) h.nests

theorem reading_of_parse? {s : String} (h : parse? s = some v) : reading s = .value v := by
  unfold parse? at h
  split at h
  · rename_i hreading
    exact Option.some.inj h ▸ hreading
  · cases h

end OrderKeeper.Json
