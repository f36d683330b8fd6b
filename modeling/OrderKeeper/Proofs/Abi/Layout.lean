import Mathlib.Data.List.Forall2
import OrderKeeper.Abi.Kind

/-!
# Encodings are read back

A value of a type is read back from its encoding, whatever follows it (`reads_of_admits`). The argument is about the parts
of one tuple (`readParts_of_prefix`): as long as the heads that are left begin at the offset that is read next, and the
tails that are left where the next of these heads points, the parts that are left are read. Offsets are words, so that an
encoding must be shorter than the numbers that a word can hold.

Every encoding is a whole number of words (`dvd_length_encode`).
-/

namespace OrderKeeper.Abi

variable {data a b : Bytes} {n offset : Nat}

/-! ## Words -/

@[simp] theorem length_wordBytes (n : Nat) : (wordBytes n).length = 32 := Bytes.length_ofNat 32 n

theorem toNat_wordBytes (h : n < Word.size) : Bytes.toNat (wordBytes n) = n :=
  (Bytes.toNat_ofNat 32 n).trans (Nat.mod_eq_of_lt h)

/-- A word is read where it was written. -/
theorem word?_of_prefix (h : wordBytes n <+: data.drop offset) (hn : n < Word.size) : word? data offset = some n := by
  have hlength : 32 ≤ data.length - offset := by
    rw [← List.length_drop, ← length_wordBytes n]
    exact h.length_le
  have hread : (data.drop offset).take 32 = wordBytes n := by
    obtain ⟨rest, hrest⟩ := h
    rw [← hrest, List.take_left' (length_wordBytes n)]
  rw [word?, if_pos (by omega), hread, toNat_wordBytes hn]

/-- What is written after something stands after it. -/
theorem prefix_drop_length (h : a ++ b <+: data) : b <+: data.drop a.length := by
  obtain ⟨rest, rfl⟩ := h
  exact ⟨rest, by rw [List.append_assoc, List.drop_left]⟩

theorem prefix_drop_of_append (h : a ++ b <+: data.drop offset) : b <+: data.drop (offset + a.length) := by
  rw [← List.drop_drop]
  exact prefix_drop_length h

theorem dvd_length_padded (bs : Bytes) : 32 ∣ (padded bs).length := by
  simp only [padded, List.length_append, List.length_replicate]
  omega

/-! ## Sizes -/

theorem length_heads : ∀ (offset : Nat) (ps : List (Bool × Bytes)), (layout.heads offset ps).length = headSize ps
  | _, [] => rfl
  | offset, (true, bs) :: ps => by
    rw [layout.heads, headSize, List.length_append, length_wordBytes, length_heads]
  | offset, (false, bs) :: ps => by
    rw [layout.heads, headSize, List.length_append, length_heads]

/-- The tails of the parts of a tuple. -/
def tails (ps : List (Bool × Bytes)) : Bytes := ps.flatMap fun (dynamic, bs) => if dynamic then bs else []

theorem tails_cons (dynamic : Bool) (bs : Bytes) (ps : List (Bool × Bytes)) :
    tails ((dynamic, bs) :: ps) = (if dynamic then bs else []) ++ tails ps := by
  simp only [tails, List.flatMap_cons]

theorem layout_eq (ps : List (Bool × Bytes)) : layout ps = layout.heads (headSize ps) ps ++ tails ps := rfl

theorem length_layout (ps : List (Bool × Bytes)) : (layout ps).length = headSize ps + (tails ps).length := by
  rw [layout_eq, List.length_append, length_heads]

/-- Parts of whole words take whole words together. -/
theorem dvd_length_layout {ps : List (Bool × Bytes)} (h : ∀ p ∈ ps, 32 ∣ p.2.length) : 32 ∣ (layout ps).length := by
  rw [length_layout]
  induction ps with
  | nil => exact Nat.dvd_zero 32
  | cons p ps ih =>
    obtain ⟨dynamic, bs⟩ := p
    have hbs : 32 ∣ bs.length := h _ List.mem_cons_self
    have hps : 32 ∣ headSize ps + (tails ps).length := ih fun p hp => h p (List.mem_cons_of_mem _ hp)
    cases dynamic with
    | true =>
      simp only [headSize, tails_cons, if_true, List.length_append]
      omega
    | false =>
      simp only [headSize, tails_cons, Bool.false_eq_true, if_false, List.nil_append]
      omega

mutual

/-- Every encoding is a whole number of words. -/
theorem dvd_length_encode : ∀ v : Value, 32 ∣ v.encode.length
  | .word w => by simp [Value.encode]
  | .bytes bs => by
    rw [Value.encode, List.length_append, length_wordBytes]
    exact Nat.dvd_add (Nat.dvd_refl 32) (dvd_length_padded bs)
  | .array vs => by
    rw [Value.encode, List.length_append, length_wordBytes]
    exact Nat.dvd_add (Nat.dvd_refl 32) (dvd_length_layout (dvd_length_parts vs))
  | .tuple vs => by
    rw [Value.encode]
    exact dvd_length_layout (dvd_length_parts vs)

theorem dvd_length_parts : ∀ vs : List Value, ∀ p ∈ parts vs, 32 ∣ p.2.length
  | [], _, h => absurd h List.not_mem_nil
  | v :: vs, p, h => by
    rcases List.mem_cons.1 h with rfl | h
    · exact dvd_length_encode v
    · exact dvd_length_parts vs p h

end

/-! ## Reading a tuple -/

/-- A reader reads a value where its encoding begins, and knows the room that the value takes in a head. -/
structure Reader.Reads (r : Reader) (v : Value) : Prop where
  isDynamic : v.isDynamic = r.isDynamic
  width : (if v.isDynamic then 32 else v.encode.length) = r.width
  width_pos : 0 < r.width
  read : v.encode.length < Word.size → ∀ data, v.encode <+: data → r.read data = some v

section Tuples

variable {rs : List Reader} {vs : List Value}

/-- The heads take the room that the readers know of. -/
theorem headSize_eq (h : List.Forall₂ Reader.Reads rs vs) : headSize (parts vs) = headWidth rs := by
  induction h with
  | nil => rfl
  | @cons r v rs vs hr _ ih =>
    rw [headWidth, ← ih, ← hr.width]
    cases hv : v.isDynamic <;> simp [parts, headSize, hv]

theorem headWidth_replicate (n : Nat) (r : Reader) : headWidth (List.replicate n r) = n * r.width := by
  induction n with
  | zero => simp [headWidth]
  | succ n ih => rw [List.replicate_succ, headWidth, ih, Nat.succ_mul, Nat.add_comm]

theorem anyDynamic_eq (h : List.Forall₂ Reader.Reads rs vs) : anyDynamic vs = rs.any Reader.isDynamic := by
  induction h with
  | nil => rfl
  | cons hr _ ih => rw [anyDynamic, List.any_cons, ih, hr.isDynamic]

/-- Without a value of changing size there are no tails. -/
theorem tails_eq_nil : ∀ {vs : List Value}, anyDynamic vs = false → tails (parts vs) = []
  | [], _ => rfl
  | v :: vs, h => by
    obtain ⟨hv, hvs⟩ := Bool.or_eq_false_iff.1 h
    rw [parts, tails_cons, hv, tails_eq_nil hvs]
    rfl

/-- The parts that are left are read where their heads begin, whose offsets point to the tails that are left. -/
theorem readParts_of_prefix {head tail : Nat} (h : List.Forall₂ Reader.Reads rs vs)
    (hheads : layout.heads tail (parts vs) <+: data.drop head) (htails : tails (parts vs) <+: data.drop tail)
    (hhead : headSize (parts vs) < Word.size) (htail : tail + (tails (parts vs)).length < Word.size) :
    readParts data head rs = some vs := by
  induction h generalizing head tail with
  | nil => rfl
  | @cons r v rs vs hr _ ih =>
    cases hv : v.isDynamic with
    | true =>
      have hwidth : r.width = 32 := by rw [← hr.width, hv, if_pos rfl]
      simp only [parts, hv, headSize, layout.heads, tails_cons, if_true, List.length_append]
        at hheads htails hhead htail
      have hoffset : word? data head = some tail :=
        word?_of_prefix ((List.prefix_append ..).trans hheads) (by omega)
      have hread : r.read (data.drop tail) = some v :=
        hr.read (by omega) _ ((List.prefix_append ..).trans htails)
      have hrest : readParts data (head + 32) rs = some vs := by
        refine ih ?_ (prefix_drop_of_append htails) (by omega) (by omega)
        simpa only [length_wordBytes] using prefix_drop_of_append hheads
      simp [readParts, ← hr.isDynamic, hv, hwidth, hoffset, hread, hrest]
    | false =>
      have hwidth : r.width = v.encode.length := by rw [← hr.width, hv, if_neg Bool.false_ne_true]
      simp only [parts, hv, headSize, layout.heads, tails_cons, Bool.false_eq_true, if_false, List.nil_append]
        at hheads htails hhead htail
      have hread : r.read (data.drop head) = some v :=
        hr.read (by omega) _ ((List.prefix_append ..).trans hheads)
      have hrest : readParts data (head + r.width) rs = some vs := by
        rw [hwidth]
        exact ih (prefix_drop_of_append hheads) htails (by omega) htail
      simp [readParts, ← hr.isDynamic, hv, hread, hrest]

/-- The parts of a tuple are read where its encoding begins. -/
theorem readParts_layout (h : List.Forall₂ Reader.Reads rs vs) (hsize : (layout (parts vs)).length < Word.size)
    (hdata : layout (parts vs) <+: data) : readParts data 0 rs = some vs := by
  rw [layout_eq] at hdata
  rw [length_layout] at hsize
  have hheads : layout.heads (headSize (parts vs)) (parts vs) <+: data.drop 0 := (List.prefix_append ..).trans hdata
  have htails : tails (parts vs) <+: data.drop (headSize (parts vs)) := by
    have htails := prefix_drop_length hdata
    rwa [length_heads] at htails
  exact readParts_of_prefix h hheads htails (by omega) hsize

/-- A tuple is read if its parts are. -/
theorem reads_tuple (h : List.Forall₂ Reader.Reads rs vs) (hne : vs ≠ []) : (Reader.tuple rs).Reads (.tuple vs) := by
  have hsum : 0 < headWidth rs := by
    cases h with
    | nil => exact absurd rfl hne
    | cons hr _ =>
      have hpos := hr.width_pos
      simp only [headWidth]
      omega
  constructor
  case isDynamic => exact anyDynamic_eq h
  case width =>
    cases hv : anyDynamic vs with
    | true => simp [Value.isDynamic, Reader.tuple, hv, ← anyDynamic_eq h]
    | false =>
      simp [Value.isDynamic, Value.encode, Reader.tuple, hv, ← anyDynamic_eq h, length_layout, tails_eq_nil hv,
        headSize_eq h]
  case width_pos =>
    simp only [Reader.tuple]
    split <;> omega
  case read =>
    intro hsize data hdata
    simp only [Value.encode] at hsize hdata
    simp [Reader.tuple, readParts_layout h hsize hdata]

/-- An array is read if its elements are. -/
theorem reads_array {k : Kind} (h : ∀ v ∈ vs, k.reader.Reads v) : (Kind.array k).reader.Reads (.array vs) := by
  have hparts : List.Forall₂ Reader.Reads (List.replicate vs.length k.reader) vs := by
    induction vs with
    | nil => exact .nil
    | cons v vs ih => exact .cons (h v List.mem_cons_self) (ih fun x hx => h x (List.mem_cons_of_mem _ hx))
  have hheads : headSize (parts vs) = vs.length * k.reader.width := by
    rw [headSize_eq hparts, headWidth_replicate]
  constructor
  case isDynamic => rfl
  case width => rfl
  case width_pos => exact Nat.succ_pos 31
  case read =>
    intro hsize data hdata
    simp only [Value.encode, List.length_append, length_wordBytes, length_layout] at hsize hdata
    -- Every element takes room in the heads, so that there are fewer of them than words.
    have hcount : vs.length ≤ headSize (parts vs) := by
      cases vs with
      | nil => exact Nat.zero_le _
      | cons v vs =>
        rw [hheads]
        exact Nat.le_mul_of_pos_right _ (h v List.mem_cons_self).width_pos
    have hlength : word? data 0 = some vs.length :=
      word?_of_prefix ((List.prefix_append ..).trans hdata) (by omega)
    have hroom : vs.length * k.reader.width ≤ data.length := by
      have := hdata.length_le
      simp only [List.length_append, length_wordBytes, length_layout] at this
      omega
    have hrest : layout (parts vs) <+: data.drop 32 := by
      simpa only [length_wordBytes] using prefix_drop_length hdata
    have hread : readParts (data.drop 32) 0 (List.replicate vs.length k.reader) = some vs :=
      readParts_layout hparts (by rw [length_layout]; omega) hrest
    simp [Kind.reader, hlength, hroom, hread]

end Tuples

/-! ## Reading a value -/

theorem reads_uint {bits : Nat} {w : Word} (h : w.toNat < Nat.pow 2 bits) : (Kind.uint bits).reader.Reads (.word w) := by
  constructor
  case isDynamic => rfl
  case width => simp [Value.isDynamic, Value.encode, Kind.reader]
  case width_pos => exact Nat.succ_pos 31
  case read =>
    intro _ data hdata
    have hword : word? data 0 = some w.toNat := word?_of_prefix hdata w.isLt
    simp only [Kind.reader, hword, Option.bind_eq_bind, Option.bind_some, if_pos h, Value.nat, BitVec.ofNat_toNat,
      BitVec.setWidth_eq]

theorem reads_bytes (bs : Bytes) : Kind.bytes.reader.Reads (.bytes bs) := by
  constructor
  case isDynamic => rfl
  case width => rfl
  case width_pos => exact Nat.succ_pos 31
  case read =>
    intro hsize data hdata
    simp only [Value.encode, List.length_append, length_wordBytes, padded] at hsize hdata
    have hlength : word? data 0 = some bs.length :=
      word?_of_prefix ((List.prefix_append ..).trans hdata) (by omega)
    have hroom : 32 + bs.length ≤ data.length := by
      have := hdata.length_le
      simp only [List.length_append, length_wordBytes] at this
      omega
    have hbytes : bs <+: data.drop 32 := by
      have hpadded := prefix_drop_length hdata
      rw [length_wordBytes] at hpadded
      exact (List.prefix_append ..).trans hpadded
    simp [Kind.reader, hlength, hroom, ← List.prefix_iff_eq_take.1 hbytes]

mutual

/-- A value of a type is read where its encoding begins. -/
theorem reads_of_admits : ∀ {k : Kind} {v : Value}, k.admits v = true → k.reader.Reads v
  | .uint bits, .word w, h => reads_uint (of_decide_eq_true h)
  | .bytes, .bytes bs, _ => reads_bytes bs
  | .array k, .array vs, h => reads_array fun v hv => reads_of_admits (List.all_eq_true.1 h v hv)
  | .tuple ks, .tuple vs, h => by
    obtain ⟨hne, hvs⟩ := Bool.and_eq_true_iff.1 h
    exact reads_tuple (reads_of_admitsAll hvs) (by simpa using hne)

/-- Values of several types are read where their encodings begin, one by one. -/
theorem reads_of_admitsAll : ∀ {ks : List Kind} {vs : List Value}, admitsAll ks vs = true →
    List.Forall₂ Reader.Reads (readers ks) vs
  | [], [], _ => .nil
  | k :: ks, v :: vs, h => by
    obtain ⟨hv, hvs⟩ := Bool.and_eq_true_iff.1 h
    exact .cons (reads_of_admits hv) (reads_of_admitsAll hvs)

end

/-- The values of a parameter list are read from its encoding, whatever follows it. -/
theorem decode?_encode {ks : List Kind} {vs : List Value} (h : admitsAll ks vs = true)
    (hsize : (Value.tuple vs).encode.length < Word.size) (rest : Bytes) :
    decode? ks ((Value.tuple vs).encode ++ rest) = some vs :=
  readParts_layout (reads_of_admitsAll h) hsize (List.prefix_append ..)

/-- A function is named by four bytes. -/
theorem length_selector (signature : String) : (selector signature).length = 4 := by
  simp [selector, Keccak.digest, Keccak.laneBytes]

/-- The arguments of a call are read from its data. -/
theorem arguments?_call {ks : List Kind} {vs : List Value} (h : admitsAll ks vs = true)
    (hsize : (Value.tuple vs).encode.length < Word.size) (signature : String) :
    arguments? signature ks (call signature vs) = some vs := by
  have hselector := length_selector signature
  rw [arguments?, call, List.take_left' hselector, if_pos rfl, List.drop_left' hselector]
  simpa only [List.append_nil] using decode?_encode h hsize []

end OrderKeeper.Abi
