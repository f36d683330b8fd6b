import Mathlib.Data.List.Induction
import OrderKeeper.Order.Upkeep
import OrderKeeper.Proofs.Abi.Layout

/-!
# What is read of an upkeep check

An answer is laid out as `LaidOut` says: a word for the flag, a word for where the string begins, and there the length of
the string and the string itself, all of them within the data, which is what the bounds `InBounds` come to
(`exists_laidOut_iff`). Offsets and lengths are numbers of any size, so that none of them can wrap around. What comes of an
answer is one of three rows (`decode_cases`), which together with the answers that a contract encodes make up
`judged_of_answer`.
-/

namespace OrderKeeper

theorem Bytes.toNat_eq_zero_iff (bs : Bytes) : toNat bs = 0 ↔ ∀ x ∈ bs, x = 0 := by
  induction bs using List.reverseRecOn with
  | nil => simp [toNat]
  | append_singleton bs b ih =>
    have hb : b.toNat = 0 ↔ b = 0 := by rw [← UInt8.toNat_inj]; rfl
    rw [toNat_append_singleton, Nat.add_eq_zero_iff, hb, Nat.mul_eq_zero, ih]
    simp [or_imp, forall_and]

namespace Upkeep

variable {data string : Bytes} {offset n : Nat} {b : Bool}

/-! ## Words of an answer -/

/-- The number `n` is written in the 32 bytes at an offset, all of which are there. -/
def Stands (data : Bytes) (offset n : Nat) : Prop :=
  ∃ before word after, data = before ++ word ++ after ∧ before.length = offset ∧ word.length = 32 ∧ Bytes.toNat word = n

theorem stands_iff : Stands data offset n ↔ offset + 32 ≤ data.length ∧ wordAt data offset = n := by
  constructor
  · rintro ⟨before, word, after, rfl, rfl, hword, rfl⟩
    refine ⟨by simp only [List.length_append]; omega, ?_⟩
    rw [wordAt, List.append_assoc, List.drop_left, List.take_left' hword]
  · rintro ⟨hroom, rfl⟩
    refine ⟨data.take offset, (data.drop offset).take 32, (data.drop offset).drop 32, ?_, ?_, ?_, rfl⟩
    · rw [List.append_assoc, List.take_append_drop, List.take_append_drop]
    · rw [List.length_take]
      omega
    · rw [List.length_take, List.length_drop]
      omega

/-- A word that was written stands where it was written, reduced to the numbers that a word can hold. -/
theorem stands_wordBytes (before after : Bytes) (n : Nat) :
    Stands (before ++ Abi.wordBytes n ++ after) before.length (n % Word.size) :=
  ⟨before, _, after, rfl, rfl, Abi.length_wordBytes n, Bytes.toNat_ofNat 32 n⟩

/-! ## Answers that show a flag -/

/-- What reading an answer needs: the words for flag and offset, the word at the offset, and as many bytes after it as this
word says. -/
structure InBounds (data : Bytes) : Prop where
  head : 64 ≤ data.length
  length : wordAt data 32 + 32 ≤ data.length
  string : wordAt data 32 + 32 + wordAt data (wordAt data 32) ≤ data.length

/-- The answer `data` consists of the word `flag` and of a byte string, with the offset of the string between them. -/
structure LaidOut (data : Bytes) (flag : Nat) (string : Bytes) : Prop where
  flag : Stands data 0 flag
  string : ∃ offset, Stands data 32 offset ∧ Stands data offset string.length ∧
    ∃ before after, data = before ++ string ++ after ∧ before.length = offset + 32

theorem LaidOut.inBounds {flag : Nat} (h : LaidOut data flag string) : InBounds data := by
  obtain ⟨offset, hoffset, hlength, before, after, hdata, hbefore⟩ := h.string
  obtain ⟨hhead, rfl⟩ := stands_iff.1 hoffset
  obtain ⟨hroom, hn⟩ := stands_iff.1 hlength
  have hsize := congrArg List.length hdata
  rw [List.length_append, List.length_append] at hsize
  exact ⟨hhead, hroom, by omega⟩

theorem InBounds.laidOut (h : InBounds data) :
    LaidOut data (wordAt data 0) ((data.drop (wordAt data 32 + 32)).take (wordAt data (wordAt data 32))) := by
  have hhead := h.head
  have hstring := h.string
  constructor
  case flag => exact stands_iff.2 ⟨by omega, rfl⟩
  case string =>
    refine ⟨wordAt data 32, stands_iff.2 ⟨hhead, rfl⟩, stands_iff.2 ⟨h.length, ?_⟩, data.take (wordAt data 32 + 32),
      (data.drop (wordAt data 32 + 32)).drop (wordAt data (wordAt data 32)), ?_, ?_⟩
    · rw [List.length_take, List.length_drop]
      omega
    · rw [List.append_assoc, List.take_append_drop, List.take_append_drop]
    · rw [List.length_take]
      omega

/-- An answer is in bounds exactly if it is laid out as a flag and a string. -/
theorem exists_laidOut_iff {flag : Nat} : (∃ string, LaidOut data flag string) ↔ InBounds data ∧ wordAt data 0 = flag :=
  ⟨fun ⟨_, h⟩ => ⟨h.inBounds, (stands_iff.1 h.flag).2⟩, fun ⟨h, hflag⟩ => ⟨_, hflag ▸ h.laidOut⟩⟩

theorem not_inBounds_nil : ¬ InBounds [] := fun h => absurd h.head (by decide)

theorem InBounds.ne_nil (h : InBounds data) : data ≠ [] := fun hnil => not_inBounds_nil (hnil ▸ h)

theorem flag?_of_inBounds (h : InBounds data) : flag? data = .ok (wordAt data 0 != 0) := by
  have hempty : ¬ data.isEmpty := by simpa using h.ne_nil
  rw [flag?, if_neg hempty]
  exact if_pos ⟨h.head, h.length, h.string⟩

theorem flag?_of_not_inBounds (hdata : data ≠ []) (h : ¬ InBounds data) : flag? data = .error .outOfBounds := by
  have hempty : ¬ data.isEmpty := by simpa using hdata
  rw [flag?, if_neg hempty]
  exact if_neg fun ⟨hhead, hlength, hstring⟩ => h ⟨hhead, hlength, hstring⟩

/-! ## The judgement of an answer -/

/-- Why an answer without data shows no flag. -/
abbrev noDataFault (contract : Address) (chainId : UInt64) : Fault :=
  .ofContract (some contract) chainId (.noData "checkUpkeep")

/-- Why any other answer shows none. -/
abbrev undecodableFault (contract : Address) (chainId : UInt64) : Fault :=
  .ofContract (some contract) chainId (.undecodable "ABI decoding failed: buffer overrun while deserializing")

/-- What comes of an answer: there are no data, they are out of bounds, or their first word is the flag. -/
theorem decode_cases (contract : Address) (chainId : UInt64) (data : Bytes) :
    data = [] ∧ decode contract chainId data = .error (noDataFault contract chainId) ∨
    data ≠ [] ∧ ¬ InBounds data ∧ decode contract chainId data = .error (undecodableFault contract chainId) ∨
    InBounds data ∧ decode contract chainId data = .ok (wordAt data 0 != 0) := by
  by_cases hdata : data = []
  · subst hdata
    exact .inl ⟨rfl, rfl⟩
  · by_cases hbounds : InBounds data
    · exact .inr (.inr ⟨hbounds, by rw [decode, flag?_of_inBounds hbounds]⟩)
    · exact .inr (.inl ⟨hdata, hbounds, by rw [decode, flag?_of_not_inBounds hdata hbounds]⟩)

theorem noDataFault_ne_undecodableFault (contract : Address) (chainId : UInt64) :
    noDataFault contract chainId ≠ undecodableFault contract chainId := by
  simp [noDataFault, undecodableFault, Fault.ofContract]

/-- What is told of the answer of a contract. -/
structure Judged (contract : Address) (chainId : UInt64) (data : Bytes) : Prop where
  noData : decode contract chainId data = .error (noDataFault contract chainId) ↔ data = []
  undecodable : decode contract chainId data = .error (undecodableFault contract chainId) ↔ data ≠ [] ∧ ¬ InBounds data
  flag : ∀ b, decode contract chainId data = .ok b ↔ InBounds data ∧ b = (wordAt data 0 != 0)
  /-- The bounds are those of a flag and of a string that the data hold in whole. -/
  laidOut : ∀ b, decode contract chainId data = .ok b ↔ ∃ flag string, LaidOut data flag string ∧ b = (flag != 0)
  /-- The flag is true exactly if one of the first 32 bytes is not zero. -/
  nonzero : decode contract chainId data = .ok true ↔ InBounds data ∧ ∃ x ∈ data.take 32, x ≠ 0

theorem judged (contract : Address) (chainId : UInt64) (data : Bytes) : Judged contract chainId data := by
  have hcases := decode_cases contract chainId data
  have hne := noDataFault_ne_undecodableFault contract chainId
  have hflag (b : Bool) : decode contract chainId data = .ok b ↔ InBounds data ∧ b = (wordAt data 0 != 0) := by
    rcases hcases with ⟨rfl, h⟩ | ⟨-, hbounds, h⟩ | ⟨hbounds, h⟩
    · simp [h, not_inBounds_nil]
    · simp [h, hbounds]
    · simp [h, hbounds, eq_comm]
  constructor
  case noData =>
    rcases hcases with ⟨rfl, h⟩ | ⟨hdata, -, h⟩ | ⟨hbounds, h⟩
    · simp [h]
    · simp [h, hdata, hne.symm]
    · simp [h, hbounds.ne_nil]
  case undecodable =>
    rcases hcases with ⟨rfl, h⟩ | ⟨hdata, hbounds, h⟩ | ⟨hbounds, h⟩
    · simp [h, hne]
    · simp [h, hdata, hbounds]
    · simp [h, hbounds]
  case flag => exact hflag
  case laidOut =>
    intro b
    simp only [hflag, exists_and_right, exists_laidOut_iff]
    exact ⟨fun ⟨hbounds, hb⟩ => ⟨_, ⟨hbounds, rfl⟩, hb⟩, fun ⟨_, ⟨hbounds, hw⟩, hb⟩ => ⟨hbounds, hw ▸ hb⟩⟩
  case nonzero =>
    have hzero : wordAt data 0 ≠ 0 ↔ ∃ x ∈ data.take 32, x ≠ 0 := by
      rw [wordAt, List.drop_zero, ne_eq, Bytes.toNat_eq_zero_iff]
      push Not
      rfl
    rw [hflag, ← hzero, eq_comm, bne_iff_ne]

theorem wordAt_wordBytes (before after : Bytes) (n : Nat) :
    wordAt (before ++ Abi.wordBytes n ++ after) before.length = n % Word.size :=
  (stands_iff.1 (stands_wordBytes before after n)).2

/-- The encoding of a flag and a byte string: the flag, the offset of the string, its length, and the string. -/
theorem encode_answer (b : Bool) (string : Bytes) :
    (Abi.Value.tuple [.bool b, .bytes string]).encode =
      Abi.wordBytes b.toNat ++ Abi.wordBytes 64 ++ Abi.wordBytes string.length ++ Abi.padded string := by
  have hflag : b.toNat % Word.size = b.toNat := by cases b <;> rfl
  simp [Abi.Value.encode, Abi.parts, Abi.layout_eq, Abi.layout.heads, Abi.headSize, Abi.tails, Abi.Value.isDynamic,
    Abi.Value.bool, Abi.Value.nat, hflag]

/-- The encoding of a flag and of any byte string shows the flag, whatever follows. A string of more bytes than a word can
count is no exception, since the length that is read is then too small. -/
theorem inBounds_encode_append (b : Bool) (string rest : Bytes) :
    InBounds ((Abi.Value.tuple [.bool b, .bytes string]).encode ++ rest) ∧
      (wordAt ((Abi.Value.tuple [.bool b, .bytes string]).encode ++ rest) 0 != 0) = b := by
  rw [encode_answer]
  generalize hdata : Abi.wordBytes b.toNat ++ Abi.wordBytes 64 ++ Abi.wordBytes string.length ++ Abi.padded string ++ rest
    = data
  have hflag : wordAt data 0 = b.toNat % Word.size := by
    rw [← hdata]
    simpa using wordAt_wordBytes [] (Abi.wordBytes 64 ++ Abi.wordBytes string.length ++ Abi.padded string ++ rest) b.toNat
  have hoffset : wordAt data 32 = 64 % Word.size := by
    rw [← hdata]
    simpa using wordAt_wordBytes (Abi.wordBytes b.toNat) (Abi.wordBytes string.length ++ Abi.padded string ++ rest) 64
  have hlength : wordAt data 64 = string.length % Word.size := by
    rw [← hdata]
    simpa using wordAt_wordBytes (Abi.wordBytes b.toNat ++ Abi.wordBytes 64) (Abi.padded string ++ rest) string.length
  have hsize : 96 + string.length ≤ data.length := by
    simp only [← hdata, List.length_append, Abi.length_wordBytes, Abi.padded]
    omega
  have hsmall : 64 % Word.size = 64 := rfl
  have hmod : string.length % Word.size ≤ string.length := Nat.mod_le ..
  refine ⟨⟨by omega, by omega, by rw [hoffset, hsmall, hlength]; omega⟩, ?_⟩
  rw [hflag]
  cases b <;> rfl

/-- **The judgement of an answer.** It shows no flag exactly if there are no data, or if a word or the string that it needs
is not in the data in whole, however large offset and length are; and the encoding of a flag and a string shows the flag,
whatever follows it. -/
theorem judged_of_answer (contract : Address) (chainId : UInt64) :
    (∀ data, Judged contract chainId data) ∧
    ∀ b string rest, decode contract chainId ((Abi.Value.tuple [.bool b, .bytes string]).encode ++ rest) = .ok b := by
  refine ⟨judged contract chainId, fun b string rest => ?_⟩
  obtain ⟨hbounds, hflag⟩ := inBounds_encode_append b string rest
  rw [(judged contract chainId _).flag]
  exact ⟨hbounds, hflag.symm⟩

end Upkeep

end OrderKeeper
