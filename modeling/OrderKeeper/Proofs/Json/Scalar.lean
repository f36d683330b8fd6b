import OrderKeeper.Json.Scalar
import OrderKeeper.Proofs.Json.Reader
import OrderKeeper.Proofs.Json.Record

/-!
# Scalars read back

Every text, truth value, integer, address and hash is read back from its JSON form, alone and as a member of an object,
and each of these forms survives being written as text (`Written`). Where both are known of all values of a type, each
of them is read back from its text (`ReadBack`).
-/

namespace OrderKeeper.Json

/-! ## Values from JSON -/

theorem string_str (s : String) : string (.str s) = .ok s := rfl

theorem boolean_bool (b : Bool) : boolean (.bool b) = .ok b := rfl

theorem natBelow_nat {n bound : Nat} (h : n < bound) : natBelow bound (.nat n) = .ok n := by
  have hn : (0 : Int) ≤ n ∧ (n : Int) < bound := ⟨Int.natCast_nonneg n, Int.ofNat_lt.2 h⟩
  rw [nat, natBelow, if_pos hn, Int.toNat_natCast]

theorem uint16_nat (n : UInt16) : uint16 (.nat n.toNat) = .ok n := by
  rw [uint16, natBelow_nat n.toNat_lt]
  exact congrArg Except.ok n.ofNat_toNat

theorem uint32_ofUInt32 (n : UInt32) : uint32 (ofUInt32 n) = .ok n := by
  rw [uint32, ofUInt32, natBelow_nat n.toNat_lt]
  exact congrArg Except.ok n.ofNat_toNat

theorem uint64_ofUInt64 (n : UInt64) : uint64 (ofUInt64 n) = .ok n := by
  rw [uint64, ofUInt64, natBelow_nat n.toNat_lt]
  exact congrArg Except.ok n.ofNat_toNat

theorem int64_toInt (n : Int64) : int64 (.int n.toInt) = .ok n := by
  have hn : -0x8000000000000000 ≤ n.toInt ∧ n.toInt < 0x8000000000000000 := ⟨n.le_toInt, n.toInt_lt⟩
  rw [int64, if_pos hn, Int64.ofInt_toInt]

theorem bytes_text (bs : Bytes) : bytes (.str (Hex.text bs)) = .ok bs := by
  have hbytes : Hex.bytes? (Hex.text bs) = some bs := by
    rw [Hex.bytes?, Hex.text, String.toList_ofList]
    exact Hex.decode?_encode bs
  rw [bytes, hbytes]

theorem fixedBytes_text (w n : Nat) : fixedBytes w (.str (Hex.text (Bytes.ofNat w n))) = .ok (Bytes.ofNat w n) := by
  rw [fixedBytes, bytes_text]
  exact if_pos (Bytes.length_ofNat w n)

theorem address_ofAddress (a : Address) : address (ofAddress a) = .ok a := by
  have hnat : Bytes.toNat (Bytes.ofNat 20 a.toNat) = a.toNat :=
    (Bytes.toNat_ofNat 20 a.toNat).trans (Nat.mod_eq_of_lt a.isLt)
  rw [address, ofAddress, Address.bytes, fixedBytes_text, Except.map, hnat, BitVec.ofNat_toNat, BitVec.setWidth_eq]

theorem hash_ofHash (h : Hash) : hash (ofHash h) = .ok h := by
  have hnat : Bytes.toNat (Bytes.ofNat 32 h.toNat) = h.toNat :=
    (Bytes.toNat_ofNat 32 h.toNat).trans (Nat.mod_eq_of_lt h.isLt)
  rw [hash, ofHash, Word.bytes, fixedBytes_text, Except.map, hnat, BitVec.ofNat_toNat, BitVec.setWidth_eq]

/-! ## Members -/

namespace Record

variable {name : String}

theorem makes_string (s : String) : (required name string).Makes [(name, .str s)] s := makes_required (string_str s)

theorem makes_boolean (b : Bool) : (required name boolean).Makes [(name, .bool b)] b := makes_required (boolean_bool b)

theorem makes_uint32 (n : UInt32) : (required name uint32).Makes [(name, ofUInt32 n)] n :=
  makes_required (uint32_ofUInt32 n)

theorem makes_uint64 (n : UInt64) : (required name uint64).Makes [(name, ofUInt64 n)] n :=
  makes_required (uint64_ofUInt64 n)

theorem makes_address (a : Address) : (required name address).Makes [(name, ofAddress a)] a :=
  makes_required (address_ofAddress a)

theorem makes_hash (h : Hash) : (required name hash).Makes [(name, ofHash h)] h := makes_required (hash_ofHash h)

theorem makes_string? (s : Option String) : (optional name string).Makes [(name, Json.option .str s)] s :=
  makes_optional string_str (fun _ => Json.noConfusion) s

theorem makes_uint64? (n : Option UInt64) : (optional name uint64).Makes [(name, Json.option ofUInt64 n)] n :=
  makes_optional uint64_ofUInt64 (fun _ => Json.noConfusion) n

theorem makes_address? (a : Option Address) : (optional name address).Makes [(name, Json.option ofAddress a)] a :=
  makes_optional address_ofAddress (fun _ => Json.noConfusion) a

theorem makes_hash? (h : Option Hash) : (optional name hash).Makes [(name, Json.option ofHash h)] h :=
  makes_optional hash_ofHash (fun _ => Json.noConfusion) h

end Record

/-! ## Text -/

variable {d : Nat}

theorem written_nat {n : Nat} (h : n < UInt64.size) : Written d (.nat n) := .int h

@[simp] theorem written_uint16 (n : UInt16) : Written d (.nat n.toNat) :=
  written_nat (Nat.lt_trans n.toNat_lt (by decide))

@[simp] theorem written_ofUInt32 (n : UInt32) : Written d (ofUInt32 n) :=
  written_nat (Nat.lt_trans n.toNat_lt (by decide))

@[simp] theorem written_ofUInt64 (n : UInt64) : Written d (ofUInt64 n) := written_nat n.toNat_lt

@[simp] theorem written_int64 (n : Int64) : Written d (.int n.toInt) := by
  have hlow := n.le_toInt
  have hhigh := n.toInt_lt
  exact .int (by simp only [UInt64.size]; omega)

@[simp] theorem written_bool (b : Bool) : Written d (.bool b) := .bool b

@[simp] theorem written_str (s : String) : Written d (.str s) := .str s

@[simp] theorem written_ofAddress (a : Address) : Written d (ofAddress a) := .str _

@[simp] theorem written_ofHash (h : Hash) : Written d (ofHash h) := .str _

@[simp] theorem written_option {α : Type} {write : α → Json} (h : ∀ a, Written d (write a)) (o : Option α) :
    Written d (Json.option write o) := by
  cases o with
  | none => exact .null
  | some a => exact h a

@[simp] theorem written_obj {ms : Members} : Written (d + 1) (.obj ms) ↔ ∀ m ∈ ms, Written d m.2 :=
  ⟨fun | .obj h => h, .obj⟩

@[simp] theorem written_tagged {tag kind : String} {ms : Members} :
    Written (d + 1) (.tagged tag kind ms) ↔ ∀ m ∈ ms, Written d m.2 := by
  simp [Json.tagged]

/-- Every value is read back from the compact text of its JSON form. -/
def ReadBack {α : Type} (toJson : α → Json) (decode : Decoder α) : Prop :=
  ∀ a, (parse? (toJson a).compact).map decode = some (.ok a)

theorem readBack {α : Type} {toJson : α → Json} {decode : Decoder α} (hdecode : ∀ a, decode (toJson a) = .ok a)
    (hwritten : ∀ a, Written Builder.maxDepth (toJson a)) : ReadBack toJson decode := by
  intro a
  rw [parse?_compact (hwritten a), Option.map_some, hdecode a]

end OrderKeeper.Json
