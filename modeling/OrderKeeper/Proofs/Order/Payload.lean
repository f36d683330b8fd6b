import OrderKeeper.Order.Parameters
import OrderKeeper.Proofs.Abi.Layout

/-!
# What the order book reads

The order book knows the types of its parameters and nothing else of what is handed to it. It reads the payload that was
written, from the parameter list by itself and from either call that hands it over (`legible_of_encode`); no two payloads
look alike to it.
-/

namespace OrderKeeper

open Abi (Kind Value admitsAll)

/-! ## Values of their types -/

theorem Abi.admits_tuple (ks : List Kind) (v : Value) (vs : List Value) :
    (Kind.tuple ks).admits (.tuple (v :: vs)) = admitsAll ks (v :: vs) := rfl

theorem Abi.address?_address (a : Address) : (Value.address a).address? = some a := by
  have hsize : a.toNat % Word.size = a.toNat := Nat.mod_eq_of_lt (Nat.lt_trans a.isLt (by decide))
  simp [Value.address?, Value.address, Value.nat, hsize]

theorem Abi.admits_address (a : Address) : Kind.address.admits (.address a) = true := by
  have hsize : a.toNat % Word.size = a.toNat := Nat.mod_eq_of_lt (Nat.lt_trans a.isLt (by decide))
  have hrange := a.isLt
  simpa [Kind.address, Kind.admits, Value.address, Value.nat, hsize] using hrange

theorem Abi.admits_bool (b : Bool) : Kind.bool.admits (.bool b) = true := by cases b <;> rfl

theorem Abi.admits_word (w : Word) : (Kind.uint 256).admits (.word w) = true := decide_eq_true w.isLt

theorem Order.admits_kind (o : Order) : Order.kind.admits o.toAbi = true := by
  simp [kind, toAbi, Abi.admits_tuple, admitsAll, Abi.admits_address, Abi.admits_word]

theorem Order.ofAbi?_toAbi (o : Order) : ofAbi? o.toAbi = some o := by
  simp [ofAbi?, toAbi, Abi.address?_address]

theorem SwapRoute.admits_kind (r : SwapRoute) : SwapRoute.kind.admits r.toAbi = true := by
  have hdex : (Kind.uint 8).admits (.nat r.dexId.toNat) = true := by
    have hrange : r.dexId.toNat < 256 := r.dexId.toNat_lt
    have hsize : r.dexId.toNat % Word.size = r.dexId.toNat := Nat.mod_eq_of_lt (Nat.lt_trans hrange (by decide))
    simpa [Kind.admits, Value.nat, hsize] using hrange
  have hdata : Kind.bytes.admits (.bytes r.extraData) = true := rfl
  simp [kind, toAbi, Abi.admits_tuple, admitsAll, Abi.admits_address, Abi.admits_word, hdex, hdata]

theorem SwapRoute.ofAbi?_toAbi (r : SwapRoute) : ofAbi? r.toAbi = some r := by
  have hrange : r.dexId.toNat < 256 := r.dexId.toNat_lt
  have hdex : UInt8.ofNat (BitVec.ofNat 256 r.dexId.toNat).toNat = r.dexId := by
    rw [BitVec.toNat_ofNat, Nat.mod_eq_of_lt (by omega), UInt8.ofNat_toNat]
  simp only [ofAbi?, toAbi, Value.nat, Abi.address?_address, hdex, Option.pure_def, Option.bind_eq_bind,
    Option.bind_some]

theorem SwapRoute.mapM_ofAbi? : ∀ rs : List SwapRoute, (rs.map toAbi).mapM ofAbi? = some rs
  | [] => rfl
  | r :: rs => by simp [ofAbi?_toAbi, mapM_ofAbi? rs]

namespace Payload

/-- The values of the parameter list are of the types that the order book declares. -/
theorem admits_kinds (p : Payload) : admitsAll kinds p.parameters = true := by
  have hroutes : (Kind.array SwapRoute.kind).admits (.array (p.routes.map SwapRoute.toAbi)) = true := by
    simp [Kind.admits, SwapRoute.admits_kind]
  simp [kinds, parameters, admitsAll, Order.admits_kind, Abi.admits_address, Abi.admits_bool, Abi.admits_word, hroutes]

/-- The values of the parameter list make up the payload. -/
theorem ofParameters?_parameters (p : Payload) : ofParameters? p.parameters = some p := by
  have hcancel : (BitVec.ofNat 256 p.isCancel.toNat != 0) = p.isCancel := by cases p.isCancel <;> rfl
  simp only [ofParameters?, parameters, Value.bool, Value.nat, Order.ofAbi?_toAbi, Abi.address?_address,
    SwapRoute.mapM_ofAbi?, hcancel, Option.pure_def, Option.bind_eq_bind, Option.bind_some]

/-! ## What is read -/

/-- The four bytes that name the check. -/
theorem selector_check : Abi.selector "checkUpkeep(bytes)" = [0x6e, 0x04, 0xff, 0x0d] := by decide +kernel

/-- The four bytes that name the execution. -/
theorem selector_perform : Abi.selector "performUpkeep(bytes)" = [0x45, 0x85, 0xe3, 0x3b] := by decide +kernel

theorem decode?_parameters {p : Payload} (h : p.encode.length < Word.size) :
    Abi.decode? kinds p.encode = some p.parameters := by
  have hread := Abi.decode?_encode p.admits_kinds h []
  rwa [List.append_nil] at hread

theorem decode?_payload {p : Payload} (h : p.encode.length < Word.size) : decode? p.encode = some p := by
  rw [decode?, decode?_parameters h, Option.bind_some, ofParameters?_parameters]

/-- A byte string of no more than `2 ^ 64` bytes can be handed over. -/
theorem length_argument_lt {bs : Bytes} (h : bs.length < UInt64.size) :
    (Value.tuple [.bytes bs]).encode.length < Word.size := by
  have hlength : (Value.tuple [.bytes bs]).encode.length = 64 + (Abi.padded bs).length := by
    simp [Value.encode, Abi.parts, Abi.length_layout, Abi.headSize, Abi.tails, Value.isDynamic]
    omega
  have hpadded : (Abi.padded bs).length ≤ bs.length + 31 := by
    simp only [Abi.padded, List.length_append, List.length_replicate]
    omega
  have hroom : UInt64.size + 95 ≤ Word.size := by decide
  omega

/-- A payload is read from a call that hands it over. -/
theorem ofCall?_call {p : Payload} (h : p.encode.length < UInt64.size) (signature : String) :
    ofCall? signature (Abi.call signature [.bytes p.encode]) = some p := by
  have hargument : Abi.arguments? signature [.bytes] (Abi.call signature [.bytes p.encode]) = some [.bytes p.encode] :=
    Abi.arguments?_call rfl (length_argument_lt h) signature
  have hread : decode? p.encode = some p := decode?_payload (Nat.lt_trans h (by decide))
  simp only [ofCall?, hargument, Option.bind_eq_bind, Option.bind_some, hread]

/-- What can be read of a payload. -/
structure Legible (p : Payload) : Prop where
  /-- The ten values of the declared types are read from the parameter list. -/
  parameters : Abi.decode? kinds p.encode = some p.parameters
  /-- They make up the payload. -/
  payload : decode? p.encode = some p
  /-- No other payload is written alike. -/
  distinct : ∀ q : Payload, q.encode = p.encode → q = p
  /-- It is written in whole words. -/
  words : 32 ∣ p.encode.length
  /-- Each call is the name of its function followed by one byte string, the parameter list. -/
  check : p.checkUpkeepCall = [0x6e, 0x04, 0xff, 0x0d] ++ (Value.tuple [.bytes p.encode]).encode
  perform : p.performUpkeepCall = [0x45, 0x85, 0xe3, 0x3b] ++ (Value.tuple [.bytes p.encode]).encode
  /-- The payload is read from either call. -/
  ofCheck : ofCall? "checkUpkeep(bytes)" p.checkUpkeepCall = some p
  ofPerform : ofCall? "performUpkeep(bytes)" p.performUpkeepCall = some p

/-- **The order book reads the payload that was written**, for any number of swaps and any data of theirs. -/
theorem legible_of_encode (p : Payload) (h : p.encode.length < UInt64.size) : p.Legible := by
  have hword : p.encode.length < Word.size := Nat.lt_trans h (by decide)
  constructor
  case parameters => exact decode?_parameters hword
  case payload => exact decode?_payload hword
  case distinct =>
    intro q hq
    have hread : decode? q.encode = some q := decode?_payload (by rw [hq]; exact hword)
    rw [hq, decode?_payload hword] at hread
    exact (Option.some.inj hread).symm
  case words => exact Abi.dvd_length_encode _
  case check => rw [checkUpkeepCall, Abi.call, selector_check]
  case perform => rw [performUpkeepCall, Abi.call, selector_perform]
  case ofCheck => exact ofCall?_call h _
  case ofPerform => exact ofCall?_call h _

/-- Two swaps, one of which brings data that fill no whole word. -/
theorem legible_of_two_routes :
    let p : Payload := {
      order := ⟨0xaa, 3, 1, 500⟩, isCancel := false, tokenIn := 1, tokenOut := 2, remainingAmountIn := 1000
      routes := [⟨2, 1, 2, 600, 590, [0xde, 0xad]⟩, ⟨255, 1, 2, 400, 390, []⟩]
      amountIn := 1000, amountOutMin := 990, amountOutExpected := 1010, keeper := 0xb }
    p.encode.length = 992 ∧ p.Legible := by
  exact ⟨by decide +kernel, legible_of_encode _ (by decide +kernel)⟩

end Payload

end OrderKeeper
