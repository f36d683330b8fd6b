import OrderKeeper.Fault.Wire
import OrderKeeper.Proofs.Json.Scalar

/-!
# Faults read back

Every fault is read back from its JSON form, which can be written as text. The error object that a node answered stands
beside the tag and is found there.
-/

namespace OrderKeeper

open Json (Written)
open Json.Record
open Json.Alternatives (decode_record decode_unit)

variable {d : Nat}

theorem ErrorResponse.makes_members (r : ErrorResponse) : record.Makes r.members r :=
  (((makes_required (Json.int64_toInt r.code)).map ErrorResponse.mk).seq (makes_string r.message)).seq
    (makes_string? r.data)

namespace RpcFault

theorem ofJson_toJson (f : RpcFault) : ofJson f.toJson = .ok f := by
  cases f with
  | errorResponse r => exact decode_record rfl (by decide) (r.makes_members.map errorResponse)
  | nullResponse => exact decode_unit rfl
  | unsupportedFeature m => exact decode_record rfl (by decide) ((makes_string m).map unsupportedFeature)
  | localUsage m => exact decode_record rfl (by decide) ((makes_string m).map localUsage)
  | unwritableRequest m => exact decode_record rfl (by decide) ((makes_string m).map unwritableRequest)
  | unreadableResponse m text =>
    exact decode_record rfl (by decide) (((makes_string m).map unreadableResponse).seq (makes_string text))
  | httpStatus status body =>
    exact decode_record rfl (by decide)
      (((makes_required (Json.uint16_nat status)).map httpStatus).seq (makes_string body))
  | transport m => exact decode_record rfl (by decide) ((makes_string m).map transport)

@[simp] theorem written_toJson (f : RpcFault) : Written (d + 1) f.toJson := by
  cases f <;> simp [toJson, ErrorResponse.members]

end RpcFault

namespace ContractFault

theorem ofJson_toJson (f : ContractFault) : ofJson f.toJson = .ok f := by
  cases f with
  | noData function => exact decode_record rfl (by decide) ((makes_string function).map noData)
  | undecodable m => exact decode_record rfl (by decide) ((makes_string m).map undecodable)
  | reverted m => exact decode_record rfl (by decide) ((makes_string m).map reverted)

@[simp] theorem written_toJson (f : ContractFault) : Written (d + 1) f.toJson := by
  cases f <;> simp [toJson]

end ContractFault

namespace Fault

theorem ofJson_toJson (f : Fault) : ofJson f.toJson = .ok f := by
  cases f with
  | rpc chainId url m kind =>
    exact decode_record rfl (by decide) ((((makes_uint64 chainId).map rpc).seq (makes_string url)).seq
      (makes_string m) |>.seq (makes_required kind.ofJson_toJson))
  | configuration m => exact decode_record rfl (by decide) ((makes_string m).map configuration)
  | contract address chainId m kind =>
    exact decode_record rfl (by decide) ((((makes_address? address).map contract).seq (makes_uint64 chainId)).seq
      (makes_string m) |>.seq (makes_required kind.ofJson_toJson))
  | validation m => exact decode_record rfl (by decide) ((makes_string m).map validation)
  | signing a m => exact decode_record rfl (by decide) (((makes_address a).map signing).seq (makes_string m))
  | internal m => exact decode_record rfl (by decide) ((makes_string m).map internal)

@[simp] theorem written_toJson (f : Fault) : Written (d + 2) f.toJson := by
  cases f <;> simp [toJson]

end Fault

end OrderKeeper
