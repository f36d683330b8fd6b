import OrderKeeper.Proofs.Fault.Wire
import OrderKeeper.Submission.Outcome
import OrderKeeper.Submission.Wire

/-!
# Reports read back

Everything that is reported of a work item — its ending with all faults nested in it, why no offer or no receipt came,
its outcome and its receipt — is written as compact text from which it is read back unchanged (`reports_readBack`).
-/

namespace OrderKeeper

open Json (Written)
open Json.Record
open Json.Alternatives (decode_record decode_unit)

variable {d : Nat}

namespace Receipt

theorem decode_toJson (r : Receipt) : record.decode r.toJson = .ok r :=
  decode_obj (by decide)
    ((((makes_hash r.transactionHash).map Receipt.mk).seq (makes_uint64? r.blockNumber)).seq (makes_boolean r.status)
      |>.seq (makes_uint64 r.gasUsed))

theorem written_toJson (r : Receipt) : Written (d + 1) r.toJson := by
  simp [toJson]

end Receipt

namespace WaitFailure

theorem ofJson_toJson (e : WaitFailure) : ofJson e.toJson = .ok e := by
  cases e with
  | cancelled h => exact decode_record rfl (by decide) ((makes_hash? h).map cancelled)
  | reverted h block gas =>
    exact decode_record rfl (by decide)
      ((((makes_hash h).map reverted).seq (makes_uint64? block)).seq (makes_uint64 gas))
  | queryFailed h inner =>
    exact decode_record rfl (by decide) (((makes_hash h).map queryFailed).seq (makes_required inner.ofJson_toJson))
  | notFound h polls => exact decode_record rfl (by decide) (((makes_hash h).map notFound).seq (makes_uint32 polls))
  | budgetExhausted attempts h =>
    exact decode_record rfl (by decide) (((makes_uint32 attempts).map budgetExhausted).seq (makes_hash? h))

theorem written_toJson (e : WaitFailure) : Written (d + 3) e.toJson := by
  cases e <;> simp [toJson]

end WaitFailure

namespace PricingFailure

theorem ofJson_toJson (e : PricingFailure) : ofJson e.toJson = .ok e := by
  cases e with
  | noBaseFee network => exact decode_record rfl (by decide) ((makes_string network).map noBaseFee)
  | feeData inner => exact decode_record rfl (by decide) ((makes_required inner.ofJson_toJson).map feeData)
  | gasEstimation inner => exact decode_record rfl (by decide) ((makes_required inner.ofJson_toJson).map gasEstimation)

theorem written_toJson (e : PricingFailure) : Written (d + 3) e.toJson := by
  cases e <;> simp [toJson]

end PricingFailure

namespace Outcome

theorem ofJson_toJson (o : Outcome) : ofJson o.toJson = .ok o := by
  cases o with
  | notExecutable => exact decode_unit rfl
  | included h block gas nonce attempts =>
    exact decode_record rfl (by decide)
      (((((makes_hash h).map included).seq (makes_uint64? block)).seq (makes_uint64 gas)).seq (makes_uint64 nonce)
        |>.seq (makes_uint32 attempts))

theorem written_toJson (o : Outcome) : Written (d + 1) o.toJson := by
  cases o <;> simp [toJson]

end Outcome

namespace KeeperError

theorem ofJson_toJson (e : KeeperError) : ofJson e.toJson = .ok e := by
  cases e with
  | validation m => exact decode_record rfl (by decide) ((makes_string m).map validation)
  | chainService network m =>
    exact decode_record rfl (by decide) (((makes_string network).map chainService).seq (makes_string m))
  | contractNotDeployed a chainId =>
    exact decode_record rfl (by decide) (((makes_address a).map contractNotDeployed).seq (makes_uint64 chainId))
  | upkeepCheckFailed a m inner =>
    exact decode_record rfl (by decide)
      ((((makes_address a).map upkeepCheckFailed).seq (makes_string m)).seq (makes_required inner.ofJson_toJson))
  | nonceLeaseFailed a m inner =>
    exact decode_record rfl (by decide)
      ((((makes_address a).map nonceLeaseFailed).seq (makes_string m)).seq (makes_required inner.ofJson_toJson))
  | dynamicFeesUnsupported network =>
    exact decode_record rfl (by decide) ((makes_string network).map dynamicFeesUnsupported)
  | feeDataUnavailable m inner =>
    exact decode_record rfl (by decide)
      (((makes_string m).map feeDataUnavailable).seq (makes_required inner.ofJson_toJson))
  | gasEstimationFailed a m inner =>
    exact decode_record rfl (by decide)
      ((((makes_address a).map gasEstimationFailed).seq (makes_string m)).seq (makes_required inner.ofJson_toJson))
  | signingFailed m inner =>
    exact decode_record rfl (by decide) (((makes_string m).map signingFailed).seq (makes_required inner.ofJson_toJson))
  | sendFailed attempt m inner =>
    exact decode_record rfl (by decide)
      ((((makes_uint32 attempt).map sendFailed).seq (makes_string m)).seq (makes_required inner.ofJson_toJson))
  | reverted a h block =>
    exact decode_record rfl (by decide)
      ((((makes_address a).map reverted).seq (makes_hash h)).seq (makes_uint64? block))
  | budgetExhausted a attempts h =>
    exact decode_record rfl (by decide)
      ((((makes_address a).map budgetExhausted).seq (makes_uint32 attempts)).seq (makes_hash? h))
  | notFound a h => exact decode_record rfl (by decide) (((makes_address a).map notFound).seq (makes_hash h))
  | receiptQueryFailed h m inner =>
    exact decode_record rfl (by decide)
      ((((makes_hash h).map receiptQueryFailed).seq (makes_string m)).seq (makes_required inner.ofJson_toJson))
  | cancelled stage h =>
    exact decode_record rfl (by decide) (((makes_string stage).map cancelled).seq (makes_hash? h))
  | internal m => exact decode_record rfl (by decide) ((makes_string m).map internal)

theorem written_toJson (e : KeeperError) : Written (d + 3) e.toJson := by
  cases e <;> simp [toJson]

end KeeperError

/-- Everything that is reported is read back from its text: endings and the faults nested in them, at every level also on
their own, outcomes and receipts. -/
theorem reports_readBack :
    Json.ReadBack KeeperError.toJson KeeperError.ofJson ∧
      Json.ReadBack Fault.toJson Fault.ofJson ∧
      Json.ReadBack RpcFault.toJson RpcFault.ofJson ∧
      Json.ReadBack ContractFault.toJson ContractFault.ofJson ∧
      Json.ReadBack WaitFailure.toJson WaitFailure.ofJson ∧
      Json.ReadBack PricingFailure.toJson PricingFailure.ofJson ∧
      Json.ReadBack Outcome.toJson Outcome.ofJson ∧
      Json.ReadBack Receipt.toJson Receipt.record.decode :=
  ⟨Json.readBack KeeperError.ofJson_toJson KeeperError.written_toJson,
    Json.readBack Fault.ofJson_toJson Fault.written_toJson,
    Json.readBack RpcFault.ofJson_toJson RpcFault.written_toJson,
    Json.readBack ContractFault.ofJson_toJson ContractFault.written_toJson,
    Json.readBack WaitFailure.ofJson_toJson WaitFailure.written_toJson,
    Json.readBack PricingFailure.ofJson_toJson PricingFailure.written_toJson,
    Json.readBack Outcome.ofJson_toJson Outcome.written_toJson,
    Json.readBack Receipt.decode_toJson Receipt.written_toJson⟩

end OrderKeeper
