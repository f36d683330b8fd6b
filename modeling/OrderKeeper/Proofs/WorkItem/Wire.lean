import OrderKeeper.Proofs.Json.Number
import OrderKeeper.Proofs.Json.Scalar
import OrderKeeper.Proofs.Text.Hex
import OrderKeeper.Proofs.WorkItem.Checks
import OrderKeeper.WorkItem.Parse

/-!
# Requests read back

A request that is written as a line of text is read from it unchanged, so that the line gives what the request gives
(`readLine_compact`). Whatever may be absent, words of any size and byte strings of any length are kept; of a multiplier that
is no integer it is asked that its own text is read back (`Json.Recovered`).

The members of the target and of the pricing stand among the others, where their records find them
(`Makes.ofMembers_of_sublist`).
-/

namespace OrderKeeper

open Json (Written)
open Json.Record

variable {d : Nat} {name : String}

namespace Json

/-- The text of a number is read as that number. -/
def Recovered (x : Float) : Prop := Token.number? (Decimal.compact x).toList = some (.real x, [])

/-! ## Words, byte strings and lists -/

theorem word_ofWord (w : Word) : word (ofWord w) = .ok w := by
  have hbound : w.toNat < Word.size := w.isLt
  rw [word, ofWord, quantityBelow, natOfText?_quantity]
  simp [hbound, Except.map]

theorem uint8_nat (n : UInt8) : uint8 (.nat n.toNat) = .ok n := by
  rw [uint8, natBelow_nat n.toNat_lt]
  exact congrArg Except.ok n.ofNat_toNat

theorem float_real (x : Float) : float (.real x) = .ok x := rfl

theorem list_map {α : Type} {write : α → Json} {decode : Decoder α} (h : ∀ a, decode (write a) = .ok a) (as : List α) :
    list decode (.arr (as.map write)) = .ok as := by
  rw [list]
  induction as with
  | nil => rfl
  | cons a as ih =>
    rw [List.map_cons, List.mapM_cons, h a, ih]
    rfl

theorem Record.makes_word (w : Word) : (required name word).Makes [(name, ofWord w)] w := makes_required (word_ofWord w)

theorem Record.makes_word? (w : Option Word) : (optional name word).Makes [(name, Json.option ofWord w)] w :=
  makes_optional word_ofWord (fun _ => Json.noConfusion) w

/-- A member that is given does not need its default. -/
theorem Record.makes_default {α : Type} {decode : Decoder α} {v : Json} {a b : α} (h : decode v = .ok a) :
    (default name decode b).Makes [(name, v)] a := makes_member h

@[simp] theorem written_ofWord (w : Word) : Written d (ofWord w) := .str _

@[simp] theorem written_ofBytes (bs : Bytes) : Written d (ofBytes bs) := .str _

@[simp] theorem written_uint8 (n : UInt8) : Written d (.nat n.toNat) := written_nat (Nat.lt_trans n.toNat_lt (by decide))

end Json

open Json

namespace Mode

theorem ofTaggedJson_toJson (m : Mode) : ofTaggedJson m.toJson = .ok m := by
  cases m <;> rfl

@[simp] theorem written_toJson (m : Mode) : Written d m.toJson := .str _

end Mode

/-! ## The parts of a request -/

namespace TargetRequest

theorem makes (t : TargetRequest) : record.Makes t.members t :=
  (((makes_string t.network).map TargetRequest.mk).seq (makes_string t.contractAddress)).seq (makes_string t.keeperAddress)

end TargetRequest

namespace OrderRequest

theorem decode_members (o : OrderRequest) : record.decode (.obj o.members) = .ok o :=
  decode_obj (by decide)
    ((((makes_address o.account).map OrderRequest.mk).seq (makes_word? o.index)).seq (makes_word? o.orderType)
      |>.seq (makes_word? o.executeFee))

end OrderRequest

namespace SwapRoute

theorem decode_members (r : SwapRoute) : record.decode (.obj r.members) = .ok r :=
  decode_obj (by decide)
    ((((((makes_required (uint8_nat r.dexId)).map SwapRoute.mk).seq (makes_address r.tokenIn)).seq (makes_address r.tokenOut)
      |>.seq (makes_word r.amountIn)).seq (makes_word r.amountOutMin)).seq (makes_default (bytes_text r.extraData)))

end SwapRoute

namespace FeeOverridesRequest

theorem makes (f : FeeOverridesRequest) : record.Makes f.members f :=
  ((makes_uint64? f.baseFeeMultiplier).map FeeOverridesRequest.mk).seq
    (makes_optional float_real (fun _ => Json.noConfusion) f.gasLimitMultiplier)

end FeeOverridesRequest

namespace WorkRequest

/-- The members that an execution has beside those of every request. -/
def tradeMembers (t : Trade) : Members :=
  [("tokenIn", .ofAddress t.tokenIn), ("tokenOut", .ofAddress t.tokenOut),
   ("remainingAmountIn", .ofWord t.remainingAmountIn), ("routes", .arr (t.routes.map fun r => .obj r.members)),
   ("amountIn", Json.option Json.ofWord t.amountIn), ("amountOutMin", .ofWord t.amountOutMin),
   ("amountOutExpected", .ofWord t.amountOutExpected)]

theorem makes_orderMember (o : OrderRequest) : orderMember.Makes [("order", .obj o.members)] o :=
  makes_required o.decode_members

theorem makes_modeMember (m : Option Mode) : modeMember.Makes [("mode", Json.option Mode.toJson m)] m :=
  makes_optional Mode.ofTaggedJson_toJson (fun _ => Json.noConfusion) m

theorem makes_execute (o : OrderRequest) (t : Trade) (m : Option Mode) :
    executeRecord.Makes (("order", .obj o.members) :: tradeMembers t ++ [("mode", Json.option Mode.toJson m)])
      (o, t, m) :=
  ((((((((makes_orderMember o).map _).seq (makes_address t.tokenIn)).seq (makes_address t.tokenOut)).seq
    (makes_default (word_ofWord t.remainingAmountIn))).seq (makes_default (list_map SwapRoute.decode_members t.routes))).seq
    (makes_word? t.amountIn)).seq (makes_default (word_ofWord t.amountOutMin))).seq
    (makes_default (word_ofWord t.amountOutExpected)) |>.seq (makes_modeMember m)

theorem makes_cancel (o : OrderRequest) (m : Option Mode) :
    cancelRecord.Makes (("order", .obj o.members) :: [("mode", Json.option Mode.toJson m)]) (o, m) :=
  ((makes_orderMember o).map Prod.mk).seq (makes_modeMember m)

/-! ## Requests -/

section Members

variable (target : TargetRequest) (own : Members) (fees : FeeOverridesRequest) (mode : Option Mode)

/-- The members of a request beside its kind: its own, its mode last, with those of its target and of its pricing around
them. -/
def membersAround : Members := target.members ++ own ++ fees.members ++ [("mode", Json.option Mode.toJson mode)]

/-- Each of the three records of a request finds its members. -/
theorem reads_around {α : Type} {r : Record α} {a : α} (h : r.Makes (own ++ [("mode", Json.option Mode.toJson mode)]) a)
    (hnodup : ((membersAround target own fees mode).map Prod.fst).Nodup) :
    r.ofMembers (membersAround target own fees mode) = .ok a ∧
      TargetRequest.record.ofMembers (membersAround target own fees mode) = .ok target ∧
      FeeOverridesRequest.record.ofMembers (membersAround target own fees mode) = .ok fees := by
  have hhead : target.members.Sublist (target.members ++ own) := List.sublist_append_left _ _
  have hown : own.Sublist (target.members ++ own ++ fees.members) :=
    (List.sublist_append_right _ _).trans (List.sublist_append_left _ _)
  have hfees : fees.members.Sublist (target.members ++ own ++ fees.members) := List.sublist_append_right _ _
  refine ⟨h.ofMembers_of_sublist (hown.append (.refl _)) hnodup, target.makes.ofMembers_of_sublist ?_ hnodup,
    fees.makes.ofMembers_of_sublist (hfees.trans (List.sublist_append_left _ _)) hnodup⟩
  exact (hhead.trans (List.sublist_append_left _ _)).trans (List.sublist_append_left _ _)

/-- The pricing can be written if a multiplier that is no integer is recovered. -/
theorem written_fees {fees : FeeOverridesRequest} (h : ∀ x ∈ fees.gasLimitMultiplier, Recovered x) :
    ∀ m ∈ fees.members, Written d m.2 := by
  obtain ⟨baseFee, gasLimit⟩ := fees
  have hgas : Written d (Json.option Json.real gasLimit) := by
    cases gasLimit with
    | none => exact .null
    | some x => exact .real (writes_of_number? (h x rfl))
  simp [FeeOverridesRequest.members, hgas]

theorem written_around (hown : ∀ m ∈ own, Written d m.2) (hfees : ∀ x ∈ fees.gasLimitMultiplier, Recovered x) :
    ∀ m ∈ membersAround target own fees mode, Written d m.2 := by
  have htarget : ∀ m ∈ target.members, Written d m.2 := by simp [TargetRequest.members]
  have hmode : ∀ m ∈ [("mode", Json.option Mode.toJson mode)], Written d m.2 := by simp
  simp only [membersAround, List.forall_mem_append]
  exact ⟨⟨⟨htarget, hown⟩, written_fees hfees⟩, hmode⟩

end Members

section Kinds

variable (target : TargetRequest) (order : OrderRequest) (trade : Trade) (fees : FeeOverridesRequest) (mode : Option Mode)

theorem toJson_execute : toJson (.execute target order trade fees mode) =
    .tagged "type" "execute" (membersAround target (("order", .obj order.members) :: tradeMembers trade) fees mode) := rfl

theorem toJson_cancel : toJson (.cancel target order fees mode) =
    .tagged "type" "cancel" (membersAround target [("order", .obj order.members)] fees mode) := rfl

end Kinds

theorem lookup_execute : alternatives.lookup "execute" = some (.members readExecute) := rfl

theorem lookup_cancel : alternatives.lookup "cancel" = some (.members readCancel) := rfl

theorem ofJson_toJson (r : WorkRequest) : ofJson r.toJson = .ok r := by
  cases r with
  | execute target order trade fees mode =>
    let ms := membersAround target (("order", .obj order.members) :: tradeMembers trade) fees mode
    have hnodup : ("type" :: ms.map Prod.fst).Nodup := by
      simp [ms, membersAround, tradeMembers, TargetRequest.members, FeeOverridesRequest.members]
    obtain ⟨htag, hnames⟩ := List.nodup_cons.1 hnodup
    obtain ⟨hown, htarget, hfees⟩ := reads_around target _ fees mode (makes_execute order trade mode) hnames
    have hread : readExecute ms = .ok (.execute target order trade fees mode) := by
      simp only [ms, readExecute, hown, htarget, hfees]
      rfl
    rw [toJson_execute, ofJson, Alternatives.decode_tagged lookup_execute htag]
    exact hread
  | cancel target order fees mode =>
    let ms := membersAround target [("order", .obj order.members)] fees mode
    have hnodup : ("type" :: ms.map Prod.fst).Nodup := by
      simp [ms, membersAround, TargetRequest.members, FeeOverridesRequest.members]
    obtain ⟨htag, hnames⟩ := List.nodup_cons.1 hnodup
    obtain ⟨hown, htarget, hfees⟩ := reads_around target _ fees mode (makes_cancel order mode) hnames
    have hread : readCancel ms = .ok (.cancel target order fees mode) := by
      simp only [ms, readCancel, hown, htarget, hfees]
      rfl
    rw [toJson_cancel, ofJson, Alternatives.decode_tagged lookup_cancel htag]
    exact hread

theorem written_order (o : OrderRequest) : Written (d + 1) (.obj o.members) := by
  simp [OrderRequest.members]

theorem written_trade (t : Trade) : ∀ m ∈ tradeMembers t, Written (d + 2) m.2 := by
  have hroutes : Written (d + 2) (.arr (t.routes.map fun r => .obj r.members)) := by
    refine .arr fun x hx => ?_
    obtain ⟨r, -, rfl⟩ := List.mem_map.1 hx
    simp [SwapRoute.members]
  simp [tradeMembers, hroutes]

theorem written_toJson {r : WorkRequest} (h : ∀ x ∈ r.fees.gasLimitMultiplier, Recovered x) :
    Written (d + 3) r.toJson := by
  cases r with
  | execute target order trade fees mode =>
    rw [toJson_execute, written_tagged]
    exact written_around target _ fees mode (List.forall_mem_cons.2 ⟨written_order order, written_trade trade⟩) h
  | cancel target order fees mode =>
    rw [toJson_cancel, written_tagged]
    exact written_around target _ fees mode (List.forall_mem_singleton.2 (written_order order)) h

end WorkRequest

namespace WorkItem

/-- **A request is read back from its line**, so that the line gives exactly what the request itself gives. -/
theorem readLine_compact (r : WorkRequest) (h : ∀ x ∈ r.fees.gasLimitMultiplier, Recovered x) :
    readLine r.toJson.compact = .ok r ∧ parse r.toJson.compact = ofRequest r := by
  have hreading : reading r.toJson.compact = .value r.toJson :=
    reading_of_parse? (parse?_compact (WorkRequest.written_toJson h))
  have hline : readLine r.toJson.compact = .ok r := by
    rw [readLine, hreading]
    exact r.ofJson_toJson
  refine ⟨hline, ?_⟩
  rw [parse, hline]

/-- An execution with a route, the largest word, bytes of its own and a multiplier that is no integer. -/
theorem readLine_compact_execute :
    let text := "0x00000000000000000000000000000000000000Aa"
    let r := WorkRequest.execute ⟨"mainnet", text, text⟩ ⟨1, some 0, some 2, some (BitVec.allOnes 256)⟩
      ⟨2, 3, 0, [⟨7, 2, 3, 5, 0, [0, 255]⟩], some (BitVec.allOnes 256), 1, 0⟩ ⟨none, some 1.5⟩ (some .simple)
    (∀ x ∈ r.fees.gasLimitMultiplier, Recovered x) ∧ readLine r.toJson.compact = .ok r ∧
      parse r.toJson.compact = ofRequest r := by
  have hmultiplier : Decimal.compact 1.5 = "1.5" := by decide +kernel
  have hrecovered : ∀ x ∈ some (1.5 : Float), Recovered x := by
    rintro x ⟨⟩
    rw [Recovered, hmultiplier]
    rfl
  exact ⟨hrecovered, readLine_compact _ hrecovered⟩

end WorkItem

end OrderKeeper
