import OrderKeeper.Proofs.Json.Legible
import OrderKeeper.Proofs.Json.Scalar
import OrderKeeper.Proofs.Json.Steady
import OrderKeeper.Proofs.WorkItem.Checks
import OrderKeeper.WorkItem.Parse

/-!
# Lines with other members

A line that is a work item stays that work item when the members of its objects are put in another order and when members
that nobody asks for are added; with a member that is known and there twice, it is none (`parse_of_edits`).

A `shape` says which names a request, its order and its routes know. Their records are steady, member by member, so that a
request is read the same after each edit (`ofJson_of_edits`) and refused with a member that repeats
(`ofJson_ne_of_repeats`); its kind may stand anywhere among the members, but once.
-/

namespace OrderKeeper

open Json
open Json.Record (steady_member rigidElements_member)

/-! ## Orders and routes -/

namespace OrderRequest

/-- The names that an order knows. -/
def names : List String := ["account", "index", "orderType", "executeFee"]

def shape : Shape := .object names fun _ => .any

theorem steady_decode : Steady shape record.decode := by
  have hsteady : record.Steady fun _ => .any :=
    ((((steady_member rigid_address.steady).map _).seq (steady_member rigid_word.optional.steady)).seq
      (steady_member rigid_word.optional.steady)).seq (steady_member rigid_word.optional.steady)
  have hrigid : record.RigidElements :=
    ((((rigidElements_member rigid_address).map _).seq (rigidElements_member rigid_word.optional)).seq
      (rigidElements_member rigid_word.optional)).seq (rigidElements_member rigid_word.optional)
  exact Record.steady_decode hsteady hrigid (fun _ => .rfl) fun _ _ => rfl

end OrderRequest

namespace SwapRoute

/-- The names that a route knows. -/
def names : List String := ["dexId", "tokenIn", "tokenOut", "amountIn", "amountOutMin", "extraData"]

def shape : Shape := .object names fun _ => .any

theorem steady_decode : Steady shape record.decode := by
  have hsteady : record.Steady fun _ => .any :=
    ((((((steady_member rigid_uint8.steady).map _).seq (steady_member rigid_address.steady)).seq
      (steady_member rigid_address.steady)).seq (steady_member rigid_word.steady)).seq
      (steady_member rigid_word.steady)).seq (steady_member rigid_bytes.steady)
  have hrigid : record.RigidElements :=
    ((((((rigidElements_member rigid_uint8).map _).seq (rigidElements_member rigid_address)).seq
      (rigidElements_member rigid_address)).seq (rigidElements_member rigid_word)).seq
      (rigidElements_member rigid_word)).seq (rigidElements_member rigid_bytes)
  exact Record.steady_decode hsteady hrigid (fun _ => .rfl) fun _ _ => rfl

end SwapRoute

namespace WorkRequest

/-! ## Requests -/

/-- The names that every request knows beside its kind. -/
def sharedNames : List String :=
  ["order", "mode", "network", "contractAddress", "keeperAddress", "basefeeMultiplier", "gasLimitMultiplier"]

/-- The names that an execution knows beside these. -/
def tradeNames : List String :=
  ["tokenIn", "tokenOut", "remainingAmountIn", "routes", "amountIn", "amountOutMin", "amountOutExpected"]

/-- What is known of a member of a request. -/
def memberShape : Action → String → Shape
  | _, "order" => OrderRequest.shape
  | .execute, "routes" => .list SwapRoute.shape
  | _, _ => .any

/-- The names that a request knows beside its kind. -/
def knownNames : Action → List String
  | .execute => sharedNames ++ tradeNames
  | .cancel => sharedNames

/-- What is known of a request. -/
def shape (action : Action) : Shape := .object ("type" :: knownNames action) (memberShape action)

theorem steady_executeRecord : executeRecord.Steady (memberShape .execute) :=
  (((((((((steady_member OrderRequest.steady_decode).map _).seq (steady_member rigid_address.steady)).seq
    (steady_member rigid_address.steady)).seq (steady_member rigid_word.steady)).seq
    (steady_member SwapRoute.steady_decode.list)).seq (steady_member rigid_word.optional.steady)).seq
    (steady_member rigid_word.steady)).seq (steady_member rigid_word.steady)).seq
    (steady_member rigid_name.optional.steady)

theorem steady_cancelRecord : cancelRecord.Steady (memberShape .cancel) :=
  ((steady_member OrderRequest.steady_decode).map _).seq (steady_member rigid_name.optional.steady)

theorem steady_target (action : Action) : TargetRequest.record.Steady (memberShape action) := by
  cases action <;> exact
    (((steady_member rigid_string.steady).map _).seq (steady_member rigid_string.steady)).seq
      (steady_member rigid_string.steady)

theorem steady_fees (action : Action) : FeeOverridesRequest.record.Steady (memberShape action) := by
  cases action <;> exact
    ((steady_member rigid_uint64.optional.steady).map _).seq (steady_member rigid_float.optional.steady)

/-- An execution is what three records make of its members. -/
theorem readExecute_eq : readExecute = fun ms =>
    (both (both executeRecord.ofMembers TargetRequest.record.ofMembers) FeeOverridesRequest.record.ofMembers ms).map
      fun ((own, target), fees) => .execute target own.1 own.2.1 fees own.2.2 := by
  funext ms
  rw [readExecute, both, both]
  cases executeRecord.ofMembers ms <;> cases TargetRequest.record.ofMembers ms <;>
    cases FeeOverridesRequest.record.ofMembers ms <;> rfl

theorem readCancel_eq : readCancel = fun ms =>
    (both (both cancelRecord.ofMembers TargetRequest.record.ofMembers) FeeOverridesRequest.record.ofMembers ms).map
      fun ((own, target), fees) => .cancel target own.1 fees own.2 := by
  funext ms
  rw [readCancel, both, both]
  cases cancelRecord.ofMembers ms <;> cases TargetRequest.record.ofMembers ms <;>
    cases FeeOverridesRequest.record.ofMembers ms <;> rfl

/-- How the members beside the kind are read. -/
def reader : Action → Members → Except Mismatch WorkRequest
  | .execute => readExecute
  | .cancel => readCancel

theorem steady_reader (action : Action) :
    SteadyMembers ("type" :: knownNames action) (knownNames action) (memberShape action) (reader action) := by
  have htarget : ∀ name ∈ TargetRequest.record.names, name ∈ "type" :: knownNames action := by
    cases action <;> decide
  have hfees : ∀ name ∈ FeeOverridesRequest.record.names, name ∈ "type" :: knownNames action := by
    cases action <;> decide
  cases action with
  | execute =>
    have hown : SteadyMembers ("type" :: knownNames .execute) _ _ executeRecord.ofMembers :=
      steady_executeRecord.members (by decide)
    have hboth := (hown.both ((steady_target _).members htarget)).both ((steady_fees _).members hfees)
    rw [reader, readExecute_eq]
    exact (hboth.map _).of_subset (by decide)
  | cancel =>
    have hown : SteadyMembers ("type" :: knownNames .cancel) _ _ cancelRecord.ofMembers :=
      steady_cancelRecord.members (by decide)
    have hboth := (hown.both ((steady_target _).members htarget)).both ((steady_fees _).members hfees)
    rw [reader, readCancel_eq]
    exact (hboth.map _).of_subset (by decide)

theorem select_name (action : Action) : alternatives.select (.str action.name) = .ok (.members (reader action)) := by
  cases action <;> rfl

/-- A kind is the name of an action, which tells how the other members are read. -/
theorem exists_action_of_select {v : Json} {c : Content WorkRequest} (h : alternatives.select v = .ok c) :
    ∃ action : Action, v = .str action.name ∧ c = .members (reader action) := by
  cases v with
  | null | bool | int | real | arr | obj => cases h
  | str s =>
    by_cases hexecute : s = "execute"
    · subst hexecute
      cases h
      exact ⟨.execute, rfl, rfl⟩
    · by_cases hcancel : s = "cancel"
      · subst hcancel
        cases h
        exact ⟨.cancel, rfl, rfl⟩
      · have hlookup : alternatives.lookup s = none := by
          simp [alternatives, List.lookup_cons, beq_eq_false_iff_ne.2 hexecute, beq_eq_false_iff_ne.2 hcancel]
        rw [Alternatives.select, hlookup] at h
        cases h

theorem action_of_reader {action : Action} {ms : Members} {r : WorkRequest} (h : reader action ms = .ok r) :
    r.action = action := by
  cases action with
  | execute =>
    rw [reader, readExecute_eq] at h
    obtain ⟨_, -, rfl⟩ := map_eq_ok.1 h
    rfl
  | cancel =>
    rw [reader, readCancel_eq] at h
    obtain ⟨_, -, rfl⟩ := map_eq_ok.1 h
    rfl

/-- What is accepted as a request is an object with one member for its kind. -/
theorem tag_of_ofJson {v : Json} {r : WorkRequest} (h : ofJson v = .ok r) :
    ∃ ms, v = .obj ms ∧ ms.filter (·.1 == "type") = [("type", .str r.action.name)] := by
  cases v with
  | null | bool | int | real | str => cases h
  | arr xs =>
    cases xs with
    | nil => cases h
    | cons x xs =>
      obtain ⟨c, hc, hread⟩ := bind_eq_ok.1 h
      obtain ⟨action, -, rfl⟩ := exists_action_of_select hc
      cases hread
  | obj ms =>
    obtain ⟨v, c, hv, hc, hread⟩ := Alternatives.ofMembers_eq_ok.1 h
    obtain ⟨action, rfl, rfl⟩ := exists_action_of_select hc
    rw [action_of_reader hread]
    exact ⟨ms, rfl, hv⟩

/-! ## Edits of requests -/

theorem ofJson_of_edits {v v' : Json} {r : WorkRequest} (h : ofJson v = .ok r) (he : Edits (shape r.action) v v') :
    ofJson v' = .ok r := by
  obtain ⟨ms, rfl, htag⟩ := tag_of_ofJson h
  obtain ⟨ms', rfl⟩ := he.exists_obj
  exact Alternatives.ofMembers_of_edits (select_name _) (steady_reader _) List.mem_cons_self htag h he

theorem ofJson_of_reflTransGen {v v' : Json} {r : WorkRequest} (h : ofJson v = .ok r)
    (he : Relation.ReflTransGen (Edits (shape r.action)) v v') : ofJson v' = .ok r := by
  induction he with
  | refl => exact h
  | tail _ he ih => exact ofJson_of_edits ih he

theorem memberShape_eq_any (action : Action) {name : String} (h : name ∉ knownNames action) :
    memberShape action name = .any := by
  have horder : name ≠ "order" := by
    rintro rfl
    cases action <;> exact h (by decide)
  cases action with
  | cancel => simp [memberShape]
  | execute =>
    have hroutes : name ≠ "routes" := by
      rintro rfl
      exact h (by decide)
    simp [memberShape, hroutes]

theorem ofJson_ne_of_repeats {v v' : Json} {r r' : WorkRequest} (h : ofJson v = .ok r)
    (hr : Repeats (shape r.action) v v') : ofJson v' ≠ .ok r' := by
  obtain ⟨ms, rfl, htag⟩ := tag_of_ofJson h
  obtain ⟨ms', rfl⟩ := hr.exists_obj
  exact Alternatives.ofMembers_ne_of_repeats (select_name _) (steady_reader _) (fun _ => List.mem_cons.1)
    (fun _ => memberShape_eq_any _) htag h hr

end WorkRequest

/-! ## Lines -/

namespace WorkItem

theorem readLine_eq_ok {line : String} {r : WorkRequest} :
    readLine line = .ok r ↔ ∃ v, parse? line = some v ∧ WorkRequest.ofJson v = .ok r := by
  unfold readLine parse?
  cases reading line with
  | value v => simp
  | incomplete => simp
  | followed v => cases h : WorkRequest.ofJson v <;> simp [h]

theorem parse_eq_ok {line : String} {w : WorkItem} :
    parse line = .ok w ↔ ∃ r, readLine line = .ok r ∧ ofRequest r = .ok w := by
  unfold parse
  cases readLine line <;> simp

theorem action_of_ofRequest {r : WorkRequest} {w : WorkItem} (h : ofRequest r = .ok w) : w.action = r.action := by
  rcases ofRequest_decided r with ⟨_, c, _, -, -, -, herror⟩ | ⟨-, w', hw', hcarries⟩
  · rw [herror] at h
    cases h
  · rw [hw'] at h
    cases h
    exact hcarries.action

/-- A line that is no request is refused with an error of validation. -/
theorem exists_validation {line : String} (h : ∀ r, readLine line ≠ .ok r) :
    ∃ message, parse line = .error (.validation message) := by
  unfold parse
  cases hread : readLine line with
  | error m => exact ⟨_, rfl⟩
  | ok r => exact absurd hread (h r)

/-- **The members of a line.** A line that is a work item writes a value, and so does every line whose value is got from
this one by edits, as long as that nests no deeper than the reader allows. All these lines are the same work item; but a
line whose value has one more member of a name that is known and already there is refused with an error of validation. -/
theorem parse_of_edits {line : String} {w : WorkItem} (h : parse line = .ok w) :
    ∃ v, parse? line = some v ∧ ∀ v', Relation.ReflTransGen (Edits (WorkRequest.shape w.action)) v v' →
      ((∃ line', parse? line' = some v') ↔ Nests Builder.maxDepth v') ∧
      (∀ line', parse? line' = some v' → parse line' = .ok w) ∧
      ∀ v'' line', Repeats (WorkRequest.shape w.action) v' v'' → parse? line' = some v'' →
        ∃ message, parse line' = .error (.validation message) := by
  obtain ⟨r, hread, hw⟩ := parse_eq_ok.1 h
  obtain ⟨v, hv, hr⟩ := readLine_eq_ok.1 hread
  rw [action_of_ofRequest hw]
  refine ⟨v, hv, fun v' hedits => ?_⟩
  have hlegible : Legible v' := (exists_parse?_iff.1 ⟨line, hv⟩).1.of_reflTransGen hedits
  have hr' : WorkRequest.ofJson v' = .ok r := WorkRequest.ofJson_of_reflTransGen hr hedits
  refine ⟨exists_parse?_iff.trans (and_iff_right hlegible), fun line' hline' => ?_, fun v'' line' hrepeats hline' => ?_⟩
  · exact parse_eq_ok.2 ⟨r, readLine_eq_ok.2 ⟨v', hline', hr'⟩, hw⟩
  · refine exists_validation fun r' hread' => ?_
    obtain ⟨_, hv'', hr''⟩ := readLine_eq_ok.1 hread'
    rw [hline'] at hv''
    cases hv''
    exact WorkRequest.ofJson_ne_of_repeats hr' hrepeats hr''

namespace Sample

/-- A cancellation of an order of account 2 by keeper 7. -/
def request : WorkRequest :=
  .cancel ⟨"test", "0x0000000000000000000000000000000000000001", "0x0000000000000000000000000000000000000007"⟩
    ⟨2, some 0, some 0, none⟩ ⟨none, none⟩ none

def order : Members :=
  [("account", .str "0x0000000000000000000000000000000000000002"), ("index", .str "0x0"), ("orderType", .str "0x0")]

/-- The members of the cancellation, its order last. -/
def cancellation (order : Members) : Members :=
  [("type", .str "cancel"), ("network", .str "test"),
   ("contractAddress", .str "0x0000000000000000000000000000000000000001"),
   ("keeperAddress", .str "0x0000000000000000000000000000000000000007"), ("order", .obj order)]

end Sample

/-- A cancellation in another order, with a note in its order, is the same cancellation; with a second kind it is none. -/
theorem parse_of_edits_of_cancellation :
    let plain := Sample.cancellation Sample.order
    let edited := (Sample.cancellation (("note", .str "old") :: Sample.order)).reverse
    ∃ w, parse (Json.obj plain).compact = .ok w ∧ parse (Json.obj edited).compact = .ok w ∧
      ∃ message, parse (Json.obj (("type", .str "cancel") :: edited)).compact = .error (.validation message) := by
  intro plain edited
  have hplain : parse? (Json.obj plain).compact = some (.obj plain) :=
    parse?_compact (show Written (125 + 2) _ by simp [plain, Sample.cancellation, Sample.order])
  have hedited : parse? (Json.obj edited).compact = some (.obj edited) :=
    parse?_compact (show Written (125 + 2) _ by simp [edited, Sample.cancellation, Sample.order])
  have hrepeated : parse? (Json.obj (("type", .str "cancel") :: edited)).compact =
      some (.obj (("type", .str "cancel") :: edited)) :=
    parse?_compact (show Written (125 + 2) _ by simp [edited, Sample.cancellation, Sample.order])
  have hread : WorkRequest.ofJson (.obj plain) = .ok Sample.request := rfl
  obtain ⟨w, hw⟩ : ∃ w, ofRequest Sample.request = .ok w := ⟨_, rfl⟩
  have hline : parse (Json.obj plain).compact = .ok w :=
    parse_eq_ok.2 ⟨_, readLine_eq_ok.2 ⟨_, hplain, hread⟩, hw⟩
  obtain ⟨v, hv, hall⟩ := parse_of_edits hline
  obtain rfl : v = .obj plain := Option.some.inj (hv.symm.trans hplain)
  rw [action_of_ofRequest hw] at hall
  have hnote : Edits OrderRequest.shape (.obj Sample.order) (.obj (("note", .str "old") :: Sample.order)) :=
    @Edits.add _ _ [] _ _ _ (by decide) ⟨_, parse?_compact (.str "old")⟩
  have hmember : Edits (WorkRequest.shape .cancel) (.obj plain) (.obj edited.reverse) :=
    @Edits.member _ (plain.take 4) [] "order" _ _ hnote
  have hreorder : Edits (WorkRequest.shape .cancel) (.obj edited.reverse) (.obj edited) :=
    .reorder (List.reverse_perm _)
  obtain ⟨-, hsame, hrefused⟩ := hall (.obj edited) (.tail (.single hmember) hreorder)
  have hkind : "type" ∈ edited.map Prod.fst := by decide
  exact ⟨w, hline, hsame _ hedited, hrefused _ _ (@Repeats.here _ _ [] _ _ _ List.mem_cons_self hkind) hrepeated⟩

end WorkItem

end OrderKeeper
