import OrderKeeper.Proofs.Receipt.Judge
import OrderKeeper.Proofs.Submission.Narration

/-!
# From one station to the next

Whatever is answered to the question of a station, the submission goes on or is over (`passes_or_finishes`). `Passes`
has one row for each way to go on, and `Finishes` one for each answer of the ledger with which a submission is over; only
the signer ends it without one. Whatever is proved of all histories is proved by these rows (`visits_induction`,
`finished_of_visits`).
-/

namespace OrderKeeper.Submission

namespace Round

variable {r : Round} {hash h : Hash}

theorem mem_known : h ∈ r.known hash ↔ h = hash ∨ h ∈ r.hashes := by
  unfold known Escalation.addHash
  split
  · rename_i hm
    constructor
    · exact .inr
    · rintro (rfl | h)
      · exact hm
      · exact h
  · exact List.mem_cons

theorem known_ne_nil : r.known hash ≠ [] := by
  intro h
  have hm : hash ∈ r.known hash := mem_known.2 (.inl rfl)
  rw [h] at hm
  cases hm

end Round

/-- A broadcast that was plainly refused gives no hash. -/
theorem fault_of_judge {own : Hash} {attempt : UInt32} {a : Except Fault Hash} {e : KeeperError}
    (h : Broadcast.judge own attempt a = .error e) :
    ∃ f, a = .error f ∧ f.isPossiblySent = false ∧ e = .sendFailed attempt f.display f := by
  cases a with
  | ok hash => cases h
  | error f =>
    rw [Broadcast.judge] at h
    split at h
    · cases h
    · rename_i hf
      cases h
      exact ⟨f, rfl, by simpa using hf, rfl⟩

namespace Station

/-- The answers with which a submission goes on, and its next station. -/
inductive Passes (b : Brief) : Station → (q : Question) → q.Answer → Station → Prop where
  | check {a} : Upkeep.judge b.item.target.contract b.chain.chainId a = .ok true →
      Passes b outset (.ledger (.call (Upkeep.request b.item.target.contract b.item.target.keeper b.item.payload))) a
        cleared
  | lease {n} : Passes b cleared (.lease b.item.target.keeper) (.ok n) (leased n)
  | baseFee {n base} : b.isAdaptive = true → Passes b (leased n) (.ledger .baseFee) (.ok base) (based n base)
  | plainFee {n base} : b.isAdaptive = false → Passes b (leased n) (.ledger .baseFee) (.ok (some base))
      (quoting n Fee.minTip (Fee.minTip.satAdd (base.satMul 2)) false)
  | gasPrice {n price} : Passes b (based n none) (.ledger .gasPrice) (.ok price) (quoting n 0 price true)
  | priorityFee {n base tip} : Passes b (based n (some base)) (.ledger .priorityFee) (.ok tip)
      (quoting n tip (tip.satAdd (base.satMul b.item.feeOverrides.baseFeeMultiplier.toNat)) false)
  | quoteOnce {n tip feeCap legacy gas} : b.mode = .simple →
      Passes b (quoting n tip feeCap legacy) (.ledger (.estimateGas ((b.plan n).subject.at tip feeCap legacy)))
        (.ok gas) (signing n ⟨tip, feeCap, Fee.scaledGas gas (b.plan n).subject.gasMultiplier, 1.0, 0, legacy⟩ none)
  | quoteFirst {n tip feeCap legacy gas} : b.mode = .optimized →
      Passes b (quoting n tip feeCap legacy) (.ledger (.estimateGas ((b.plan n).subject.at tip feeCap legacy)))
        (.ok gas) (requoting n (.first b.settings
          ⟨tip, feeCap, Fee.scaledGas gas (b.plan n).subject.gasMultiplier, 1.0, 0, legacy⟩))
  | requote {n r gas} :
      Passes b (requoting n r) (.ledger (.estimateGas ((b.plan n).subject.at r.tip r.feeCap r.last.offer.legacy)))
        (.ok gas) (signing n (r.offer (Fee.scaledGas gas (b.plan n).subject.gasMultiplier)) (some r))
  | sign {n offer round x} :
      Passes b (signing n offer round) (.sign (b.plan n).signing ((b.plan n).transaction offer)) (.ok x)
        (sending n offer round x)
  | sendOnce {n offer x a sent} : Broadcast.judge x.hash 1 a = .ok sent →
      Passes b (sending n offer none x) (.ledger (.send x)) a (watching n sent)
  | send {n offer r x a sent} : Broadcast.judge x.hash r.attempt a = .ok sent →
      Passes b (sending n offer (some r) x) (.ledger (.send x)) a (pausing n offer r sent.hash)
  | pause {n offer r hash looked others} : r.known hash = looked :: others →
      Passes b (pausing n offer r hash) (.pause b.settings.times.escalationWait) ()
        (looking n offer r hash looked others)
  | look {n offer r hash looked next others a} : Receipt.Undecided looked a →
      Passes b (looking n offer r hash looked (next :: others)) (.ledger (.receipt looked)) a
        (looking n offer r hash next others)
  | escalate {n offer r hash looked left a} : Receipt.Undecided looked a → r.left = left + 1 →
      Passes b (looking n offer r hash looked []) (.ledger (.receipt looked)) a
        (requoting n (r.next left offer hash))

/-- A look-up of a hash is under way, after some others: the nonce and the number of broadcasts that its receipt will be
reported with. -/
inductive Looking (b : Brief) : Station → List Event → Hash → UInt64 → UInt32 → Prop where
  | watching {n sent polls seen} : Looked ⟨sent.hash, b.settings.times.pollInterval, sent.bound⟩ polls seen →
      Looking b (watching n sent) seen sent.hash n 1
  | looking {n offer r hash looked others} : Looking b (looking n offer r hash looked others) [] looked n r.attempt

/-- With which answer of the ledger, after what was seen of its question before, a submission is over, and its
result. -/
inductive Finishes (b : Brief) :
    Station → List Event → (c : LedgerCall) → Except Fault c.Answer → Except KeeperError Outcome → Prop where
  | undeployed {a address chainId message function} :
      Upkeep.judge b.item.target.contract b.chain.chainId a =
        .error (.contract address chainId message (.noData function)) →
      Finishes b outset [] (.call (Upkeep.request b.item.target.contract b.item.target.keeper b.item.payload)) a
        (.error (.contractNotDeployed b.item.target.contract chainId))
  | unchecked {a f} : Upkeep.judge b.item.target.contract b.chain.chainId a = .error f →
      Finishes b outset [] (.call (Upkeep.request b.item.target.contract b.item.target.keeper b.item.payload)) a
        (.error (.upkeepCheckFailed b.item.target.contract f.display f))
  | nothing {a} : Upkeep.judge b.item.target.contract b.chain.chainId a = .ok false →
      Finishes b outset [] (.call (Upkeep.request b.item.target.contract b.item.target.keeper b.item.payload)) a
        (.ok .notExecutable)
  | unleased {f} :
      Finishes b cleared [.requested b.item.target.keeper] (.pendingNonce b.item.target.keeper) (.error f)
        (.error (.nonceLeaseFailed b.item.target.keeper f.display f))
  | noBaseFee {n f} : Finishes b (leased n) [] .baseFee (.error f) (.error (.feeDataUnavailable f.display f))
  | unsupported {n} : b.isAdaptive = false →
      Finishes b (leased n) [] .baseFee (.ok none) (.error (.dynamicFeesUnsupported b.chain.network))
  | noGasPrice {n f} : Finishes b (based n none) [] .gasPrice (.error f) (.error (.feeDataUnavailable f.display f))
  | noPriorityFee {n base f} :
      Finishes b (based n (some base)) [] .priorityFee (.error f) (.error (.feeDataUnavailable f.display f))
  | unquoted {n tip feeCap legacy f} :
      Finishes b (quoting n tip feeCap legacy) [] (.estimateGas ((b.plan n).subject.at tip feeCap legacy)) (.error f)
        (.error (.gasEstimationFailed b.item.target.contract f.display f))
  | unrequoted {n r f} :
      Finishes b (requoting n r) [] (.estimateGas ((b.plan n).subject.at r.tip r.feeCap r.last.offer.legacy)) (.error f)
        (.error (.gasEstimationFailed b.item.target.contract f.display f))
  | unsent {n offer round x f} : f.isPossiblySent = false →
      Finishes b (sending n offer round x) [] (.send x) (.error f)
        (.error (.sendFailed (attemptOf round) f.display f))
  | found {s seen hash n attempts r} : Looking b s seen hash n attempts → r.status = true →
      (∃ number, r.blockNumber = some number ∧ 0 < number) →
      Finishes b s seen (.receipt hash) (.ok (some r)) (.ok (.ofReceipt r n attempts))
  | reverted {s seen hash n attempts r} : Looking b s seen hash n attempts → r.status = false →
      Finishes b s seen (.receipt hash) (.ok (some r))
        (.error (.reverted b.item.target.contract hash r.blockNumber))
  | unread {s seen hash n attempts f} : Looking b s seen hash n attempts →
      Finishes b s seen (.receipt hash) (.error f) (.error (.receiptQueryFailed hash f.display f))
  /-- The bound of a watch is used up. -/
  | unfound {n sent polls seen found} : Looked ⟨sent.hash, b.settings.times.pollInterval, sent.bound⟩ polls seen →
      Receipt.Undecided sent.hash (.ok found) → sent.bound.any (fun bound => bound.toNat ≤ polls + 1) = true →
      Finishes b (watching n sent) seen (.receipt sent.hash) (.ok found)
        (.error (.notFound b.item.target.contract sent.hash))
  /-- The budget of an escalation is used up. -/
  | spent {n offer r hash looked found} : Receipt.Undecided looked (.ok found) → r.left = 0 →
      Finishes b (looking n offer r hash looked []) [] (.receipt looked) (.ok found)
        (.error (.budgetExhausted b.item.target.contract b.settings.maxEscalations (some hash)))

section Answers

variable {b : Brief} {s : Station} {q : Question} {e : KeeperError} {f : q.Answer → Station} {a : q.Answer}
  {seen : List Event}

/-- A submission is over with the ledger's last answer. -/
def IsFinished (b : Brief) (s : Station) (q : Question) (a : q.Answer) (seen : List Event) (s' : Station) : Prop :=
  signed q a = [] ∧ ∃ before c x result, seen = before ++ exchange c x ∧ s' = ended result ∧
    Finishes b s before c x result

/-- A submission is over with what its signer answered. -/
def IsUnsigned (b : Brief) (s : Station) (q : Question) (a : q.Answer) (seen : List Event) (s' : Station) : Prop :=
  ∃ n offer round f, s = signing n offer round ∧ seen = [] ∧
    signed q a = [⟨(b.plan n).signing, (b.plan n).transaction offer, .error f⟩] ∧
      s' = ended (.error (.signingFailed f.display f))

/-- What a look-up that does not settle its hash makes of a submission. -/
theorem finishes_of_judge {hash : Hash} {n : UInt64} {attempts : UInt32} {x : Except Fault (Option Receipt)}
    {e : WaitFailure} (hl : Looking b s seen hash n attempts) (hj : Receipt.judge hash x = .error e) :
    Finishes b s seen (.receipt hash) x (.error (.ofWaitFailure b.item.target.contract e)) := by
  rcases Receipt.judge_eq_error hj with ⟨f, rfl, rfl⟩ | ⟨r, rfl, hstatus, rfl⟩
  · exact .unread hl
  · exact .reverted hl hstatus

theorem passes_or_finishes (hG : Goes b s q e f) (ht : Tells q a seen) :
    Passes b s q a (f a) ∨ IsUnsigned b s q a seen (f a) ∨ IsFinished b s q a seen (f a) := by
  cases hG with
  | check =>
    cases ht
    unfold onCheck
    split
    · rename_i f hj
      refine .inr (.inr ⟨rfl, [], _, a, _, rfl, rfl, ?_⟩)
      unfold KeeperError.ofUpkeepFault
      split
      · exact .undeployed hj
      · exact .unchecked hj
    · exact .inr (.inr ⟨rfl, [], _, a, _, rfl, rfl, .nothing ‹_›⟩)
    · exact .inl (.check ‹_›)
  | lease =>
    cases ht with
    | follow n | sync n => exact .inl .lease
    | refuse f => exact .inr (.inr ⟨rfl, [_], _, _, _, rfl, rfl, .unleased⟩)
  | baseFee =>
    cases ht
    cases a with
    | error f => exact .inr (.inr ⟨rfl, [], _, _, _, rfl, rfl, .noBaseFee⟩)
    | ok base =>
      change Passes b _ _ _ (onBase b _ base) ∨ IsUnsigned b _ _ _ _ (onBase b _ base) ∨
        IsFinished b _ _ _ _ (onBase b _ base)
      unfold onBase
      split
      · exact .inl (.baseFee ‹_›)
      · rename_i ha
        have ha : b.isAdaptive = false := by simpa using ha
        split
        · exact .inr (.inr ⟨rfl, [], _, _, _, rfl, rfl, .unsupported ha⟩)
        · exact .inl (.plainFee ha)
  | gasPrice =>
    cases ht
    cases a with
    | error f => exact .inr (.inr ⟨rfl, [], _, _, _, rfl, rfl, .noGasPrice⟩)
    | ok price => exact .inl .gasPrice
  | priorityFee =>
    cases ht
    cases a with
    | error f => exact .inr (.inr ⟨rfl, [], _, _, _, rfl, rfl, .noPriorityFee⟩)
    | ok tip => exact .inl .priorityFee
  | quote =>
    cases ht
    cases a with
    | error f => exact .inr (.inr ⟨rfl, [], _, _, _, rfl, rfl, .unquoted⟩)
    | ok gas =>
      left
      change Passes b _ _ _ (priced b _ _)
      unfold priced
      split
      · exact .quoteOnce ‹_›
      · exact .quoteFirst ‹_›
  | requote =>
    cases ht
    cases a with
    | error f => exact .inr (.inr ⟨rfl, [], _, _, _, rfl, rfl, .unrequoted⟩)
    | ok gas => exact .inl .requote
  | sign =>
    cases ht
    cases a with
    | error f => exact .inr (.inl ⟨_, _, _, f, rfl, rfl, rfl, rfl⟩)
    | ok x => exact .inl .sign
  | @send n offer round x =>
    cases ht
    unfold onSend
    split
    · rename_i ha
      obtain ⟨f, rfl, hf, rfl⟩ := fault_of_judge ha
      exact .inr (.inr ⟨rfl, [], _, _, _, rfl, rfl, .unsent hf⟩)
    · rename_i ha
      cases round with
      | none => exact .inl (.sendOnce ha)
      | some r => exact .inl (.send ha)
  | @watch n sent =>
    cases ht with
    | watch hlooked ha =>
      rcases Watch.cases_of_ended ha with ⟨e, hj, rfl⟩ | ⟨x, hj, rfl⟩ | ⟨hu, hspent, rfl⟩
      · exact .inr (.inr ⟨rfl, _, _, _, _, rfl, rfl, finishes_of_judge (.watching hlooked) hj⟩)
      · obtain ⟨rfl, hstatus, hblock⟩ := Receipt.judge_eq_some hj
        exact .inr (.inr ⟨rfl, _, _, _, _, rfl, rfl, .found (.watching hlooked) hstatus hblock⟩)
      · obtain ⟨found, rfl⟩ := hu.exists_ok
        exact .inr (.inr ⟨rfl, _, _, _, _, rfl, rfl, .unfound hlooked hu hspent⟩)
  | @pause n offer r hash =>
    left
    cases hk : r.known hash with
    | nil => exact absurd hk Round.known_ne_nil
    | cons looked others => exact .pause hk
  | @look n offer r hash looked others =>
    cases ht
    unfold onLook
    split
    · rename_i hj
      exact .inr (.inr ⟨rfl, [], _, a, _, rfl, rfl, finishes_of_judge .looking hj⟩)
    · rename_i hj
      obtain ⟨rfl, hstatus, hblock⟩ := Receipt.judge_eq_some hj
      exact .inr (.inr ⟨rfl, [], _, _, _, rfl, rfl, .found .looking hstatus hblock⟩)
    · rename_i hj
      have hu := Receipt.undecided_iff.2 hj
      cases others with
      | cons next others => exact .inl (.look hu)
      | nil =>
        rw [afterLook]
        split
        · obtain ⟨found, rfl⟩ := hu.exists_ok
          exact .inr (.inr ⟨rfl, [], _, _, _, rfl, rfl, .spent hu ‹_›⟩)
        · exact .inl (.escalate hu ‹_›)

/-- A question is put before a submission is over. -/
theorem not_over_of_goes (hG : Goes b s q e f) (result : Except KeeperError Outcome) : s ≠ ended result := by
  intro h
  subst h
  cases hG

end Answers

/-! ## Histories, one station after the other -/

section Histories

variable {b : Brief} {log : List Event} {ss : List Signing} {s : Station} {result : Except KeeperError Outcome}

/-- What holds where a submission starts and passes from each station to the next holds until it is over. -/
theorem visits_induction {P : List Event → List Signing → Station → Prop} (start : P [] [] outset)
    (step : ∀ {log ss s q a s' seen}, P log ss s → Passes b s q a s' → Tells q a seen →
      P (log ++ seen) (ss ++ signed q a) s') (h : Visits b log ss s) (ho : ∀ r, s ≠ ended r) : P log ss s := by
  induction h with
  | start =>
    revert ho
    unfold Station.start
    split
    · exact fun ho => absurd rfl (ho _)
    · split
      · exact fun _ => start
      · exact fun ho => absurd rfl (ho _)
  | answer hv hG ht ih =>
    rcases passes_or_finishes hG ht with hp | ⟨n, offer, round, f, -, -, -, hr⟩ | ⟨-, before, c, x, result, -, hr, -⟩
    · exact step (ih (not_over_of_goes hG)) hp ht
    · exact absurd hr (ho _)
    · exact absurd hr (ho _)

/-- A submission that asks nothing does not know its network, or has no key. -/
theorem result_of_start (h : start b = ended result) :
    (∃ f, b.chainOf b.item.target.network = .error f ∧
      result = .error (.chainService b.item.target.network f.display)) ∨
    b.hasKey b.item.target.keeper = false ∧
      result = .error (.validation ("no signing key available for keeper " ++ b.item.target.keeper.display)) := by
  unfold start at h
  split at h
  · cases h
    exact .inl ⟨_, ‹_›, rfl⟩
  · split at h
    · cases h
    · rename_i hkey
      cases h
      exact .inr ⟨by simpa using hkey, rfl⟩

/-- A submission is over. -/
inductive Finished (b : Brief) : List Event → List Signing → Except KeeperError Outcome → Prop where
  /-- It has asked nothing. -/
  | unbegun {r} : start b = ended r → Finished b [] [] r
  /-- Its signer has signed nothing. -/
  | unsigned {log ss n offer round f} : Visits b log ss (signing n offer round) →
      Finished b log (ss ++ [⟨(b.plan n).signing, (b.plan n).transaction offer, .error f⟩])
        (.error (.signingFailed f.display f))
  /-- Its ledger has given its last answer. -/
  | replied {log ss s before c x r} : Visits b log ss s → (∀ r, s ≠ ended r) → Finishes b s before c x r →
      Finished b (log ++ (before ++ exchange c x)) ss r

theorem finished_of_visits (h : Visits b log ss (ended result)) : Finished b log ss result := by
  generalize hs : ended result = s at h
  cases h with
  | start => exact .unbegun hs.symm
  | answer hv hG ht =>
    rcases passes_or_finishes hG ht with
      hp | ⟨n, offer, round, f, rfl, rfl, hsigned, hr⟩ | ⟨hsigned, before, c, x, result', rfl, hr, hF⟩
    · rw [← hs] at hp
      cases hp
    · rw [← hs] at hr
      cases hr
      rw [hsigned, List.append_nil]
      exact .unsigned hv
    · rw [← hs] at hr
      cases hr
      rw [hsigned, List.append_nil]
      exact .replied hv (not_over_of_goes hG) hF

end Histories

end Station

end OrderKeeper.Submission
