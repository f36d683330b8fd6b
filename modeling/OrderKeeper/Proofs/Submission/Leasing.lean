import OrderKeeper.Proofs.Nonce.Spread
import OrderKeeper.Proofs.Submission.Account

/-!
# The leases of submissions

Whatever any number of submissions do side by side (`leased_of_run`): each takes at most one lease, broadcasts under its
nonce alone and only while it is live, and gives it back once, however it ends. Two submissions that hold leases of one
account at the same time never broadcast the same nonce, and when all submissions are over, no lease is left.
-/

namespace OrderKeeper.Submission

open Nonce (Ticket Key Stage Allocator Transition)

/-! ## What the allocator has done for a floor -/

/-- The moves that have led to the allocator of a floor: no submission was issued two nonces of an account. -/
structure History (f : Floor) (past : List Nonce.Move) : Prop where
  run : Allocator.run? {} past = some f.allocator
  once : ∀ k, (Allocator.issuers {} k past).Nodup
  seen : ∀ k t, t ∈ Allocator.issuers {} k past →
    ∃ task, f.tasks.get? t = some task ∧ task.log.countP Event.isLeased ≠ 0

section History

variable {f g : Floor} {m : Floor.Move} {past : List Nonce.Move} {t : Ticket} {task : Task} {k : Key}

/-- What the allocator issues is seen by the submission to which it is issued. -/
theorem issued?_of_apply {a b : Allocator} {m : Nonce.Move} {n : UInt64} (h : a.apply m = some b)
    (hi : Transition.issued? ⟨a, m, b⟩ k = some n) : issued? (a.stage? m.ticket) (b.stage? m.ticket) = some n := by
  obtain ⟨j, stage, s', stage', hr, hs, rfl⟩ := Allocator.apply_cases h
  rw [Allocator.stage?_eq hr, Allocator.stage?_eq Allocator.request_put_self]
  unfold Transition.issued? at hi
  split at hi
  · rename_i hnone
    rw [Allocator.nonce?, hr] at hnone
    rw [Allocator.nonce?, Allocator.request_put_self] at hi
    obtain ⟨r, hr', hn⟩ := Option.bind_eq_some_iff.1 hi
    obtain ⟨st', rfl, rfl⟩ := Option.map_eq_some_iff.1 hr'
    by_cases hj : j = k
    · rw [Nonce.Request.nonce?, if_pos hj] at hn
      cases stage with
      | none => rw [issued?]; exact hn
      | some st =>
        change Nonce.Request.nonce? k ⟨j, st⟩ = none at hnone
        rw [Nonce.Request.nonce?, if_pos hj] at hnone
        rw [issued?, Option.bind_some, hnone]
        exact hn
    · rw [Nonce.Request.nonce?, if_neg hj] at hn
      cases hn
  · cases hi

/-- Of a submission on a sound floor, at most one lease was seen. -/
theorem Sound.leases_le_one (hf : Sound f) (ht : f.tasks.get? t = some task) : task.log.countP Event.isLeased ≤ 1 := by
  obtain ⟨τ, hτ, -⟩ := hf.accounts.task t task ht
  rw [leases_of_after rfl hτ]
  cases τ <;> simp [Tenure.nonce?]

theorem history_apply (hh : History f past) (hg : Sound g) (h : f.apply m = some g) : ∃ past, History g past := by
  have seen (k : Key) (t : Ticket) (ht : t ∈ Allocator.issuers {} k past) :
      ∃ task, g.tasks.get? t = some task ∧ task.log.countP Event.isLeased ≠ 0 := by
    obtain ⟨task, htask, hlog⟩ := hh.seen k t ht
    obtain ⟨task', seen, htask', -, hl⟩ := Floor.log_of_apply h htask
    refine ⟨task', htask', ?_⟩
    rw [hl, List.countP_append]
    omega
  rcases Floor.apply_cases h with ⟨b, -, -, rfl⟩ | ⟨task, turn, a, htask, -, ha, rfl⟩
  · exact ⟨past, hh.run, hh.once, seen⟩
  · cases hx : turn.step with
    | none =>
      rw [hx] at ha
      cases ha
      exact ⟨past, hh.run, hh.once, seen⟩
    | some x =>
      rw [hx] at ha
      have hrun : f.allocator.run? [⟨m.ticket, x⟩] = some a := Allocator.run?_cons.2 ⟨a, ha, rfl⟩
      have issuers (k : Key) : Allocator.issuers {} k (past ++ [⟨m.ticket, x⟩]) = Allocator.issuers {} k past ++
          ((Transition.issued? ⟨f.allocator, ⟨m.ticket, x⟩, a⟩ k).map fun _ => m.ticket).toList := by
        rw [Allocator.issuers_append hh.run, Allocator.issuers_singleton ha]
      -- a ticket that is issued a nonce now has seen no lease before, and sees one now
      have fresh {k : Key} {n : UInt64} (hi : Transition.issued? ⟨f.allocator, ⟨m.ticket, x⟩, a⟩ k = some n) :
          task.log.countP Event.isLeased = 0 ∧ ∃ task',
            (f.record m.ticket task turn a).tasks.get? m.ticket = some task' ∧
              task'.log.countP Event.isLeased ≠ 0 := by
        have hcount := hg.leases_le_one (Floor.task_record f m.ticket task turn a)
        refine ⟨?_, _, Floor.task_record .., ?_⟩ <;>
          simp only [List.countP_append, issued?_of_apply ha hi] at hcount ⊢ <;>
          simp only [Option.toList_some, List.map_cons, List.map_nil, List.countP_singleton, Event.isLeased,
            if_true] at hcount ⊢ <;>
          omega
      refine ⟨past ++ [⟨m.ticket, x⟩], (Allocator.run?_append hh.run).trans hrun, fun k => ?_, fun k u hu => ?_⟩
      · rw [issuers]
        cases hi : Transition.issued? ⟨f.allocator, ⟨m.ticket, x⟩, a⟩ k with
        | none => rw [Option.map_none, Option.toList_none, List.append_nil]; exact hh.once k
        | some n =>
          refine List.nodup_append.2 ⟨hh.once k, List.nodup_cons.2 ⟨List.not_mem_nil, List.nodup_nil⟩, ?_⟩
          intro u hu v hv huv
          rw [huv, List.mem_singleton.1 hv] at hu
          obtain ⟨task₀, ht₀, hlog⟩ := hh.seen k _ hu
          rw [htask] at ht₀
          cases ht₀
          exact hlog (fresh hi).1
      · rw [issuers] at hu
        rcases List.mem_append.1 hu with hu | hu
        · exact seen k u hu
        · obtain ⟨n, hi, rfl⟩ := Option.map_eq_some_iff.1 (Option.mem_toList.1 hu)
          exact (fresh hi).2

/-- Some history has led to every state that a floor can get to. -/
theorem history_of_run {ms : List Floor.Move} (h : Floor.run? {} ms = some f) : ∃ past, History f past := by
  refine (Floor.run_induction (P := fun f => Sound f ∧ ∃ past, History f past)
    (fun hf h => ?_) ⟨sound_empty, [], ?_⟩ h).2
  · obtain ⟨hs, past, hh⟩ := hf
    exact ⟨sound_apply hs h, history_apply hh (sound_apply hs h) h⟩
  · exact ⟨rfl, fun _ => List.nodup_nil, fun _ _ hm => by cases hm⟩

end History

/-! ## Leases side by side -/

/-- What is true of the lease of a submission in a state `f`. -/
structure Leasing (f : Floor) (t : Ticket) (task : Task) : Prop where
  /-- It takes at most one lease. -/
  once : task.log.countP Event.isLeased ≤ 1
  /-- What it hands to its node carries the nonce of its lease, which is live before and after. -/
  sends : ∀ act g task' seen x, f.apply ⟨t, act⟩ = some g → g.tasks.get? t = some task' →
    task'.log = task.log ++ seen → .called (.send x) ∈ seen →
    f.allocator.requests.get? t = some ⟨task.brief.key, .leased x.transaction.nonce⟩ ∧ g.allocator = f.allocator
  /-- The lease is not released before the submission has ended. -/
  kept : task.standing.isOver = false → task.log.countP Event.isReleased = 0
  /-- However it has ended, it can be closed. -/
  closes : ∀ e, task.standing = .closing e →
    ∃ g task', f.apply ⟨t, .close⟩ = some g ∧ g.tasks.get? t = some task' ∧ task'.standing = .ended e
  /-- When it is over, every lease that it took has been released once, and it stands for nothing any more. -/
  released : task.standing.isOver = true →
    task.log.countP Event.isReleased = task.log.countP Event.isLeased ∧ f.allocator.requests.get? t = none

/-- What is true of all leases in a state `f`. -/
structure Leased (f : Floor) : Prop where
  each : ∀ t task, f.tasks.get? t = some task → Leasing f t task
  /-- Two submissions with leases of one account at the same time never broadcast the same nonce, before or after, as
  long as fewer submissions were begun than there are nonces. -/
  apart : f.tasks.length < UInt64.size → ∀ k t u n n', t ≠ u → f.allocator.nonce? k t = some n →
    f.allocator.nonce? k u = some n' → n ≠ n' ∧
      ∀ ms g taskt tasku, f.run? ms = some g → g.tasks.get? t = some taskt → g.tasks.get? u = some tasku →
        ∀ x y, .called (.send x) ∈ taskt.log → .called (.send y) ∈ tasku.log →
          x.transaction.nonce ≠ y.transaction.nonce
  /-- When all submissions are over, no lease is left. -/
  idle : (∀ t task, f.tasks.get? t = some task → task.standing.isOver = true) →
    ∀ k, (f.allocator.slot k).activeLeases = 0

section Leased

variable {f g : Floor} {t : Ticket} {task : Task} {k : Key}

/-- What is live of a request that can let go is a lease. -/
theorem leased_of_nonce? {stage : Option Stage} {n : UInt64} (hg : canLetGo stage = true)
    (hn : stage.bind Stage.nonce? = some n) : stage = some (.leased n) := by
  cases stage with
  | none => cases hn
  | some st =>
    cases st with
    | leased m => cases hn; rfl
    | settled m => cases hg
    | arriving | waiting | admitted | querying | answered => cases hn

theorem Sound.sends (hf : Sound f) (ht : f.tasks.get? t = some task) {act : Act} {task' : Task} {seen : List Event}
    {x : SignedTransaction} (h : f.apply ⟨t, act⟩ = some g) (ht' : g.tasks.get? t = some task')
    (hlog : task'.log = task.log ++ seen) (hx : .called (.send x) ∈ seen) :
    f.allocator.requests.get? t = some ⟨task.brief.key, .leased x.transaction.nonce⟩ ∧ g.allocator = f.allocator := by
  obtain ⟨τ, hτ, hacc⟩ := hf.accounts.task t task ht
  obtain ⟨τ', hτ', -⟩ := (sound_apply hf h).accounts.task t task' ht'
  rcases Floor.apply_cases h with ⟨b, hnone, -, -⟩ | ⟨task₀, turn, a, ht₀, hT, ha, rfl⟩
  · rw [ht] at hnone
    cases hnone
  · rw [ht] at ht₀
    cases ht₀
    rw [Floor.task_record] at ht'
    cases ht'
    obtain rfl := List.append_cancel_left hlog
    rw [Law.after_append, hτ] at hτ'
    -- a broadcast is seen only where a call is put, which leaves the allocator alone
    have hevent : turn.event = some (.called (.send x)) := by
      rcases List.mem_append.1 hx with hx | hx
      · exact Option.mem_toList.1 hx
      · obtain ⟨n, -, hn⟩ := List.mem_map.1 hx
        cases hn
    generalize turn.event = event at hT hevent hτ'
    generalize turn.step = step at hT ha
    generalize turn.standing = st' at hT
    generalize hstanding : task.standing = st at hT
    generalize f.allocator.stage? t = stage at hT
    cases hevent
    cases hT with
    | call =>
      cases ha
      obtain ⟨τ₁, h₁, -⟩ := Law.after_cons.1 hτ'
      obtain ⟨rfl, -⟩ := step_send h₁
      have hstage := leased_of_nonce? (hacc.calm (by rw [hstanding]; rfl)) (hacc.held (by rw [hstanding]; rfl))
      obtain ⟨r, hr, hrs⟩ := Option.map_eq_some_iff.1 hstage
      refine ⟨?_, rfl⟩
      rw [hr, ← hacc.key r hr, ← hrs]

theorem Sound.closes (hf : Sound f) (ht : f.tasks.get? t = some task) {e : Exit} (he : task.standing = .closing e) :
    ∃ g task', f.apply ⟨t, .close⟩ = some g ∧ g.tasks.get? t = some task' ∧ task'.standing = .ended e := by
  obtain ⟨τ, -, hacc⟩ := hf.accounts.task t task ht
  have hcalm := hacc.calm (by rw [he]; rfl)
  -- what is at the allocator decides which last turn there is
  have close (x : Option Nonce.Step) (event : Option Event) (a : Allocator)
      (hturn : task.turn? (f.allocator.stage? t) .close = some { step := x, event := event, standing := .ended e })
      (ha : f.carry? t x = some a) :
      ∃ g task', f.apply ⟨t, .close⟩ = some g ∧ g.tasks.get? t = some task' ∧ task'.standing = .ended e := by
    refine ⟨f.record t task { step := x, event := event, standing := .ended e } a, _, ?_, Floor.task_record .., rfl⟩
    rw [Floor.apply, ht]
    change (task.turn? (f.allocator.stage? t) .close).bind _ = _
    rw [hturn]
    change (f.carry? t x).map _ = _
    rw [ha]
    rfl
  cases hr : f.allocator.requests.get? t with
  | none =>
    have hs : f.allocator.stage? t = none := by rw [Allocator.stage?, hr]; rfl
    exact close none none _ (by simp [Task.turn?, he, hs]) rfl
  | some r =>
    obtain ⟨j, st⟩ := r
    have hs : f.allocator.stage? t = some st := by rw [Allocator.stage?, hr]; rfl
    rw [hs] at hcalm
    cases st with
    | arriving | admitted | settled => cases hcalm
    | leased n =>
      exact close (some .release) (some .released) _ (by simp [Task.turn?, he, hs]) (Allocator.apply_release hr)
    | waiting =>
      exact close (some .abandon) none _ (by simp [Task.turn?, he, hs]) (Allocator.apply_abandon hr (.inl rfl))
    | querying =>
      exact close (some .abandon) none _ (by simp [Task.turn?, he, hs]) (Allocator.apply_abandon hr (.inr (.inl rfl)))
    | answered p =>
      exact close (some .abandon) none _ (by simp [Task.turn?, he, hs])
        (Allocator.apply_abandon hr (.inr (.inr ⟨p, rfl⟩)))

/-- A submission whose lease is live broadcasts nothing but its nonce, before and after. -/
theorem Sound.nonce_of_broadcast (hf : Sound f) {n : UInt64} (hn : f.allocator.nonce? k t = some n)
    {ms : List Floor.Move} (h : f.run? ms = some g) (ht : g.tasks.get? t = some task) {x : SignedTransaction}
    (hx : .called (.send x) ∈ task.log) : x.transaction.nonce = n := by
  obtain ⟨r, hr, hrn⟩ := Option.bind_eq_some_iff.1 hn
  have hstage : (f.allocator.stage? t).bind Stage.nonce? = some n := by
    rw [Allocator.stage?, hr]
    unfold Nonce.Request.nonce? at hrn
    split at hrn
    · exact hrn
    · cases hrn
  -- the request is one of a submission that is not over, which has seen the lease
  cases hft : f.tasks.get? t with
  | none =>
    rw [hf.accounts.stray t hft] at hr
    cases hr
  | some task₀ =>
    obtain ⟨τ, hτ, hacc⟩ := hf.accounts.task t task₀ hft
    have hover : task₀.standing.isOver = false := by
      cases ho : task₀.standing.isOver with
      | false => rfl
      | true =>
        rw [hacc.gone ho] at hr
        cases hr
    have hheld := hacc.held hover
    rw [hstage] at hheld
    obtain ⟨task', seen, ht', hb, hlog⟩ := Floor.log_of_run h hft
    rw [ht] at ht'
    cases ht'
    obtain ⟨τ', hτ', -⟩ := (Floor.run_induction sound_apply hf h).accounts.task t task ht
    have hnonce := nonce?_of_broadcast hτ' hx
    rw [hb, hlog, Law.after_append, hτ] at hτ'
    cases τ with
    | before | asking => cases hheld
    | holding n' =>
      cases hheld
      obtain ⟨rfl, -⟩ := holding_of_after hτ'
      cases hnonce
      rfl

theorem Sound.leasing (hf : Sound f) (ht : f.tasks.get? t = some task) : Leasing f t task := by
  obtain ⟨τ, hτ, hacc⟩ := hf.accounts.task t task ht
  refine ⟨hf.leases_le_one ht, fun _ _ _ _ _ h ht' hlog hx => hf.sends ht h ht' hlog hx, fun ho => ?_,
    fun _ he => hf.closes ht he, fun ho => ⟨?_, hacc.gone ho⟩⟩
  · rw [hacc.released, ho]
    rfl
  · rw [hacc.released, ho, leases_of_after rfl hτ]
    cases τ <;> rfl

/-- **However submissions go side by side, whatever is answered to them and wherever they are cancelled or given up,
they keep their leases apart and let go of all of them.** -/
theorem leased_of_run {ms : List Floor.Move} (h : Floor.run? {} ms = some f) : Leased f := by
  have hf := sound_of_run h
  obtain ⟨past, hh⟩ := history_of_run h
  constructor
  case each => exact fun t task => hf.leasing
  case apart =>
    intro hlen k t u n n' htu hn hn'
    have hissuers : (Allocator.issuers {} k past).length ≤ f.tasks.keys.length :=
      (hh.once k).length_le_of_subset fun t ht => by
        obtain ⟨task, htask, -⟩ := hh.seen k t ht
        exact List.mem_map.2 ⟨_, Table.mem_of_get? htask, rfl⟩
    rw [Allocator.length_issuers, Table.keys, List.length_map] at hissuers
    have hs := Allocator.spread_of_run hh.run k (Nat.lt_of_le_of_lt hissuers hlen)
    have hne := Allocator.nonce?_ne (Allocator.nodup_keys_of_run hh.run) hs.distinct htu hn hn'
    refine ⟨hne, fun ms g taskt tasku h ht hu x y hx hy => ?_⟩
    rw [hf.nonce_of_broadcast hn h ht hx, hf.nonce_of_broadcast hn' h hu hy]
    exact hne
  case idle =>
    intro ho k
    have hnil : f.allocator.requests = [] := by
      refine List.eq_nil_iff_forall_not_mem.2 fun e he => ?_
      have hr := Table.get?_of_mem (Allocator.nodup_keys_of_run hh.run) he
      cases ht : f.tasks.get? e.1 with
      | none =>
        rw [hf.accounts.stray _ ht] at hr
        cases hr
      | some task =>
        rw [((hf.leasing ht).released (ho _ _ ht)).2] at hr
        cases hr
    have hle := Allocator.activeLeases_le hh.run k
    rw [Allocator.leases, hnil] at hle
    exact UInt64.toNat_inj.1 (Nat.le_zero.1 hle)

/-- Two submissions of one keeper whose steps alternate. -/
def Sample.sideBySide : List Floor.Move :=
  let found : Option Receipt := some ⟨5, some 1, true, 21000⟩
  [⟨0, .enter (brief .simple)⟩, ⟨1, .enter (brief .simple)⟩] ++ goes 0 8 found ++ goes 1 4 found ++ goes 0 10 found ++
    goes 1 10 found

/-- Both hold their leases and have broadcast. -/
theorem leased_of_side_by_side :
    ∃ f, Floor.run? {} Sample.sideBySide = some f ∧ f.allocator.leases ⟨1, 7⟩ = [10, 11] ∧
      f.tasks.map (fun e => (e.2.log.filterMap Event.sent?).map (·.transaction.nonce)) = [[10], [11]] ∧ Leased f := by
  have h : (Floor.run? {} Sample.sideBySide).map (fun f => (f.allocator.leases ⟨1, 7⟩,
      f.tasks.map fun e => (e.2.log.filterMap Event.sent?).map (·.transaction.nonce))) =
        some ([10, 11], [[10], [11]]) := by
    decide +kernel
  obtain ⟨f, hf, he⟩ := Option.map_eq_some_iff.1 h
  obtain ⟨hleases, hsent⟩ := Prod.mk.inj he
  exact ⟨f, hf, hleases, hsent, leased_of_run hf⟩

end Leased

end OrderKeeper.Submission
