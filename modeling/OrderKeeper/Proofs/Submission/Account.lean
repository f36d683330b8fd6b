import OrderKeeper.Proofs.Submission.Tenure

/-!
# Leases and requests

What a submission has at the allocator is what its log says of its lease: as long as it is not over, the lease that
was seen last is live under its ticket, and when it is over, its ticket stands for nothing any more (`Accounted`).
Every step keeps this (`sound_apply`).
-/

namespace OrderKeeper.Submission

open Nonce (Ticket Key Stage Allocator)

/-- What a submission has at the allocator, by where it stands and by what was seen of its lease. -/
structure Accounted (b : Brief) (log : List Event) (st : Standing) (a : Allocator) (t : Ticket) (τ : Tenure) :
    Prop where
  /-- Its request is one of its own account. -/
  key : ∀ r, a.requests.get? t = some r → r.key = b.key
  unasked : τ = .before → a.requests.get? t = none
  /-- The lease that was seen is live. -/
  held : st.isOver = false → (a.stage? t).bind Stage.nonce? = τ.nonce?
  /-- A submission that does not wait for a lease can let go of what it has. -/
  calm : st.awaitsLease = false → canLetGo (a.stage? t) = true
  gone : st.isOver = true → a.requests.get? t = none
  released : log.countP Event.isReleased = if st.isOver && τ.nonce?.isSome then 1 else 0

/-! ## Turns -/

section Turns

variable {b : Brief} {t : Ticket} {stage stage' : Option Stage} {st st' : Standing} {x : Option Nonce.Step}
  {event : Option Event}

namespace Task.Turns

theorem not_leased (h : Task.Turns b stage st x event st') : ∀ e, event = some e → e.isLeased = false := by
  cases h <;> rintro e ⟨⟩ <;> rfl

/-- Who has made a turn was not over. -/
theorem not_over (h : Task.Turns b stage st x event st') : st.isOver = false := by
  cases h <;> rfl

/-- Only a request can be begun out of nothing. -/
theorem step_eq_none (h : Task.Turns b none st x event st') (hx : Floor.Carries t none x stage')
    (he : ∀ k, event ≠ some (.requested k)) : x = none := by
  cases x with
  | none => rfl
  | some y =>
    obtain ⟨k, s, s', hs⟩ := hx
    cases hs <;> cases h <;> exact absurd rfl (he _)

/-- A live lease stays as it is until its submission is over. -/
theorem nonce?_eq (h : Task.Turns b stage st x event st') (hx : Floor.Carries t stage x stage')
    (ho : st'.isOver = false) {n : UInt64} (hn : stage.bind Stage.nonce? = some n) :
    stage'.bind Stage.nonce? = some n := by
  cases h with
  | finish | call | reply | sign | pause | take | look | judge | wake | stop | drop => cases hx; exact hn
  | request =>
    obtain ⟨k, s, s', hs⟩ := hx
    cases hs <;> cases hn
  | join | recheck | ask | answer | fail | settle => cases hn
  | leave =>
    obtain ⟨k, s, s', hs⟩ := hx
    cases hs
    exact hn
  | close | release | abandon => cases ho

/-- Who does not wait for a lease can let go of what it has. -/
theorem canLetGo_eq (h : Task.Turns b stage st x event st') (hx : Floor.Carries t stage x stage')
    (hc : st.awaitsLease = false → canLetGo stage = true) (ha : st'.awaitsLease = false) : canLetGo stage' = true := by
  cases h with
  | finish | call | reply | sign | pause | look | judge | wake => cases hx; exact hc rfl
  | request | join | recheck | ask | answer | settle | leave => cases ha
  | fail | release | abandon =>
    obtain ⟨k, s, s', hs⟩ := hx
    cases hs
    rfl
  | take | close => cases hx; rfl
  | stop hg | drop hg => cases hx; exact hg

/-- The last turn releases the lease, if there is one, and leaves nothing behind. -/
theorem of_over (h : Task.Turns b stage st x event st') (hx : Floor.Carries t stage x stage') (ho : st'.isOver = true) :
    stage' = none ∧
      event.toList.countP Event.isReleased = if (stage.bind Stage.nonce?).isSome = true then 1 else 0 := by
  cases h with
  | finish | call | reply | sign | pause | request | join | recheck | ask | answer | fail | settle | leave | take | look
    | wake | stop | drop => cases ho
  | judge a =>
    revert ho
    unfold Standing.ofWatch
    split <;> exact nofun
  | close => cases hx; exact ⟨rfl, rfl⟩
  | release =>
    obtain ⟨k, s, s', hs⟩ := hx
    cases hs
    exact ⟨rfl, rfl⟩
  | abandon =>
    obtain ⟨k, s, s', hs⟩ := hx
    cases hs with
    | abandon hst => rcases hst with rfl | rfl | ⟨p, rfl⟩ <;> exact ⟨rfl, rfl⟩

theorem not_released (h : Task.Turns b stage st x event st') (ho : st'.isOver = false) :
    event.toList.countP Event.isReleased = 0 := by
  cases h with
  | release => cases ho
  | finish | call | reply | sign | pause | request | join | recheck | ask | answer | fail | settle | leave | take | look
    | judge | wake | stop | drop | close | abandon => rfl

end Task.Turns

/-- A step of a request leaves it with the account that it began with. -/
theorem key_of_carry? {f : Floor} {a : Allocator} (h : Task.Turns b stage st x event st') (ha : f.carry? t x = some a)
    (hk : ∀ r, f.allocator.requests.get? t = some r → r.key = b.key)
    (he : ∀ keeper, event = some (.requested keeper) → keeper = b.item.target.keeper) :
    ∀ r, a.requests.get? t = some r → r.key = b.key := by
  cases x with
  | none => cases ha; exact hk
  | some y =>
    obtain ⟨k, before, s', after, hr, hs, rfl⟩ := Allocator.apply_cases (m := ⟨t, y⟩) ha
    intro r hr'
    rw [Allocator.request_put_self] at hr'
    obtain ⟨st₁, rfl, rfl⟩ := Option.map_eq_some_iff.1 hr'
    cases before with
    | some st₀ => exact hk ⟨k, st₀⟩ hr
    | none =>
      have hy : y = .begin k := by
        cases hs <;> rfl
      subst hy
      cases h with
      | request => rw [he _ rfl]; rfl

end Turns

section Steps

variable {f g : Floor} {m : Floor.Move}

theorem accounted_record {t : Ticket} {task : Task} {turn : Turn} {a : Allocator} {τ τ' : Tenure}
    (hT : Task.Turns task.brief (f.allocator.stage? t) task.standing turn.step turn.event turn.standing)
    (ha : f.carry? t turn.step = some a) (hf : Accounted task.brief task.log task.standing f.allocator t τ)
    (hτ : (leaseLaw task.brief.item.target.keeper).after τ
      (turn.event.toList ++ (issued? (f.allocator.stage? t) (a.stage? t)).toList.map Event.leased) = some τ') :
    Accounted task.brief
      (task.log ++ (turn.event.toList ++ (issued? (f.allocator.stage? t) (a.stage? t)).toList.map Event.leased))
      turn.standing a t τ' := by
  have hx := Floor.carries_of_carry? ha
  have hn := nonce?_of_after hT.not_leased hτ
  have hheld := hf.held hT.not_over
  have hlog : task.log.countP Event.isReleased = 0 := by rw [hf.released, hT.not_over]; rfl
  have hissued (i : Option UInt64) : (i.toList.map Event.leased).countP Event.isReleased = 0 := by
    cases i <;> rfl
  constructor
  case key =>
    refine key_of_carry? hT ha hf.key fun keeper he => ?_
    rw [he, Law.after_append] at hτ
    obtain ⟨τ₁, h₁, -⟩ := Option.bind_eq_some_iff.1 hτ
    exact (step_requested (Law.after_singleton.symm.trans h₁)).2.1
  case unasked =>
    rintro rfl
    obtain ⟨rfl, hno⟩ := before_of_after hτ
    have hnone : f.allocator.stage? t = none := by rw [Allocator.stage?, hf.unasked rfl]; rfl
    rw [hnone] at hT hx
    have hstep : turn.step = none :=
      hT.step_eq_none hx fun k he => hno k (List.mem_append_left _ (by rw [he]; exact List.mem_singleton.2 rfl))
    rw [hstep] at ha
    cases ha
    exact hf.unasked rfl
  case held =>
    intro ho
    rw [hn, ← hheld, issued?]
    cases hs : (f.allocator.stage? t).bind Stage.nonce? with
    | none => exact (Option.or_none).symm
    | some n => exact hT.nonce?_eq hx ho hs
  case calm => exact hT.canLetGo_eq hx hf.calm
  case gone =>
    intro ho
    exact Option.map_eq_none_iff.1 (hT.of_over hx ho).1
  case released =>
    rw [List.countP_append, List.countP_append, hlog, hissued]
    cases ho : turn.standing.isOver with
    | false => rw [hT.not_released ho]; rfl
    | true =>
      obtain ⟨hnone, hcount⟩ := hT.of_over hx ho
      have hi : issued? (f.allocator.stage? t) (a.stage? t) = none := by
        rw [hnone, issued?]
        split <;> rfl
      rw [hi] at hn
      rw [hcount, hheld, hn]
      simp

/-- The requests at the allocator are those of the submissions, each as its log says. -/
structure Accounts (f : Floor) : Prop where
  stray : ∀ t, f.tasks.get? t = none → f.allocator.requests.get? t = none
  task : ∀ t task, f.tasks.get? t = some task → ∃ τ,
    (leaseLaw task.brief.item.target.keeper).after .before task.log = some τ ∧
      Accounted task.brief task.log task.standing f.allocator t τ

theorem accounts_empty : Accounts {} where
  stray _ _ := rfl
  task _ _ h := by cases h

theorem Accounted.of_request_eq {b : Brief} {log : List Event} {st : Standing} {a a' : Allocator} {t : Ticket}
    {τ : Tenure} (ha : Accounted b log st a t τ) (h : a'.requests.get? t = a.requests.get? t) :
    Accounted b log st a' t τ := by
  have hs : a'.stage? t = a.stage? t := by rw [Allocator.stage?, Allocator.stage?, h]
  exact ⟨by rw [h]; exact ha.key, by rw [h]; exact ha.unasked, by rw [hs]; exact ha.held, by rw [hs]; exact ha.calm,
    by rw [h]; exact ha.gone, ha.released⟩

/-- A new submission has nothing at the allocator. -/
theorem accounted_enter {b : Brief} {t : Ticket} {a : Allocator} (h : a.requests.get? t = none) :
    Accounted b [] (.underWay b.course .idle) a t .before := by
  have hs : a.stage? t = none := by rw [Allocator.stage?, h]; rfl
  constructor
  case key =>
    intro r hr
    rw [h] at hr
    cases hr
  case unasked => exact fun _ => h
  case held => rw [hs]; exact fun _ => rfl
  case calm => rw [hs]; exact fun _ => rfl
  case gone =>
    intro ho
    cases ho
  case released => rfl

/-- Every submission has kept to the law of one lease, and the allocator is as the logs say. -/
structure Sound (f : Floor) : Prop where
  lawful : Lawful (fun b => leaseLaw b.item.target.keeper) (fun _ _ _ => True) .before f
  accounts : Accounts f

theorem sound_empty : Sound {} := ⟨(fun _ _ h => by cases h), accounts_empty⟩

theorem sound_apply (hf : Sound f) (h : f.apply m = some g) : Sound g := by
  have hl := lawful_apply keeps_course hf.lawful h
  refine ⟨hl, ⟨fun t ht => ?_, fun t task ht => ?_⟩⟩
  · by_cases hm : m.ticket = t
    · subst hm
      rcases Floor.apply_cases h with ⟨b, -, -, rfl⟩ | ⟨task, turn, a, -, -, -, rfl⟩
      · rw [Table.get?_set_self] at ht
        cases ht
      · rw [Floor.task_record] at ht
        cases ht
    · rw [Floor.task_of_apply h hm] at ht
      rw [Floor.request_of_apply h hm]
      exact hf.accounts.stray t ht
  · by_cases hm : m.ticket = t
    · subst hm
      obtain ⟨τ', hτ', -⟩ := hl _ _ ht
      refine ⟨τ', hτ', ?_⟩
      rcases Floor.apply_cases h with ⟨b, hnone, -, rfl⟩ | ⟨task₀, turn, a, ht₀, hT, ha, rfl⟩
      · rw [Table.get?_set_self] at ht
        cases ht
        cases hτ'
        exact accounted_enter (hf.accounts.stray _ hnone)
      · rw [Floor.task_record] at ht
        cases ht
        obtain ⟨τ, hτ, hacc⟩ := hf.accounts.task _ _ ht₀
        change (leaseLaw _).after _ (_ ++ _) = _ at hτ'
        rw [Law.after_append, hτ] at hτ'
        exact accounted_record hT ha hacc hτ'
    · rw [Floor.task_of_apply h hm] at ht
      obtain ⟨τ, hτ, hacc⟩ := hf.accounts.task t task ht
      exact ⟨τ, hτ, hacc.of_request_eq (Floor.request_of_apply h hm)⟩

/-- **In every state that a floor can get to, the allocator is as the logs say.** -/
theorem sound_of_run {ms : List Floor.Move} (h : Floor.run? {} ms = some f) : Sound f :=
  Floor.run_induction sound_apply sound_empty h

end Steps

end OrderKeeper.Submission
