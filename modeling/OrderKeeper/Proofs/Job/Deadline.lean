import OrderKeeper.Job.Deadline
import OrderKeeper.Proofs.Polling

/-!
# Attempts under a deadline

An attempt that is polled in a world that keeps a record leaves a `Look` there for each poll: the token it was shown, where
it stood, and what came of it. `Deadline.looks` are those that one poll of a deadline leaves, and `allLooks` those of all
its polls.

`Looked` says step by step what these may be: an attempt is always polled on from where it stood, and its token is that of
its parent until it has been found unfinished at the deadline. With polls that take no time and are made when they are asked
for, no poll passes over the deadline (`paced_allLooks`), so that the token is cancelled from the time of the deadline on.
`attended` puts together what a deadline does.
-/

namespace OrderKeeper

/-- One poll of an attempt, with the token that the attempt was shown. -/
structure Look (W S α : Type) extends Visit W S α where
  token : W → Bool

variable {W S α : Type}

/-- An attempt that leaves a record of each poll. -/
def recordingLooks (attempt : (W → Bool) → W → S → W × Polled S α) (token : W × List (Look W S α) → Bool)
    (x : W × List (Look W S α)) (s : S) : (W × List (Look W S α)) × Polled S α :=
  let r := attempt (fun w => token (w, x.2)) x.1 s
  ((r.1, x.2 ++ [⟨⟨x.1, s, r.1, r.2⟩, fun w => token (w, x.2)⟩]), r.2)

namespace Deadline

variable (clock : W → Nat) (attempt : (W → Bool) → W → S → W × Polled S α) (parent : W → Bool)

/-- A poll of a deadline in a world with an empty record. -/
def recorded (w : W) (d : Deadline S) : (W × List (Look W S α)) × Polled (Deadline S) α :=
  d.poll (fun x => clock x.1) (recordingLooks attempt) (fun x => parent x.1) (w, [])

/-- The polls of the attempt in one poll of its deadline. -/
def looks (w : W) (d : Deadline S) : List (Look W S α) := (recorded clock attempt parent w d).1.2

/-- The polls of a deadline in one world after the other. -/
def polls (d : Deadline S) (ws : List W) : List (Visit W (Deadline S) α) := visits (poll clock attempt parent) d ws

/-- The polls of the attempt in all these polls. -/
def allLooks (d : Deadline S) (ws : List W) : List (Look W S α) :=
  (polls clock attempt parent d ws).flatMap fun v => looks clock attempt parent v.before v.state

/-! ## One poll -/

/-- What a deadline shows of the last poll of its attempt. -/
def showing (expiresAt : Nat) (expired : Bool) : Polled S α → Polled (Deadline S) α
  | .ready a => .ready a
  | .waiting s wake => .waiting ⟨expiresAt, expired, s⟩ (if expired then wake else earlier wake (some expiresAt))

/-- What comes of a poll: the attempt is polled once, or once more at the deadline. -/
inductive Polling (w : W) (d : Deadline S) : W → Polled (Deadline S) α → List (Look W S α) → Prop where
  | once {w' : W} {p : Polled S α} (h : attempt (fun w => parent w || d.expired) w d.inner = (w', p))
      (hleft : d.expired = true ∨ (∃ a, p = .ready a) ∨ clock w' < d.expiresAt) :
      Polling w d w' (showing d.expiresAt d.expired p) [⟨⟨w, d.inner, w', p⟩, fun w => parent w || d.expired⟩]
  | twice {w' w'' : W} {s : S} {wake : Option Nat} {p : Polled S α}
      (h : attempt (fun w => parent w || false) w d.inner = (w', .waiting s wake)) (hexpired : d.expired = false)
      (hdue : d.expiresAt ≤ clock w') (h' : attempt (fun _ => true) w' s = (w'', p)) :
      Polling w d w'' (showing d.expiresAt true p)
        [⟨⟨w, d.inner, w', .waiting s wake⟩, fun w => parent w || false⟩, ⟨⟨w', s, w'', p⟩, fun _ => true⟩]

/-- A poll is one of the two, and the record of it is complete and changes nothing. -/
theorem exists_polling (w : W) (d : Deadline S) : ∃ w' p ls, Polling clock attempt parent w d w' p ls ∧
    d.poll clock attempt parent w = (w', p) ∧ recorded clock attempt parent w d = ((w', ls), p) := by
  obtain ⟨expiresAt, expired, s⟩ := d
  rcases h : attempt (fun w => parent w || expired) w s with ⟨w', a | ⟨s', wake⟩⟩
  · refine ⟨_, _, _, .once h (.inr (.inl ⟨a, rfl⟩)), ?_⟩
    simp only [recorded, poll, recordingLooks, h]
    exact ⟨rfl, rfl⟩
  · cases expired with
    | true =>
      refine ⟨_, _, _, .once (d := ⟨expiresAt, true, s⟩) h (.inl rfl), ?_⟩
      simp only [recorded, poll, recordingLooks, h]
      exact ⟨rfl, rfl⟩
    | false =>
      by_cases hdue : expiresAt ≤ clock w'
      · rcases h' : attempt (fun _ => true) w' s' with ⟨w'', p⟩
        have hshown : p.mapState (fun s => (⟨expiresAt, true, s⟩ : Deadline S)) = showing expiresAt true p := by
          cases p <;> rfl
        refine ⟨_, _, _, .twice h rfl hdue h', ?_⟩
        simp only [recorded, poll, recordingLooks, h, Bool.false_eq_true, if_false, if_pos hdue, h', hshown]
        exact ⟨trivial, rfl⟩
      · refine ⟨_, _, _, .once (d := ⟨expiresAt, false, s⟩) h (.inr (.inr (Nat.lt_of_not_le hdue))), ?_⟩
        simp only [recorded, poll, recordingLooks, h, Bool.false_eq_true, if_false, if_neg hdue]
        exact ⟨rfl, rfl⟩

variable {clock attempt parent} {w w' : W} {d d' : Deadline S} {p : Polled (Deadline S) α} {ls : List (Look W S α)}

theorem polling_of_poll (h : d.poll clock attempt parent w = (w', p)) :
    Polling clock attempt parent w d w' p (looks clock attempt parent w d) := by
  obtain ⟨w'', p', ls, hrow, hpoll, hrecorded⟩ := exists_polling clock attempt parent w d
  obtain ⟨rfl, rfl⟩ := Prod.mk.inj (h.symm.trans hpoll)
  rw [looks, hrecorded]
  exact hrow

theorem Polling.last (h : Polling clock attempt parent w d w' p ls) :
    ∃ l ∈ ls.getLast?, l.after = w' ∧ ∃ expired, p = showing d.expiresAt expired l.shown := by
  cases h with
  | once => exact ⟨_, rfl, rfl, _, rfl⟩
  | twice => exact ⟨_, rfl, rfl, _, rfl⟩

theorem Polling.first (h : Polling clock attempt parent w d w' p ls) : ∃ l, ls.head? = some l ∧ l.before = w := by
  cases h with
  | once => exact ⟨_, rfl, rfl⟩
  | twice => exact ⟨_, rfl, rfl⟩

/-- What the attempt leaves as it is, its deadline leaves as it is. -/
theorem Polling.alone {P : W → Prop} (h : Polling clock attempt parent w d w' p ls)
    (hP : ∀ l ∈ ls, P l.before → P l.after) (hw : P w) : P w' := by
  cases h with
  | once => exact hP _ List.mem_cons_self hw
  | twice => exact hP _ (List.mem_cons_of_mem _ List.mem_cons_self) (hP _ List.mem_cons_self hw)

theorem ready_eq_showing {expiresAt : Nat} {expired : Bool} {p : Polled S α} {a : α} :
    showing expiresAt expired p = .ready a ↔ p = .ready a := by
  cases p <;> simp [showing]

/-- A deadline asks to be polled no later than its attempt, and no later than it expires. -/
theorem showing_eq_waiting {expiresAt : Nat} {expired : Bool} {p : Polled S α} {wake : Option Nat}
    (h : showing expiresAt expired p = .waiting d wake) :
    d.expiresAt = expiresAt ∧ d.expired = expired ∧
      (∃ wake', p = .waiting d.inner wake' ∧ ∀ t ∈ wake', ∃ t' ∈ wake, t' ≤ t) ∧
      (expired = false → ∃ t ∈ wake, t ≤ expiresAt) := by
  cases p with
  | ready a => cases h
  | waiting s wake' =>
    cases h
    refine ⟨rfl, rfl, ⟨wake', rfl, fun t ht => ?_⟩, ?_⟩
    · cases expired with
      | true => exact ⟨t, ht, Nat.le_refl t⟩
      | false => exact earlier_le_left ht _
    · rintro rfl
      exact earlier_le_right wake' rfl

/-- An attempt that ends, ends with its own result. -/
theorem poll_of_ready {a : α} (h : attempt (fun w => parent w || d.expired) w d.inner = (w', .ready a)) :
    d.poll clock attempt parent w = (w', .ready a) := by
  rw [poll, h]

/-- An attempt that goes on before its deadline is left alone. -/
theorem poll_of_waiting {s : S} {wake : Option Nat}
    (h : attempt (fun w => parent w || d.expired) w d.inner = (w', .waiting s wake)) (hexpired : d.expired = false)
    (hearly : clock w' < d.expiresAt) :
    d.poll clock attempt parent w = (w', .waiting { d with inner := s } (earlier wake (some d.expiresAt))) := by
  rw [poll, h]
  simp only [hexpired, Bool.false_eq_true, if_false, if_neg (Nat.not_le.2 hearly)]

/-! ## What the polls of an attempt are -/

/-- The polls of an attempt from the state `s` on, whose token is that of its parent, or cancelled for good once the attempt
has been found unfinished at the deadline. -/
def Looked (clock : W → Nat) (attempt : (W → Bool) → W → S → W × Polled S α) (parent : W → Bool) (expiresAt : Nat) :
    Bool → S → List (Look W S α) → Prop
  | _, _, [] => True
  | expired, s, l :: ls =>
    attempt l.token l.before s = (l.after, l.shown) ∧ l.state = s ∧ l.token = (fun w => parent w || expired) ∧
      match l.shown with
      | .ready _ => ls = []
      | .waiting s' _ => Looked clock attempt parent expiresAt (expired || decide (expiresAt ≤ clock l.after)) s' ls

theorem or_true_token : (fun w => parent w || true) = fun _ => true := by simp

theorem or_false_token : (fun w => parent w || false) = parent := by simp

/-- A poll that finds the attempt ready. -/
theorem Polling.looked_of_ready {a : α} (h : Polling clock attempt parent w d w' (.ready a) ls) :
    Looked clock attempt parent d.expiresAt d.expired d.inner ls := by
  generalize hp : (Polled.ready a : Polled (Deadline S) α) = p at h
  cases h with
  | @once _ p h _ =>
    cases p with
    | ready a => exact ⟨h, rfl, rfl, rfl⟩
    | waiting s wake => cases hp
  | @twice _ _ _ _ p h hexpired hdue h' =>
    cases p with
    | ready a =>
      rw [hexpired]
      refine ⟨h, rfl, rfl, ?_⟩
      simp only [hdue, decide_true, Bool.or_true]
      exact ⟨h', rfl, or_true_token.symm, rfl⟩
    | waiting s wake => cases hp

/-- A poll that does not, and what follows it. -/
theorem Polling.looked_of_waiting {wake : Option Nat} {ls' : List (Look W S α)}
    (h : Polling clock attempt parent w d w' (.waiting d' wake) ls)
    (hrest : Looked clock attempt parent d'.expiresAt d'.expired d'.inner ls') :
    Looked clock attempt parent d.expiresAt d.expired d.inner (ls ++ ls') := by
  generalize hp : (Polled.waiting d' wake : Polled (Deadline S) α) = p at h
  cases h with
  | @once _ p h hleft =>
    cases p with
    | ready a => cases hp
    | waiting s wake =>
      cases hp
      refine ⟨h, rfl, rfl, ?_⟩
      have hsame : (d.expired || decide (d.expiresAt ≤ clock w')) = d.expired := by
        rcases hleft with hexpired | ⟨a, ha⟩ | hearly
        · simp [hexpired]
        · cases ha
        · simp [Nat.not_le.2 hearly]
      simp only [hsame]
      exact hrest
  | @twice _ _ _ _ p h hexpired hdue h' =>
    cases p with
    | ready a => cases hp
    | waiting s wake =>
      cases hp
      rw [hexpired]
      refine ⟨h, rfl, rfl, ?_⟩
      simp only [hdue, decide_true, Bool.or_true]
      refine ⟨h', rfl, or_true_token.symm, ?_⟩
      simp only [Bool.true_or]
      exact hrest

theorem allLooks_of_ready {ws : List W} {a : α} (h : d.poll clock attempt parent w = (w', .ready a)) :
    allLooks clock attempt parent d (w :: ws) = looks clock attempt parent w d := by
  rw [allLooks, polls, visits_of_ready h]
  simp

theorem allLooks_of_waiting {ws : List W} {wake : Option Nat}
    (h : d.poll clock attempt parent w = (w', .waiting d' wake)) :
    allLooks clock attempt parent d (w :: ws) = looks clock attempt parent w d ++ allLooks clock attempt parent d' ws := by
  rw [allLooks, polls, visits_of_waiting h]
  simp [allLooks, polls]

theorem before_of_head?_allLooks {l : Look W S α} {ws : List W}
    (hl : l ∈ (allLooks clock attempt parent d (w :: ws)).head?) : l.before = w := by
  have hpoll : d.poll clock attempt parent w = (_, _) := rfl
  obtain ⟨l', hl', hw⟩ := (polling_of_poll hpoll).first
  rw [allLooks, polls, visits, List.flatMap_cons, List.head?_append, hl'] at hl
  exact Option.some.inj hl ▸ hw

theorem clock_head?_allLooks {ws : List W} {start : Nat} (h : Prompt clock start (polls clock attempt parent d ws)) :
    ∀ l ∈ (allLooks clock attempt parent d ws).head?, clock l.before = start := by
  intro l hl
  cases ws with
  | nil => cases hl
  | cons w ws =>
    rw [before_of_head?_allLooks hl]
    exact h.first _ (head?_visits ..)

/-- In whatever worlds a deadline is polled, its attempt is polled as `Looked` says. -/
theorem looked_allLooks (d : Deadline S) (ws : List W) :
    Looked clock attempt parent d.expiresAt d.expired d.inner (allLooks clock attempt parent d ws) := by
  induction ws generalizing d with
  | nil => trivial
  | cons w ws ih =>
    rcases hpoll : d.poll clock attempt parent w with ⟨w', a | ⟨d', wake⟩⟩
    · rw [allLooks_of_ready hpoll]
      exact (polling_of_poll hpoll).looked_of_ready
    · rw [allLooks_of_waiting hpoll]
      exact (polling_of_poll hpoll).looked_of_waiting (ih d')

namespace Looked

variable {expiresAt : Nat} {expired : Bool} {s : S}

theorem poll_of_mem (h : Looked clock attempt parent expiresAt expired s ls) :
    ∀ l ∈ ls, attempt l.token l.before l.state = (l.after, l.shown) := by
  induction ls generalizing expired s with
  | nil => simp
  | cons l ls ih =>
    obtain ⟨hpoll, rfl, -, hrest⟩ := h
    refine List.forall_mem_cons.2 ⟨hpoll, ?_⟩
    split at hrest
    · simp [hrest]
    · exact ih hrest

theorem state_of_head? (h : Looked clock attempt parent expiresAt expired s ls) : ∀ l ∈ ls.head?, l.state = s := by
  cases ls with
  | nil => simp
  | cons l ls => simpa using h.2.1

theorem isChain (h : Looked clock attempt parent expiresAt expired s ls) :
    ls.IsChain fun l m => ∃ wake, l.shown = .waiting m.state wake := by
  induction ls generalizing expired s with
  | nil => exact .nil
  | cons l ls ih =>
    obtain ⟨-, -, -, hrest⟩ := h
    split at hrest
    · subst hrest
      exact .singleton l
    · rename_i s' wake hshown
      refine List.isChain_cons.2 ⟨fun m hm => ⟨wake, ?_⟩, ih hrest⟩
      rw [state_of_head? hrest m hm]
      exact hshown

theorem token_iff {before after : List (Look W S α)} {l : Look W S α}
    (h : Looked clock attempt parent expiresAt expired s (before ++ l :: after)) (w : W) :
    l.token w = true ↔ parent w = true ∨ expired = true ∨ ∃ m ∈ before, expiresAt ≤ clock m.after := by
  induction before generalizing expired s with
  | nil => simp [h.2.2.1]
  | cons m before ih =>
    obtain ⟨-, -, -, hrest⟩ := h
    split at hrest
    · simp at hrest
    · rw [ih hrest]
      simp [or_assoc]

end Looked

/-! ## Attempts in time -/

/-- Polls of an attempt whose times do not run backwards and do not pass over the time `t`. -/
def Paced (clock : W → Nat) (t : Nat) (ls : List (Look W S α)) : Prop :=
  ls.IsChain fun l m => clock l.before ≤ clock m.before ∧ (clock l.before < t → clock m.before ≤ t)

theorem Paced.le {t : Nat} {before after : List (Look W S α)} {l m : Look W S α}
    (h : Paced clock t (before ++ l :: after)) (hm : m ∈ before) : clock m.before ≤ clock l.before := by
  have htimes : ((before ++ l :: after).map fun l => clock l.before).IsChain (· ≤ ·) :=
    List.isChain_map _ |>.2 (h.imp fun _ _ h => h.1)
  have hsorted := List.isChain_iff_pairwise.1 htimes
  rw [List.pairwise_map] at hsorted
  exact (List.pairwise_append.1 hsorted).2.2 m hm l List.mem_cons_self

/-- A poll comes after another one at the time `t` or later exactly if it is made later than `t`, or at `t` as not the
first. -/
theorem Paced.due_iff {t : Nat} {before after : List (Look W S α)} {l : Look W S α}
    (h : Paced clock t (before ++ l :: after)) (hfirst : ∀ m ∈ (before ++ l :: after).head?, clock m.before ≤ t) :
    (∃ m ∈ before, t ≤ clock m.before) ↔
      t < clock l.before ∨ clock l.before = t ∧ ∃ m ∈ before, clock m.before = t := by
  constructor
  · rintro ⟨m, hm, hdue⟩
    have hle := h.le hm
    rcases Nat.lt_or_ge t (clock l.before) with hlate | hle'
    · exact .inl hlate
    · exact .inr ⟨by omega, m, hm, by omega⟩
  · rintro (hlate | ⟨-, m, hm, hsame⟩)
    · rcases List.eq_nil_or_concat before with rfl | ⟨before, m, rfl⟩
      · have := hfirst l rfl
        omega
      · -- The poll just before did not pass over the time, so that it was due itself.
        refine ⟨m, by simp, Nat.le_of_not_lt fun hearly => ?_⟩
        rw [Paced, List.concat_eq_append, List.append_assoc, List.isChain_append] at h
        have := (List.isChain_cons_cons.1 h.2.1).1.2 hearly
        omega
    · exact ⟨m, hm, Nat.le_of_eq hsame.symm⟩

section

variable (hquiet : ∀ token w s, clock (attempt token w s).1 = clock w)
include hquiet

theorem clock_of_quiet {token : W → Bool} {s : S} {q : Polled S α} (h : attempt token w s = (w', q)) :
    clock w' = clock w := by
  rw [← hquiet token w s, h]

theorem Polling.clock_eq (h : Polling clock attempt parent w d w' p ls) :
    clock w' = clock w ∧ ∀ l ∈ ls, clock l.before = clock w ∧ clock l.after = clock w := by
  cases h with
  | once h _ =>
    have hw := clock_of_quiet hquiet h
    simp [hw]
  | twice h _ _ h' =>
    have hw := clock_of_quiet hquiet h
    have hw' := clock_of_quiet hquiet h'
    simp [hw, hw']

/-- What is left of a poll that does not find the attempt ready. -/
theorem Polling.left {wake : Option Nat} (h : Polling clock attempt parent w d w' (.waiting d' wake) ls) :
    d'.expiresAt = d.expiresAt ∧ (d'.expired = true → d.expired = true ∨ d.expiresAt ≤ clock w) ∧
      (d'.expired = false → ∃ t ∈ wake, t ≤ d.expiresAt) := by
  generalize hp : (Polled.waiting d' wake : Polled (Deadline S) α) = p at h
  cases h with
  | once h hleft =>
    obtain ⟨hexpires, hexpired, -, hwake⟩ := showing_eq_waiting hp.symm
    exact ⟨hexpires, fun h => .inl (hexpired ▸ h), fun h => hwake (hexpired ▸ h)⟩
  | twice h _ hdue _ =>
    obtain ⟨hexpires, hexpired, -, hwake⟩ := showing_eq_waiting hp.symm
    exact ⟨hexpires, fun _ => .inr (clock_of_quiet hquiet h ▸ hdue), fun h => hwake (hexpired ▸ h)⟩

theorem Polling.paced (h : Polling clock attempt parent w d w' p ls) (t : Nat) : Paced clock t ls := by
  have hsame := (h.clock_eq hquiet).2
  have hpairs : ls.Pairwise fun l m => clock l.before ≤ clock m.before ∧ (clock l.before < t → clock m.before ≤ t) := by
    refine List.pairwise_of_forall_mem_list fun l hl m hm => ?_
    have hl := (hsame l hl).1
    have hm := (hsame m hm).1
    omega
  exact hpairs.isChain

/-- Polls that take no time and are made no later than they are asked for do not pass over the deadline. -/
theorem paced_allLooks (d : Deadline S) (ws : List W) {start : Nat}
    (hprompt : Prompt clock start (polls clock attempt parent d ws))
    (hexpired : d.expired = true → d.expiresAt ≤ start) :
    Paced clock d.expiresAt (allLooks clock attempt parent d ws) := by
  induction ws generalizing d start with
  | nil => exact .nil
  | cons w ws ih =>
    rcases hpoll : d.poll clock attempt parent w with ⟨w', a | ⟨d', wake⟩⟩
    · rw [allLooks_of_ready hpoll]
      exact (polling_of_poll hpoll).paced hquiet _
    · have hrow := polling_of_poll hpoll
      obtain ⟨hexpires, hexpired', hwake⟩ := hrow.left hquiet
      obtain ⟨hw', hlooks⟩ := hrow.clock_eq hquiet
      rw [allLooks_of_waiting hpoll]
      cases ws with
      | nil => simpa [allLooks, polls, visits] using hrow.paced hquiet _
      | cons w₂ ws =>
        have hstart : clock w = start := hprompt.first _ (head?_visits ..)
        obtain ⟨hle, hasked, hprompt'⟩ := hprompt.of_waiting hpoll
        -- An attempt that has expired was due by now.
        have hdue : d'.expired = true → d.expiresAt ≤ clock w := fun h =>
          (hexpired' h).elim (fun h => hstart ▸ hexpired h) id
        have hrest := ih d' hprompt' fun h => by
          have := hdue h
          omega
        rw [hexpires] at hrest
        refine List.isChain_append.2 ⟨hrow.paced hquiet _, hrest, fun l hl m hm => ?_⟩
        rw [before_of_head?_allLooks hm, (hlooks l (List.mem_of_getLast? hl)).1]
        refine ⟨by omega, fun hearly => ?_⟩
        obtain ⟨t, ht, hle⟩ := hwake (Bool.eq_false_iff.2 fun h => Nat.not_le.2 hearly (hdue h))
        have := hasked t ht
        omega

end

/-- An attempt that ends, or goes on before its deadline, is polled as without one. -/
theorem Polling.of_inTime {w₁ : W} {q : Polled S α} (h : Polling clock attempt parent w d w' p ls)
    (hexpired : d.expired = false) (hq : attempt parent w d.inner = (w₁, q))
    (hearly : ∀ s wake, q = .waiting s wake → clock w₁ < d.expiresAt) :
    w' = w₁ ∧ p = showing d.expiresAt false q ∧ ls = [⟨⟨w, d.inner, w₁, q⟩, parent⟩] := by
  cases h with
  | once h _ =>
    simp only [hexpired, or_false_token, hq, Prod.mk.injEq] at h
    obtain ⟨rfl, rfl⟩ := h
    simp only [hexpired, or_false_token]
    exact ⟨trivial, trivial, trivial⟩
  | twice h _ hdue _ =>
    rw [or_false_token, hq] at h
    obtain ⟨rfl, rfl⟩ := Prod.mk.inj h
    exact absurd hdue (Nat.not_le.2 (hearly _ _ rfl))

/-- An attempt that is found ready at its first poll at the deadline, or before, is polled as without one. -/
theorem allLooks_of_inTime (hexpired : d.expired = false) (ws : List W)
    (hin : ∀ v ∈ visits (attempt parent) d.inner ws, ∀ s wake, v.shown = .waiting s wake → clock v.after < d.expiresAt) :
    (allLooks clock attempt parent d ws).map Look.toVisit = visits (attempt parent) d.inner ws ∧
      ∀ l ∈ allLooks clock attempt parent d ws, l.token = parent := by
  induction ws generalizing d with
  | nil => exact ⟨rfl, by simp [allLooks, polls, visits]⟩
  | cons w ws ih =>
    rcases hpoll : d.poll clock attempt parent w with ⟨w', p⟩
    rcases hq : attempt parent w d.inner with ⟨w₁, q⟩
    have hhead := hin _ (List.mem_of_head? (head?_visits (attempt parent) d.inner w ws))
    rw [hq] at hhead
    obtain ⟨rfl, rfl, hlooks⟩ := (polling_of_poll hpoll).of_inTime hexpired hq hhead
    cases q with
    | ready a =>
      rw [allLooks_of_ready hpoll, hlooks, visits_of_ready hq]
      simp
    | waiting s wake =>
      rw [visits_of_waiting hq] at hin
      obtain ⟨hsame, htoken⟩ := ih (d := ⟨d.expiresAt, false, s⟩) rfl fun v hv => hin v (List.mem_cons_of_mem _ hv)
      rw [allLooks_of_waiting hpoll, hlooks, visits_of_waiting hq]
      exact ⟨congrArg (List.cons _) hsame, List.forall_mem_cons.2 ⟨rfl, htoken⟩⟩

/-! ## The whole of it -/

/-- What a deadline does that begins at the time `start` with an attempt in the state `s`, in whatever worlds it is
polled. -/
structure Attended (clock : W → Nat) (attempt : (W → Bool) → W → S → W × Polled S α) (parent : W → Bool)
    (start timeout : Nat) (s : S) (ws : List W) : Prop where
  /-- Every poll ends with a poll of the attempt, in the world that this leaves, and has its result exactly if it has one. -/
  output : ∀ v ∈ polls clock attempt parent ⟨start + timeout, false, s⟩ ws,
    ∃ l ∈ (looks clock attempt parent v.before v.state).getLast?, l.after = v.after ∧
      ∀ a, v.shown = .ready a ↔ l.shown = .ready a
  /-- What every poll of the attempt leaves as it is, its parent's token for one, a poll of the deadline leaves as it is. -/
  alone : ∀ v ∈ polls clock attempt parent ⟨start + timeout, false, s⟩ ws, ∀ P : W → Prop,
    (∀ l ∈ looks clock attempt parent v.before v.state, P l.before → P l.after) → P v.before → P v.after
  /-- The deadline asks to be polled no later than its attempt. -/
  wakes : ∀ v ∈ polls clock attempt parent ⟨start + timeout, false, s⟩ ws, ∀ d wake, v.shown = .waiting d wake →
    ∃ l ∈ (looks clock attempt parent v.before v.state).getLast?, ∃ wake', l.shown = .waiting d.inner wake' ∧
      ∀ t ∈ wake', ∃ t' ∈ wake, t' ≤ t
  /-- The attempt is polled from its beginning, each time from where it stood. -/
  kept : (∀ l ∈ (allLooks clock attempt parent ⟨start + timeout, false, s⟩ ws).head?, l.state = s) ∧
    (∀ l ∈ allLooks clock attempt parent ⟨start + timeout, false, s⟩ ws,
      attempt l.token l.before l.state = (l.after, l.shown)) ∧
    (allLooks clock attempt parent ⟨start + timeout, false, s⟩ ws).IsChain fun l m =>
      ∃ wake, l.shown = .waiting m.state wake
  /-- Its token is cancelled where its parent's is, and once it has been found unfinished at the deadline. -/
  token : ∀ before l after, allLooks clock attempt parent ⟨start + timeout, false, s⟩ ws = before ++ l :: after →
    ∀ w, l.token w = true ↔ parent w = true ∨ ∃ m ∈ before, start + timeout ≤ clock m.after
  /-- If polls take no time and are made when they are asked for, this is from the time of the deadline on, except for the
  first poll at that time. -/
  onTime : (∀ token w s, clock (attempt token w s).1 = clock w) →
    Prompt clock start (polls clock attempt parent ⟨start + timeout, false, s⟩ ws) →
    ∀ before l after, allLooks clock attempt parent ⟨start + timeout, false, s⟩ ws = before ++ l :: after →
    ∀ w, l.token w = true ↔ parent w = true ∨ start + timeout < clock l.before ∨
      clock l.before = start + timeout ∧ ∃ m ∈ before, clock m.before = start + timeout
  /-- An attempt that under its parent's token is ready at its first poll at the deadline, or before, is polled as without
  a deadline, and sees no other token. -/
  inTime : (∀ v ∈ visits (attempt parent) s ws, ∀ s' wake, v.shown = .waiting s' wake →
      clock v.after < start + timeout) →
    (allLooks clock attempt parent ⟨start + timeout, false, s⟩ ws).map Look.toVisit = visits (attempt parent) s ws ∧
      ∀ l ∈ allLooks clock attempt parent ⟨start + timeout, false, s⟩ ws, l.token = parent

/-- **What a deadline does for its attempt.** -/
theorem attended (clock : W → Nat) (attempt : (W → Bool) → W → S → W × Polled S α) (parent : W → Bool)
    (start timeout : Nat) (s : S) (ws : List W) : Attended clock attempt parent start timeout s ws := by
  have hlooked : Looked clock attempt parent (start + timeout) false s
      (allLooks clock attempt parent ⟨start + timeout, false, s⟩ ws) :=
    looked_allLooks ⟨start + timeout, false, s⟩ ws
  have hpolling (v : Visit W (Deadline S) α) (hv : v ∈ polls clock attempt parent ⟨start + timeout, false, s⟩ ws) :
      Polling clock attempt parent v.before v.state v.after v.shown (looks clock attempt parent v.before v.state) :=
    polling_of_poll (poll_of_mem_visits hv)
  constructor
  case output =>
    intro v hv
    obtain ⟨l, hl, hafter, expired, hshown⟩ := (hpolling v hv).last
    exact ⟨l, hl, hafter, fun a => by rw [hshown, ready_eq_showing]⟩
  case alone => exact fun v hv P hP => (hpolling v hv).alone hP
  case wakes =>
    intro v hv d wake hwaiting
    obtain ⟨l, hl, -, expired, hshown⟩ := (hpolling v hv).last
    obtain ⟨-, -, hwake, -⟩ := showing_eq_waiting (hshown.symm.trans hwaiting)
    exact ⟨l, hl, hwake⟩
  case kept => exact ⟨hlooked.state_of_head?, hlooked.poll_of_mem, hlooked.isChain⟩
  case token =>
    intro before l after hsplit w
    rw [hsplit] at hlooked
    simpa using hlooked.token_iff w
  case onTime =>
    intro hquiet hprompt before l after hsplit w
    have hpaced := paced_allLooks hquiet ⟨start + timeout, false, s⟩ ws hprompt (by simp)
    have hfirst := clock_head?_allLooks hprompt
    rw [hsplit] at hlooked hpaced hfirst
    have hsame : ∀ m ∈ before, clock m.after = clock m.before := fun m hm =>
      clock_of_quiet hquiet (hlooked.poll_of_mem m (List.mem_append_left _ hm))
    have hdue := hpaced.due_iff fun m hm => Nat.le_trans (Nat.le_of_eq (hfirst m hm)) (Nat.le_add_right ..)
    have hbefore : (∃ m ∈ before, start + timeout ≤ clock m.after) ↔ ∃ m ∈ before, start + timeout ≤ clock m.before :=
      exists_congr fun m => and_congr_right fun hm => by rw [hsame m hm]
    simpa [hbefore, hdue] using hlooked.token_iff w
  case inTime => exact fun hin => allLooks_of_inTime rfl ws hin

end Deadline

end OrderKeeper
