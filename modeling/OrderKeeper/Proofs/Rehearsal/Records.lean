import OrderKeeper.Proofs.Rehearsal.Session
import OrderKeeper.Proofs.Submission.Tally

/-!
# The records of a rehearsal

At the end of a rehearsal of submissions the records show what those of them have returned that came to their ends
(`exists_exact_of_run`). Nothing that is asked of the world touches the records (`records_poll`), and a submission that
ends records its ending (`Session.leaves_poll`); what polls of all acts leave on record is told by the results that they
add (`exists_listed_pollAll`).
-/

namespace OrderKeeper.Rehearsal

open Submission (Conclusion Exact eventsOf)
open Metrics (Records)

variable {settings : Settings}

/-! ## Questions -/

namespace Place

variable (p : Place) (w : World)

theorem records_beginCall (c : LedgerCall) : (p.beginCall w c).1.records = w.records := by
  unfold beginCall
  dsimp only
  split <;> rfl

theorem records_pollNonce (keeper : Address) (ready number : Nat) :
    (p.pollNonce w keeper ready number).1.records = w.records := by
  unfold pollNonce
  split
  · split <;> rfl
  · rfl

theorem records_pollGate (keeper : Address) : (p.pollGate w keeper).1.records = w.records := by
  have hattempt : (w.attempt p.ticket [.recheck, .leave, .ask]).records = w.records := rfl
  rw [pollGate, ← hattempt]
  generalize w.attempt p.ticket [.recheck, .leave, .ask] = w'
  dsimp only
  generalize (w'.allocator.requests.get? p.ticket).map Nonce.Request.stage = seen
  rcases seen with _ | stage
  · rfl
  · cases stage with
    | querying => exact (p.records_pollNonce ..).trans (p.records_beginCall w' _)
    | arriving | waiting | admitted | answered | settled | leased => rfl

theorem records_pollWatch (watch : Watch) (fuel : Nat) (s : Wait) :
    (p.pollWatch watch fuel w s).1.records = w.records := by
  induction fuel generalizing w s with
  | zero => rfl
  | succ fuel ih =>
    cases s with
    | look polls ready number =>
      rw [pollWatch]
      split
      · split
        · rfl
        · exact ih ..
        · rfl
      · rfl
    | rest polls ready =>
      rw [pollWatch]
      split
      · exact (ih ..).trans (p.records_beginCall w _)
      · rfl
    | «until» | call | gate | nonce => rfl

theorem records_begin (q : Submission.Question) : (p.submission.begin w q).1.records = w.records := by
  cases q with
  | ledger c => exact p.records_beginCall w c
  | lease | sign | pause | watch => rfl

theorem records_poll (q : Submission.Question) (s : Wait) : (p.submission.poll w q s).1.records = w.records := by
  cases q with
  | ledger => cases s <;> rfl
  | lease keeper =>
    cases s with
    | nonce ready number => exact p.records_pollNonce w keeper ready number
    | «until» | call | gate | look | rest => exact p.records_pollGate w keeper
  | sign | pause => cases s <;> rfl
  | watch watch => exact p.records_pollWatch w watch _ s

end Place

/-! ## Submissions -/

/-- What has ended, and the time that it took. -/
abbrev Closing := Conclusion × Float

/-- Records of endings have been added, one after the other. -/
def Adds (r r' : Records) (closings : List Closing) : Prop := r' = (eventsOf closings).foldl Records.record r

theorem Adds.trans {r r' r'' : Records} {closings closings' : List Closing} (h : Adds r r' closings)
    (h' : Adds r' r'' closings') : Adds r r'' (closings ++ closings') := by
  rw [Adds] at h h' ⊢
  rw [h', h, eventsOf, eventsOf, eventsOf, List.flatMap_append, List.foldl_append]

namespace Session

/-- What a poll of a submission leaves on record: nothing, or its ending. -/
inductive Leaves (settings : Settings) (item : WorkItem) (r : Records) :
    World × Polled Session (Except (Verdict KeeperError) Outcome) → Prop where
  | waiting {w : World} {s : Session} {wake : Option Nat} : w.records = r → s.item = item →
      Leaves settings item r (w, .waiting s wake)
  | ready {w : World} {x : Closing} : x.1.settings = settings → x.1.item = item → Adds r w.records [x] →
      Leaves settings item r (w, .ready x.1.answer)

theorem leaves_poll (settings : Settings) (cancelled : World → Bool) (w : World) (s : Session) :
    Leaves settings s.item w.records (s.poll settings cancelled w) := by
  have hrecords : (s.course.poll s.place.submission cancelled w).1.records = w.records :=
    @Dialogue.poll_keeps _ _ _ _ _ _ _ cancelled _ (fun v => v.records = w.records)
      (fun v q h => (s.place.records_begin v q).trans h) (fun v q x h => (s.place.records_poll v q x).trans h)
      s.course.talk s.course.begun rfl
  rw [Session.poll]
  revert hrecords
  obtain ⟨w', r | ⟨c, wake⟩⟩ := s.course.poll s.place.submission cancelled w
  · intro hrecords
    have hfinish (r : Except KeeperError Outcome) :
        Leaves settings s.item w.records (s.finish settings r w', .ready (r.mapError KeeperError.verdict)) := by
      let x : Closing := (⟨settings, s.item, r⟩, (UInt64.ofNat (w'.now - s.startedAt)).toFloat / 1000.0)
      have hadds : Adds w.records (s.finish settings r w').records [x] := by
        rw [Adds, ← hrecords, eventsOf, List.flatMap_singleton]
        rfl
      exact @Leaves.ready _ _ _ _ x rfl rfl hadds
    cases r with
    | ok r => exact hfinish r
    | error e => exact hfinish (.error e)
  · intro hrecords
    exact .waiting hrecords rfl

end Session

/-! ## Acts -/

/-- Where an act of a rehearsal stands, and what has come of it. -/
inductive Stands (settings : Settings) :
    Except KeeperError WorkItem → Standing Result → Option Closing → Prop where
  | unstarted {item startAt token limit start} :
      Stands settings item (.unstarted (Act.submission settings item startAt token limit) start) none
  | unread {e} : Stands settings (.error e) (.finished (.error e)) none
  | running {item startAt token limit start wake} {s : Session} : s.item = item →
      Stands settings (.ok item) (.running (Act.submission settings (.ok item) startAt token limit) start (.ok s) wake) none
  | finished {item} {x : Closing} : x.1.settings = settings → x.1.item = item →
      Stands settings (.ok item) (.finished (.ok x.1.answer)) (some x)
  | abandoned {item} : Stands settings (.ok item) .abandoned none

variable {item : Except KeeperError WorkItem} {act : Standing Result} {o : Option Closing} {w : World}

/-- A poll has left an act where it stands, and has added to the records what has come of the act. -/
def Polls (settings : Settings) (item : Except KeeperError WorkItem) (r : Records) (o : Option Closing)
    (x : World × Standing Result) : Prop :=
  ∃ closings o', Adds r x.1.records closings ∧ Stands settings item x.2 o' ∧ o'.toList = o.toList ++ closings

theorem polls_pollRunning {item : WorkItem} {s : Session} (hs : s.item = item) {startAt start limit : Nat} {token : Token} :
    Polls settings (.ok item) w.records none
      (Standing.pollRunning (Act.submission settings (.ok item) startAt token limit) start (.ok s) w) := by
  have hact : (Act.submission settings (.ok item) startAt token limit).poll (token.isCancelled start) w (.ok s) =
      ((s.poll settings (token.isCancelled start) w).1,
        (mapPolled .ok (s.poll settings (token.isCancelled start) w).2).mapState .ok) := rfl
  have hleaves := s.leaves_poll settings (token.isCancelled start) w
  revert hact hleaves
  generalize s.poll settings (token.isCancelled start) w = r
  intro hact hleaves
  cases hleaves with
  | ready hsettings hitem hadds =>
    rw [pollRunning_of_ready hact]
    exact ⟨_, _, hadds, .finished hsettings (hitem.trans hs), rfl⟩
  | waiting hrecords hitem =>
    rw [pollRunning_of_waiting hact]
    split
    · exact ⟨[], none, hrecords, .abandoned, rfl⟩
    · exact ⟨[], none, hrecords, .running (hitem.trans hs), rfl⟩

theorem polls_poll (h : Stands settings item act o) (w : World) : Polls settings item w.records o (act.poll w) := by
  have quiet {act : Standing Result} {o : Option Closing} (h : Stands settings item act o) (hw : act.poll w = (w, act)) :
      Polls settings item w.records o (act.poll w) := by
    rw [hw]
    exact ⟨[], o, rfl, h, (List.append_nil _).symm⟩
  cases h with
  | unread => exact quiet .unread rfl
  | finished hs hi => exact quiet (.finished hs hi) rfl
  | abandoned => exact quiet .abandoned rfl
  | running hs => exact polls_pollRunning hs
  | unstarted =>
    rw [Standing.poll]
    split
    · cases item with
      | error e => exact ⟨[], none, rfl, .unread, rfl⟩
      | ok item =>
        have hbegin : (Session.begin settings item w.takeTicket.2 w.takeTicket.1).item = item := rfl
        exact @polls_pollRunning _ w.takeTicket.1 _ _ hbegin ..
    · exact ⟨[], none, rfl, .unstarted, rfl⟩

/-- Where all acts of a rehearsal stand, and what has come of them. -/
inductive Listed (settings : Settings) :
    List (Except KeeperError WorkItem) → List (Standing Result) → List Closing → Prop where
  | nil : Listed settings [] [] []
  | cons {item items act acts o xs} : Stands settings item act o → Listed settings items acts xs →
      Listed settings (item :: items) (act :: acts) (o.toList ++ xs)

variable {items : List (Except KeeperError WorkItem)} {acts : List (Standing Result)} {xs : List Closing}

/-- Polls of all acts add to the records what they add to the results. -/
theorem exists_listed_pollAll (h : Listed settings items acts xs) (w : World) :
    ∃ closings xs', Adds w.records (pollAll w acts).1.records closings ∧ Listed settings items (pollAll w acts).2 xs' ∧
      xs'.Perm (xs ++ closings) := by
  induction h generalizing w with
  | nil => exact ⟨[], [], rfl, .nil, .refl _⟩
  | @cons item items act acts o xs hstands _ ih =>
    obtain ⟨closings, o', hadds, hstands', ho⟩ := polls_poll hstands w
    obtain ⟨closings', xs', hadds', hlisted, hperm⟩ := ih (act.poll w).1
    refine ⟨closings ++ closings', _, hadds.trans hadds', .cons hstands' hlisted, ?_⟩
    rw [ho, List.append_assoc, List.append_assoc]
    refine List.Perm.append_left _ ((hperm.append_left _).trans ?_)
    rw [← List.append_assoc, ← List.append_assoc]
    exact List.perm_append_comm.append_right _

/-- The records show what has come of acts. -/
def Tells (settings : Settings) (items : List (Except KeeperError WorkItem)) (w : World) (acts : List (Standing Result)) :
    Prop :=
  ∃ closings xs, Adds {} w.records closings ∧ Listed settings items acts xs ∧ xs.Perm closings

theorem tells_pollAll (h : Tells settings items w acts) : Tells settings items (pollAll w acts).1 (pollAll w acts).2 := by
  obtain ⟨closings, xs, hadds, hlisted, hperm⟩ := h
  obtain ⟨closings', xs', hadds', hlisted', hperm'⟩ := exists_listed_pollAll hlisted w
  exact ⟨closings ++ closings', xs', hadds.trans hadds', hlisted', hperm'.trans (hperm.append_right _)⟩

/-! ## Rehearsals -/

/-- What has been returned of an act that was booked, if it came to its end and was a submission. -/
def Booking.returned? (x : Booking) : Option Result → Option (WorkItem × Except (Verdict KeeperError) Outcome)
  | some (.ok a) => x.item.toOption.map fun item => (item, a)
  | _ => none

/-- What has been returned of all acts. -/
def returnsOf (bookings : List Booking) (results : List (Option Result)) :
    List (WorkItem × Except (Verdict KeeperError) Outcome) :=
  (bookings.zip results).filterMap fun b => b.1.returned? b.2

theorem Stands.returned? {x : Booking} (h : Stands settings x.item act o) :
    (∀ y ∈ o, y.1.settings = settings) ∧ x.returned? act.result? = o.map fun y => (y.1.item, y.1.answer) := by
  obtain ⟨item, startAt, token, limit⟩ := x
  cases h with
  | unstarted | unread | running | abandoned => exact ⟨by simp, rfl⟩
  | finished hs hi =>
    refine ⟨fun y hy => ?_, ?_⟩
    · cases hy
      exact hs
    · subst hi
      rfl

theorem Listed.returnsOf {bookings : List Booking} (h : Listed settings (bookings.map Booking.item) acts xs) :
    (∀ y ∈ xs, y.1.settings = settings) ∧
      Rehearsal.returnsOf bookings (acts.map Standing.result?) = xs.map fun y => (y.1.item, y.1.answer) := by
  induction bookings generalizing acts xs with
  | nil =>
    cases h
    exact ⟨by simp, rfl⟩
  | cons x bookings ih =>
    cases h with
    | @cons _ _ act acts o xs hstands hrest =>
      obtain ⟨hsettings, hreturned⟩ := hstands.returned?
      obtain ⟨hall, hreturns⟩ := ih hrest
      refine ⟨fun y hy => ?_, ?_⟩
      · exact (List.mem_append.1 hy).elim (fun hy => hsettings y (Option.mem_toList.1 hy)) (hall y)
      · rw [Rehearsal.returnsOf] at hreturns ⊢
        rw [List.map_cons, List.zip_cons_cons, List.filterMap_cons, hreturned, hreturns]
        cases o <;> rfl

theorem tells_unstarted (settings : Settings) (bookings : List Booking) (hw : w.records = {}) :
    Tells settings (bookings.map Booking.item) w
      (bookings.map fun x => .unstarted (x.act settings) (w.now + (x.act settings).startAt)) := by
  refine ⟨[], [], hw, ?_, .refl _⟩
  induction bookings with
  | nil => exact .nil
  | cons x bookings ih => exact .cons (o := none) .unstarted ih

/-- **The records of a rehearsal.** At the end of a rehearsal of submissions the records show of each network what has been
returned of those of them that came to their ends. -/
theorem exists_exact_of_run (settings : Settings) (bookings : List Booking) (hw : w.records = {}) :
    ∃ xs : List Conclusion, (∀ x ∈ xs, x.settings = settings) ∧
      (xs.map fun x => (x.item, x.answer)) = returnsOf bookings (run w (bookings.map (Booking.act settings))).2 ∧
      ∀ network, Exact (run w (bookings.map (Booking.act settings))).1.records xs network := by
  have hbegin : Tells settings (bookings.map Booking.item) w
      ((bookings.map (Booking.act settings)).map fun t => .unstarted t (w.now + t.startAt)) := by
    rw [List.map_map]
    exact tells_unstarted settings bookings hw
  obtain ⟨closings, xs, hadds, hlisted, hperm⟩ :=
    runFrom_induction (fun h => tells_pollAll h) (fun _ h => h) hbegin maxMoments
  obtain ⟨hsettings, hreturns⟩ := hlisted.returnsOf
  refine ⟨xs.map Prod.fst, ?_, ?_, fun network => ?_⟩
  · exact List.forall_mem_map.2 hsettings
  · rw [List.map_map]
    exact hreturns.symm
  · have hrecords : (run w (bookings.map (Booking.act settings))).1.records =
        (eventsOf closings).foldl Records.record {} := hadds
    rw [hrecords]
    exact Submission.exact_of_perm network (hperm.symm.flatMap_right _)

end OrderKeeper.Rehearsal
