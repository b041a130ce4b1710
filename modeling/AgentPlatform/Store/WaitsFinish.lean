import AgentPlatform.Store.WaitBook

/-!
# A wait finishes once

Every call steps the books of waits, so along every run a wait leaves pending at most once, for a
reason that the clock of that call allows, and its end is announced by one event. A wait that ended
resolved answers the winning response with that event, and refuses every other one.
-/

namespace AgentPlatform.Store

open Fallible

/-! ## What the calls do to the book -/

section

variable {codec : Codec} {entry : Entry} {taken : WaitId → Prop} {s s' : Session} {clock : Clock}
  {eventId : EventId} {waitId : WaitId}

@[simp] theorem Session.waitBook_advanceEventSequence (s : Session) (clock : Clock) :
    (s.advanceEventSequence clock).waitBook = s.waitBook := rfl

@[simp] theorem Session.waitBook_announceWait (s : Session) (clock : Clock) (waitId : WaitId)
    (eventId : EventId) : (s.announceWait clock waitId eventId).waitBook = s.waitBook := rfl

/-- The book after a wait is finished and its event inserted. -/
theorem Session.finishWait_book {sequence : EventSequence} {finish : WaitFinish}
    {finished : WaitRow → WaitRow} {e : EventRow}
    (h : s.finishWait clock eventId waitId sequence finish finished = .ok (e, s')) :
    s'.waitBook = s.waitBook.finish waitId
      (fun w => { finished w with status := finish.status }) finish := by
  obtain ⟨rfl, -, rfl⟩ := Session.finishWait_ok h
  simp only [Session.waitBook, WaitBook.finish, List.filterMap_append]
  rfl

theorem Session.resolveWait_book {key : String} {response : RawJson} {resolution : WaitResolution}
    (h : s.resolveWait codec clock eventId waitId key response = .ok (resolution, s')) :
    WaitBook.Steps codec ⟨.resolveWait waitId key response, clock, .waitResolved resolution⟩ taken
      s.waitBook s'.waitBook := by
  simp only [Session.resolveWait] at h
  split at h
  · cases h
  · rename_i w hfound
    have hid : w.id = waitId := by simpa using List.find?_some hfound
    subst hid
    split at h
    · split at h
      · cases h
      · split at h <;> cases h
        exact .refl
    · split at h
      · cases h
      · rename_i hresolvable
        simp only [WaitRow.resolvable, Bool.not_eq_true', Bool.not_eq_false, Bool.and_eq_true,
          decide_eq_true_eq, Option.all_eq_true] at hresolvable
        obtain ⟨⟨hpending, hmode⟩, hbefore⟩ := hresolvable
        split at h
        · cases h
        · rename_i e s₁ hfinish
          cases h
          rw [Session.waitBook_announceWait, Session.waitBook_advanceEventSequence,
            Session.finishWait_book hfinish]
          exact .single (.finish w (List.mem_of_find?_eq_some hfound) hpending _ _ (fun _ => rfl)
            (fun _ => rfl) (.resolved key response _ rfl rfl rfl rfl rfl rfl rfl hmode hbefore))

/-- A wait that has expired has a deadline that was reached. -/
theorem WaitRow.expired_iff {w : WaitRow} {now : Timestamp} :
    w.expired now = true ↔
      WaitMode.expires w.mode = true ∧ ∃ deadline, w.expiresAt = some deadline ∧ deadline ≤ now := by
  simp [WaitRow.expired, Option.any_eq_true]

theorem Session.expireWait_book {event : Option EventRecord}
    (h : s.expireWait clock eventId waitId = .ok (event, s')) :
    WaitBook.Steps codec ⟨.expireWait waitId, clock, .waitExpired event⟩ taken
      s.waitBook s'.waitBook := by
  simp only [Session.expireWait] at h
  split at h
  · cases h
  · rename_i w hfound
    have hid : w.id = waitId := by simpa using List.find?_some hfound
    subst hid
    split at h
    · cases h
      exact .refl
    · rename_i hdue
      simp only [not_or, Decidable.not_not, Bool.not_eq_true', Bool.not_eq_false] at hdue
      obtain ⟨hpending, hexpired⟩ := hdue
      obtain ⟨hmode, deadline, hdeadline, hreached⟩ := WaitRow.expired_iff.mp hexpired
      split at h
      · cases h
      · rename_i e s₁ hfinish
        cases h
        rw [Session.waitBook_announceWait, Session.waitBook_advanceEventSequence,
          Session.finishWait_book hfinish]
        exact .single (.finish w (List.mem_of_find?_eq_some hfound) hpending _ _ (fun _ => rfl)
          (fun _ => rfl) (.expired _ rfl rfl rfl hmode deadline hdeadline hreached))

/-- Created waits are pending and well formed. -/
theorem Session.createWaits_book {claim : HandlerClaim} {used : WaitId → Bool}
    {waits : List NewWait} (h : createWaits clock claim used waits s = .ok s') :
    WaitBook.Steps codec entry (fun id => used id = true) s.waitBook s'.waitBook := by
  induction waits generalizing s with
  | nil =>
    cases h
    exact .refl
  | cons wait waits ih =>
    simp only [Session.createWaits] at h
    split at h
    · cases h
    · rename_i hwellFormed
      split at h
      · cases h
      · rename_i hfresh
        simp only [Bool.or_eq_true, not_or, List.any_eq_true, decide_eq_true_eq, not_exists,
          not_and] at hfresh
        simp only [NewWait.wellFormed, Bool.not_eq_true', Bool.not_eq_false, Bool.and_eq_true,
          beq_iff_eq] at hwellFormed
        exact .head (.create (wait.row clock claim) rfl hwellFormed.1 hfresh.2 hfresh.1) (ih h)

/-- A wait that is cancelled before its deadline: a mode without one has none. -/
theorem WaitRow.before_deadline {w : WaitRow} {now : Timestamp}
    (deadline : WaitMode.expires w.mode = w.expiresAt.isSome) (h : w.expired now = false) :
    ∀ deadline ∈ w.expiresAt, now < deadline := by
  intro at' hat
  have hmode : WaitMode.expires w.mode = true := by
    rw [deadline, Option.mem_def.mp hat]
    rfl
  by_contra hreached
  have : w.expired now = true := WaitRow.expired_iff.mpr ⟨hmode, at', hat, not_lt.mp hreached⟩
  rw [h] at this
  cases this

/-- The waits that a commit cancels, each at its own reading of the clock. -/
theorem Session.cancelWaits_book {claim : HandlerClaim} {outcome : OutcomeCommit}
    {waitIds : List WaitId} {tick : Nat} {sequence next : EventSequence}
    (asked : ∀ id ∈ waitIds, id ∈ outcome.cancelledWaits) (sound : s.waitBook.Sound)
    (h : cancelWaits clock waitIds tick eventId sequence s = .ok (next, s')) :
    WaitBook.Steps codec ⟨.commitHandlerOutcome claim outcome, clock, .done⟩ taken
      s.waitBook s'.waitBook := by
  induction waitIds generalizing tick eventId sequence s with
  | nil =>
    cases h
    exact .refl
  | cons waitId waitIds ih =>
    have hrest : ∀ id ∈ waitIds, id ∈ outcome.cancelledWaits :=
      fun id hid => asked id (List.mem_cons_of_mem _ hid)
    unfold Session.cancelWaits at h
    split at h
    · cases h
    · rename_i w hfound
      have hid : w.id = waitId := by simpa using List.find?_some hfound
      subst hid
      have hw : w ∈ s.waitBook.waits := List.mem_of_find?_eq_some hfound
      split at h
      · exact ih hrest sound h
      · rename_i hpending
        split at h
        · cases h
        · rename_i e s₁ hfinish
          have hstep : WaitBook.Step codec ⟨.commitHandlerOutcome claim outcome, clock, .done⟩ taken
              s.waitBook (s₁.announceWait clock w.id eventId).waitBook := by
            rw [Session.waitBook_announceWait, Session.finishWait_book hfinish]
            refine .finish w hw (not_not.mp hpending) _ _ (fun _ => rfl) (fun _ => rfl) ?_
            have hasked := asked w.id List.mem_cons_self
            by_cases hexpired : w.expired (clock.reading tick) = true
            · obtain ⟨hmode, deadline, hdeadline, hreached⟩ := WaitRow.expired_iff.mp hexpired
              exact .overdue claim outcome rfl rfl hasked (by simp [WaitRow.cancelFinish, hexpired,
                WaitFinish.status]) hmode tick deadline hdeadline hreached
            · have hbefore := WaitRow.before_deadline (sound.deadline w hw) (by simpa using hexpired)
              exact .cancelled claim outcome rfl rfl hasked (by simp [WaitRow.cancelFinish, hexpired,
                WaitFinish.status]) tick hbefore
          exact .head hstep (ih hrest (hstep.sound sound) h)

end

section

variable {codec : Codec} {clock : Clock} {s s' : Session}

theorem Session.commitHandlerOutcome_book {taken : TakenIds} {eventId : EventId}
    {claim : HandlerClaim} {outcome : OutcomeCommit} {r : Unit} (sound : s.waitBook.Sound)
    (h : s.commitHandlerOutcome codec clock taken eventId claim outcome = .ok (r, s')) :
    WaitBook.Steps codec ⟨.commitHandlerOutcome claim outcome, clock, .done⟩
      (fun id => taken.wait id = true) s.waitBook s'.waitBook := by
  obtain ⟨c⟩ := Session.commitHandlerOutcome_ok h
  have hstaged : c.staged.waitBook = s.waitBook := by
    rw [Session.waitBook_of_sansUpdates (Session.stageOperations_frame c.operations)]
    show (c.appended.announceHistory clock claim outcome.history.length c.historySequence).waitBook
      = _
    rw [Session.waitBook_of_sansUpdates (Session.sansUpdates_announceHistory ..),
      Session.appendHistory_frame c.history]
    rfl
  have hcreated : WaitBook.Steps codec ⟨.commitHandlerOutcome claim outcome, clock, .done⟩
      (fun id => taken.wait id = true) s.waitBook c.waiting.waitBook :=
    hstaged ▸ Session.createWaits_book c.waits
  have hsaved : s'.waitBook = c.cancelled.waitBook := by
    rw [Session.waitBook_of_sansUpdates c.result]
    exact Session.waitBook_of_update rfl rfl fun _ => rfl
  rw [hsaved]
  exact hcreated.trans
    (Session.cancelWaits_book (fun _ hid => hid) (hcreated.sound sound) c.cancellations)

/-- The waits that the other sessions hold. -/
def Db.WaitElsewhere (db : Db) (id : SessionId) (waitId : WaitId) : Prop :=
  ∃ t ∈ db.sessions, t.id ≠ id ∧ ∃ w ∈ t.waits, w.id = waitId

theorem Db.takenIds_wait (db : Db) (id : SessionId) (waitId : WaitId) :
    (db.takenIds id).wait waitId = true ↔ db.WaitElsewhere id waitId := by
  simp [Db.takenIds, Db.others, Db.WaitElsewhere]

/-- A settled operation announces no resumption. -/
theorem Session.settled_book (s : Session) (clock : Clock) (id : OperationId) (f : OperationRow → OperationRow)
    (expiresAt : Option Timestamp) {e : EventRow} (silent : e.resumption = none) :
    (s.settled clock id f expiresAt e).waitBook = s.waitBook := by
  have hevents : (s.settled clock id f expiresAt e).events = s.events ++ [e] := by
    cases expiresAt <;> rfl
  refine Session.waitBook_of_events ?_ hevents (by simpa using silent)
  cases expiresAt <;> rfl

theorem SessionStep.book {db : Db} {call : StoreCall} {reply : Reply}
    (step : SessionStep codec clock db call reply s s') (sound : s.waitBook.Sound) :
    WaitBook.Steps codec ⟨call, clock, reply⟩ (db.WaitElsewhere s.id) s.waitBook s'.waitBook := by
  have same (h : s'.waitBook = s.waitBook) : WaitBook.Steps codec ⟨call, clock, reply⟩
      (db.WaitElsewhere s.id) s.waitBook s'.waitBook := h ▸ .refl
  cases step with
  | patchSessionMetadata h =>
    simp only [Session.patchMetadata] at h
    split at h <;> cases h
    exact same rfl
  | enqueueExternalEvent session external h =>
    simp only [Session.enqueueExternalEvent] at h
    split at h
    · split at h <;> cases h
      exact same rfl
    · simp only [Session.insertExternalEvent] at h
      split at h
      · cases h
      · rename_i hinsert
        obtain ⟨-, rfl⟩ := Session.insertEvent_ok hinsert
        cases h
        refine same (Session.waitBook_of_events rfl rfl fun e he => ?_)
        rw [List.mem_singleton.mp he]
        rcases external with h | h <;> simp [EventRow.resumption, EventRow.new, h]
  | claimNextEvent claimable => exact same (Session.waitBook_of_update rfl rfl fun _ => rfl)
  | renewEventClaim session h =>
    simp only [Session.renewEventClaim] at h
    split at h
    · cases h
    · split at h <;> cases h
      exact same rfl
  | @recordHandlerFailure _ _ _ _ _ blocked _ session h =>
    simp only [Session.recordHandlerFailure] at h
    split at h <;> cases h
    cases blocked <;> exact same (Session.waitBook_of_update rfl rfl fun _ => rfl)
  | abandonHandlerAttempt session h =>
    simp only [Session.abandonHandlerAttempt] at h
    split at h <;> cases h
    exact same (Session.waitBook_of_update rfl rfl fun _ => rfl)
  | commitHandlerOutcome session h =>
    have htaken : (fun id => (db.takenIds s.id).wait id = true) = db.WaitElsewhere s.id :=
      funext fun id => propext (db.takenIds_wait s.id id)
    exact htaken ▸ Session.commitHandlerOutcome_book sound h
  | retryBlockedEvent h =>
    simp only [Session.retryBlockedEvent] at h
    split at h
    · split at h <;> cases h
      exact same rfl
    · split at h <;> cases h
      exact same (Session.waitBook_of_update rfl rfl fun _ => rfl)
  | resolveWait h => exact Session.resolveWait_book h
  | expireWait h => exact Session.expireWait_book h
  | claimOperation found claimable =>
    exact same ((Session.waitBook_of_sansUpdates (Session.claimOperation_eq ..)).trans rfl)
  | deferOperation session h =>
    obtain ⟨o, -, -, -, -, rfl⟩ := Session.deferOperation_ok h
    exact same rfl
  | recordOperationAccepted session h =>
    obtain ⟨o, -, -, -, -, -, rfl⟩ := Session.recordOperationAccepted_ok h
    exact same rfl
  | renewOperationClaim found h =>
    obtain ⟨o, leaseMs, -, rfl⟩ := Session.renewOperationClaim_ok h
    exact same rfl
  | recordOperationRetry session h =>
    obtain ⟨o, status, -, -, -, rfl⟩ := Session.recordOperationRetry_ok h
    exact same rfl
  | recordOperationPendingResult session h =>
    obtain ⟨o, -, -, -, -, hresult⟩ := Session.recordOperationPendingResult_ok h
    exact same ((Session.waitBook_of_sansUpdates hresult).trans rfl)
  | completeWithdrawal session phase kind target h =>
    obtain ⟨o, row, events, s₁, e, -, -, -, -, hwithdraw, he, -, -, hresult⟩ :=
      Session.completeWithdrawal_ok h
    have htarget : s₁.waitBook = s.waitBook := by
      rcases Session.withdrawTarget_ok hwithdraw with ⟨-, -, rfl⟩ | ⟨-, e₁, -, he₁, -, rfl⟩
      · rfl
      · exact s.settled_book clock _ _ _ (he₁ ▸ rfl)
    refine same ?_
    rw [Session.waitBook_of_sansUpdates hresult, ← htarget]
    exact s₁.settled_book clock _ _ _ (he ▸ rfl)
  | completeOperation session terminal h =>
    obtain ⟨o, e, -, -, he, -, -, hresult⟩ := Session.completeOperation_ok h
    refine same ?_
    rw [Session.waitBook_of_sansUpdates hresult]
    exact s.settled_book clock _ _ _ (he ▸ rfl)
  | deleteExpiredOperationRequest h =>
    simp only [Session.deleteExpiredOperationRequest] at h
    split at h <;> cases h <;> exact same rfl
  | pruneUpdates h =>
    simp only [Session.pruneUpdates] at h
    split at h <;> cases h <;> exact same rfl

end

/-! ## Every run -/

/-- The book of a session is sound, and every finished wait in it was finished by an entry. -/
structure WaitInvariant (codec : Codec) (trace : List Entry) (s : Session) : Prop where
  sound : s.waitBook.Sound
  finished : ∀ w ∈ s.waits, w.status ≠ .pending → ∃ entry ∈ trace, entry.Finished codec w

theorem waitInvariant_rule (codec : Codec) : SessionRule codec (WaitInvariant codec) where
  create trace clock session absent unclaimed := by
    refine ⟨⟨List.nodup_nil, ?_, ?_, ?_⟩, ?_⟩
    · exact fun w hw => absurd hw List.not_mem_nil
    · exact fun w hw => absurd hw List.not_mem_nil
    · exact fun r hr => absurd hr List.not_mem_nil
    · exact fun w hw => absurd hw List.not_mem_nil
  step trace db call clock reply s s' registered admissible step h := by
    have hsteps := step.book h.sound
    refine ⟨hsteps.sound h.sound, fun w hw hsettled => ?_⟩
    rcases hsteps.finished h.sound hw hsettled with hold | hnew
    · obtain ⟨entry, hentry, hfinished⟩ := h.finished w hold hsettled
      exact ⟨entry, List.mem_append_left _ hentry, hfinished⟩
    · exact ⟨_, List.mem_append_right _ List.mem_cons_self, hnew⟩
  foreign trace entry s foreign h := by
    refine ⟨h.sound, fun w hw hsettled => ?_⟩
    obtain ⟨entry', hentry, hfinished⟩ := h.finished w hw hsettled
    exact ⟨entry', List.mem_append_left _ hentry, hfinished⟩
  due trace s id f due h := ⟨h.sound, h.finished⟩

theorem Run.waitInvariant {codec : Codec} {trace : List Entry} {db : Db}
    (run : Run codec trace db) {s : Session} (hs : s ∈ db.sessions) : WaitInvariant codec trace s :=
  run.forall_sessions (waitInvariant_rule codec) s hs

/-- What one call makes of the waits of a database: none is lost, a finished one stays as it is, and
new ones, of ids that no wait had, are all created in the session `owner`. -/
structure Db.WaitsStep (db : Db) (owner : SessionId) (db' : Db) : Prop where
  forward : ∀ s ∈ db.sessions, ∀ w ∈ s.waits, ∃ s' ∈ db'.sessions, s'.id = s.id ∧
    ∃ w' ∈ s'.waits, w.Later w'
  back : ∀ s' ∈ db'.sessions, ∀ w' ∈ s'.waits,
    (∃ s ∈ db.sessions, s.id = s'.id ∧ ∃ w ∈ s.waits, w.id = w'.id) ∨
    s'.id = owner ∧ ∀ s ∈ db.sessions, s.id ≠ owner → ∀ w ∈ s.waits, w.id ≠ w'.id

theorem Db.WaitsStep.of_mem {db db' : Db} (kept : ∀ s ∈ db.sessions, s ∈ db'.sessions)
    (added : ∀ s ∈ db'.sessions, s ∈ db.sessions ∨ s.waits = []) (owner : SessionId) :
    db.WaitsStep owner db' where
  forward s hs w hw := ⟨s, kept s hs, rfl, w, hw, .refl w⟩
  back s' hs' w' hw' := by
    rcases added s' hs' with hold | hnone
    · exact .inl ⟨s', hold, rfl, w', hw', rfl⟩
    · rw [hnone] at hw'
      exact absurd hw' List.not_mem_nil

/-- Every call of a run steps the waits of the database. -/
theorem Run.waits_step {codec : Codec} {trace : List Entry} {db : Db} (run : Run codec trace db)
    (call : StoreCall) (clock : Clock) :
    ∃ owner, db.WaitsStep owner (exec codec clock db call).2 := by
  have registered := run.registered
  have hstep := exec_cases codec clock registered.unique call
  generalize (exec codec clock db call).1 = reply at hstep
  generalize (exec codec clock db call).2 = db' at hstep ⊢
  cases hstep with
  | quiet sessions uuids quiet =>
    exact ⟨0, .of_mem (fun s hs => sessions ▸ hs) (fun s hs => .inl (sessions ▸ hs)) 0⟩
  | create created fresh sessions uuids =>
    refine ⟨0, .of_mem (fun s hs => ?_) (fun s hs => ?_) 0⟩
    · rw [sessions]
      exact List.mem_append_left _ hs
    · rw [sessions] at hs
      rcases List.mem_append.mp hs with hold | hnew
      · exact .inl hold
      · rw [List.mem_singleton.mp hnew]
        exact .inr rfl
  | @session _ s s' found step =>
    have hsound := (run.waitInvariant found).sound
    have hsteps := step.book hsound
    have hput : s' ∈ (db.put s').sessions :=
      Db.mem_put.mpr (.inl ⟨rfl, s, found, step.id_eq.symm⟩)
    refine ⟨s.id, fun t ht w hw => ?_, fun t' ht' w' hw' => ?_⟩
    · by_cases hid : t.id = s.id
      · have := Table.eq_of_key registered.unique ht found hid
        subst this
        obtain ⟨w', hw', hlater⟩ := hsteps.later hsound hw
        exact ⟨s', hput, step.id_eq, w', hw', hlater⟩
      · exact ⟨t, Db.mem_put.mpr (.inr ⟨ht, step.id_eq ▸ hid⟩), rfl, w, hw, .refl w⟩
    · rcases Db.mem_put.mp ht' with ⟨rfl, -⟩ | ⟨hold, hother⟩
      · rcases hsteps.origin hw' with ⟨w, hw, hid⟩ | huntaken
        · exact .inl ⟨s, found, step.id_eq.symm, w, hw, hid⟩
        · refine .inr ⟨step.id_eq, fun t ht hother w hw hid => ?_⟩
          exact huntaken ⟨t, ht, hother, w, hw, hid⟩
      · exact .inl ⟨t', hold, rfl, w', hw', rfl⟩
  | due id f due quiet sessions uuids =>
    refine ⟨0, fun s hs w hw => ?_, fun s' hs' w' hw' => ?_⟩
    · refine ⟨s.updateOperations (·.id = id) f, ?_, rfl, w, hw, .refl w⟩
      rw [sessions]
      exact List.mem_map.mpr ⟨s, hs, rfl⟩
    · rw [sessions] at hs'
      obtain ⟨s, hs, rfl⟩ := List.mem_map.mp hs'
      exact .inl ⟨s, hs, rfl, w', hw', rfl⟩

/-- A wait id names one session. -/
theorem Run.wait_owner {codec : Codec} {trace : List Entry} {db : Db} (run : Run codec trace db)
    {s t : Session} (hs : s ∈ db.sessions) (ht : t ∈ db.sessions) {w w' : WaitRow}
    (hw : w ∈ s.waits) (hw' : w' ∈ t.waits) (heq : w.id = w'.id) : s = t := by
  induction run generalizing s t w w' with
  | start => exact absurd hs List.not_mem_nil
  | step call clock run admissible ih =>
    obtain ⟨owner, hstep⟩ := run.waits_step call clock
    refine Table.eq_of_key (Run.step call clock run admissible).registered.unique hs ht ?_
    rcases hstep.back s hs w hw with ⟨s₀, hs₀, hsid, w₀, hw₀, hid⟩ | ⟨howner, hfresh⟩
    · rcases hstep.back t ht w' hw' with ⟨t₀, ht₀, htid, w₀', hw₀', hid'⟩ | ⟨howner', hfresh⟩
      · rw [← hsid, ← htid, ih hs₀ ht₀ hw₀ hw₀' (hid.trans (heq.trans hid'.symm))]
      · by_contra hother
        exact hfresh s₀ hs₀ (fun h => hother (hsid.symm.trans (h.trans howner'.symm))) w₀ hw₀
          (hid.trans heq)
    · rcases hstep.back t ht w' hw' with ⟨t₀, ht₀, htid, w₀', hw₀', hid'⟩ | ⟨howner', -⟩
      · by_contra hother
        exact hfresh t₀ ht₀ (fun h => hother (howner.trans (h.symm.trans htid))) w₀' hw₀'
          (hid'.trans heq.symm)
      · rw [howner, howner']

/-- A wait is there in every continuation, and does not change once it finished. -/
theorem Continues.wait_later {codec : Codec} {trace trace' : List Entry} {db db' : Db}
    (h : Continues codec trace db trace' db') (run : Run codec trace db) {s : Session}
    (hs : s ∈ db.sessions) {w : WaitRow} (hw : w ∈ s.waits) :
    ∃ s' ∈ db'.sessions, s'.id = s.id ∧ ∃ w' ∈ s'.waits, w.Later w' := by
  induction h with
  | refl => exact ⟨s, hs, rfl, w, hw, .refl w⟩
  | step call clock before admissible ih =>
    obtain ⟨s₁, hs₁, hid₁, w₁, hw₁, hlater₁⟩ := ih
    obtain ⟨owner, hstep⟩ := (before.run run).waits_step call clock
    obtain ⟨s₂, hs₂, hid₂, w₂, hw₂, hlater₂⟩ := hstep.forward s₁ hs₁ w₁ hw₁
    exact ⟨s₂, hs₂, hid₂.trans hid₁, w₂, hw₂, hlater₁.trans hlater₂⟩

/-! ## In terms of the tables -/

/-- The `wait_resumed` events of a wait in a session. -/
def Session.resumedEvents (s : Session) (id : WaitId) : List EventRow :=
  s.events.filter fun e => e.waitId = some id && e.eventType = .waitResumed

theorem Session.announced_resumed (s : Session) (id : WaitId) :
    s.waitBook.announced id = (s.resumedEvents id).map (·.payload) := by
  have hannounced : s.waitBook.announced id =
      (s.events.filterMap (·.resumption)).filterMap fun r =>
        if r.1 = some id then some r.2 else none := rfl
  rw [hannounced, List.filterMap_filterMap, Session.resumedEvents]
  generalize s.events = events
  induction events with
  | nil => rfl
  | cons e events ih =>
    rw [List.filterMap_cons, List.filter_cons, ih]
    by_cases htype : e.eventType = .waitResumed <;> by_cases hid : e.waitId = some id <;>
      simp [EventRow.resumption, htype, hid]

end AgentPlatform.Store
