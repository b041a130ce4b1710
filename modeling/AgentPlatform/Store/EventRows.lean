import AgentPlatform.Store.InboxInvariant

/-!
# The rows of an event

`handler_failure_count` is not stored: it is the number of errored attempts of an event less the
baseline in the event's row. `record_handler_failure` and `retry_blocked_event` are the calls that
change it. Every other call leaves the errored attempts and the baselines alone, adds only events
that never failed, and moves no event to or from `blocked` that it does not work on.
-/

namespace AgentPlatform.Store

open Fallible

/-! ## What a call leaves of the failures -/

/-- An event that a call added. -/
structure EventRow.Arrived (e : EventRow) (base bound : Uuid) : Prop where
  drawn : base ≤ e.id
  below : e.id < bound
  unblocked : e.status ≠ .blocked
  baseline : e.retryFailureBaseline = 0

/-- The event that a session is leased for, or the one that may be claimed. -/
def Session.WorksOn (s : Session) (clock : Clock) (id : EventId) : Prop :=
  (∃ lease, s.lease = some lease ∧ lease.eventId = id) ∨
    ∃ e, s.claimableEvent clock = some e ∧ e.id = id

/-- A row of the same event, of the same baseline. Only the event that the session works on changes
its status, and not to `blocked`. -/
structure EventRow.Moved (s : Session) (clock : Clock) (e e' : EventRow) : Prop where
  id : e'.id = e.id
  baseline : e'.retryFailureBaseline = e.retryFailureBaseline
  status : e'.status = e.status ∨ e'.status ≠ .blocked ∧ s.WorksOn clock e.id

/-- The failures of `s'` are those of `s`, and its new events are drawn from `base` on. -/
structure Session.KeepsFailures (s : Session) (clock : Clock) (base bound : Uuid) (s' : Session) :
    Prop where
  errored : ∀ id, s'.erroredAttempts id = s.erroredAttempts id
  events : ∀ e' ∈ s'.events,
    (∃ e ∈ s.events, EventRow.Moved s clock e e') ∨ e'.Arrived base bound

theorem EventRow.Moved.refl (s : Session) (clock : Clock) (e : EventRow) :
    EventRow.Moved s clock e e := ⟨rfl, rfl, .inl rfl⟩

section

variable {codec : Codec} {clock : Clock} {s s' : Session} {base bound : Uuid}

theorem Session.erroredAttempts_congr (attempts : s'.eventAttempts = s.eventAttempts)
    (id : EventId) : s'.erroredAttempts id = s.erroredAttempts id := by
  unfold Session.erroredAttempts
  rw [attempts]

/-- Attempts that neither were errored nor become so are not counted. -/
theorem Session.erroredAttempts_update {p : EventAttemptRow → Bool}
    {g : EventAttemptRow → EventAttemptRow}
    (attempts : s'.eventAttempts = Table.update p g s.eventAttempts)
    (running : ∀ a, p a = true → a.status = .running) (ends : ∀ a, (g a).status ≠ .errored)
    (id : EventId) : s'.erroredAttempts id = s.erroredAttempts id := by
  unfold Session.erroredAttempts
  rw [attempts, List.countP_eq_length_filter, List.countP_eq_length_filter,
    Table.filter_update_of_not]
  intro a _ hsel
  simp [running a hsel, ends a]

theorem Session.KeepsFailures.of_eq (events : s'.events = s.events)
    (attempts : s'.eventAttempts = s.eventAttempts) : s.KeepsFailures clock base bound s' where
  errored := Session.erroredAttempts_congr attempts
  events e' he' := .inl ⟨e', events ▸ he', .refl s clock e'⟩

/-- Events are added to the end. -/
theorem Session.KeepsFailures.of_append {added : List EventRow}
    (events : s'.events = s.events ++ added) (arrived : ∀ e ∈ added, e.Arrived base bound)
    (attempts : s'.eventAttempts = s.eventAttempts) : s.KeepsFailures clock base bound s' where
  errored := Session.erroredAttempts_congr attempts
  events e' he' := by
    rw [events] at he'
    rcases List.mem_append.mp he' with hold | hnew
    · exact .inl ⟨e', hold, .refl s clock e'⟩
    · exact .inr (arrived e' hnew)

theorem Session.KeepsFailures.of_concat {e : EventRow} (events : s'.events = s.events ++ [e])
    (arrived : e.Arrived base bound) (attempts : s'.eventAttempts = s.eventAttempts) :
    s.KeepsFailures clock base bound s' :=
  .of_append events (fun _ he => List.mem_singleton.mp he ▸ arrived) attempts

/-- The event that the session works on moves, after other events were added. -/
theorem Session.KeepsFailures.of_update {rows : List EventRow} {eventId : EventId}
    {f : EventRow → EventRow}
    (added : ∀ e ∈ rows, e ∈ s.events ∨ EventRow.Arrived e base bound)
    (events : s'.events = Table.update (·.id = eventId) f rows)
    (id : ∀ e, (f e).id = e.id)
    (baseline : ∀ e, (f e).retryFailureBaseline = e.retryFailureBaseline)
    (status : ∀ e, (f e).status ≠ .blocked) (works : s.WorksOn clock eventId)
    (errored : ∀ id, s'.erroredAttempts id = s.erroredAttempts id) :
    s.KeepsFailures clock base bound s' where
  errored := errored
  events e' he' := by
    rw [events] at he'
    obtain ⟨e, he, rfl⟩ := Table.mem_update.mp he'
    rcases added e he with hold | hnew
    · refine .inl ⟨e, hold, ?_⟩
      split
      · rename_i hid
        exact ⟨id e, baseline e, .inr ⟨status e, of_decide_eq_true hid ▸ works⟩⟩
      · exact .refl s clock e
    · refine .inr ?_
      split
      · exact ⟨(id e).symm ▸ hnew.drawn, (id e).symm ▸ hnew.below, status e,
          (baseline e).trans hnew.baseline⟩
      · exact hnew

theorem waitEvent_arrived (clock : Clock) {eventId : EventId} (drawn : base ≤ eventId)
    (below : eventId < bound) (waitId : WaitId) (sequence : EventSequence) (finish : WaitFinish) :
    (waitEvent clock eventId waitId sequence finish).Arrived base bound :=
  ⟨drawn, below, nofun, rfl⟩

theorem operationEvent_arrived (clock : Clock) {eventId : EventId} (drawn : base ≤ eventId)
    (below : eventId < bound) (id : OperationId) (kind : OperationKind) (status : OperationStatus)
    (sequence : EventSequence) :
    (operationEvent clock eventId id kind status sequence).Arrived base bound :=
  ⟨drawn, below, nofun, rfl⟩

/-- Cancelled waits add one event each. -/
theorem Session.cancelWaits_arrived {waitIds : List WaitId} {tick : Nat} {eventId : EventId}
    {sequence next : EventSequence}
    (h : cancelWaits clock waitIds tick eventId sequence s = .ok (next, s')) :
    ∀ e ∈ s'.events, e ∈ s.events ∨ e.Arrived eventId (eventId + waitIds.length) := by
  induction waitIds generalizing tick eventId sequence s with
  | nil =>
    cases h
    exact fun e he => .inl he
  | cons waitId waitIds ih =>
    intro e he
    have hone : eventId < eventId + (waitIds.length + 1) := Nat.lt_add_of_pos_right (Nat.succ_pos _)
    have hrest : eventId + 1 + waitIds.length = eventId + (waitIds.length + 1) := by
      rw [Nat.add_assoc, Nat.add_comm 1]
    unfold Session.cancelWaits at h
    rw [List.length_cons]
    split at h
    · cases h
    · split at h
      · refine (ih h e he).imp_right fun harrived => { harrived with below := ?_ }
        exact Nat.lt_of_lt_of_le harrived.below (Nat.add_le_add_left (Nat.le_succ _) _)
      · split at h
        · cases h
        · rename_i hfinish
          obtain ⟨rfl, -, rfl⟩ := Session.finishWait_ok hfinish
          rcases ih h e he with hold | harrived
          · rcases List.mem_append.mp hold with hin | hnew
            · exact .inl hin
            · rw [List.mem_singleton.mp hnew]
              exact .inr (waitEvent_arrived clock (Nat.le_refl _) hone waitId sequence _)
          · refine .inr { harrived with drawn := ?_, below := hrest ▸ harrived.below }
            exact Nat.le_trans (Nat.le_succ _) harrived.drawn

/-! ## The calls that change the failures -/

/-- The calls that record or forgive a failure. -/
def StoreCall.countsFailures : StoreCall → Bool
  | .recordHandlerFailure .. | .retryBlockedEvent .. => true
  | _ => false

/-- What a recorded failure leaves of the session. -/
def Session.afterFailure (s : Session) (clock : Clock) (claim : HandlerClaim) (error : Value)
    (retryAt : Timestamp) (blocked : Bool) : Session :=
  let failed := (s.finishEventAttempt clock claim .errored (some error)).updateEvents
    (·.id = claim.eventId) fun e =>
      { e with
        status := if blocked then .blocked else .pending
        nextAttemptAt := retryAt
        lastError := some error }
  if blocked then
    ({ failed with
        processingEnabled := false
        processingError := some error
        processingRevision := failed.processingRevision + 1
        lease := none
        updatedAt := clock.now }.emitUpdate clock .eventChanged
          (eventChanged claim.eventId "blocked")).emitUpdate clock .processingChanged
            (.object [("event_id", .uuid claim.eventId)])
  else
    (failed.releaseSessionClaim clock).emitUpdate clock .eventChanged
      (eventChanged claim.eventId "pending")

theorem Session.recordHandlerFailure_eq {claim : HandlerClaim} {error : Value}
    (storable : jsonb error = .ok error) (retryAt : Timestamp) (blocked : Bool) :
    s.recordHandlerFailure clock claim error retryAt blocked =
      (s.lockValidSessionClaim clock claim).map fun _ =>
        ((), s.afterFailure clock claim error retryAt blocked) := by
  simp only [Session.recordHandlerFailure, storable]
  cases s.lockValidSessionClaim clock claim with
  | error error => rfl
  | ok out => cases blocked <;> rfl

theorem Session.recordHandlerFailure_ok {claim : HandlerClaim} {error : Value}
    {retryAt : Timestamp} {blocked : Bool} {r : Unit}
    (h : s.recordHandlerFailure clock claim error retryAt blocked = .ok (r, s')) :
    (∃ lease, s.lease = some lease ∧ lease.eventId = claim.eventId ∧
      lease.token = claim.leaseToken ∧ clock.reading 0 < lease.expiresAt) ∧
      s'.lease = none ∧
      s'.eventAttempts = (s.finishEventAttempt clock claim .errored (some error)).eventAttempts ∧
      s'.events = Table.update (·.id = claim.eventId) (fun e =>
        { e with
          status := if blocked then .blocked else .pending
          nextAttemptAt := retryAt
          lastError := some error }) s.events := by
  cases hjson : jsonb error with
  | error failure =>
    simp only [Session.recordHandlerFailure] at h
    split at h
    · cases h
    · cases h
    · rename_i hstored
      cases hjson.symm.trans hstored
  | ok stored =>
    obtain ⟨rfl, -⟩ := jsonb_ok hjson
    rw [Session.recordHandlerFailure_eq hjson] at h
    cases hlock : s.lockValidSessionClaim clock claim with
    | error failure =>
      rw [hlock] at h
      cases h
    | ok out =>
      obtain ⟨hheld, -⟩ := Session.lockValidSessionClaim_ok hlock
      rw [hlock] at h
      cases h
      cases blocked <;> exact ⟨hheld, rfl, rfl, rfl⟩

/-- A retry that is answered repeats an earlier one under its key, or lets the blocked head be tried
again with its failures as the new baseline. -/
theorem Session.retryBlockedEvent_ok {retryId : Uuid} {eventId : EventId} {expectedRevision : Nat}
    {key : String} {request : RawJson} {reason : Option String} {retry : ProcessingRetry}
    (h : s.retryBlockedEvent codec clock retryId eventId expectedRevision key request reason =
      .ok (retry, s')) :
    (∃ existing, s.retries.find? (·.idempotencyKey == key) = some existing) ∧ s' = s ∨
      s.retries.find? (·.idempotencyKey == key) = none ∧
        s.retryMatches eventId expectedRevision = true ∧ s'.lease = s.lease ∧
        s'.eventAttempts = s.eventAttempts ∧
        s'.events = Table.update (·.id = eventId) (fun e =>
          { e with
            status := .pending
            nextAttemptAt := clock.reading 0
            lastError := none
            retryFailureBaseline := s.erroredAttempts eventId }) s.events := by
  simp only [Session.retryBlockedEvent] at h
  split at h
  · rename_i existing hfound
    split at h
    · cases h
    · cases h
      exact .inl ⟨⟨existing, hfound⟩, rfl⟩
  · rename_i hnone
    split at h
    · cases h
    · rename_i hmatches
      cases h
      exact .inr ⟨hnone, by simpa using hmatches, rfl, rfl, rfl⟩

/-! ## Every other call -/

theorem EventRow.new_arrived (clock : Clock) {eventId : EventId} (drawn : base ≤ eventId)
    (below : eventId < bound) (sequence : EventSequence) (eventType : EventType)
    (payload : RawJson) (idempotencyKey requestHash : Option String) :
    EventRow.Arrived { EventRow.new clock eventId sequence eventType payload with
      idempotencyKey, requestHash } base bound :=
  ⟨drawn, below, nofun, rfl⟩

theorem EventAttemptRow.finish_status (a : EventAttemptRow) (clock : Clock)
    (status : HandlerAttemptStatus) (error : Option Value) :
    (a.finish clock status error).status = status := rfl

/-- The attempt that a claim ends without an error is not counted. -/
theorem Session.erroredAttempts_finish {claim : HandlerClaim} {status : HandlerAttemptStatus}
    {error : Option Value} (unerrored : status ≠ .errored)
    (attempts : s'.eventAttempts = (s.finishEventAttempt clock claim status error).eventAttempts)
    (id : EventId) : s'.erroredAttempts id = s.erroredAttempts id := by
  refine Session.erroredAttempts_update attempts (fun a hsel => ?_) (fun a => unerrored) id
  simp only [Bool.and_eq_true, decide_eq_true_eq] at hsel
  exact hsel.2

/-- A commit adds the events of the waits it cancels, and handles its own. -/
theorem Session.commitHandlerOutcome_keepsFailures {taken : TakenIds} {eventId : EventId}
    {claim : HandlerClaim} {outcome : OutcomeCommit} {r : Unit}
    (h : s.commitHandlerOutcome codec clock taken eventId claim outcome = .ok (r, s')) :
    s.KeepsFailures clock eventId (eventId + outcome.cancelledWaits.length) s' := by
  obtain ⟨c⟩ := Session.commitHandlerOutcome_ok h
  have hwaiting : c.waiting.events = s.events ∧ c.waiting.eventAttempts = s.eventAttempts := by
    have happended : c.appended.inbox = s.inbox := by
      rw [Session.appendHistory_frame c.history]
      rfl
    have hannounced := Session.inbox_of_sansUpdates (Session.sansUpdates_announceHistory c.appended
      clock claim outcome.history.length c.historySequence)
    have hstaged := Session.inbox_of_sansUpdates (Session.stageOperations_frame c.operations)
    have hwaits := Session.inbox_of_sansUpdates (Session.createWaits_frame c.waits)
    have hinbox : c.waiting.inbox = s.inbox :=
      hwaits.trans (hstaged.trans (hannounced.trans happended))
    exact ⟨congrArg Inbox.events hinbox, congrArg Inbox.attempts hinbox⟩
  have hcancelled : c.cancelled.eventAttempts = s.eventAttempts :=
    (congrArg (·.eventAttempts) (Session.cancelWaits_frame c.cancellations)).trans hwaiting.2
  have hevents : s'.events = Table.update _ _ c.cancelled.events := congrArg (·.events) c.result
  have hattempts : s'.eventAttempts =
      (s.finishEventAttempt clock claim .committed none).eventAttempts := by
    have hsaved : s'.eventAttempts = Table.update _ _ c.cancelled.eventAttempts :=
      congrArg (·.eventAttempts) c.result
    rw [hsaved, hcancelled]
    rfl
  obtain ⟨lease, hlease, hevent, -⟩ := c.held
  refine .of_update (fun e he => ?_) hevents (fun _ => rfl) (fun _ => rfl) (fun _ => nofun)
    (.inl ⟨lease, hlease, hevent⟩) (Session.erroredAttempts_finish (by decide) hattempts)
  rw [← hwaiting.1]
  exact Session.cancelWaits_arrived c.cancellations e he

theorem Session.claimEvent_keepsFailures {e : EventRow} (claimable : s.claimableEvent clock = some e)
    (leaseToken attemptId : Uuid) (leaseMs : Int) :
    s.KeepsFailures clock base bound (s.claimEvent clock e leaseToken attemptId leaseMs).2 := by
  have hevents : (s.claimEvent clock e leaseToken attemptId leaseMs).2.events =
      Table.update (·.id = e.id) (fun e => { e with status := .processing }) s.events := rfl
  refine .of_update (fun _ => .inl) hevents (fun _ => rfl) (fun _ => rfl) (fun _ => nofun)
    (.inr ⟨e, claimable, rfl⟩) fun id => ?_
  have hended : (s.updateEventAttempts (fun a => a.eventId = e.id && a.status = .running)
      (·.finish clock .abandoned none)).erroredAttempts id = s.erroredAttempts id := by
    refine Session.erroredAttempts_update rfl (fun a hsel => ?_) (fun a => by simp [EventAttemptRow.finish_status]) id
    simp only [Bool.and_eq_true, decide_eq_true_eq] at hsel
    exact hsel.2
  rw [← hended]
  -- the attempt that the claim starts is running
  simp [Session.erroredAttempts, Session.claimEvent, EventAttemptRow.new, Session.emitUpdate,
    Session.emitUpdateWithEvent, Session.updateEvents, Session.updateEventAttempts]

theorem Session.eventAttempts_settled (s : Session) (clock : Clock) (id : OperationId)
    (f : OperationRow → OperationRow) (expiresAt : Option Timestamp) (e : EventRow) :
    (s.settled clock id f expiresAt e).eventAttempts = s.eventAttempts := by
  cases expiresAt <;> rfl

theorem Session.completeWithdrawal_keepsFailures {eventId : EventId} {claim : ClaimedOperation}
    {targetId : OperationId} {expiresAt : Option Timestamp} {r : Bool × List EventRecord}
    (h : s.completeWithdrawal clock eventId claim targetId expiresAt = .ok (r, s')) :
    s.KeepsFailures clock eventId (eventId + 2) s' := by
  obtain ⟨o, row, events, s₁, e, -, -, -, -, hwithdraw, he, -, -, hresult⟩ :=
    Session.completeWithdrawal_ok h
  have harrived : e.Arrived eventId (eventId + 2) :=
    he ▸ operationEvent_arrived clock (Nat.le_succ _) (Nat.lt_succ_self _) _ _ _ _
  have hevents : s'.events = s₁.events ++ [e] :=
    (congrArg (·.events) hresult).trans (s₁.events_settled clock _ _ _ e)
  have hattempts : s'.eventAttempts = s₁.eventAttempts :=
    (congrArg (·.eventAttempts) hresult).trans (s₁.eventAttempts_settled clock _ _ _ e)
  rcases Session.withdrawTarget_ok hwithdraw with ⟨-, -, rfl⟩ | ⟨-, e₁, -, he₁, -, hs₁⟩
  · exact .of_concat hevents harrived hattempts
  · have htarget : e₁.Arrived eventId (eventId + 2) :=
      he₁ ▸ operationEvent_arrived clock (Nat.le_refl _) (Nat.lt_add_of_pos_right Nat.two_pos) _ _ _ _
    rw [hs₁, Session.events_settled, List.append_assoc] at hevents
    rw [hs₁, Session.eventAttempts_settled] at hattempts
    refine .of_append hevents (fun e' he' => ?_) hattempts
    rcases List.mem_cons.mp he' with rfl | hlast
    · exact htarget
    · exact List.mem_singleton.mp hlast ▸ harrived

/-- The calls that neither record nor forgive a failure leave the failures alone. -/
theorem SessionStep.keepsFailures {db : Db} {call : StoreCall} {reply : Reply}
    (step : SessionStep codec clock db call reply s s') (uncounted : call.countsFailures = false) :
    s.KeepsFailures clock db.nextUuid (db.nextUuid + call.draws) s' := by
  have one : db.nextUuid < db.nextUuid + 1 := Nat.lt_succ_self _
  cases step with
  | patchSessionMetadata h =>
    simp only [Session.patchMetadata] at h
    split at h <;> cases h
    exact .of_eq rfl rfl
  | enqueueExternalEvent session external h =>
    simp only [Session.enqueueExternalEvent] at h
    split at h
    · split at h <;> cases h
      exact .of_eq rfl rfl
    · simp only [Session.insertExternalEvent] at h
      split at h
      · cases h
      · rename_i hinsert
        obtain ⟨-, rfl⟩ := Session.insertEvent_ok hinsert
        cases h
        exact .of_concat rfl (EventRow.new_arrived clock (Nat.le_refl _) one _ _ _ _ _) rfl
  | claimNextEvent claimable => exact Session.claimEvent_keepsFailures claimable _ _ _
  | renewEventClaim session h =>
    simp only [Session.renewEventClaim] at h
    split at h
    · cases h
    · split at h <;> cases h
      exact .of_eq rfl rfl
  | recordHandlerFailure | retryBlockedEvent => cases uncounted
  | abandonHandlerAttempt session h =>
    simp only [Session.abandonHandlerAttempt] at h
    split at h
    · cases h
    · cases h
    · rename_i hlock _
      obtain ⟨⟨lease, hlease, hevent, -⟩, -⟩ := Session.lockValidSessionClaim_ok hlock
      cases h
      exact .of_update (fun _ => .inl) rfl (fun _ => rfl) (fun _ => rfl) (fun _ h => by cases h)
        (.inl ⟨lease, hlease, hevent⟩)
        (Session.erroredAttempts_finish (by decide : HandlerAttemptStatus.abandoned ≠ _) rfl)
  | commitHandlerOutcome session h => exact Session.commitHandlerOutcome_keepsFailures h
  | resolveWait h =>
    simp only [Session.resolveWait] at h
    split at h
    · cases h
    · split at h
      · split at h
        · cases h
        · split at h <;> cases h
          exact .of_eq rfl rfl
      · split at h
        · cases h
        · split at h
          · cases h
          · rename_i hfinish
            obtain ⟨rfl, -, rfl⟩ := Session.finishWait_ok hfinish
            cases h
            exact .of_concat rfl (waitEvent_arrived clock (Nat.le_refl _) one _ _ _) rfl
  | expireWait h =>
    simp only [Session.expireWait] at h
    split at h
    · cases h
    · split at h
      · cases h
        exact .of_eq rfl rfl
      · split at h
        · cases h
        · rename_i hfinish
          obtain ⟨rfl, -, rfl⟩ := Session.finishWait_ok hfinish
          cases h
          exact .of_concat rfl (waitEvent_arrived clock (Nat.le_refl _) one _ _ _) rfl
  | @claimOperation _ _ phase _ o leaseMs ho claimable =>
    have hinbox := Session.inbox_of_sansUpdates (Session.claimOperation_eq s clock o phase
      db.nextUuid (db.nextUuid + 1) leaseMs)
    exact .of_eq (congrArg Inbox.events hinbox) (congrArg Inbox.attempts hinbox)
  | deferOperation session h =>
    obtain ⟨o, -, -, -, -, rfl⟩ := Session.deferOperation_ok h
    exact .of_eq rfl rfl
  | recordOperationAccepted session h =>
    obtain ⟨o, -, -, -, -, -, rfl⟩ := Session.recordOperationAccepted_ok h
    exact .of_eq rfl rfl
  | renewOperationClaim found h =>
    obtain ⟨o, leaseMs, -, rfl⟩ := Session.renewOperationClaim_ok h
    exact .of_eq rfl rfl
  | recordOperationRetry session h =>
    obtain ⟨o, status, -, -, -, rfl⟩ := Session.recordOperationRetry_ok h
    exact .of_eq rfl rfl
  | recordOperationPendingResult session h =>
    obtain ⟨o, -, -, -, -, hresult⟩ := Session.recordOperationPendingResult_ok h
    exact .of_eq (congrArg (·.events) hresult) (congrArg (·.eventAttempts) hresult)
  | completeWithdrawal session phase kind target h =>
    exact Session.completeWithdrawal_keepsFailures h
  | completeOperation session terminal h =>
    obtain ⟨o, e, -, -, he, -, -, hresult⟩ := Session.completeOperation_ok h
    exact .of_concat ((congrArg (·.events) hresult).trans (s.events_settled clock _ _ _ e))
      (he ▸ operationEvent_arrived clock (Nat.le_refl _) one _ _ _ _)
      ((congrArg (·.eventAttempts) hresult).trans (s.eventAttempts_settled clock _ _ _ e))
  | deleteExpiredOperationRequest h =>
    simp only [Session.deleteExpiredOperationRequest] at h
    split at h <;> cases h <;> exact .of_eq rfl rfl
  | pruneUpdates h =>
    simp only [Session.pruneUpdates] at h
    split at h <;> cases h <;> exact .of_eq rfl rfl

/-- The events after a call are those before, and new ones under ids that the call drew. -/
theorem SessionStep.events_drawn {db : Db} {call : StoreCall} {reply : Reply}
    (step : SessionStep codec clock db call reply s s') :
    ∀ e' ∈ s'.events, (∃ e ∈ s.events, e.id = e'.id) ∨
      db.nextUuid ≤ e'.id ∧ e'.id < db.nextUuid + call.draws := by
  intro e' he'
  have rewritten {p : EventRow → Bool} {f : EventRow → EventRow}
      (events : s'.events = Table.update p f s.events) (id : ∀ e, (f e).id = e.id) :
      ∃ e ∈ s.events, e.id = e'.id := by
    rw [events] at he'
    obtain ⟨e, he, rfl⟩ := Table.mem_update.mp he'
    refine ⟨e, he, ?_⟩
    split
    · exact (id e).symm
    · rfl
  have hkeeps := step.keepsFailures
  cases step with
  | recordHandlerFailure session h =>
    obtain ⟨-, -, -, hevents⟩ := Session.recordHandlerFailure_ok h
    exact .inl (rewritten hevents fun _ => rfl)
  | retryBlockedEvent h =>
    rcases Session.retryBlockedEvent_ok h with ⟨-, rfl⟩ | ⟨-, -, -, -, hevents⟩
    · exact .inl ⟨e', he', rfl⟩
    · exact .inl (rewritten hevents fun _ => rfl)
  | _ =>
    rcases (hkeeps rfl).events e' he' with ⟨e, he, hmoved⟩ | harrived
    · exact .inl ⟨e, he, hmoved.id.symm⟩
    · exact .inr ⟨harrived.drawn, harrived.below⟩

end

end AgentPlatform.Store
