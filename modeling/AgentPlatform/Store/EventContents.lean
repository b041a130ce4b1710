import AgentPlatform.Store.EventRows

/-!
# The contents of events

What an event was inserted with never changes, and events are added to the end of the inbox only. So
a worker that was handed an event can rely on its contents and on its place, and what is known of the
completions before it stays so. How a session is described to a harness does not change either.
-/

namespace AgentPlatform.Store

open Fallible

/-! ## Contents -/

/-- The columns of an event that nothing writes again. -/
structure EventContent where
  id : EventId
  sequence : EventSequence
  eventType : EventType
  payload : RawJson
  operationId : Option OperationId
  waitId : Option WaitId
  createdAt : Timestamp

def EventRow.content (e : EventRow) : EventContent where
  id := e.id
  sequence := e.sequence
  eventType := e.eventType
  payload := e.payload
  operationId := e.operationId
  waitId := e.waitId
  createdAt := e.createdAt

def EventRecord.content (e : EventRecord) : EventContent where
  id := e.id
  sequence := e.sequence
  eventType := e.eventType
  payload := e.payload
  operationId := e.operationId
  waitId := e.waitId
  createdAt := e.createdAt

/-- What a completion announces. -/
def EventContent.completion (e : EventContent) : Option (Option OperationId × RawJson) :=
  if e.eventType = .operationCompleted then some (e.operationId, e.payload) else none

/-- The contents of a session's events, in their order. -/
def Session.contents (s : Session) : List EventContent := s.events.map (·.content)

theorem Session.completions_contents (s : Session) :
    s.completions = s.contents.filterMap (·.completion) := by
  rw [Session.contents, List.filterMap_map]
  rfl

/-- Which harness a session is for, and how it configures it. -/
structure SessionSubject where
  harnessId : HarnessId
  harnessVersion : HarnessVersion
  configuration : RawJson

def Session.subject (s : Session) : SessionSubject where
  harnessId := s.harnessId
  harnessVersion := s.harnessVersion
  configuration := s.configuration

/-! ## What a call leaves of them -/

/-- The session goes on from `s` with the status, and with events after those of `s`. -/
structure Session.GoesOn (s : Session) (status : SessionStatus) (s' : Session) : Prop where
  subject : s'.subject = s.subject
  status : s'.status = status
  contents : s.contents <+: s'.contents

section

variable {codec : Codec} {clock : Clock} {s s' : Session} {status : SessionStatus}

theorem Session.contents_prefix_append {added : List EventRow} (events : s'.events = s.events ++ added) :
    s.contents <+: s'.contents := by
  rw [Session.contents, Session.contents, events, List.map_append]
  exact List.prefix_append _ _

theorem Session.contents_update {p : EventRow → Bool} {f : EventRow → EventRow}
    (events : s'.events = Table.update p f s.events) (same : ∀ e, (f e).content = e.content) :
    s'.contents = s.contents := by
  rw [Session.contents, Session.contents, events, Table.map_update_of_eq same]

/-- The events may be worked on, but none is added. -/
theorem Session.GoesOn.of_update {p : EventRow → Bool} {f : EventRow → EventRow}
    (events : s'.events = Table.update p f s.events) (same : ∀ e, (f e).content = e.content)
    (subject : s'.subject = s.subject) (unchanged : s'.status = status) : s.GoesOn status s' where
  subject := subject
  status := unchanged
  contents := (Session.contents_update events same) ▸ List.prefix_rfl

theorem Session.GoesOn.of_append {added : List EventRow} (events : s'.events = s.events ++ added)
    (subject : s'.subject = s.subject) (unchanged : s'.status = status) : s.GoesOn status s' where
  subject := subject
  status := unchanged
  contents := Session.contents_prefix_append events

theorem Session.GoesOn.of_eq (events : s'.events = s.events) (subject : s'.subject = s.subject)
    (unchanged : s'.status = status) : s.GoesOn status s' :=
  .of_append (events.trans (List.append_nil _).symm) subject unchanged

theorem Session.GoesOn.refl (s : Session) : s.GoesOn s.status s := .of_eq rfl rfl rfl

theorem Session.GoesOn.trans {t : Session} (first : s.GoesOn t.status t)
    (second : t.GoesOn status s') : s.GoesOn status s' where
  subject := second.subject.trans first.subject
  status := second.status
  contents := first.contents.trans second.contents

/-- The updates of a session tell of its events, and are none of them. -/
theorem Session.GoesOn.of_sansUpdates {t : Session} (same : s'.sansUpdates = t.sansUpdates)
    (h : s.GoesOn status t) : s.GoesOn status s' where
  subject := by
    have hsubject : s'.sansUpdates.subject = t.sansUpdates.subject := congrArg Session.subject same
    exact hsubject.trans h.subject
  status := by
    have hstatus : s'.sansUpdates.status = t.sansUpdates.status := congrArg (·.status) same
    exact hstatus.trans h.status
  contents := by
    have hcontents : s'.sansUpdates.contents = t.sansUpdates.contents :=
      congrArg Session.contents same
    have : s'.contents = t.contents := hcontents
    rw [this]
    exact h.contents

/-! ## A commit -/

theorem Session.cancelWaits_goesOn {waitIds : List WaitId} {tick : Nat} {eventId : EventId}
    {sequence next : EventSequence}
    (h : cancelWaits clock waitIds tick eventId sequence s = .ok (next, s')) :
    s.GoesOn s.status s' := by
  induction waitIds generalizing tick eventId sequence s with
  | nil =>
    cases h
    exact .refl _
  | cons waitId waitIds ih =>
    unfold Session.cancelWaits at h
    split at h
    · cases h
    · split at h
      · exact ih h
      · split at h
        · cases h
        · rename_i hfinish
          obtain ⟨rfl, -, rfl⟩ := Session.finishWait_ok hfinish
          have hrest := ih h
          have hcontents := (Session.contents_prefix_append rfl).trans hrest.contents
          exact ⟨hrest.subject, hrest.status, hcontents⟩

/-- A commit says the status of its outcome, if it has one. -/
theorem Session.commitHandlerOutcome_goesOn {taken : TakenIds} {eventId : EventId}
    {claim : HandlerClaim} {outcome : OutcomeCommit} {r : Unit}
    (h : s.commitHandlerOutcome codec clock taken eventId claim outcome = .ok (r, s')) :
    s.GoesOn (outcome.status.getD s.status) s' := by
  obtain ⟨c⟩ := Session.commitHandlerOutcome_ok h
  have happended : s.GoesOn s.status c.appended := by
    rw [Session.appendHistory_frame c.history]
    exact .of_eq rfl rfl rfl
  have hannounced := Session.GoesOn.of_sansUpdates (Session.sansUpdates_announceHistory c.appended
    clock claim outcome.history.length c.historySequence) happended
  have hstaged : s.GoesOn s.status c.staged :=
    .of_sansUpdates (Session.stageOperations_frame c.operations)
      ⟨hannounced.subject, hannounced.status, hannounced.contents⟩
  have hwaiting : s.GoesOn s.status c.waiting :=
    .of_sansUpdates (Session.createWaits_frame c.waits)
      ⟨hstaged.subject, hstaged.status, hstaged.contents⟩
  have hcancelled : s.GoesOn s.status c.cancelled := by
    have hwaits := Session.cancelWaits_goesOn c.cancellations
    rw [hwaiting.status] at hwaits
    refine .trans ?_ hwaits
    rw [hwaiting.status]
    exact hwaiting
  have hsaved : c.cancelled.GoesOn (outcome.status.getD c.cancelled.status) s' :=
    .of_sansUpdates c.result (.of_update rfl (fun _ => rfl) rfl rfl)
  rw [hcancelled.status] at hsaved
  refine .trans ?_ hsaved
  rw [hcancelled.status]
  exact hcancelled

/-! ## Every transaction -/

/-- The status that an entry leaves a session in. -/
def Entry.statusAfter (entry : Entry) (status : SessionStatus) : SessionStatus :=
  (entry.committed.bind (·.2.status)).getD status

theorem Session.completeWithdrawal_goesOn {eventId : EventId} {claim : ClaimedOperation}
    {targetId : OperationId} {expiresAt : Option Timestamp} {r : Bool × List EventRecord}
    (h : s.completeWithdrawal clock eventId claim targetId expiresAt = .ok (r, s')) :
    s.GoesOn s.status s' := by
  obtain ⟨o, row, events, s₁, e, -, -, -, -, hwithdraw, -, -, -, hresult⟩ :=
    Session.completeWithdrawal_ok h
  have htarget : s.GoesOn s.status s₁ := by
    rcases Session.withdrawTarget_ok hwithdraw with ⟨-, -, rfl⟩ | ⟨-, e₁, -, -, -, rfl⟩
    · exact .refl _
    · exact .of_append (s.events_settled clock _ _ _ e₁) (by cases expiresAt <;> rfl)
        (by cases expiresAt <;> rfl)
  have hself := htarget
  rw [← htarget.status] at hself
  refine hself.trans (.of_sansUpdates hresult (.of_append (s₁.events_settled clock _ _ _ e) ?_ ?_))
  · cases expiresAt <;> rfl
  · cases expiresAt <;> exact htarget.status

/-- Every transaction leaves the contents of the events before it. -/
theorem SessionStep.goesOn {db : Db} {call : StoreCall} {reply : Reply}
    (step : SessionStep codec clock db call reply s s') :
    s.GoesOn (Entry.statusAfter ⟨call, clock, reply⟩ s.status) s' := by
  cases step with
  | patchSessionMetadata h =>
    simp only [Session.patchMetadata] at h
    split at h <;> cases h
    exact .of_eq rfl rfl rfl
  | enqueueExternalEvent session external h =>
    simp only [Session.enqueueExternalEvent] at h
    split at h
    · split at h <;> cases h
      exact .refl _
    · simp only [Session.insertExternalEvent] at h
      split at h
      · cases h
      · rename_i hinsert
        obtain ⟨-, rfl⟩ := Session.insertEvent_ok hinsert
        cases h
        exact .of_append rfl rfl rfl
  | claimNextEvent claimable => exact .of_update rfl (fun _ => rfl) rfl rfl
  | renewEventClaim session h =>
    simp only [Session.renewEventClaim] at h
    split at h
    · cases h
    · split at h <;> cases h
      exact .of_eq rfl rfl rfl
  | @recordHandlerFailure _ _ _ _ _ blocked _ session h =>
    simp only [Session.recordHandlerFailure] at h
    split at h <;> cases h
    cases blocked <;> exact .of_update rfl (fun _ => rfl) rfl rfl
  | abandonHandlerAttempt session h =>
    simp only [Session.abandonHandlerAttempt] at h
    split at h <;> cases h
    exact .of_update rfl (fun _ => rfl) rfl rfl
  | commitHandlerOutcome session h => exact Session.commitHandlerOutcome_goesOn h
  | retryBlockedEvent h =>
    simp only [Session.retryBlockedEvent] at h
    split at h
    · split at h <;> cases h
      exact .refl _
    · split at h <;> cases h
      exact .of_update rfl (fun _ => rfl) rfl rfl
  | resolveWait h =>
    simp only [Session.resolveWait] at h
    split at h
    · cases h
    · split at h
      · split at h
        · cases h
        · split at h <;> cases h
          exact .refl _
      · split at h
        · cases h
        · split at h
          · cases h
          · rename_i hfinish
            obtain ⟨rfl, -, rfl⟩ := Session.finishWait_ok hfinish
            cases h
            exact .of_append rfl rfl rfl
  | expireWait h =>
    simp only [Session.expireWait] at h
    split at h
    · cases h
    · split at h
      · cases h
        exact .refl _
      · split at h
        · cases h
        · rename_i hfinish
          obtain ⟨rfl, -, rfl⟩ := Session.finishWait_ok hfinish
          cases h
          exact .of_append rfl rfl rfl
  | @claimOperation _ _ phase _ o leaseMs ho claimable =>
    exact .of_sansUpdates (Session.claimOperation_eq s clock o phase db.nextUuid (db.nextUuid + 1)
      leaseMs) (.of_eq rfl rfl rfl)
  | deferOperation session h =>
    obtain ⟨o, -, -, -, -, rfl⟩ := Session.deferOperation_ok h
    exact .of_eq rfl rfl rfl
  | recordOperationAccepted session h =>
    obtain ⟨o, -, -, -, -, -, rfl⟩ := Session.recordOperationAccepted_ok h
    exact .of_eq rfl rfl rfl
  | renewOperationClaim found h =>
    obtain ⟨o, leaseMs, -, rfl⟩ := Session.renewOperationClaim_ok h
    exact .of_eq rfl rfl rfl
  | recordOperationRetry session h =>
    obtain ⟨o, status, -, -, -, rfl⟩ := Session.recordOperationRetry_ok h
    exact .of_eq rfl rfl rfl
  | recordOperationPendingResult session h =>
    obtain ⟨o, -, -, -, -, hresult⟩ := Session.recordOperationPendingResult_ok h
    exact .of_sansUpdates hresult (.of_eq rfl rfl rfl)
  | completeWithdrawal session phase kind target h => exact Session.completeWithdrawal_goesOn h
  | @completeOperation _ _ _ _ _ _ expiresAt _ _ session terminal h =>
    obtain ⟨o, e, -, -, -, -, -, hresult⟩ := Session.completeOperation_ok h
    refine .of_sansUpdates hresult (.of_append (s.events_settled clock _ _ _ e) ?_ ?_)
    · cases expiresAt <;> rfl
    · cases expiresAt <;> rfl
  | deleteExpiredOperationRequest h =>
    simp only [Session.deleteExpiredOperationRequest] at h
    split at h <;> cases h
    · exact .of_eq rfl rfl rfl
    · exact .refl _
  | pruneUpdates h =>
    simp only [Session.pruneUpdates] at h
    split at h <;> cases h <;> exact .of_eq rfl rfl rfl

end

/-! ## Every session of a run -/

theorem Session.After.subject {codec : Codec} {clock : Clock} {db : Db} {call : StoreCall}
    {reply : Reply} {s s' : Session} (after : s.After codec clock db call reply s') :
    s'.subject = s.subject := by
  cases after with
  | same => rfl
  | step step => exact step.goesOn.subject
  | due id f due => rfl

/-- A session that is there was created by the last call, or was there before it. -/
theorem Run.created_or_after {codec : Codec} {trace : List Entry} {db : Db} (run : Run codec trace db)
    (call : StoreCall) (clock : Clock) {t : Session} (ht : t ∈ (exec codec clock db call).2.sessions) :
    (∃ session, call = .createSession session ∧ t = Session.create clock session) ∨
      ∃ s ∈ db.sessions, s.After codec clock db call (exec codec clock db call).1 t := by
  have hstep := exec_cases codec clock run.registered.unique call
  generalize (exec codec clock db call).1 = reply at hstep ⊢
  generalize (exec codec clock db call).2 = db' at hstep ht
  cases hstep with
  | quiet sessions uuids quiet => exact .inr ⟨t, sessions ▸ ht, .same⟩
  | @create session _ created fresh sessions uuids =>
    rw [sessions] at ht
    rcases List.mem_append.mp ht with hold | hnew
    · exact .inr ⟨t, hold, .same⟩
    · exact .inl ⟨session, created, List.mem_singleton.mp hnew⟩
  | @session _ s s' found step =>
    rcases Db.mem_put.mp ht with ⟨rfl, -⟩ | ⟨hold, -⟩
    · exact .inr ⟨s, found, .step step⟩
    · exact .inr ⟨t, hold, .same⟩
  | due id f due quiet sessions uuids =>
    rw [sessions] at ht
    obtain ⟨s, hs, rfl⟩ := List.mem_map.mp ht
    exact .inr ⟨s, hs, .due id f due⟩

end AgentPlatform.Store
