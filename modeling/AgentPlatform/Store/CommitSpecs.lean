import AgentPlatform.Store.OperationSpecs

/-!
# What a commit does

The loops of `commit_handler_outcome_classified`, each with the part of the session it writes, and
the shape of a successful commit.
-/

namespace AgentPlatform.Store

open Fallible

/-! ## The loops -/

theorem Session.appendHistory_frame {codec : Codec} {clock : Clock} {claim : HandlerClaim}
    {taken : HistoryEntryId → Bool} {entries : List NewHistoryEntry} {sequence : HistorySequence}
    {s s' : Session} {next : HistorySequence}
    (h : appendHistory codec clock claim taken entries sequence s = .ok (next, s')) :
    s' = { s with history := s'.history } := by
  induction entries generalizing sequence s with
  | nil =>
    cases h
    rfl
  | cons entry entries ih =>
    unfold Session.appendHistory at h
    split at h
    · cases h
    · split at h
      · cases h
      · rw [ih h]

theorem Session.stageOperations_frame {codec : Codec} {clock : Clock} {claim : HandlerClaim}
    {taken : OperationId → Bool} {operations : List NewOperation} {s s' : Session}
    (h : stageOperations codec clock claim taken operations s = .ok s') :
    s'.sansUpdates =
      { s with operations := s'.operations, requests := s'.requests }.sansUpdates := by
  induction operations generalizing s with
  | nil =>
    cases h
    rfl
  | cons operation operations ih =>
    simp only [Session.stageOperations] at h
    split at h
    · cases h
    · split at h
      · cases h
      · split at h
        · cases h
        · have hframe := ih h
          exact hframe

theorem Session.createWaits_frame {clock : Clock} {claim : HandlerClaim} {taken : WaitId → Bool}
    {waits : List NewWait} {s s' : Session}
    (h : createWaits clock claim taken waits s = .ok s') :
    s'.sansUpdates = { s with waits := s'.waits }.sansUpdates := by
  induction waits generalizing s with
  | nil =>
    cases h
    rfl
  | cons wait waits ih =>
    simp only [Session.createWaits] at h
    split at h
    · cases h
    · split at h
      · cases h
      · have hframe := ih h
        exact hframe

theorem Session.finishWait_ok {s s' : Session} {clock : Clock} {eventId : EventId}
    {waitId : WaitId} {sequence : EventSequence} {finish : WaitFinish}
    {finished : WaitRow → WaitRow} {e : EventRow}
    (h : s.finishWait clock eventId waitId sequence finish finished = .ok (e, s')) :
    e = waitEvent clock eventId waitId sequence finish ∧
      (∀ e' ∈ s.events, Session.eventsConflict e e' = false) ∧
      s' =
        { s.updateWaits (·.id = waitId) (fun w => { finished w with status := finish.status }) with
          events := s.events ++ [e] } := by
  simp only [Session.finishWait] at h
  split at h
  · cases h
  · rename_i hinsert
    obtain ⟨hfresh, rfl⟩ := Session.insertEvent_ok hinsert
    cases h
    exact ⟨rfl, hfresh, rfl⟩

theorem Session.cancelWaits_frame {clock : Clock} {waitIds : List WaitId} {tick : Nat}
    {eventId : EventId} {sequence next : EventSequence} {s s' : Session}
    (h : cancelWaits clock waitIds tick eventId sequence s = .ok (next, s')) :
    s'.sansUpdates = { s with waits := s'.waits, events := s'.events }.sansUpdates := by
  induction waitIds generalizing tick eventId sequence s with
  | nil =>
    cases h
    rfl
  | cons waitId waitIds ih =>
    unfold Session.cancelWaits at h
    split at h
    · cases h
    · split at h
      · exact ih h
      · split at h
        · cases h
        · rename_i hfinish
          obtain ⟨-, -, rfl⟩ := Session.finishWait_ok hfinish
          have hframe := ih h
          exact hframe

/-- The waits that are cancelled add their events to the inbox. -/
theorem Session.cancelWaits_arrives {clock : Clock} {waitIds : List WaitId} {tick : Nat}
    {eventId : EventId} {sequence next : EventSequence} {s s' : Session}
    (h : cancelWaits clock waitIds tick eventId sequence s = .ok (next, s')) :
    ∃ ids, (s.inboxAt sequence).Arrives ids (s'.inboxAt next) := by
  induction waitIds generalizing tick eventId sequence s with
  | nil =>
    cases h
    exact ⟨[], .refl _⟩
  | cons waitId waitIds ih =>
    unfold Session.cancelWaits at h
    split at h
    · cases h
    · split at h
      · exact ih h
      · split at h
        · cases h
        · rename_i hfinish
          obtain ⟨ids, hids⟩ := ih h
          obtain ⟨harrives, -⟩ := Session.finishWait_arrives hfinish
          exact ⟨_, harrives.trans hids⟩

/-! ## The transaction -/

/-- The session that a commit saves, before its last updates. -/
def Session.saved (s : Session) (clock : Clock) (claim : HandlerClaim) (outcome : OutcomeCommit)
    (historySequence : HistorySequence) (eventSequence : EventSequence) : Session :=
  let s : Session :=
    { s with
      state := outcome.state
      status := outcome.status.getD s.status
      stateVersion := s.stateVersion + 1
      nextHistorySequence := historySequence
      lease := none
      nextEventSequence := eventSequence
      updatedAt := clock.now }
  let s := s.updateEvents (·.id = claim.eventId) fun e =>
    { e with status := .handled, handledAt := some clock.now, lastError := none }
  s.finishEventAttempt clock claim .committed none

theorem Session.saveOutcome_ok {s s' : Session} {clock : Clock} {claim : HandlerClaim}
    {outcome : OutcomeCommit} {historySequence : HistorySequence} {eventSequence : EventSequence}
    {r : Unit}
    (h : s.saveOutcome clock claim outcome historySequence eventSequence = .ok (r, s')) :
    s.eventAttempts.countP (Inbox.runs (claim.attemptId, claim.leaseToken)) = 1 ∧
      s'.sansUpdates =
        (s.saved clock claim outcome historySequence eventSequence).sansUpdates := by
  simp only [Session.saveOutcome] at h
  split at h
  · cases h
  · rename_i hcount
    cases h
    exact ⟨not_not.mp hcount, rfl⟩

/-- A successful commit, statement by statement. -/
structure Session.Commit (s : Session) (codec : Codec) (clock : Clock) (taken : TakenIds)
    (eventId : EventId) (claim : HandlerClaim) (outcome : OutcomeCommit) (s' : Session) where
  historySequence : HistorySequence
  eventSequence : EventSequence
  appended : Session
  staged : Session
  waiting : Session
  cancelled : Session
  held : ∃ lease, s.lease = some lease ∧ lease.eventId = claim.eventId ∧
    lease.token = claim.leaseToken ∧ clock.reading 0 < lease.expiresAt
  version : s.stateVersion = claim.inputStateVersion
  history : Session.appendHistory codec clock claim taken.history outcome.history
    s.nextHistorySequence s = .ok (historySequence, appended)
  operations : Session.stageOperations codec clock claim taken.operation outcome.operations
    (appended.announceHistory clock claim outcome.history.length historySequence) = .ok staged
  waits : Session.createWaits clock claim taken.wait outcome.waits staged = .ok waiting
  cancellations : Session.cancelWaits clock outcome.cancelledWaits 1 eventId
    waiting.nextEventSequence waiting = .ok (eventSequence, cancelled)
  progress : progressFits codec outcome.progress = true
  running : cancelled.eventAttempts.countP (Inbox.runs (claim.attemptId, claim.leaseToken)) = 1
  result : s'.sansUpdates =
    (cancelled.saved clock claim outcome historySequence eventSequence).sansUpdates

theorem Session.commitHandlerOutcome_ok {s s' : Session} {codec : Codec} {clock : Clock}
    {taken : TakenIds} {eventId : EventId} {claim : HandlerClaim} {outcome : OutcomeCommit}
    {r : Unit}
    (h : s.commitHandlerOutcome codec clock taken eventId claim outcome = .ok (r, s')) :
    Nonempty (s.Commit codec clock taken eventId claim outcome s') := by
  obtain ⟨⟨historySequence, version⟩, hlock, h⟩ := bind_ok h
  obtain ⟨hheld, hout⟩ := Session.lockValidSessionClaim_ok hlock
  cases hout
  dsimp only at h
  split at h
  · cases h
  · rename_i hversion
    obtain ⟨⟨sequence, appended⟩, happend, h⟩ := bind_ok h
    obtain ⟨staged, hstage, h⟩ := bind_ok h
    obtain ⟨waiting, hwaits, h⟩ := bind_ok h
    obtain ⟨⟨eventSequence, cancelled⟩, hcancel, h⟩ := bind_ok h
    dsimp only at h
    split at h
    · cases h
    · rename_i hprogress
      obtain ⟨hrunning, hsaved⟩ := Session.saveOutcome_ok h
      have hsame : (cancelled.emitProgress clock claim outcome.progress).sansUpdates =
          cancelled.sansUpdates := Session.sansUpdates_emitProgress ..
      have hattempts : (cancelled.emitProgress clock claim outcome.progress).eventAttempts =
          cancelled.eventAttempts := congrArg (·.eventAttempts) hsame
      exact ⟨
        { historySequence := sequence
          eventSequence
          appended
          staged
          waiting
          cancelled
          held := hheld
          version := not_not.mp hversion
          history := happend
          operations := hstage
          waits := hwaits
          cancellations := hcancel
          progress := by simpa using hprogress
          running := hattempts ▸ hrunning
          result := hsaved.trans
            (congrArg (fun s => (s.saved clock claim outcome sequence eventSequence).sansUpdates)
              hsame) }⟩

end AgentPlatform.Store
