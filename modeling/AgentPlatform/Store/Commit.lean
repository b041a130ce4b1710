import AgentPlatform.Store.Waits

/-!
# Committing a handler outcome

`commit_handler_outcome_classified`: one transaction that appends the history, stages the
operations, creates and cancels waits, records progress, saves the state and the status, marks the
event handled and ends the attempt. Each loop of the source is a function over the list it walks.
-/

namespace AgentPlatform.Store

/-! ## Outcomes -/

structure NewHistoryEntry where
  id : HistoryEntryId
  message : RawJson
deriving DecidableEq, Repr

structure NewOperation where
  id : OperationId
  kind : OperationKind
  gatewayConnectionId : Option GatewayConnectionId
  targetOperationId : Option OperationId
  previousOperationId : Option OperationId
  request : RawJson
deriving DecidableEq, Repr

structure NewWait where
  id : WaitId
  mode : WaitMode
  payload : RawJson
  responseSchema : Option RawJson
  expiresAt : Option Timestamp
deriving DecidableEq, Repr

structure OutcomeCommit where
  state : RawJson
  status : Option SessionStatus
  history : List NewHistoryEntry
  operations : List NewOperation
  waits : List NewWait
  cancelledWaits : List WaitId
  progress : List Value

/-- The payload of an `operation.changed` update. -/
def operationChanged (operationId : OperationId) : Value :=
  .object [("operation_id", .uuid operationId)]

/-! ## History -/

/-- Append one entry per message. `taken` are the entry ids of the other sessions. -/
def Session.appendHistory (codec : Codec) (clock : Clock) (claim : HandlerClaim)
    (taken : HistoryEntryId → Bool) :
    List NewHistoryEntry → HistorySequence → Session → Result (HistorySequence × Session)
  | [], sequence, s => .ok (sequence, s)
  | entry :: entries, sequence, s =>
    match codec.decodeMessage entry.message with
    | .error error => .error (.invalidInput error)
    | .ok message =>
      if taken entry.id || s.history.any fun h => h.id = entry.id || h.sequence = sequence then
        .error .uniqueViolation
      else
        appendHistory codec clock claim taken entries (sequence + 1)
          { s with
            history := s.history ++
              [{ id := entry.id
                 sequence
                 sourceEventId := some claim.eventId
                 role := message.role
                 message := entry.message
                 createdAt := clock.now }] }

/-- The update that announces the appended entries, when there are any. -/
def Session.announceHistory (s : Session) (clock : Clock) (claim : HandlerClaim) (appended : Nat)
    (sequence : HistorySequence) : Session :=
  if appended = 0 then s
  else
    s.emitUpdate clock .historyAppended
      (.object
        [("from_sequence", .nat (sequence - appended)), ("through_sequence", .nat (sequence - 1)),
          ("source_event_id", .uuid claim.eventId)])

/-! ## Operations -/

/-- The `CHECK`s of `session_operations` on a new row: a gateway operation names its connection, a
control operation its target, and no operation refers to itself. -/
def NewOperation.wellFormed (operation : NewOperation) : Bool :=
  (match operation.kind with
    | .llm | .execution => operation.gatewayConnectionId.isSome
    | .llmCancellation | .withdraw => operation.targetOperationId.isSome) &&
  operation.targetOperationId ≠ some operation.id &&
  operation.previousOperationId ≠ some operation.id

/-- A reference to an operation of the same session, when there is one. -/
def Session.hasOperation (s : Session) (id : Option OperationId) : Bool :=
  id.all fun id => s.operations.any (·.id = id)

/-- The row of a staged operation. -/
def NewOperation.row (codec : Codec) (clock : Clock) (claim : HandlerClaim)
    (operation : NewOperation) : OperationRow where
  id := operation.id
  sourceEventId := claim.eventId
  kind := operation.kind
  gatewayConnectionId := operation.gatewayConnectionId
  targetOperationId := operation.targetOperationId
  previousOperationId := operation.previousOperationId
  gatewayIdempotencyKey := operation.id.toText
  requestHash := codec.fingerprint operation.request
  gatewayJobId := none
  status := .pending
  result := none
  error := none
  nextAttemptAt := clock.now
  lease := none
  createdAt := clock.now
  submittedAt := none
  completedAt := none
  requestRemovedAt := none

/-- Stage the operations. `taken` are the operation ids of the other sessions. -/
def Session.stageOperations (codec : Codec) (clock : Clock) (claim : HandlerClaim)
    (taken : OperationId → Bool) : List NewOperation → Session → Result Session
  | [], s => .ok s
  | operation :: operations, s =>
    if !operation.wellFormed then .error .checkViolation
    else if taken operation.id || s.operations.any (·.id = operation.id) then
      .error .uniqueViolation
    else if !(s.hasOperation operation.targetOperationId &&
        s.hasOperation operation.previousOperationId) then
      .error .foreignKeyViolation
    else
      let s : Session :=
        { s with
          operations := s.operations ++ [operation.row codec clock claim]
          requests := s.requests ++
            [{ operationId := operation.id, request := operation.request, expiresAt := none }] }
      stageOperations codec clock claim taken operations
        (s.emitUpdate clock .operationChanged (operationChanged operation.id))

/-! ## Waits -/

/-- The `CHECK`s of `session_waits` on a new row: exactly the modes with a deadline have one, and a
wait that only expires has no response schema. -/
def NewWait.wellFormed (wait : NewWait) : Bool :=
  (WaitMode.expires wait.mode == wait.expiresAt.isSome) &&
    (wait.mode ≠ .expiration || wait.responseSchema.isNone)

/-- The row of a created wait. -/
def NewWait.row (clock : Clock) (claim : HandlerClaim) (wait : NewWait) : WaitRow where
  id := wait.id
  sourceEventId := claim.eventId
  mode := wait.mode
  payload := wait.payload
  responseSchema := wait.responseSchema
  expiresAt := wait.expiresAt
  status := .pending
  resolutionPayload := none
  resolutionIdempotencyKey := none
  resolutionHash := none
  createdAt := clock.now
  finishedAt := none

/-- Create the waits. `taken` are the wait ids of the other sessions. -/
def Session.createWaits (clock : Clock) (claim : HandlerClaim) (taken : WaitId → Bool) :
    List NewWait → Session → Result Session
  | [], s => .ok s
  | wait :: waits, s =>
    if !wait.wellFormed then .error .checkViolation
    else if taken wait.id || s.waits.any (·.id = wait.id) then .error .uniqueViolation
    else
      let s : Session := { s with waits := s.waits ++ [wait.row clock claim] }
      createWaits clock claim taken waits
        (s.emitUpdate clock .waitChanged (waitChanged wait.id))

/-- How a handler's cancellation finishes a wait: one whose deadline has passed expires. -/
def WaitRow.cancelFinish (w : WaitRow) (now : Timestamp) : WaitFinish :=
  if w.expired now then .expired else .cancelled

/-- Cancel the waits that are still pending. Each takes two clock readings, one event id and one
event sequence. -/
def Session.cancelWaits (clock : Clock) :
    List WaitId → Nat → EventId → EventSequence → Session → Result (EventSequence × Session)
  | [], _, _, sequence, s => .ok (sequence, s)
  | waitId :: waitIds, tick, eventId, sequence, s =>
    match s.waits.find? (·.id = waitId) with
    | none => .error (.waitNotFound waitId)
    | some w =>
      if w.status ≠ .pending then cancelWaits clock waitIds tick eventId sequence s
      else
        match s.finishWait clock eventId waitId sequence (w.cancelFinish (clock.reading tick)) fun w =>
            { w with finishedAt := some (clock.reading (tick + 1)) } with
        | .error error => .error error
        | .ok (_, s) =>
          cancelWaits clock waitIds (tick + 2) (eventId + 1) (sequence + 1)
            (s.announceWait clock waitId eventId)

/-! ## The transaction -/

/-- Record the progress entries, under the handled event. -/
def Session.emitProgress (s : Session) (clock : Clock) (claim : HandlerClaim) :
    List Value → Session
  | [] => s
  | payload :: payloads =>
    (s.emitUpdateWithEvent clock .harnessProgress payload (some claim.eventId)).emitProgress clock
      claim payloads

/-- At most 20 entries of at most 2048 bytes each. -/
def progressFits (codec : Codec) (progress : List Value) : Bool :=
  progress.length ≤ 20 && progress.all fun value => codec.textLength value ≤ 2048

/-- Save the state, release the claim, and mark the event handled and its attempt committed. -/
def Session.saveOutcome (s : Session) (clock : Clock) (claim : HandlerClaim)
    (outcome : OutcomeCommit) (historySequence : HistorySequence) (eventSequence : EventSequence) :
    Result (Unit × Session) :=
  let s : Session :=
    { s with
      state := outcome.state
      status := outcome.status.getD s.status
      stateVersion := s.stateVersion + 1
      nextHistorySequence := historySequence
      lease := none
      nextEventSequence := eventSequence
      updatedAt := clock.now }
  let s := s.updateEvents (·.id = claim.eventId) fun e =>
    { e with status := .handled, handledAt := some clock.now, lastError := none }
  let running := s.eventAttempts.countP fun a =>
    a.id = claim.attemptId && a.leaseToken = claim.leaseToken && a.status = .running
  if running ≠ 1 then .error .staleClaim
  else
    let s := s.finishEventAttempt clock claim .committed none
    let s := s.emitUpdate clock .sessionChanged (.object [("session_id", .uuid s.id)])
    .ok ((), s.emitUpdate clock .eventChanged (eventChanged claim.eventId "handled"))

/-- The ids that the tables of the other sessions hold already. -/
structure TakenIds where
  history : HistoryEntryId → Bool
  operation : OperationId → Bool
  wait : WaitId → Bool

/-- The ids held outside session `id`. -/
def Db.takenIds (db : Db) (id : SessionId) : TakenIds where
  history entryId := (db.others id).any fun s => s.history.any (·.id = entryId)
  operation operationId := (db.others id).any fun s => s.operations.any (·.id = operationId)
  wait waitId := (db.others id).any fun s => s.waits.any (·.id = waitId)

/-- The body of `Store::commit_handler_outcome_classified`. -/
def Session.commitHandlerOutcome (s : Session) (codec : Codec) (clock : Clock) (taken : TakenIds)
    (eventId : EventId) (claim : HandlerClaim) (outcome : OutcomeCommit) :
    Result (Unit × Session) := do
  let (historySequence, currentStateVersion) ← s.lockValidSessionClaim clock claim
  if currentStateVersion ≠ claim.inputStateVersion then .error .staleClaim
  else
    let (historySequence, s) ←
      s.appendHistory codec clock claim taken.history outcome.history historySequence
    let s := s.announceHistory clock claim outcome.history.length historySequence
    let s ← s.stageOperations codec clock claim taken.operation outcome.operations
    let s ← s.createWaits clock claim taken.wait outcome.waits
    let (eventSequence, s) ←
      s.cancelWaits clock outcome.cancelledWaits 1 eventId s.nextEventSequence
    if !progressFits codec outcome.progress then
      .error (.invalidInput "progress exceeds 20 entries or 2048 bytes per entry")
    else
      (s.emitProgress clock claim outcome.progress).saveOutcome clock claim outcome
        historySequence eventSequence

/-- `Store::commit_handler_outcome_classified`, up to the classification of its errors. -/
def Db.commitOutcome (db : Db) (codec : Codec) (clock : Clock) (claim : HandlerClaim)
    (outcome : OutcomeCommit) : Result (Unit × Db) :=
  db.transact claim.sessionId outcome.cancelledWaits.length fun eventId s =>
    s.commitHandlerOutcome codec clock (db.takenIds claim.sessionId) eventId claim outcome

/-- `Store::commit_handler_outcome_classified`. -/
def Db.commitHandlerOutcomeClassified (db : Db) (codec : Codec) (clock : Clock)
    (claim : HandlerClaim) (outcome : OutcomeCommit) : Except HandlerCommitError (Unit × Db) :=
  (db.commitOutcome codec clock claim outcome).mapError HandlerCommitError.ofStore

/-- `HandlerCommitError::from_commit`: what the answer to COMMIT itself is classified as. -/
def HandlerCommitError.fromCommit : DatabaseError → HandlerCommitError
  | .database sqlstate =>
    if ["40001", "40P01"].contains sqlstate then .retryable (.database (.database sqlstate))
    else .rejected (.database (.database sqlstate))
  | error => .uncertain (.database error)

end AgentPlatform.Store
