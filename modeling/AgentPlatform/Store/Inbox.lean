import AgentPlatform.Store.Model

/-!
# The event inbox and its handler claims

Creating a session, enqueueing an external event, and the ownership of the event at the head of the
inbox: `claim_next_event`, `renew_event_claim`, `record_handler_failure`,
`abandon_handler_attempt` and `retry_blocked_event`. A transaction on one session is a function on
`Session`; `Db` wraps it with the row lock.
-/

namespace AgentPlatform.Store

/-- What the store takes from `serde_json` and `sha2`: the hexadecimal digest of a text, the
decoding of a message, and the length of the text of a value. -/
structure Codec where
  fingerprint : RawJson → String
  decodeMessage : RawJson → Except String Message
  textLength : Value → Nat

/-! ## Records -/

structure NewSession where
  id : SessionId
  projectId : ProjectId
  harnessId : HarnessId
  harnessVersion : HarnessVersion
  configuration : RawJson
  state : RawJson
  name : Option String
  metadata : Value

structure SessionRecord where
  id : SessionId
  projectId : ProjectId
  harnessId : HarnessId
  harnessVersion : HarnessVersion
  configuration : RawJson
  state : RawJson
  name : Option String
  metadata : Value
  status : SessionStatus
  stateVersion : StateVersion
  nextEventSequence : EventSequence
  nextHistorySequence : HistorySequence
  processingEnabled : Bool
  processingError : Option Value
  processingRevision : Nat
  blockedEventId : Option EventId
  currentEventId : Option EventId
  leaseToken : Option Uuid
  leaseExpiresAt : Option Timestamp
  createdAt : Timestamp
  updatedAt : Timestamp

/-- `session_from_row` over `SESSION_SELECT`. -/
def Session.record (s : Session) : SessionRecord where
  id := s.id
  projectId := s.projectId
  harnessId := s.harnessId
  harnessVersion := s.harnessVersion
  configuration := s.configuration
  state := s.state
  name := s.name
  metadata := s.metadata
  status := s.status
  stateVersion := s.stateVersion
  nextEventSequence := s.nextEventSequence
  nextHistorySequence := s.nextHistorySequence
  processingEnabled := s.processingEnabled
  processingError := s.processingError
  processingRevision := s.processingRevision
  blockedEventId :=
    (Table.firstBy (·.sequence) (s.events.filter fun e => e.status = .blocked)).map (·.id)
  currentEventId := s.lease.map (·.eventId)
  leaseToken := s.lease.map (·.token)
  leaseExpiresAt := s.lease.map (·.expiresAt)
  createdAt := s.createdAt
  updatedAt := s.updatedAt

structure EventRecord where
  id : EventId
  sessionId : SessionId
  sequence : EventSequence
  eventType : EventType
  payload : RawJson
  operationId : Option OperationId
  waitId : Option WaitId
  status : EventStatus
  createdAt : Timestamp
  handledAt : Option Timestamp
deriving DecidableEq, Repr

/-- `event_from_row`. -/
def EventRow.record (e : EventRow) (sessionId : SessionId) : EventRecord where
  id := e.id
  sessionId := sessionId
  sequence := e.sequence
  eventType := e.eventType
  payload := e.payload
  operationId := e.operationId
  waitId := e.waitId
  status := e.status
  createdAt := e.createdAt
  handledAt := e.handledAt

structure NewExternalEvent where
  sessionId : SessionId
  eventType : EventType
  payload : RawJson
  idempotencyKey : Option String

inductive EnqueueResult where
  | inserted (event : EventRecord)
  | existing (event : EventRecord)
deriving DecidableEq, Repr

structure HandlerClaim where
  sessionId : SessionId
  eventId : EventId
  attemptId : Uuid
  leaseToken : Uuid
  inputStateVersion : StateVersion
deriving DecidableEq, Repr

structure ClaimedEvent where
  session : SessionRecord
  event : EventRecord
  attemptId : Uuid
  attemptNumber : Nat
  leaseToken : Uuid
  historyThroughSequence : HistorySequence

/-- `From<&ClaimedEvent> for HandlerClaim`. -/
def ClaimedEvent.claim (claimed : ClaimedEvent) : HandlerClaim where
  sessionId := claimed.session.id
  eventId := claimed.event.id
  attemptId := claimed.attemptId
  leaseToken := claimed.leaseToken
  inputStateVersion := claimed.session.stateVersion

structure ProcessingRetry where
  sessionId : SessionId
  eventId : EventId
  processingRevision : Nat
  retriedAt : Timestamp
deriving DecidableEq, Repr

/-- The payload of an `event.changed` update that names the new status. -/
def eventChanged (eventId : EventId) (status : String) : Value :=
  .object [("event_id", .uuid eventId), ("status", .string status)]

/-! ## Creating a session -/

/-- A session as `INSERT INTO sessions` leaves it, every other column at its default. -/
def Session.create (clock : Clock) (session : NewSession) : Session where
  id := session.id
  projectId := session.projectId
  harnessId := session.harnessId
  harnessVersion := session.harnessVersion
  configuration := session.configuration
  name := session.name
  metadata := session.metadata
  status := .idle
  state := session.state
  stateVersion := 0
  nextEventSequence := 1
  nextHistorySequence := 1
  processingEnabled := true
  processingError := none
  processingRevision := 0
  lease := none
  createdAt := clock.now
  updatedAt := clock.now
  nextUpdateSequence := 1
  retainedUpdateSequence := 1
  events := []
  eventAttempts := []
  history := []
  operations := []
  requests := []
  operationAttempts := []
  waits := []
  retries := []
  updates := []

/-- `Store::create_session`. -/
def Db.createSession (db : Db) (clock : Clock) (session : NewSession) :
    Result (SessionRecord × Db) :=
  match jsonb session.metadata with
  | .error error => .error error
  | .ok _ =>
    if (db.session? session.id).isSome then .error (.sessionAlreadyExists session.id)
    else
      let s := Session.create clock session
      .ok (s.record, { db with sessions := db.sessions ++ [s] })

/-- The body of `Store::patch_session_metadata`. -/
def Session.patchMetadata (s : Session) (clock : Clock) (name : Option (Option String))
    (metadata : Option Value) : Result (SessionRecord × Session) :=
  match jsonb (metadata.getD .null) with
  | .error error => .error error
  | .ok _ =>
    let s : Session :=
      { s with
        name := name.getD s.name
        metadata := metadata.getD s.metadata
        updatedAt := clock.now }
    let s := s.emitUpdate clock .sessionChanged (.object [("session_id", .uuid s.id)])
    .ok (s.record, s)

/-- `Store::patch_session_metadata`. -/
def Db.patchSessionMetadata (db : Db) (clock : Clock) (id : SessionId)
    (name : Option (Option String)) (metadata : Option Value) : Result (SessionRecord × Db) :=
  db.transact id 0 fun _ s => s.patchMetadata clock name metadata

/-! ## Enqueueing -/

/-- A new row of `session_events`, the columns that no insert names at their defaults. -/
def EventRow.new (clock : Clock) (id : EventId) (sequence : EventSequence) (eventType : EventType)
    (payload : RawJson) : EventRow where
  id := id
  sequence := sequence
  eventType := eventType
  payload := payload
  operationId := none
  waitId := none
  idempotencyKey := none
  requestHash := none
  status := .pending
  nextAttemptAt := clock.now
  lastError := none
  retryFailureBaseline := 0
  createdAt := clock.now
  handledAt := none

/-- The stored event that an idempotency key names: the key is scoped to one event type. -/
def Session.eventByKey (s : Session) (eventType : EventType) (key : String) : Option EventRow :=
  s.events.find? fun e => e.eventType == eventType && e.idempotencyKey == some key

/-- Insert the event and count it. -/
def Session.insertExternalEvent (s : Session) (clock : Clock) (id : EventId)
    (input : NewExternalEvent) (hash : Option String) : Result (EnqueueResult × Session) :=
  let e : EventRow :=
    { EventRow.new clock id s.nextEventSequence input.eventType input.payload with
      idempotencyKey := input.idempotencyKey
      requestHash := hash }
  match s.insertEvent e with
  | .error error => .error error
  | .ok s' =>
    .ok (.inserted (e.record s.id),
      (s'.advanceEventSequence clock).emitUpdate clock .eventChanged (eventChanged id "pending"))

/-- The body of `Store::enqueue_external_event`. -/
def Session.enqueueExternalEvent (s : Session) (codec : Codec) (clock : Clock) (id : EventId)
    (input : NewExternalEvent) : Result (EnqueueResult × Session) :=
  let hash := input.idempotencyKey.map fun _ => codec.fingerprint input.payload
  match input.idempotencyKey.bind (s.eventByKey input.eventType) with
  | some e =>
    if e.requestHash ≠ hash then .error .idempotencyConflict
    else .ok (.existing (e.record s.id), s)
  | none => s.insertExternalEvent clock id input hash

/-- `Store::enqueue_external_event`. -/
def Db.enqueueExternalEvent (db : Db) (codec : Codec) (clock : Clock) (input : NewExternalEvent) :
    Result (EnqueueResult × Db) :=
  if input.eventType = .userMessage ∨ input.eventType = .cancellationRequested then
    db.transact input.sessionId 1 fun id s => s.enqueueExternalEvent codec clock id input
  else
    .error (.invalidInput "only user messages and cancellation requests are external inputs")

/-! ## Claiming the head of the inbox -/

/-- The head event of a session that `claim_next_event` may take. -/
def Session.claimableEvent (s : Session) (clock : Clock) : Option EventRow :=
  s.head.filter fun e =>
    s.processingEnabled && s.lease.all (fun lease => lease.expiresAt ≤ clock.reading 0) &&
      (e.status = .pending || e.status = .processing) && e.nextAttemptAt ≤ clock.reading 0

/-- The session whose head event is claimed: the first in the order
`next_attempt_at, updated_at, id` whose row no other transaction holds. -/
def Db.claimCandidate (db : Db) (clock : Clock) (locked : SessionId → Bool) :
    Option (Session × EventRow) :=
  let candidates := db.sessions.filterMap fun s =>
    if locked s.id then none else (s.claimableEvent clock).map fun e => (s, e)
  Table.firstBy (fun (s, e) => toLex (e.nextAttemptAt, toLex (s.updatedAt, s.id))) candidates

/-- The row of an attempt that ended; an error that is not given is left as it was. -/
def EventAttemptRow.finish (a : EventAttemptRow) (clock : Clock) (status : HandlerAttemptStatus)
    (error : Option Value) : EventAttemptRow :=
  { a with status, error := error.or a.error, finishedAt := some clock.now }

/-- A new row of `session_event_attempts`. -/
def EventAttemptRow.new (clock : Clock) (id : Uuid) (eventId : EventId) (attemptNumber : Nat)
    (leaseToken : Uuid) (inputStateVersion : StateVersion)
    (historyThroughSequence : HistorySequence) : EventAttemptRow where
  id := id
  eventId := eventId
  attemptNumber := attemptNumber
  leaseToken := leaseToken
  inputStateVersion := inputStateVersion
  historyThroughSequence := historyThroughSequence
  status := .running
  error := none
  startedAt := clock.now
  finishedAt := none

/-- The body of `Store::claim_next_event` after the candidate is chosen. -/
def Session.claimEvent (s : Session) (clock : Clock) (e : EventRow) (leaseToken attemptId : Uuid)
    (leaseMs : Int) : ClaimedEvent × Session :=
  let s := s.updateEventAttempts (fun a => a.eventId = e.id && a.status = .running)
    (·.finish clock .abandoned none)
  let attemptNumber :=
    Table.maxOf (·.attemptNumber) (s.eventAttempts.filter fun a => a.eventId = e.id) + 1
  let s : Session :=
    { s with
      lease := some { eventId := e.id, token := leaseToken, expiresAt := clock.after 1 leaseMs }
      updatedAt := clock.now }
  let s := s.updateEvents (·.id = e.id) fun e => { e with status := .processing }
  let historyThrough := s.nextHistorySequence - 1
  let s : Session :=
    { s with
      eventAttempts := s.eventAttempts ++
        [.new clock attemptId e.id attemptNumber leaseToken s.stateVersion historyThrough] }
  ({ session := s.record
     event := { e with status := .processing }.record s.id
     attemptId
     attemptNumber
     leaseToken
     historyThroughSequence := historyThrough },
   s.emitUpdate clock .eventChanged (eventChanged e.id "processing"))

/-- `Store::claim_next_event`. -/
def Db.claimNextEvent (db : Db) (clock : Clock) (locked : SessionId → Bool) (leaseFor : Nat) :
    Result (Option ClaimedEvent × Db) :=
  match db.claimCandidate clock locked with
  | none => .ok (none, db)
  | some (s, e) =>
    match durationMillis leaseFor with
    | .error error => .error error
    | .ok leaseMs =>
      db.transact s.id 2 fun base s =>
        let (claimed, s') := s.claimEvent clock e base (base + 1) leaseMs
        .ok (some claimed, s')

/-! ## Holding a claim -/

/-- `lock_valid_session_claim`: the claim is for the current event, carries the current token, and
its lease has not run out. -/
def Session.lockValidSessionClaim (s : Session) (clock : Clock) (claim : HandlerClaim) :
    Result (HistorySequence × StateVersion) :=
  match s.lease with
  | none => .error .staleClaim
  | some lease =>
    if lease.eventId ≠ claim.eventId ∨ lease.token ≠ claim.leaseToken ∨
        lease.expiresAt ≤ clock.reading 0 then
      .error .staleClaim
    else .ok (s.nextHistorySequence, s.stateVersion)

/-- The body of `Store::renew_event_claim`. -/
def Session.renewEventClaim (s : Session) (clock : Clock) (claim : HandlerClaim) (leaseFor : Nat) :
    Result (Unit × Session) :=
  match s.lockValidSessionClaim clock claim with
  | .error error => .error error
  | .ok _ =>
    match durationMillis leaseFor with
    | .error error => .error error
    | .ok leaseMs =>
      .ok ((), { s with
        lease := s.lease.map fun lease => { lease with expiresAt := clock.after 1 leaseMs } })

/-- `Store::renew_event_claim`. -/
def Db.renewEventClaim (db : Db) (clock : Clock) (claim : HandlerClaim) (leaseFor : Nat) :
    Result (Unit × Db) :=
  db.transact claim.sessionId 0 fun _ s => s.renewEventClaim clock claim leaseFor

/-- End the running attempt of a claim. -/
def Session.finishEventAttempt (s : Session) (clock : Clock) (claim : HandlerClaim)
    (status : HandlerAttemptStatus) (error : Option Value) : Session :=
  s.updateEventAttempts
    (fun a => a.id = claim.attemptId && a.leaseToken = claim.leaseToken && a.status = .running)
    (·.finish clock status error)

/-- The body of `Store::record_handler_failure`. -/
def Session.recordHandlerFailure (s : Session) (clock : Clock) (claim : HandlerClaim)
    (error : Value) (retryAt : Timestamp) (blocked : Bool) : Result (Unit × Session) :=
  match s.lockValidSessionClaim clock claim, jsonb error with
  | .error error, _ => .error error
  | .ok _, .error error => .error error
  | .ok _, .ok _ =>
    let s := s.finishEventAttempt clock claim .errored (some error)
    let s := s.updateEvents (·.id = claim.eventId) fun e =>
      { e with
        status := if blocked then .blocked else .pending
        nextAttemptAt := retryAt
        lastError := some error }
    let s : Session :=
      if blocked then
        { s with
          processingEnabled := false
          processingError := some error
          processingRevision := s.processingRevision + 1
          lease := none
          updatedAt := clock.now }
      else s.releaseSessionClaim clock
    let s := s.emitUpdate clock .eventChanged
      (eventChanged claim.eventId (if blocked then "blocked" else "pending"))
    let s :=
      if blocked then
        s.emitUpdate clock .processingChanged (.object [("event_id", .uuid claim.eventId)])
      else s
    .ok ((), s)

/-- `Store::record_handler_failure`. -/
def Db.recordHandlerFailure (db : Db) (clock : Clock) (claim : HandlerClaim) (error : Value)
    (retryAt : Timestamp) (blocked : Bool) : Result (Unit × Db) :=
  db.transact claim.sessionId 0 fun _ s => s.recordHandlerFailure clock claim error retryAt blocked

/-- The body of `Store::abandon_handler_attempt`. -/
def Session.abandonHandlerAttempt (s : Session) (clock : Clock) (claim : HandlerClaim)
    (error : Value) (retryAt : Timestamp) : Result (Unit × Session) :=
  match s.lockValidSessionClaim clock claim, jsonb error with
  | .error error, _ => .error error
  | .ok _, .error error => .error error
  | .ok _, .ok _ =>
    let s := s.finishEventAttempt clock claim .abandoned (some error)
    let s := s.updateEvents (·.id = claim.eventId) fun e =>
      { e with status := .pending, nextAttemptAt := retryAt, lastError := some error }
    let s := s.releaseSessionClaim clock
    .ok ((), s.emitUpdate clock .eventChanged (eventChanged claim.eventId "pending"))

/-- `Store::abandon_handler_attempt`. -/
def Db.abandonHandlerAttempt (db : Db) (clock : Clock) (claim : HandlerClaim) (error : Value)
    (retryAt : Timestamp) : Result (Unit × Db) :=
  db.transact claim.sessionId 0 fun _ s => s.abandonHandlerAttempt clock claim error retryAt

/-! ## Retrying a blocked event -/

/-- The retry that the session is in a state to make: it is blocked on this very event at this very
revision. -/
def Session.retryMatches (s : Session) (eventId : EventId) (expectedRevision : Nat) : Bool :=
  !s.processingEnabled && s.processingRevision = expectedRevision && s.lease.isNone &&
    s.head.any fun e => e.id = eventId && e.status = .blocked

/-- `SELECT count(*) … WHERE event_id=$1 AND status='errored'`. -/
def Session.erroredAttempts (s : Session) (eventId : EventId) : Nat :=
  s.eventAttempts.countP fun a => a.eventId = eventId && a.status = .errored

/-- The body of `Store::retry_blocked_event`. -/
def Session.retryBlockedEvent (s : Session) (codec : Codec) (clock : Clock) (retryId : Uuid)
    (eventId : EventId) (expectedRevision : Nat) (idempotencyKey : String) (request : RawJson)
    (reason : Option String) : Result (ProcessingRetry × Session) :=
  match s.retries.find? (·.idempotencyKey == idempotencyKey) with
  | some existing =>
    if existing.requestHash ≠ codec.fingerprint request then .error .idempotencyConflict
    else
      .ok ({ sessionId := s.id
             eventId := existing.eventId
             processingRevision := existing.processingRevision
             retriedAt := existing.createdAt }, s)
  | none =>
    if !s.retryMatches eventId expectedRevision then .error .staleProcessingRetry
    else
      let failureBaseline := s.erroredAttempts eventId
      let nextRevision := s.processingRevision + 1
      let s := s.updateEvents (·.id = eventId) fun e =>
        { e with
          status := .pending
          nextAttemptAt := clock.reading 0
          lastError := none
          retryFailureBaseline := failureBaseline }
      let s : Session :=
        { s with
          processingEnabled := true
          processingError := none
          processingRevision := nextRevision
          updatedAt := clock.now
          retries := s.retries ++
            [{ id := retryId
               idempotencyKey
               requestHash := codec.fingerprint request
               eventId
               expectedProcessingRevision := expectedRevision
               processingRevision := nextRevision
               reason
               createdAt := clock.now }] }
      let s := s.emitUpdate clock .processingChanged
        (.object [("event_id", .uuid eventId), ("processing_revision", .nat nextRevision)])
      let s := s.emitUpdate clock .eventChanged (eventChanged eventId "pending")
      .ok ({ sessionId := s.id
             eventId
             processingRevision := nextRevision
             retriedAt := clock.now }, s)

/-- `Store::retry_blocked_event`. -/
def Db.retryBlockedEvent (db : Db) (codec : Codec) (clock : Clock) (sessionId : SessionId)
    (eventId : EventId) (expectedRevision : Nat) (idempotencyKey : String) (request : RawJson)
    (reason : Option String) : Result (ProcessingRetry × Db) :=
  db.transact sessionId 1 fun retryId s =>
    s.retryBlockedEvent codec clock retryId eventId expectedRevision idempotencyKey request reason

end AgentPlatform.Store
