import AgentPlatform.Contracts.Message
import AgentPlatform.Lib.Table

/-!
# The tables of the store

The schema of `agent-store/migrations` and the statements that the transactions of
`agent-store/src/store.rs` are made of.

A session owns its rows: every table but `sessions` refers to a session (directly, or through an
event or an operation by a composite foreign key `(session_id, ·)`), and every transaction modelled
here first locks one `sessions` row and then touches rows of that session only. So a `Session` is
its row of `sessions` together with its part of the other tables, and a database is its sessions.
The three lease columns of `sessions` are null together (a table `CHECK`), and so are the two of
`session_operations`: they are one optional lease each. Callback receipts belong to no session and
stand beside the sessions.

A transaction sees the clock through `now()`, the time it began, and through its successive
`clock_timestamp()` readings.
-/

namespace AgentPlatform.Store

/-! ## Errors -/

/-- `sqlx::Error`, as far as the store tells its cases apart: a server error carries its
SQLSTATE. -/
inductive DatabaseError where
  | database (sqlstate : String)
  | io
  | tls
  | protocol
  | poolTimedOut
  | poolClosed
  | workerCrashed
  | other
deriving DecidableEq, Repr

/-- `StoreError`. -/
inductive StoreError where
  | invalidInput (message : String)
  | sessionNotFound (id : SessionId)
  | sessionAlreadyExists (id : SessionId)
  | eventNotFound (id : EventId)
  | operationNotFound (id : OperationId)
  | waitNotFound (id : WaitId)
  | idempotencyConflict
  | staleClaim
  | waitNotResolvable
  | staleProcessingRetry
  | updateCursorExpired
  | invalidStoredJson (kind : String) (message : String)
  | database (error : DatabaseError)
deriving DecidableEq, Repr

/-- A `UNIQUE` or primary key that an insert violates. -/
def StoreError.uniqueViolation : StoreError := .database (.database "23505")

/-- A foreign key that an insert violates. -/
def StoreError.foreignKeyViolation : StoreError := .database (.database "23503")

/-- A `CHECK` that an insert violates. -/
def StoreError.checkViolation : StoreError := .database (.database "23514")

/-- What a transaction body answers: an error rolls everything back. -/
abbrev Result (α : Type) := Except StoreError α

/-- `retryable_database_error`. -/
def retryableDatabaseError : DatabaseError → Bool
  | .database sqlstate =>
    ["40001", "40P01", "55P03", "57014", "53300", "57P01"].contains sqlstate ||
      sqlstate.startsWith "08"
  | .io | .tls | .protocol | .poolTimedOut | .poolClosed | .workerCrashed => true
  | .other => false

/-- `HandlerCommitError`. -/
inductive HandlerCommitError where
  | staleClaim
  | retryable (error : StoreError)
  | rejected (error : StoreError)
  | uncertain (error : StoreError)
deriving DecidableEq, Repr

/-- `From<StoreError> for HandlerCommitError`. -/
def HandlerCommitError.ofStore : StoreError → HandlerCommitError
  | .staleClaim => .staleClaim
  | .database error =>
    if retryableDatabaseError error then .retryable (.database error)
    else .rejected (.database error)
  | error => .rejected error

/-- A value bound to a `jsonb` column: PostgreSQL stores no document that contains U+0000. -/
def jsonb (v : Value) : Result Value :=
  if v.mentionsNul then .error (.database (.database "22P05")) else .ok v

/-- `duration_millis`: a lease duration that fits `i64`. -/
def durationMillis (milliseconds : Nat) : Result Int :=
  if milliseconds < 2 ^ 63 then .ok milliseconds
  else .error (.invalidInput "lease duration is too large")

/-! ## The clock of one transaction -/

/-- `now` is the time the transaction began, `reading i` its `i`-th `clock_timestamp()`, and
`stamp n` the `created_at` of the update with sequence `n`. -/
structure Clock where
  now : Timestamp
  reading : Nat → Timestamp
  stamp : Nat → Timestamp

/-- `clock_timestamp()+(n * interval '1 millisecond')`. -/
def Clock.after (clock : Clock) (i : Nat) (milliseconds : Int) : Timestamp :=
  clock.reading i + 1000 * milliseconds

/-! ## Rows -/

inductive EventType where
  | userMessage
  | operationCompleted
  | cancellationRequested
  | waitResumed
deriving DecidableEq, Repr

inductive EventStatus where
  | pending
  | processing
  | handled
  | blocked
deriving DecidableEq, Repr

inductive HandlerAttemptStatus where
  | running
  | committed
  | errored
  | abandoned
deriving DecidableEq, Repr

inductive OperationStatus where
  | pending
  | submitting
  | accepted
  | succeeded
  | failed
  | cancelled
  | unknown
deriving DecidableEq, Repr

/-- `OperationStatus::as_str`. -/
def OperationStatus.asStr : OperationStatus → String
  | .pending => "pending"
  | .submitting => "submitting"
  | .accepted => "accepted"
  | .succeeded => "succeeded"
  | .failed => "failed"
  | .cancelled => "cancelled"
  | .unknown => "unknown"

/-- The four statuses an operation ends in. -/
def OperationStatus.terminal : OperationStatus → Bool
  | .succeeded | .failed | .cancelled | .unknown => true
  | .pending | .submitting | .accepted => false

inductive OperationPhase where
  | submission
  | resultRetrieval
  | cancellation
  | withdrawal
deriving DecidableEq, Repr

inductive OperationAttemptStatus where
  | running
  | succeeded
  | failed
  | unknown
deriving DecidableEq, Repr

inductive WaitStatus where
  | pending
  | resolved
  | expired
  | cancelled
deriving DecidableEq, Repr

inductive ReceiptStatus where
  | pending
  | processing
  | processed
  | blocked
deriving DecidableEq, Repr

/-- The `kind` column of `session_updates`. -/
inductive UpdateKind where
  | sessionChanged
  | historyAppended
  | operationChanged
  | waitChanged
  | eventChanged
  | processingChanged
  | harnessProgress
deriving DecidableEq, Repr

/-- The lease of a session: the event it is held for, its token and its end. -/
structure SessionLease where
  eventId : EventId
  token : Uuid
  expiresAt : Timestamp
deriving DecidableEq, Repr

/-- The lease of an operation or of a callback receipt. -/
structure Lease where
  token : Uuid
  expiresAt : Timestamp
deriving DecidableEq, Repr

/-- A row of `sessions`. -/
structure SessionRow where
  id : SessionId
  projectId : ProjectId
  harnessId : HarnessId
  harnessVersion : HarnessVersion
  configuration : RawJson
  name : Option String
  metadata : Value
  status : SessionStatus
  state : RawJson
  stateVersion : StateVersion
  nextEventSequence : EventSequence
  nextHistorySequence : HistorySequence
  processingEnabled : Bool
  processingError : Option Value
  processingRevision : Nat
  lease : Option SessionLease
  createdAt : Timestamp
  updatedAt : Timestamp
  nextUpdateSequence : Nat
  retainedUpdateSequence : Nat

/-- A row of `session_events`. -/
structure EventRow where
  id : EventId
  sequence : EventSequence
  eventType : EventType
  payload : RawJson
  operationId : Option OperationId
  waitId : Option WaitId
  idempotencyKey : Option String
  requestHash : Option String
  status : EventStatus
  nextAttemptAt : Timestamp
  lastError : Option Value
  retryFailureBaseline : Nat
  createdAt : Timestamp
  handledAt : Option Timestamp

/-- A row of `session_event_attempts`. -/
structure EventAttemptRow where
  id : Uuid
  eventId : EventId
  attemptNumber : Nat
  leaseToken : Uuid
  inputStateVersion : StateVersion
  historyThroughSequence : HistorySequence
  status : HandlerAttemptStatus
  error : Option Value
  startedAt : Timestamp
  finishedAt : Option Timestamp

/-- A row of `session_history`. -/
structure HistoryRow where
  id : HistoryEntryId
  sequence : HistorySequence
  sourceEventId : Option EventId
  role : String
  message : RawJson
  createdAt : Timestamp

/-- A row of `session_operations`. -/
structure OperationRow where
  id : OperationId
  sourceEventId : EventId
  kind : OperationKind
  gatewayConnectionId : Option GatewayConnectionId
  targetOperationId : Option OperationId
  previousOperationId : Option OperationId
  gatewayIdempotencyKey : String
  requestHash : String
  gatewayJobId : Option Uuid
  status : OperationStatus
  result : Option RawJson
  error : Option Value
  nextAttemptAt : Timestamp
  lease : Option Lease
  createdAt : Timestamp
  submittedAt : Option Timestamp
  completedAt : Option Timestamp
  requestRemovedAt : Option Timestamp

/-- A row of `session_operation_requests`. -/
structure OperationRequestRow where
  operationId : OperationId
  request : RawJson
  expiresAt : Option Timestamp

/-- A row of `session_operation_attempts`. -/
structure OperationAttemptRow where
  id : Uuid
  operationId : OperationId
  attemptNumber : Nat
  phase : OperationPhase
  leaseToken : Uuid
  status : OperationAttemptStatus
  httpStatus : Option Int
  error : Option Value
  startedAt : Timestamp
  finishedAt : Option Timestamp

/-- A row of `session_waits`. -/
structure WaitRow where
  id : WaitId
  sourceEventId : EventId
  mode : WaitMode
  payload : RawJson
  responseSchema : Option RawJson
  expiresAt : Option Timestamp
  status : WaitStatus
  resolutionPayload : Option RawJson
  resolutionIdempotencyKey : Option String
  resolutionHash : Option String
  createdAt : Timestamp
  finishedAt : Option Timestamp

/-- A row of `session_processing_retries`. -/
structure ProcessingRetryRow where
  id : Uuid
  idempotencyKey : String
  requestHash : String
  eventId : EventId
  expectedProcessingRevision : Nat
  processingRevision : Nat
  reason : Option String
  createdAt : Timestamp

/-- A row of `session_updates`. -/
structure UpdateRow where
  sequence : Nat
  kind : UpdateKind
  payload : Value
  sourceEventId : Option EventId
  createdAt : Timestamp

/-- A row of `gateway_callback_receipts`. -/
structure CallbackReceiptRow where
  id : Uuid
  gatewayConnectionId : GatewayConnectionId
  gatewayEventId : Uuid
  gatewayJobId : Uuid
  payload : RawJson
  operationId : Option OperationId
  status : ReceiptStatus
  nextAttemptAt : Timestamp
  lease : Option Lease
  lastError : Option Value
  receivedAt : Timestamp
  processedAt : Option Timestamp

/-- A session: its row of `sessions` and the rows of the other tables that it owns, each in the
order of insertion. -/
structure Session extends SessionRow where
  events : List EventRow
  eventAttempts : List EventAttemptRow
  history : List HistoryRow
  operations : List OperationRow
  requests : List OperationRequestRow
  operationAttempts : List OperationAttemptRow
  waits : List WaitRow
  retries : List ProcessingRetryRow
  updates : List UpdateRow

/-- The database. `nextUuid` is the supply that `Uuid::new_v4` draws from. -/
structure Db where
  sessions : List Session
  receipts : List CallbackReceiptRow
  nextUuid : Uuid

/-- The database before the first session is created. -/
def Db.empty : Db := { sessions := [], receipts := [], nextUuid := 0 }

/-! ## Statements -/

namespace Session

def updateEvents (s : Session) (p : EventRow → Bool) (f : EventRow → EventRow) : Session :=
  { s with events := Table.update p f s.events }

def updateEventAttempts (s : Session) (p : EventAttemptRow → Bool)
    (f : EventAttemptRow → EventAttemptRow) : Session :=
  { s with eventAttempts := Table.update p f s.eventAttempts }

def updateOperations (s : Session) (p : OperationRow → Bool) (f : OperationRow → OperationRow) :
    Session :=
  { s with operations := Table.update p f s.operations }

def updateRequests (s : Session) (p : OperationRequestRow → Bool)
    (f : OperationRequestRow → OperationRequestRow) : Session :=
  { s with requests := Table.update p f s.requests }

def updateOperationAttempts (s : Session) (p : OperationAttemptRow → Bool)
    (f : OperationAttemptRow → OperationAttemptRow) : Session :=
  { s with operationAttempts := Table.update p f s.operationAttempts }

def updateWaits (s : Session) (p : WaitRow → Bool) (f : WaitRow → WaitRow) : Session :=
  { s with waits := Table.update p f s.waits }

/-- `emit_update_with_event`: take the next update sequence and append the update under it. -/
def emitUpdateWithEvent (s : Session) (clock : Clock) (kind : UpdateKind) (payload : Value)
    (sourceEventId : Option EventId) : Session :=
  { s with
    nextUpdateSequence := s.nextUpdateSequence + 1
    updates := s.updates ++ [{ sequence := s.nextUpdateSequence, kind, payload, sourceEventId,
                               createdAt := clock.stamp s.nextUpdateSequence }] }

/-- `emit_update`. -/
def emitUpdate (s : Session) (clock : Clock) (kind : UpdateKind) (payload : Value) : Session :=
  s.emitUpdateWithEvent clock kind payload none

/-- `release_session_claim`. -/
def releaseSessionClaim (s : Session) (clock : Clock) : Session :=
  { s with lease := none, updatedAt := clock.now }

/-- `advance_event_sequence`. -/
def advanceEventSequence (s : Session) (clock : Clock) : Session :=
  { s with nextEventSequence := s.nextEventSequence + 1, updatedAt := clock.now }

/-- Two event rows that the primary key or a unique index of `session_events` keeps apart. -/
def eventsConflict (e e' : EventRow) : Bool :=
  e.id == e'.id || e.sequence == e'.sequence ||
    (e.idempotencyKey.isSome && e.eventType == e'.eventType &&
      e.idempotencyKey == e'.idempotencyKey) ||
    (e.eventType == .operationCompleted && e'.eventType == .operationCompleted &&
      e.operationId == e'.operationId) ||
    (e.eventType == .waitResumed && e'.eventType == .waitResumed && e.waitId == e'.waitId)

/-- `INSERT INTO session_events`. -/
def insertEvent (s : Session) (e : EventRow) : Result Session :=
  if s.events.any (eventsConflict e) then .error .uniqueViolation
  else .ok { s with events := s.events ++ [e] }

/-- The first event of the inbox that is not handled: the head of
`WHERE status IN ('pending','processing','blocked') ORDER BY sequence LIMIT 1`. -/
def head (s : Session) : Option EventRow :=
  Table.firstBy (·.sequence) (s.events.filter fun e => e.status ≠ .handled)

end Session

/-! ## Transactions -/

/-- `SELECT … FROM sessions WHERE id=$1`. -/
def Db.session? (db : Db) (id : SessionId) : Option Session :=
  Table.lookup (·.id) id db.sessions

/-- Write back the rows of one session. -/
def Db.put (db : Db) (s : Session) : Db :=
  { db with sessions := Table.update (fun s' => s'.id = s.id) (fun _ => s) db.sessions }

/-- The sessions other than `id`: the rows that a primary key of a session's own tables still has
to respect. -/
def Db.others (db : Db) (id : SessionId) : List Session :=
  db.sessions.filter fun s => s.id ≠ id

/-- One transaction, serialised on the row of session `id`: lock the row, run the body, and either
write everything back or, on an error, nothing. `draws` bounds the uuids the body takes; they
start at `db.nextUuid`. -/
def Db.transact {α : Type} (db : Db) (id : SessionId) (draws : Nat)
    (body : Uuid → Session → Result (α × Session)) : Result (α × Db) :=
  match db.session? id with
  | none => .error (.sessionNotFound id)
  | some s =>
    match body db.nextUuid s with
    | .error error => .error error
    | .ok (a, s') => .ok (a, { db.put s' with nextUuid := db.nextUuid + draws })

end AgentPlatform.Store
