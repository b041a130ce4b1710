import AgentPlatform.Store.Commit

/-!
# Gateway operations

Ownership and settlement of operations: `claim_operation` in its four phases, the records a worker
leaves of its attempt, and the two ways an operation ends, `complete_operation_with_http_status` and
`complete_withdrawal`. Every record is fenced by the lease token of the claim.
-/

namespace AgentPlatform.Store

/-! ## Records -/

structure OperationRecord where
  id : OperationId
  sessionId : SessionId
  sourceEventId : EventId
  kind : OperationKind
  gatewayConnectionId : Option GatewayConnectionId
  targetOperationId : Option OperationId
  previousOperationId : Option OperationId
  gatewayIdempotencyKey : String
  requestHash : String
  gatewayJobId : Option Uuid
  status : OperationStatus
  result : Option RawJson
  error : Option Value
  createdAt : Timestamp
  completedAt : Option Timestamp

/-- `operation_from_row`. -/
def OperationRow.record (o : OperationRow) (sessionId : SessionId) : OperationRecord where
  id := o.id
  sessionId := sessionId
  sourceEventId := o.sourceEventId
  kind := o.kind
  gatewayConnectionId := o.gatewayConnectionId
  targetOperationId := o.targetOperationId
  previousOperationId := o.previousOperationId
  gatewayIdempotencyKey := o.gatewayIdempotencyKey
  requestHash := o.requestHash
  gatewayJobId := o.gatewayJobId
  status := o.status
  result := o.result
  error := o.error
  createdAt := o.createdAt
  completedAt := o.completedAt

/-- `recoveringUncertain` says that an earlier submission or cancellation attempt had uncertain
acceptance. -/
structure ClaimedOperation where
  operation : OperationRecord
  request : Option RawJson
  phase : OperationPhase
  attemptId : Uuid
  attemptNumber : Nat
  leaseToken : Uuid
  recoveringUncertain : Bool

/-- The session that owns an operation. -/
def Db.sessionOfOperation (db : Db) (id : OperationId) : Option SessionId :=
  (db.sessions.find? fun s => s.operations.any (·.id = id)).map (·.id)

/-! ## Claiming -/

/-- The `eligibility` of a phase. -/
def OperationPhase.eligible (phase : OperationPhase) (o : OperationRow) : Bool :=
  match phase with
  | .submission =>
    (o.status = .pending || o.status = .submitting) && (o.kind = .llm || o.kind = .execution)
  | .resultRetrieval => o.status = .accepted
  | .cancellation => (o.status = .pending || o.status = .submitting) && o.kind = .llmCancellation
  | .withdrawal => (o.status = .pending || o.status = .submitting) && o.kind = .withdraw

/-- An operation that `claim_operation` may take: eligible, due, and under no running lease. -/
def OperationRow.claimable (o : OperationRow) (clock : Clock) (phase : OperationPhase) : Bool :=
  phase.eligible o && o.nextAttemptAt ≤ clock.reading 0 &&
    o.lease.all fun lease => lease.expiresAt ≤ clock.reading 0

/-- The operation that is claimed: the first in the order `next_attempt_at, created_at, id` whose
session row no other transaction holds. -/
def Db.operationCandidate (db : Db) (clock : Clock) (locked : SessionId → Bool)
    (phase : OperationPhase) : Option (Session × OperationRow) :=
  let candidates := db.sessions.flatMap fun s =>
    if locked s.id then []
    else (s.operations.filter fun o => o.claimable clock phase).map fun o => (s, o)
  Table.firstBy (fun (_, o) => toLex (o.nextAttemptAt, toLex (o.createdAt, o.id))) candidates

/-- The request text that a phase sends. -/
def Session.requestFor (s : Session) (phase : OperationPhase) (id : OperationId) : Option RawJson :=
  match phase with
  | .submission | .cancellation => (s.requests.find? (·.operationId = id)).map (·.request)
  | .resultRetrieval | .withdrawal => none

/-- The row of a claimed operation. -/
def OperationRow.claimed (o : OperationRow) (lease : Lease) : OperationRow :=
  { o with
    status := if o.status = .pending then .submitting else o.status
    lease := some lease }

/-- A new row of `session_operation_attempts`. -/
def OperationAttemptRow.new (clock : Clock) (id : Uuid) (operationId : OperationId)
    (attemptNumber : Nat) (phase : OperationPhase) (leaseToken : Uuid) : OperationAttemptRow where
  id := id
  operationId := operationId
  attemptNumber := attemptNumber
  phase := phase
  leaseToken := leaseToken
  status := .running
  httpStatus := none
  error := none
  startedAt := clock.now
  finishedAt := none

/-- The body of `Store::claim_operation` after the candidate is chosen. -/
def Session.claimOperation (s : Session) (clock : Clock) (o : OperationRow)
    (phase : OperationPhase) (leaseToken attemptId : Uuid) (leaseMs : Int) :
    ClaimedOperation × Session :=
  let lease : Lease := { token := leaseToken, expiresAt := clock.after 1 leaseMs }
  let s := s.updateOperationAttempts (fun a => a.operationId = o.id && a.status = .running)
    fun a => { a with status := .unknown, finishedAt := some clock.now }
  let attemptNumber :=
    Table.maxOf (·.attemptNumber) (s.operationAttempts.filter fun a => a.operationId = o.id) + 1
  let s := s.updateOperations (·.id = o.id) (·.claimed lease)
  let s : Session :=
    { s with
      operationAttempts := s.operationAttempts ++
        [.new clock attemptId o.id attemptNumber phase leaseToken] }
  ({ operation := (o.claimed lease).record s.id
     request := s.requestFor phase o.id
     phase
     attemptId
     attemptNumber
     leaseToken
     recoveringUncertain := o.status = .submitting },
   if o.status = .pending then s.emitUpdate clock .operationChanged (operationChanged o.id) else s)

/-- `Store::claim_operation`. -/
def Db.claimOperation (db : Db) (clock : Clock) (locked : SessionId → Bool)
    (phase : OperationPhase) (leaseFor : Nat) : Result (Option ClaimedOperation × Db) :=
  match db.operationCandidate clock locked phase with
  | none => .ok (none, db)
  | some (s, o) =>
    match durationMillis leaseFor with
    | .error error => .error error
    | .ok leaseMs =>
      db.transact s.id 2 fun base s =>
        let (claimed, s') := s.claimOperation clock o phase base (base + 1) leaseMs
        .ok (some claimed, s')

/-! ## Holding a claim -/

structure OperationLock where
  status : OperationStatus
  gatewayJobId : Option Uuid
  hasError : Bool
deriving DecidableEq, Repr

/-- `lock_valid_operation_claim`: the claim carries the operation's token, and its lease has not run
out. -/
def Session.lockValidOperationClaim (s : Session) (clock : Clock) (claim : ClaimedOperation) :
    Result OperationLock :=
  match s.operations.find? (·.id = claim.operation.id) with
  | none => .error (.operationNotFound claim.operation.id)
  | some o =>
    match o.lease with
    | none => .error .staleClaim
    | some lease =>
      if lease.token ≠ claim.leaseToken ∨ lease.expiresAt ≤ clock.reading 0 then
        .error .staleClaim
      else
        .ok { status := o.status, gatewayJobId := o.gatewayJobId, hasError := o.error.isSome }

/-- The rows of `session_operation_attempts` that a claim ends: its own, while it runs. -/
def ClaimedOperation.ends (claim : ClaimedOperation) (a : OperationAttemptRow) : Bool :=
  a.id = claim.attemptId && a.leaseToken = claim.leaseToken && a.status = .running

/-- `finish_operation_attempt`. -/
def Session.finishOperationAttempt (s : Session) (clock : Clock) (claim : ClaimedOperation)
    (status : OperationAttemptStatus) (httpStatus : Option Int) (error : Option Value) :
    Result Session :=
  if s.operationAttempts.countP claim.ends ≠ 1 then .error .staleClaim
  else
    .ok (s.updateOperationAttempts claim.ends fun a =>
      { a with status, httpStatus, error, finishedAt := some clock.now })

/-- What a worker records of its attempt: the operation's row is rewritten and released, and the
attempt ends. -/
def Session.recordAttempt (s : Session) (clock : Clock) (claim : ClaimedOperation)
    (recorded : OperationRow → OperationRow) (status : OperationAttemptStatus)
    (httpStatus : Option Int) (error : Option Value) : Result Session :=
  (s.updateOperations (·.id = claim.operation.id) fun o =>
    { recorded o with lease := none }).finishOperationAttempt clock claim status httpStatus error

/-- The update that most transactions on an operation emit last. -/
def Session.announceOperation (s : Session) (clock : Clock) (id : OperationId) : Session :=
  s.emitUpdate clock .operationChanged (operationChanged id)

/-- The body of `Store::defer_operation`. -/
def Session.deferOperation (s : Session) (clock : Clock) (claim : ClaimedOperation)
    (retryAt : Timestamp) : Result (Unit × Session) := do
  let current ← s.lockValidOperationClaim clock claim
  if (claim.phase ≠ .submission ∧ claim.phase ≠ .cancellation) ∨ current.status ≠ .submitting then
    .error (.invalidInput "only a submission or cancellation claim can be deferred")
  else
    let s ← s.recordAttempt clock claim
      (fun o => { o with status := .pending, nextAttemptAt := retryAt, error := none })
      .succeeded none none
    .ok ((), s.announceOperation clock claim.operation.id)

/-- `Store::defer_operation`. -/
def Db.deferOperation (db : Db) (clock : Clock) (claim : ClaimedOperation) (retryAt : Timestamp) :
    Result (Unit × Db) :=
  db.transact claim.operation.sessionId 0 fun _ s => s.deferOperation clock claim retryAt

/-- The operations that already carry gateway job `jobId` of the connection, other than `id`: the
rows that `session_operations_gateway_job_idx` keeps a new mapping from. -/
def OperationRow.mapsJob (o : OperationRow) (connection : Option GatewayConnectionId)
    (jobId : Uuid) : Bool :=
  connection.isSome && o.gatewayConnectionId == connection && o.gatewayJobId == some jobId

/-- The body of `Store::record_operation_accepted`. `taken` tells the job mappings of the other
sessions. -/
def Session.recordOperationAccepted (s : Session) (clock : Clock)
    (taken : Option GatewayConnectionId → Uuid → Bool) (claim : ClaimedOperation)
    (gatewayJobId : Uuid) (resultCheckAt : Timestamp) (httpStatus : Option Int) :
    Result (Unit × Session) := do
  let current ← s.lockValidOperationClaim clock claim
  if claim.phase ≠ .submission ∨ current.status ≠ .submitting ∨ current.gatewayJobId.isSome then
    .error (.invalidInput "only a new submission claim can accept a gateway job")
  else if s.operations.any fun o => o.id = claim.operation.id &&
      (taken o.gatewayConnectionId gatewayJobId ||
        s.operations.any fun o' => o'.id ≠ o.id && o'.mapsJob o.gatewayConnectionId gatewayJobId)
      then
    .error .uniqueViolation
  else
    let s ← s.recordAttempt clock claim
      (fun o =>
        { o with
          status := .accepted
          gatewayJobId := some gatewayJobId
          submittedAt := some clock.now
          error := none
          nextAttemptAt := resultCheckAt })
      .succeeded httpStatus none
    .ok ((), s.announceOperation clock claim.operation.id)

/-- `Store::record_operation_accepted`. -/
def Db.recordOperationAccepted (db : Db) (clock : Clock) (claim : ClaimedOperation)
    (gatewayJobId : Uuid) (resultCheckAt : Timestamp) (httpStatus : Option Int) :
    Result (Unit × Db) :=
  let taken connection jobId := (db.others claim.operation.sessionId).any fun s =>
    s.operations.any fun o => o.mapsJob connection jobId
  db.transact claim.operation.sessionId 0 fun _ s =>
    s.recordOperationAccepted clock taken claim gatewayJobId resultCheckAt httpStatus

/-- The body of `Store::renew_operation_claim`. -/
def Session.renewOperationClaim (s : Session) (clock : Clock) (claim : ClaimedOperation)
    (leaseFor : Nat) : Result (Unit × Session) := do
  let _ ← s.lockValidOperationClaim clock claim
  let leaseMs ← durationMillis leaseFor
  .ok ((), s.updateOperations (·.id = claim.operation.id) fun o =>
    { o with lease := o.lease.map fun lease => { lease with expiresAt := clock.after 1 leaseMs } })

/-- `Store::renew_operation_claim`: only the operation's row is locked. -/
def Db.renewOperationClaim (db : Db) (clock : Clock) (claim : ClaimedOperation) (leaseFor : Nat) :
    Result (Unit × Db) :=
  match db.sessionOfOperation claim.operation.id with
  | none => .error (.operationNotFound claim.operation.id)
  | some sessionId => db.transact sessionId 0 fun _ s => s.renewOperationClaim clock claim leaseFor

/-- The status that `record_operation_retry` leaves: an uncertain submission or cancellation stays
submitting, a certain one returns to pending. -/
def retryStatus (phase : OperationPhase) (status : OperationStatus) (uncertain : Bool) :
    Option OperationStatus :=
  match phase, status with
  | .submission, .submitting | .cancellation, .submitting =>
    some (if uncertain then .submitting else .pending)
  | .resultRetrieval, .accepted => some .accepted
  | _, _ => none

/-- The body of `Store::record_operation_retry`. -/
def Session.recordOperationRetry (s : Session) (clock : Clock) (claim : ClaimedOperation)
    (uncertain : Bool) (retryAt : Timestamp) (httpStatus : Option Int) (error : Value) :
    Result (Unit × Session) := do
  let current ← s.lockValidOperationClaim clock claim
  match retryStatus claim.phase current.status uncertain with
  | none => .error (.invalidInput "operation retry does not match its claim phase and status")
  | some nextStatus =>
    let _ ← jsonb error
    let s ← s.recordAttempt clock claim
      (fun o => { o with status := nextStatus, nextAttemptAt := retryAt, error := some error })
      (if uncertain then .unknown else .failed) httpStatus (some error)
    .ok ((), s.announceOperation clock claim.operation.id)

/-- `Store::record_operation_retry`. -/
def Db.recordOperationRetry (db : Db) (clock : Clock) (claim : ClaimedOperation) (uncertain : Bool)
    (retryAt : Timestamp) (httpStatus : Option Int) (error : Value) : Result (Unit × Db) :=
  db.transact claim.operation.sessionId 0 fun _ s =>
    s.recordOperationRetry clock claim uncertain retryAt httpStatus error

/-- The body of `Store::record_operation_pending_result`. -/
def Session.recordOperationPendingResult (s : Session) (clock : Clock) (claim : ClaimedOperation)
    (checkAgainAt : Timestamp) (httpStatus : Option Int) : Result (Unit × Session) := do
  let current ← s.lockValidOperationClaim clock claim
  if claim.phase ≠ .resultRetrieval ∨ current.status ≠ .accepted then
    .error (.invalidInput "a nonterminal result requires an accepted result-retrieval claim")
  else
    let s ← s.recordAttempt clock claim
      (fun o => { o with nextAttemptAt := checkAgainAt, error := none }) .succeeded httpStatus none
    .ok ((), if current.hasError then s.announceOperation clock claim.operation.id else s)

/-- `Store::record_operation_pending_result`. -/
def Db.recordOperationPendingResult (db : Db) (clock : Clock) (claim : ClaimedOperation)
    (checkAgainAt : Timestamp) (httpStatus : Option Int) : Result (Unit × Db) :=
  db.transact claim.operation.sessionId 0 fun _ s =>
    s.recordOperationPendingResult clock claim checkAgainAt httpStatus

/-! ## Settling -/

/-- The payload of an `operation_completed` event. -/
def operationPayload (id : OperationId) (kind : OperationKind) (status : OperationStatus) :
    RawJson :=
  "\x7b\"operation_id\":\"" ++ id.toText ++ "\",\"operation_kind\":\"" ++ kind.asStr ++
    "\",\"outcome_status\":\"" ++ status.asStr ++ "\"\x7d"

/-- The row that `insert_operation_event` inserts. -/
def operationEvent (clock : Clock) (eventId : EventId) (id : OperationId) (kind : OperationKind)
    (status : OperationStatus) (sequence : EventSequence) : EventRow :=
  { EventRow.new clock eventId sequence .operationCompleted (operationPayload id kind status) with
    operationId := some id }

/-- Let the stored request of an operation expire. -/
def Session.expireRequest (s : Session) (id : OperationId) (expiresAt : Option Timestamp) :
    Session :=
  match expiresAt with
  | none => s
  | some expiresAt =>
    s.updateRequests (·.operationId = id) fun r => { r with expiresAt := some expiresAt }

/-- Move an operation to a terminal status, release it, and insert its completion event. -/
def Session.settleOperation (s : Session) (clock : Clock) (id : OperationId) (kind : OperationKind)
    (status : OperationStatus) (settled : OperationRow → OperationRow)
    (requestExpiresAt : Option Timestamp) (eventId : EventId) : Result (EventRow × Session) :=
  let s := s.updateOperations (·.id = id) fun o =>
    { settled o with status, completedAt := some clock.now, lease := none }
  let s := s.expireRequest id requestExpiresAt
  let e := operationEvent clock eventId id kind status s.nextEventSequence
  match s.insertEvent e with
  | .error error => .error error
  | .ok s => .ok (e, s.advanceEventSequence clock)

/-- The result that a withdrawal stores. -/
def withdrawalResult (withdrawn : Bool) : RawJson :=
  "\x7b\"kind\":\"withdraw\",\"value\":\x7b\"withdrawn\":" ++ toString withdrawn ++ "\x7d\x7d"

/-- A target that a withdrawal still takes back: pending and leased by nobody. -/
def OperationRow.withdrawable (o : OperationRow) : Bool :=
  o.status = .pending && o.lease.isNone

/-- Cancel the target of a withdrawal, when it can still be taken back. -/
def Session.withdrawTarget (s : Session) (clock : Clock) (target : OperationRow)
    (requestExpiresAt : Option Timestamp) (eventId : EventId) :
    Result (List EventRow × Session) :=
  if target.withdrawable then
    match s.settleOperation clock target.id target.kind .cancelled id requestExpiresAt eventId with
    | .error error => .error error
    | .ok (e, s) => .ok ([e], s)
  else .ok ([], s)

/-- The `event.changed` updates of inserted events. -/
def Session.announceEvents (s : Session) (clock : Clock) : List EventRow → Session
  | [] => s
  | e :: events =>
    (s.emitUpdate clock .eventChanged (eventTouched e.id)).announceEvents clock events

/-- The body of `Store::complete_withdrawal` once the claim is known to be a withdrawal. -/
def Session.completeWithdrawal (s : Session) (clock : Clock) (eventId : EventId)
    (claim : ClaimedOperation) (targetId : OperationId) (requestExpiresAt : Option Timestamp) :
    Result ((Bool × List EventRecord) × Session) := do
  let current ← s.lockValidOperationClaim clock claim
  if current.status ≠ .submitting then
    .error (.invalidInput "withdrawal is not in a claimable state")
  else
    match s.operations.find? (·.id = targetId) with
    | none => .error (.operationNotFound targetId)
    | some target =>
      let withdrawn := target.withdrawable
      let (cancelled, s) ← s.withdrawTarget clock target requestExpiresAt eventId
      let (e, s) ← s.settleOperation clock claim.operation.id .withdraw .succeeded
        (fun o => { o with result := some (withdrawalResult withdrawn) }) requestExpiresAt
        (eventId + 1)
      let s ← s.finishOperationAttempt clock claim .succeeded none none
      let s := if withdrawn then s.announceOperation clock targetId else s
      let s := s.announceOperation clock claim.operation.id
      let events := cancelled ++ [e]
      .ok ((withdrawn, events.map (·.record s.id)), s.announceEvents clock events)

/-- `Store::complete_withdrawal`. -/
def Db.completeWithdrawal (db : Db) (clock : Clock) (claim : ClaimedOperation)
    (requestExpiresAt : Option Timestamp) : Result ((Bool × List EventRecord) × Db) :=
  if claim.phase ≠ .withdrawal ∨ claim.operation.kind ≠ .withdraw then
    .error (.invalidInput "withdrawal completion requires a withdrawal claim")
  else
    match claim.operation.targetOperationId with
    | none => .error (.invalidInput "withdrawal operation has no target")
    | some targetId =>
      db.transact claim.operation.sessionId 2 fun eventId s =>
        s.completeWithdrawal clock eventId claim targetId requestExpiresAt

/-- `valid_phase` of `complete_operation_with_http_status`. -/
def completionAllowed (phase : OperationPhase) (current : OperationLock)
    (status : OperationStatus) : Bool :=
  match phase with
  | .submission =>
    current.status = .submitting && status = .failed && current.gatewayJobId.isNone
  | .resultRetrieval => current.status = .accepted
  | .cancellation => current.status = .submitting
  | .withdrawal => false

/-- The body of `Store::complete_operation_with_http_status`. -/
def Session.completeOperation (s : Session) (clock : Clock) (eventId : EventId)
    (claim : ClaimedOperation) (status : OperationStatus) (result : Option RawJson)
    (error : Option Value) (requestExpiresAt : Option Timestamp) (httpStatus : Option Int) :
    Result (EventRecord × Session) := do
  let current ← s.lockValidOperationClaim clock claim
  if !completionAllowed claim.phase current status then
    .error (.invalidInput "operation completion does not match its claim phase and status")
  else
    let _ ← jsonb (error.getD .null)
    let (e, s) ← s.settleOperation clock claim.operation.id claim.operation.kind status
      (fun o => { o with result, error }) requestExpiresAt eventId
    let s ← s.finishOperationAttempt clock claim .succeeded httpStatus none
    let s := s.announceOperation clock claim.operation.id
    .ok (e.record s.id, s.emitUpdate clock .eventChanged (eventTouched e.id))

/-- `Store::complete_operation_with_http_status`. -/
def Db.completeOperation (db : Db) (clock : Clock) (claim : ClaimedOperation)
    (status : OperationStatus) (result : Option RawJson) (error : Option Value)
    (requestExpiresAt : Option Timestamp) (httpStatus : Option Int) : Result (EventRecord × Db) :=
  if !status.terminal then
    .error (.invalidInput "operation completion requires a terminal status")
  else
    db.transact claim.operation.sessionId 1 fun eventId s =>
      s.completeOperation clock eventId claim status result error requestExpiresAt httpStatus

/-! ## Cleanup -/

/-- A stored request that cleanup may remove: expired, and of a terminal operation. -/
def Session.requestRemovable (s : Session) (clock : Clock) (id : OperationId) : Bool :=
  (s.requests.any fun r => r.operationId = id &&
      r.expiresAt.any fun expiresAt => expiresAt ≤ clock.reading 0) &&
    s.operations.any fun o => o.id = id && o.status.terminal

/-- The body of `Store::delete_expired_operation_request`, and of one round of
`delete_expired_operation_requests`. -/
def Session.deleteExpiredOperationRequest (s : Session) (clock : Clock) (id : OperationId) :
    Bool × Session :=
  if s.requestRemovable clock id then
    let s : Session := { s with requests := s.requests.filter fun r => r.operationId ≠ id }
    let s := s.updateOperations (·.id = id) fun o =>
      { o with requestRemovedAt := some (clock.reading 1) }
    (true, s.announceOperation clock id)
  else (false, s)

/-- `Store::delete_expired_operation_request`. A session row that another transaction holds is
skipped. -/
def Db.deleteExpiredOperationRequest (db : Db) (clock : Clock) (locked : SessionId → Bool)
    (id : OperationId) : Result (Bool × Db) :=
  match db.sessionOfOperation id with
  | none => .ok (false, db)
  | some sessionId =>
    if locked sessionId then .ok (false, db)
    else db.transact sessionId 0 fun _ s => .ok (s.deleteExpiredOperationRequest clock id)

/-- One round of `Store::prune_updates`: drop the updates of one session up to the last of its first
thousand that are older than `before`. Updates stand in the order of their sequences. -/
def Session.pruneUpdates (s : Session) (before : Timestamp) : Nat × Session :=
  match ((s.updates.filter fun u => u.createdAt < before).take 1000).getLast? with
  | none => (0, s)
  | some maximum =>
    let kept := s.updates.filter fun u => maximum.sequence < u.sequence
    (s.updates.length - kept.length,
      { s with
        updates := kept
        retainedUpdateSequence := max s.retainedUpdateSequence (maximum.sequence + 1) })

/-- One round of `Store::prune_updates`. -/
def Db.pruneUpdates (db : Db) (id : SessionId) (before : Timestamp) : Result (Nat × Db) :=
  db.transact id 0 fun _ s => .ok (s.pruneUpdates before)

end AgentPlatform.Store
