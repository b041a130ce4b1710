import AgentPlatform.Store.Operations

/-!
# Callback receipts

A gateway callback is stored under its connection and gateway event id, claimed by a worker, matched
to the operation whose gateway job it names, and processed by making that operation due. None of
these transactions locks a session row.
-/

namespace AgentPlatform.Store

structure CallbackReceipt where
  id : Uuid
  gatewayConnectionId : GatewayConnectionId
  gatewayEventId : Uuid
  gatewayJobId : Uuid
  payload : RawJson
  operationId : Option OperationId
  status : ReceiptStatus
  receivedAt : Timestamp
deriving DecidableEq, Repr

/-- `callback_from_row`. -/
def CallbackReceiptRow.record (r : CallbackReceiptRow) : CallbackReceipt where
  id := r.id
  gatewayConnectionId := r.gatewayConnectionId
  gatewayEventId := r.gatewayEventId
  gatewayJobId := r.gatewayJobId
  payload := r.payload
  operationId := r.operationId
  status := r.status
  receivedAt := r.receivedAt

structure ClaimedCallbackReceipt where
  receipt : CallbackReceipt
  leaseToken : Uuid
deriving DecidableEq, Repr

/-- `UPDATE gateway_callback_receipts SET … WHERE id=$1`. -/
def Db.updateReceipt (db : Db) (id : Uuid) (f : CallbackReceiptRow → CallbackReceiptRow) : Db :=
  { db with receipts := Table.update (fun r => r.id = id) f db.receipts }

/-- `UPDATE session_operations SET … WHERE id=$1`, without a lock on the session. -/
def Db.updateOperation (db : Db) (id : OperationId) (f : OperationRow → OperationRow) : Db :=
  { db with sessions := db.sessions.map fun s => s.updateOperations (·.id = id) f }

/-- The operation that carries a gateway job of a connection. -/
def Db.operationOfJob (db : Db) (connection : GatewayConnectionId) (jobId : Uuid) :
    Option OperationId :=
  ((db.sessions.flatMap (·.operations)).find? fun o => o.mapsJob (some connection) jobId).map (·.id)

/-- `Store::record_callback_receipt`: the first delivery of a gateway event is kept, a later one
must agree with it. -/
def Db.recordCallbackReceipt (db : Db) (clock : Clock) (connection : GatewayConnectionId)
    (gatewayEventId gatewayJobId : Uuid) (payload : RawJson) : Result (CallbackReceipt × Db) :=
  let stored := db.receipts.find? fun r =>
    r.gatewayConnectionId = connection && r.gatewayEventId = gatewayEventId
  match stored with
  | some r =>
    if r.gatewayJobId ≠ gatewayJobId ∨ r.payload ≠ payload then .error .idempotencyConflict
    else .ok (r.record, db)
  | none =>
    let r : CallbackReceiptRow :=
      { id := db.nextUuid
        gatewayConnectionId := connection
        gatewayEventId
        gatewayJobId
        payload
        operationId := none
        status := .pending
        nextAttemptAt := clock.now
        lease := none
        lastError := none
        receivedAt := clock.now
        processedAt := none }
    .ok (r.record, { db with receipts := db.receipts ++ [r], nextUuid := db.nextUuid + 1 })

/-- A receipt that `claim_callback_receipt` may take. -/
def CallbackReceiptRow.claimable (r : CallbackReceiptRow) (clock : Clock) : Bool :=
  (r.status = .pending || r.status = .processing) && r.nextAttemptAt ≤ clock.reading 0 &&
    r.lease.all fun lease => lease.expiresAt ≤ clock.reading 0

/-- `Store::claim_callback_receipt`: the first in the order `next_attempt_at, received_at, id` that
no other transaction holds. -/
def Db.claimCallbackReceipt (db : Db) (clock : Clock) (locked : Uuid → Bool) (leaseFor : Nat) :
    Result (Option ClaimedCallbackReceipt × Db) :=
  let candidates := db.receipts.filter fun r => r.claimable clock && !locked r.id
  match Table.firstBy (fun r => toLex (r.nextAttemptAt, toLex (r.receivedAt, r.id))) candidates with
  | none => .ok (none, db)
  | some r =>
    match durationMillis leaseFor with
    | .error error => .error error
    | .ok leaseMs =>
      let claimed : CallbackReceiptRow → CallbackReceiptRow := fun r =>
        { r with
          status := .processing
          lease := some { token := db.nextUuid, expiresAt := clock.after 1 leaseMs } }
      .ok (some { receipt := (claimed r).record, leaseToken := db.nextUuid },
        { db.updateReceipt r.id claimed with nextUuid := db.nextUuid + 1 })

/-- `lock_valid_callback_claim`. -/
def Db.lockValidCallbackClaim (db : Db) (clock : Clock) (claim : ClaimedCallbackReceipt) :
    Result CallbackReceiptRow :=
  match db.receipts.find? (·.id = claim.receipt.id) with
  | none => .error (.invalidInput "callback receipt was not found")
  | some r =>
    match r.lease with
    | none => .error .staleClaim
    | some lease =>
      if lease.token ≠ claim.leaseToken ∨ lease.expiresAt ≤ clock.reading 0 then
        .error .staleClaim
      else .ok r

/-- `Store::match_callback_receipt`: an unmatched receipt goes back to pending. -/
def Db.matchCallbackReceipt (db : Db) (clock : Clock) (claim : ClaimedCallbackReceipt)
    (retryAt : Timestamp) : Result (Option OperationId × Db) := do
  let r ← db.lockValidCallbackClaim clock claim
  let operation := db.operationOfJob r.gatewayConnectionId r.gatewayJobId
  .ok (operation, db.updateReceipt claim.receipt.id fun r =>
    { r with
      operationId := operation
      nextAttemptAt := retryAt
      status := if operation.isNone then .pending else r.status
      lease := if operation.isNone then none else r.lease })

/-- `Store::complete_callback_receipt`: an accepted operation becomes due now at the latest. -/
def Db.completeCallbackReceipt (db : Db) (clock : Clock) (claim : ClaimedCallbackReceipt) :
    Result (Unit × Db) := do
  let r ← db.lockValidCallbackClaim clock claim
  let db : Db :=
    match r.operationId with
    | none => db
    | some id => db.updateOperation id fun o =>
      if o.status = .accepted then
        { o with nextAttemptAt := min o.nextAttemptAt (clock.reading 1) }
      else o
  .ok ((), db.updateReceipt claim.receipt.id fun r =>
    { r with status := .processed, processedAt := some clock.now, lease := none })

/-- `Store::block_callback_receipt`. -/
def Db.blockCallbackReceipt (db : Db) (clock : Clock) (claim : ClaimedCallbackReceipt)
    (error : Value) : Result (Unit × Db) := do
  let _ ← db.lockValidCallbackClaim clock claim
  let _ ← jsonb error
  .ok ((), db.updateReceipt claim.receipt.id fun r =>
    { r with status := .blocked, lastError := some error, lease := none })

/-- `Store::block_unmatched_callback_receipt`: only a pending receipt whose job no operation
carries. -/
def Db.blockUnmatchedCallbackReceipt (db : Db) (receiptId : Uuid) (error : Value) :
    Result (Unit × Db) := do
  let _ ← jsonb error
  .ok ((), db.updateReceipt receiptId fun r =>
    if r.status = .pending && r.operationId.isNone &&
        (db.operationOfJob r.gatewayConnectionId r.gatewayJobId).isNone then
      { r with status := .blocked, lastError := some error }
    else r)

/-- `Store::renew_callback_receipt_claim`. -/
def Db.renewCallbackReceiptClaim (db : Db) (clock : Clock) (claim : ClaimedCallbackReceipt)
    (leaseFor : Nat) : Result (Unit × Db) := do
  let _ ← db.lockValidCallbackClaim clock claim
  let leaseMs ← durationMillis leaseFor
  .ok ((), db.updateReceipt claim.receipt.id fun r =>
    { r with lease := r.lease.map fun lease => { lease with expiresAt := clock.after 1 leaseMs } })

/-- `Store::retry_callback_receipt`. -/
def Db.retryCallbackReceipt (db : Db) (clock : Clock) (claim : ClaimedCallbackReceipt)
    (retryAt : Timestamp) (error : Value) : Result (Unit × Db) := do
  let _ ← db.lockValidCallbackClaim clock claim
  let _ ← jsonb error
  .ok ((), db.updateReceipt claim.receipt.id fun r =>
    { r with status := .pending, nextAttemptAt := retryAt, lastError := some error, lease := none })

end AgentPlatform.Store
