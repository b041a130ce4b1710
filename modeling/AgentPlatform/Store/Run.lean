import AgentPlatform.Store.Receipts

/-!
# Runs of the store

Every method of the store is one atomic transaction. A run is any sequence of calls from the empty
database, each at its own clock. A worker holds a claim because an earlier call answered with it, so
a call may present any claim that was issued before it, current or stale; this is all that a run
asks of its callers.
-/

namespace AgentPlatform.Store

/-- A call of a store method. -/
inductive StoreCall where
  | createSession (session : NewSession)
  | patchSessionMetadata (id : SessionId) (name : Option (Option String)) (metadata : Option Value)
  | enqueueExternalEvent (input : NewExternalEvent)
  | claimNextEvent (locked : SessionId → Bool) (leaseFor : Nat)
  | renewEventClaim (claim : HandlerClaim) (leaseFor : Nat)
  | recordHandlerFailure (claim : HandlerClaim) (error : Value) (retryAt : Timestamp)
      (blocked : Bool)
  | abandonHandlerAttempt (claim : HandlerClaim) (error : Value) (retryAt : Timestamp)
  | commitHandlerOutcome (claim : HandlerClaim) (outcome : OutcomeCommit)
  | retryBlockedEvent (sessionId : SessionId) (eventId : EventId) (expectedRevision : Nat)
      (idempotencyKey : String) (request : RawJson) (reason : Option String)
  | resolveWait (waitId : WaitId) (idempotencyKey : String) (response : RawJson)
  | expireWait (waitId : WaitId)
  | claimOperation (locked : SessionId → Bool) (phase : OperationPhase) (leaseFor : Nat)
  | deferOperation (claim : ClaimedOperation) (retryAt : Timestamp)
  | recordOperationAccepted (claim : ClaimedOperation) (gatewayJobId : Uuid)
      (resultCheckAt : Timestamp) (httpStatus : Option Int)
  | renewOperationClaim (claim : ClaimedOperation) (leaseFor : Nat)
  | recordOperationRetry (claim : ClaimedOperation) (uncertain : Bool) (retryAt : Timestamp)
      (httpStatus : Option Int) (error : Value)
  | recordOperationPendingResult (claim : ClaimedOperation) (checkAgainAt : Timestamp)
      (httpStatus : Option Int)
  | completeWithdrawal (claim : ClaimedOperation) (requestExpiresAt : Option Timestamp)
  | completeOperation (claim : ClaimedOperation) (status : OperationStatus)
      (result : Option RawJson) (error : Option Value) (requestExpiresAt : Option Timestamp)
      (httpStatus : Option Int)
  | deleteExpiredOperationRequest (locked : SessionId → Bool) (id : OperationId)
  | pruneUpdates (id : SessionId) (before : Timestamp)
  | recordCallbackReceipt (connection : GatewayConnectionId) (gatewayEventId gatewayJobId : Uuid)
      (payload : RawJson)
  | claimCallbackReceipt (locked : Uuid → Bool) (leaseFor : Nat)
  | matchCallbackReceipt (claim : ClaimedCallbackReceipt) (retryAt : Timestamp)
  | completeCallbackReceipt (claim : ClaimedCallbackReceipt)
  | blockCallbackReceipt (claim : ClaimedCallbackReceipt) (error : Value)
  | blockUnmatchedCallbackReceipt (receiptId : Uuid) (error : Value)
  | renewCallbackReceiptClaim (claim : ClaimedCallbackReceipt) (leaseFor : Nat)
  | retryCallbackReceipt (claim : ClaimedCallbackReceipt) (retryAt : Timestamp) (error : Value)

/-- What a call answers. -/
inductive Reply where
  | failed (error : StoreError)
  | done
  | session (session : SessionRecord)
  | enqueued (result : EnqueueResult)
  | claimedEvent (claimed : Option ClaimedEvent)
  | retried (retry : ProcessingRetry)
  | waitResolved (resolution : WaitResolution)
  | waitExpired (event : Option EventRecord)
  | claimedOperation (claimed : Option ClaimedOperation)
  | withdrawn (result : Bool × List EventRecord)
  | completed (event : EventRecord)
  | requestDeleted (deleted : Bool)
  | pruned (removed : Nat)
  | receipt (receipt : CallbackReceipt)
  | claimedReceipt (claimed : Option ClaimedCallbackReceipt)
  | matched (operation : Option OperationId)

/-- Answer a transaction: an error leaves the database as it was. -/
def settle {α : Type} (db : Db) (reply : α → Reply) : Result (α × Db) → Reply × Db
  | .error error => (.failed error, db)
  | .ok (a, db') => (reply a, db')

/-- Run one call. -/
def exec (codec : Codec) (clock : Clock) (db : Db) : StoreCall → Reply × Db
  | .createSession session => settle db .session (db.createSession clock session)
  | .patchSessionMetadata id name metadata =>
    settle db .session (db.patchSessionMetadata clock id name metadata)
  | .enqueueExternalEvent input =>
    settle db .enqueued (db.enqueueExternalEvent codec clock input)
  | .claimNextEvent locked leaseFor =>
    settle db .claimedEvent (db.claimNextEvent clock locked leaseFor)
  | .renewEventClaim claim leaseFor =>
    settle db (fun _ => .done) (db.renewEventClaim clock claim leaseFor)
  | .recordHandlerFailure claim error retryAt blocked =>
    settle db (fun _ => .done) (db.recordHandlerFailure clock claim error retryAt blocked)
  | .abandonHandlerAttempt claim error retryAt =>
    settle db (fun _ => .done) (db.abandonHandlerAttempt clock claim error retryAt)
  | .commitHandlerOutcome claim outcome =>
    settle db (fun _ => .done) (db.commitOutcome codec clock claim outcome)
  | .retryBlockedEvent sessionId eventId expectedRevision idempotencyKey request reason =>
    settle db .retried
      (db.retryBlockedEvent codec clock sessionId eventId expectedRevision idempotencyKey request
        reason)
  | .resolveWait waitId idempotencyKey response =>
    settle db .waitResolved (db.resolveWait codec clock waitId idempotencyKey response)
  | .expireWait waitId => settle db .waitExpired (db.expireWait clock waitId)
  | .claimOperation locked phase leaseFor =>
    settle db .claimedOperation (db.claimOperation clock locked phase leaseFor)
  | .deferOperation claim retryAt =>
    settle db (fun _ => .done) (db.deferOperation clock claim retryAt)
  | .recordOperationAccepted claim gatewayJobId resultCheckAt httpStatus =>
    settle db (fun _ => .done)
      (db.recordOperationAccepted clock claim gatewayJobId resultCheckAt httpStatus)
  | .renewOperationClaim claim leaseFor =>
    settle db (fun _ => .done) (db.renewOperationClaim clock claim leaseFor)
  | .recordOperationRetry claim uncertain retryAt httpStatus error =>
    settle db (fun _ => .done)
      (db.recordOperationRetry clock claim uncertain retryAt httpStatus error)
  | .recordOperationPendingResult claim checkAgainAt httpStatus =>
    settle db (fun _ => .done)
      (db.recordOperationPendingResult clock claim checkAgainAt httpStatus)
  | .completeWithdrawal claim requestExpiresAt =>
    settle db .withdrawn (db.completeWithdrawal clock claim requestExpiresAt)
  | .completeOperation claim status result error requestExpiresAt httpStatus =>
    settle db .completed
      (db.completeOperation clock claim status result error requestExpiresAt httpStatus)
  | .deleteExpiredOperationRequest locked id =>
    settle db .requestDeleted (db.deleteExpiredOperationRequest clock locked id)
  | .pruneUpdates id before => settle db .pruned (db.pruneUpdates id before)
  | .recordCallbackReceipt connection gatewayEventId gatewayJobId payload =>
    settle db .receipt
      (db.recordCallbackReceipt clock connection gatewayEventId gatewayJobId payload)
  | .claimCallbackReceipt locked leaseFor =>
    settle db .claimedReceipt (db.claimCallbackReceipt clock locked leaseFor)
  | .matchCallbackReceipt claim retryAt =>
    settle db .matched (db.matchCallbackReceipt clock claim retryAt)
  | .completeCallbackReceipt claim =>
    settle db (fun _ => .done) (db.completeCallbackReceipt clock claim)
  | .blockCallbackReceipt claim error =>
    settle db (fun _ => .done) (db.blockCallbackReceipt clock claim error)
  | .blockUnmatchedCallbackReceipt receiptId error =>
    settle db (fun _ => .done) (db.blockUnmatchedCallbackReceipt receiptId error)
  | .renewCallbackReceiptClaim claim leaseFor =>
    settle db (fun _ => .done) (db.renewCallbackReceiptClaim clock claim leaseFor)
  | .retryCallbackReceipt claim retryAt error =>
    settle db (fun _ => .done) (db.retryCallbackReceipt clock claim retryAt error)

/-! ## Runs -/

/-- One call of a run, its clock and its answer. -/
structure Entry where
  call : StoreCall
  clock : Clock
  reply : Reply

/-- The handler claim that a call presents. -/
def StoreCall.handlerClaim : StoreCall → Option HandlerClaim
  | .renewEventClaim claim _ | .recordHandlerFailure claim _ _ _ | .abandonHandlerAttempt claim _ _
  | .commitHandlerOutcome claim _ => some claim
  | _ => none

/-- The operation claim that a call presents. -/
def StoreCall.operationClaim : StoreCall → Option ClaimedOperation
  | .deferOperation claim _ | .recordOperationAccepted claim _ _ _ | .renewOperationClaim claim _
  | .recordOperationRetry claim _ _ _ _ | .recordOperationPendingResult claim _ _
  | .completeWithdrawal claim _ | .completeOperation claim _ _ _ _ _ => some claim
  | _ => none

/-- The receipt claim that a call presents. -/
def StoreCall.receiptClaim : StoreCall → Option ClaimedCallbackReceipt
  | .matchCallbackReceipt claim _ | .completeCallbackReceipt claim | .blockCallbackReceipt claim _
  | .renewCallbackReceiptClaim claim _ | .retryCallbackReceipt claim _ _ => some claim
  | _ => none

/-- The handler claim that an entry issued. -/
def Entry.issuedHandlerClaim (entry : Entry) : Option HandlerClaim :=
  match entry.reply with
  | .claimedEvent claimed => claimed.map (·.claim)
  | _ => none

/-- The operation claim that an entry issued. -/
def Entry.issuedOperationClaim (entry : Entry) : Option ClaimedOperation :=
  match entry.reply with
  | .claimedOperation claimed => claimed
  | _ => none

/-- The receipt claim that an entry issued. -/
def Entry.issuedReceiptClaim (entry : Entry) : Option ClaimedCallbackReceipt :=
  match entry.reply with
  | .claimedReceipt claimed => claimed
  | _ => none

/-- The handler claims issued by a run. -/
def handlerClaims (trace : List Entry) : List HandlerClaim := trace.filterMap (·.issuedHandlerClaim)

/-- The operation claims issued by a run. -/
def operationClaims (trace : List Entry) : List ClaimedOperation :=
  trace.filterMap (·.issuedOperationClaim)

/-- The receipt claims issued by a run. -/
def receiptClaims (trace : List Entry) : List ClaimedCallbackReceipt :=
  trace.filterMap (·.issuedReceiptClaim)

/-- A call whose claim, if it presents one, was issued before. -/
structure Admissible (trace : List Entry) (call : StoreCall) : Prop where
  handler : ∀ claim ∈ call.handlerClaim, claim ∈ handlerClaims trace
  operation : ∀ claim ∈ call.operationClaim, claim ∈ operationClaims trace
  receipt : ∀ claim ∈ call.receiptClaim, claim ∈ receiptClaims trace

/-- A run of the store and the database it leads to. -/
inductive Run (codec : Codec) : List Entry → Db → Prop
  | start : Run codec [] Db.empty
  | step {trace : List Entry} {db : Db} (call : StoreCall) (clock : Clock)
      (run : Run codec trace db) (admissible : Admissible trace call) :
      Run codec (trace ++ [{ call, clock, reply := (exec codec clock db call).1 }])
        (exec codec clock db call).2

/-! ## A small run -/

/-- The calls of a list one after the other, all at one clock. -/
def replay (codec : Codec) (clock : Clock) (calls : List StoreCall) : List Entry × Db :=
  calls.foldl (fun (trace, db) call =>
    (trace ++ [⟨call, clock, (exec codec clock db call).1⟩], (exec codec clock db call).2))
    ([], Db.empty)

/-- Calls that present claims of earlier calls only are a run. -/
theorem Run.replay {codec : Codec} {clock : Clock} {calls : List StoreCall}
    (admissible : ∀ n call, calls[n]? = some call →
      Admissible (Store.replay codec clock (calls.take n)).1 call) :
    Run codec (Store.replay codec clock calls).1 (Store.replay codec clock calls).2 := by
  induction calls using List.reverseRecOn with
  | nil => exact .start
  | append_singleton calls call ih =>
    have hbefore : Run codec (Store.replay codec clock calls).1 (Store.replay codec clock calls).2 := by
      refine ih fun n call' hcall' => ?_
      have hlt : n < calls.length := (List.getElem?_eq_some_iff.mp hcall').1
      have := admissible n call' (by rw [List.getElem?_append_left hlt]; exact hcall')
      rwa [List.take_append_of_le_length hlt.le] at this
    have hlast := admissible calls.length call (by simp)
    rw [List.take_left] at hlast
    simpa [Store.replay] using hbefore.step call clock hlast

theorem Admissible.of_unclaimed {trace : List Entry} {call : StoreCall}
    (handler : call.handlerClaim = none) (operation : call.operationClaim = none)
    (receipt : call.receiptClaim = none) : Admissible trace call where
  handler := by simp [handler]
  operation := by simp [operation]
  receipt := by simp [receipt]

theorem Admissible.of_handler {trace : List Entry} {call : StoreCall} {claim : HandlerClaim}
    (handler : call.handlerClaim = some claim) (issued : claim ∈ handlerClaims trace)
    (operation : call.operationClaim = none) (receipt : call.receiptClaim = none) :
    Admissible trace call where
  handler := by simpa [handler] using issued
  operation := by simp [operation]
  receipt := by simp [receipt]

/-- A call that presents an operation claim presents no other. -/
theorem Admissible.of_operation {trace : List Entry} {call : StoreCall} {claim : ClaimedOperation}
    (operation : call.operationClaim = some claim) (issued : claim ∈ operationClaims trace) :
    Admissible trace call := by
  refine ⟨?_, ?_, ?_⟩
  · cases call <;> first | exact fun c hc => absurd hc (Option.not_mem_none c) | cases operation
  · rw [operation]
    rintro _ ⟨⟩
    exact issued
  · cases call <;> first | exact fun c hc => absurd hc (Option.not_mem_none c) | cases operation

/-- A call that presents a receipt claim presents no other. -/
theorem Admissible.of_receipt {trace : List Entry} {call : StoreCall}
    {claim : ClaimedCallbackReceipt} (receipt : call.receiptClaim = some claim)
    (issued : claim ∈ receiptClaims trace) : Admissible trace call := by
  refine ⟨?_, ?_, ?_⟩
  · cases call <;> first | exact fun c hc => absurd hc (Option.not_mem_none c) | cases receipt
  · cases call <;> first | exact fun c hc => absurd hc (Option.not_mem_none c) | cases receipt
  · rw [receipt]
    rintro _ ⟨⟩
    exact issued

/-- Texts are their own fingerprints, and every message is a user's. -/
def plainCodec : Codec where
  fingerprint text := text
  decodeMessage text := .ok (.userText text)
  textLength _ := 0

/-- A clock that stands still. -/
def stillClock : Clock := { now := 0, reading := fun _ => 0, stamp := fun _ => 0 }

/-- A session that answers one user message: the event is claimed and handled, and the outcome
stages a model request. -/
def firstTurn : List StoreCall :=
  [.createSession
      { id := 1, projectId := "project", harnessId := "harness", harnessVersion := "1"
        configuration := "null", state := "null", name := none, metadata := .null },
    .enqueueExternalEvent
      { sessionId := 1, eventType := .userMessage, payload := "null", idempotencyKey := none },
    .claimNextEvent (fun _ => false) 1000,
    .commitHandlerOutcome
      { sessionId := 1, eventId := 0, attemptId := 2, leaseToken := 1, inputStateVersion := 0 }
      { state := "null", status := some .running
        history := [{ id := 10, message := "null" }]
        operations :=
          [{ id := 20, kind := .llm, gatewayConnectionId := some "llm", targetOperationId := none
             previousOperationId := none, request := "null" }]
        waits := [], cancelledWaits := [], progress := [] }]

theorem firstTurn_run :
    Run plainCodec (replay plainCodec stillClock firstTurn).1
      (replay plainCodec stillClock firstTurn).2 := by
  refine Run.replay fun n call hcall => ?_
  match n, hcall with
  | 0, rfl | 1, rfl | 2, rfl => exact .of_unclaimed rfl rfl rfl
  | 3, rfl =>
    exact .of_handler rfl (by decide) rfl rfl

end AgentPlatform.Store
