import AgentPlatform.Contracts.Operation
import AgentPlatform.Store.RequestsKept

/-!
# The identity of an execution

A worker that retrieves the result of an execution reads the machine and the generation that were
asked for off the stored request. While its claim is current the request is there; one that finds
none holds a claim whose operation ended, and the retry that it records is refused.
-/

namespace AgentPlatform.Runtime

open Store

/-- Why a stored request answers no identity: the code and the message of the retry. -/
structure IdentityFault where
  code : String
  message : String
deriving DecidableEq, Repr

namespace IdentityFault

def missing : IdentityFault where
  code := "operation_request_missing"
  message := "stored execution request is missing"

def unread : IdentityFault where
  code := "operation_request_read_failed"
  message := "could not read stored execution request"

def invalid : IdentityFault where
  code := "invalid_operation_request"
  message := "stored execution request is invalid or inconsistent"

/-- The error that `retry_result` records. -/
def value (fault : IdentityFault) : Value :=
  .object [("code", .string fault.code), ("message", .string fault.message)]

end IdentityFault

/-- `execution_request_identity`, of what `operation_request` read. -/
def executionRequestIdentity (decodeRequest : RawJson → Option OperationRequest)
    (claim : ClaimedOperation) :
    Result (Option RawJson) → Except IdentityFault (Uuid × Option Uuid)
  | .error _ => .error .unread
  | .ok none => .error .missing
  | .ok (some request) =>
    match decodeRequest request with
    | some (.execution connection machineId expectedGenerationId _) =>
      if some connection = claim.operation.gatewayConnectionId then
        .ok (machineId, expectedGenerationId)
      else .error .invalid
    | _ => .error .invalid

/-- Only a request that is not there is reported as missing. -/
theorem executionRequestIdentity_missing {decodeRequest : RawJson → Option OperationRequest}
    {claim : ClaimedOperation} {read : Result (Option RawJson)} :
    executionRequestIdentity decodeRequest claim read = .error .missing ↔ read = .ok none := by
  have hinvalid : IdentityFault.invalid ≠ .missing := by decide
  have hunread : IdentityFault.unread ≠ .missing := by decide
  constructor
  · intro h
    cases read with
    | error error => exact absurd (Except.error.inj h) hunread
    | ok request =>
      cases request with
      | none => rfl
      | some request =>
        simp only [executionRequestIdentity] at h
        split at h
        · split at h
          · cases h
          · exact absurd (Except.error.inj h) hinvalid
        · exact absurd (Except.error.inj h) hinvalid
  · rintro rfl
    rfl

/-! ## Claims of one operation -/

section

variable {codec : Codec} {trace : List Entry} {db : Db} {claim : ClaimedOperation} {s : Session}

/-- A claim is of an operation that its session has. -/
theorem claimed_operation (run : Run codec trace db) (issued : claim ∈ operationClaims trace) :
    ∃ s ∈ db.sessions, s.id = claim.operation.sessionId ∧
      ∃ o ∈ s.operations, o.id = claim.operation.id := by
  obtain ⟨s, hs, hid⟩ := List.mem_map.mp (run.registered.claims claim issued)
  obtain ⟨o, ho, hop, -⟩ := ((run.ledgerInvariant hs).known claim issued hid.symm).staged
  exact ⟨s, hs, hid, o, ho, hop⟩

/-- The operation of a current claim has not ended. -/
theorem current_claim_open (run : Run codec trace db) (hs : s ∈ db.sessions) {clock : Clock}
    {lock : OperationLock} (current : s.lockValidOperationClaim clock claim = .ok lock) :
    ∃ o ∈ s.operations, o.id = claim.operation.id ∧ o.status.terminal = false := by
  obtain ⟨o, held, -⟩ := Session.lockValidOperationClaim_ok current
  obtain ⟨lease, hlease, -⟩ := held.leased
  have hview := (run.ledgerInvariant hs).sound.views o held.mem
  have hstatus : o.status = .submitting ∨ o.status = .accepted :=
    hview.leased (Option.isSome_iff_exists.mpr ⟨lease, hlease⟩)
  refine ⟨o, held.mem, held.id_eq, ?_⟩
  rcases hstatus with h | h <;> rw [h] <;> rfl

/-- A claim of an operation that ended is refused. -/
theorem ended_claim_refused (run : Run codec trace db) (hs : s ∈ db.sessions) {o : OperationRow}
    (ho : o ∈ s.operations) (same : o.id = claim.operation.id)
    (ended : o.status.terminal = true) (clock : Clock) :
    s.lockValidOperationClaim clock claim = .error .staleClaim := by
  have hunique := (run.ledgerInvariant hs).sound.unique
  cases hlock : s.lockValidOperationClaim clock claim with
  | ok lock =>
    obtain ⟨o', ho', hid', hopen⟩ := current_claim_open run hs hlock
    rw [Table.eq_of_key hunique ho ho' (same.trans hid'.symm), hopen] at ended
    cases ended
  | error error =>
    have hfound : s.operations.find? (·.id = claim.operation.id) ≠ none := fun h => by
      have := List.find?_eq_none.mp h o ho
      exact this (by simpa using same)
    unfold Session.lockValidOperationClaim at hlock
    split at hlock
    · contradiction
    · split at hlock
      · exact hlock.symm
      · split at hlock
        · exact hlock.symm
        · cases hlock

/-- An operation without a request is marked. -/
theorem missing_request_marked (run : Run codec trace db) (hs : s ∈ db.sessions) {o : OperationRow}
    (ho : o ∈ s.operations) (missing : db.operationRequest o.id = none) :
    o.requestRemovedAt ≠ none := by
  intro hunmarked
  obtain ⟨request, hread, -⟩ := run.operationRequest_staged hs ho hunmarked
  rw [missing] at hread
  cases hread

/-- A worker that finds no request holds a claim whose operation ended: its retry is refused. -/
theorem missing_request_refused (run : Run codec trace db) (issued : claim ∈ operationClaims trace)
    (missing : db.operationRequest claim.operation.id = none) (clock : Clock) (uncertain : Bool)
    (retryAt : Timestamp) (httpStatus : Option Int) (error : Value) :
    exec codec clock db (.recordOperationRetry claim uncertain retryAt httpStatus error) =
      (.failed .staleClaim, db) := by
  obtain ⟨s, hs, hid, o, ho, hop⟩ := claimed_operation run issued
  have hmarked := missing_request_marked run hs ho (hop ▸ missing)
  have hended := (run.requestsKept hs).marked o ho hmarked
  have hrefused := ended_claim_refused run hs ho hop hended clock
  have hsession : db.session? claim.operation.sessionId = some s :=
    hid ▸ Table.lookup_eq_some run.registered.unique hs
  have hbody : s.recordOperationRetry clock claim uncertain retryAt httpStatus error =
      .error .staleClaim := by
    rw [Session.recordOperationRetry, hrefused]
    rfl
  simp only [exec, Db.recordOperationRetry, Db.transact, hsession, hbody]
  rfl

end

/-! ## Every run -/

/-- What the store of a run keeps of requests, and what workers find of them. -/
structure RequestsOutliveWork (codec : Codec) (trace : List Entry) (db : Db) : Prop where
  /-- A session stages one request of an operation. -/
  once : ∀ s ∈ db.sessions, ((stagedRequests trace s.id).map (·.1)).Nodup
  working : ∀ s ∈ db.sessions, ∀ o ∈ s.operations,
    o.status = .pending ∨ o.status = .submitting ∨ o.status = .accepted →
      o.requestRemovedAt = none ∧ ∃ request, db.operationRequest o.id = some request ∧
        (o.id, request) ∈ stagedRequests trace s.id
  ended : ∀ s ∈ db.sessions, ∀ o ∈ s.operations, o.status.terminal = true →
    (db.operationRequest o.id = none ↔ o.requestRemovedAt ≠ none)
  claimed : ∀ claim ∈ operationClaims trace,
    claim.phase = .submission ∨ claim.phase = .cancellation →
      ∃ request, claim.request = some request ∧
        (claim.operation.id, request) ∈ stagedRequests trace claim.operation.sessionId
  /-- A validation finds the request while its operation is accepted, and while its claim is
  current. -/
  validated : ∀ claim ∈ operationClaims trace, ∀ s ∈ db.sessions, ∀ o ∈ s.operations,
    o.id = claim.operation.id →
    (o.status = .accepted ∨ ∃ clock lock, s.lockValidOperationClaim clock claim = .ok lock) →
      ∃ request, db.operationRequest claim.operation.id = some request ∧
        (claim.operation.id, request) ∈ stagedRequests trace s.id
  /-- One that finds none is of an operation that ended, and records nothing. -/
  stale : ∀ decodeRequest, ∀ claim ∈ operationClaims trace,
    executionRequestIdentity decodeRequest claim
        (.ok (db.operationRequest claim.operation.id)) = .error .missing →
      (∃ s ∈ db.sessions, ∃ o ∈ s.operations,
        o.id = claim.operation.id ∧ o.status.terminal = true) ∧
      ∀ clock retryAt, exec codec clock db
        (.recordOperationRetry claim false retryAt none IdentityFault.missing.value) =
          (.failed .staleClaim, db)
  /-- A round of the cleanup in batches is the deletion of one request. -/
  batch : ∀ clock limit candidates, db.expiredRequests clock limit = .ok candidates →
    ∀ candidate ∈ candidates, ∀ trace' db', Continues codec trace db trace' db' → ∀ clock',
      db'.deleteExpiredRequest clock' candidate =
        db'.deleteExpiredOperationRequest clock' (fun _ => false) candidate.1

/-- Requests outlive the work that needs them. -/
theorem requests_outlive_work {codec : Codec} {trace : List Entry} {db : Db}
    (run : Run codec trace db) : RequestsOutliveWork codec trace db := by
  have unmarked {s : Session} (hs : s ∈ db.sessions) {o : OperationRow} (ho : o ∈ s.operations)
      (working : o.status.terminal = false) : o.requestRemovedAt = none := by
    by_contra hmarked
    rw [(run.requestsKept hs).marked o ho hmarked] at working
    cases working
  refine
    { once := fun s hs => (run.requestsKept hs).keeps.distinct
      working := fun s hs o ho hstatus => ?_
      ended := fun s hs o ho hended => ?_
      claimed := fun claim hclaim hphase => ?_
      validated := fun claim hclaim s hs o ho hid hcurrent => ?_
      stale := fun decodeRequest claim hclaim hmissing => ?_
      batch := fun clock limit candidates read candidate hc trace' db' later clock' =>
        run.deleteExpiredRequest_eq read hc later clock' }
  · have hworking : o.status.terminal = false := by
      rcases hstatus with h | h | h <;> rw [h] <;> rfl
    have hunmarked := unmarked hs ho hworking
    exact ⟨hunmarked, run.operationRequest_staged hs ho hunmarked⟩
  · exact ⟨missing_request_marked run hs ho, run.operationRequest_gone hs ho⟩
  · obtain ⟨s, hs, hid⟩ := List.mem_map.mp (run.registered.claims claim hclaim)
    have hsends : claim.phase.sends = true := by
      rcases hphase with h | h <;> rw [h] <;> rfl
    rw [← hid]
    exact (run.requestsKept hs).shown claim hclaim hid.symm hsends
  · have hworking : o.status.terminal = false := by
      rcases hcurrent with h | ⟨clock, lock, hlock⟩
      · rw [h]
        rfl
      · obtain ⟨o', ho', hid', hopen⟩ := current_claim_open run hs hlock
        have hunique := (run.ledgerInvariant hs).sound.unique
        rwa [Table.eq_of_key hunique ho ho' (hid.trans hid'.symm)]
    rw [← hid]
    exact run.operationRequest_staged hs ho (unmarked hs ho hworking)
  · have hnone := Except.ok.inj (executionRequestIdentity_missing.mp hmissing)
    obtain ⟨s, hs, -, o, ho, hop⟩ := claimed_operation run hclaim
    have hmarked := missing_request_marked run hs ho (hop ▸ hnone)
    refine ⟨⟨s, hs, o, ho, hop, (run.requestsKept hs).marked o ho hmarked⟩, fun clock retryAt => ?_⟩
    exact missing_request_refused run hclaim hnone clock false retryAt none _

/-! ## A stale validation -/

/-- A turn that stages an execution. -/
def executionTurn : List StoreCall :=
  firstTurn.take 3 ++
    [.commitHandlerOutcome
      { sessionId := 1, eventId := 0, attemptId := 2, leaseToken := 1, inputStateVersion := 0 }
      { state := "null", status := some .running
        history := [{ id := 10, message := "null" }]
        operations :=
          [{ id := 20, kind := .execution, gatewayConnectionId := some "shell"
             targetOperationId := none, previousOperationId := none, request := "null" }]
        waits := [], cancelledWaits := [], progress := [] }]

/-- The claim of a retrieval whose worker falls behind. -/
def slowRetrieval : ClaimedOperation where
  operation :=
    { id := 20, sessionId := 1, sourceEventId := 0, kind := .execution
      gatewayConnectionId := some "shell", targetOperationId := none, previousOperationId := none
      gatewayIdempotencyKey := Uuid.toText 20, requestHash := "null"
      gatewayJobId := some 40, status := .accepted, result := none, error := none, createdAt := 0
      completedAt := none }
  request := none
  phase := .resultRetrieval
  attemptId := 6
  attemptNumber := 2
  leaseToken := 5
  recoveringUncertain := false

/-- The claim of its submission. -/
def executionSubmission : ClaimedOperation where
  operation := { slowRetrieval.operation with gatewayJobId := none, status := .submitting }
  request := some "null"
  phase := .submission
  attemptId := 4
  attemptNumber := 1
  leaseToken := 3
  recoveringUncertain := false

/-- The claim of the retrieval that takes over. -/
def nextRetrieval : ClaimedOperation where
  operation := slowRetrieval.operation
  request := none
  phase := .resultRetrieval
  attemptId := 8
  attemptNumber := 3
  leaseToken := 7
  recoveringUncertain := false

def slowExecution : List StoreCall :=
  executionTurn ++
    [.claimOperation (fun _ => false) .submission 1000,
      .recordOperationAccepted executionSubmission 40 0 (some 202),
      .claimOperation (fun _ => false) .resultRetrieval 1000]

theorem slowExecution_run :
    Run plainCodec (replay plainCodec stillClock slowExecution).1
      (replay plainCodec stillClock slowExecution).2 := by
  refine Run.replay fun n call hcall => ?_
  match n, hcall with
  | 0, rfl | 1, rfl | 2, rfl => exact .of_unclaimed rfl rfl rfl
  | 3, rfl => exact .of_handler rfl (by decide) rfl rfl
  | 4, rfl => exact .of_unclaimed rfl rfl rfl
  | 5, rfl => exact .of_operation rfl (List.mem_singleton.mpr rfl)
  | 6, rfl => exact .of_unclaimed rfl rfl rfl

theorem slowExecution_claims :
    operationClaims (replay plainCodec stillClock slowExecution).1 =
      [executionSubmission, slowRetrieval] := rfl

theorem requests_outlive_work_slowExecution :
    RequestsOutliveWork plainCodec (replay plainCodec stillClock slowExecution).1
      (replay plainCodec stillClock slowExecution).2 :=
  requests_outlive_work slowExecution_run

/-- A clock that stands at a time. -/
def clockAt (t : Timestamp) : Clock := { now := t, reading := fun _ => t, stamp := fun _ => t }

/-- The slow worker reads the request after another retrieved the result and cleanup came by. -/
theorem stale_validation_misses_request :
    ¬ ∀ (codec : Codec) (trace : List Entry) (db : Db), Run codec trace db →
      ∀ claim ∈ operationClaims trace, claim.phase = .resultRetrieval →
        claim.operation.kind = .execution → ∀ decodeRequest,
          executionRequestIdentity decodeRequest claim
            (.ok (db.operationRequest claim.operation.id)) ≠ .error .missing := by
  intro finds
  let late := clockAt 2000000
  let taken : StoreCall := .claimOperation (fun _ => false) .resultRetrieval 1000
  let completed : StoreCall :=
    .completeOperation nextRetrieval .succeeded (some "null") none (some 3000000) (some 200)
  let cleaned : StoreCall := .deleteExpiredOperationRequest (fun _ => false) 20
  have htaken := slowExecution_run.step taken late (.of_unclaimed rfl rfl rfl)
  have hcompleted := htaken.step completed late <| .of_operation rfl <| by
    rw [operationClaims_concat]
    exact List.mem_append_right _ (List.mem_singleton.mpr rfl)
  have hcleaned := hcompleted.step cleaned (clockAt 3000000) (.of_unclaimed rfl rfl rfl)
  refine finds _ _ _ hcleaned slowRetrieval ?_ rfl rfl (fun _ => none) rfl
  rw [operationClaims_concat, operationClaims_concat, operationClaims_concat,
    slowExecution_claims]
  exact List.mem_cons_of_mem _ List.mem_cons_self

end AgentPlatform.Runtime
