import AgentPlatform.Contracts.Operation
import AgentPlatform.Lib.Asking
import AgentPlatform.Store.Run

/-!
# The operation dispatcher

`process_claim` of `agent-runtime/src/dispatch.rs`: what a dispatch worker does with one claim. A
worker reads the store, calls a gateway, and records the end of its attempt; it can stall at any of
these, so it is a program over requests. The worker logs what a record answers and does nothing
else with it.

Gateway clients, the decoding of a stored request and the encoding of a body are not modelled: which
connections are configured, which texts decode and which bodies serialize are parameters.
-/

namespace AgentPlatform.Runtime

open Store

/-! ## Gateways -/

inductive GatewayKind where
  | llm
  | execution
deriving DecidableEq, Repr, Inhabited

structure GatewayFailure where
  status : Option Nat
  code : String
  message : String
deriving DecidableEq, Repr, Inhabited

inductive GatewayError where
  | rejected (status : Nat) (code message : String)
  | retryable (failure : GatewayFailure)
  | uncertain (failure : GatewayFailure)
  | invalidRequest (code message : String)
deriving DecidableEq, Repr, Inhabited

/-- `JobAcknowledgement`. Its status is only logged. -/
structure JobAcknowledgement where
  id : Uuid
deriving DecidableEq, Repr, Inhabited

structure CancellationAcknowledgement where
  accepted : Bool
deriving DecidableEq, Repr, Inhabited

/-- What a submission carries besides its idempotency key. -/
inductive SubmissionContent where
  | fresh (accountId : Uuid) (modelId : String) (instructions : Option String)
      (messages : List Message) (tools : List ToolDefinition) (providerOptions : ProviderOptions)
  | continuation (previousJobId : Uuid) (messages : List Message)
  | execution (machineId : Uuid) (expectedGenerationId : Option Uuid) (request : Execution.Payload)

structure SubmissionBody where
  idempotencyKey : String
  content : SubmissionContent

/-! ## Requests of a worker -/

/-- What a worker asks for: the store, the time, or a gateway. -/
inductive Request where
  | operationForSession (sessionId : SessionId) (id : OperationId)
  | now
  | findByIdempotencyKey (connection : GatewayConnectionId) (key : String)
  | submit (connection : GatewayConnectionId) (body : SubmissionBody)
  | cancel (connection : GatewayConnectionId) (jobId : Uuid)
  | record (call : StoreCall)

def Request.Answer : Request → Type
  | .operationForSession .. => Except StoreError (Option OperationRecord)
  | .now => Timestamp
  | .findByIdempotencyKey .. => Except GatewayError (Option JobAcknowledgement)
  | .submit .. => Except GatewayError JobAcknowledgement
  | .cancel .. => Except GatewayError CancellationAcknowledgement
  | .record _ => Unit

abbrev Work := Asking Request Request.Answer

def operationForSession (sessionId : SessionId) (id : OperationId) :
    Work (Except StoreError (Option OperationRecord)) :=
  .ask (.operationForSession sessionId id) .done

def findByIdempotencyKey (connection : GatewayConnectionId) (key : String) :
    Work (Except GatewayError (Option JobAcknowledgement)) :=
  .ask (.findByIdempotencyKey connection key) .done

def submitBody (connection : GatewayConnectionId) (body : SubmissionBody) :
    Work (Except GatewayError JobAcknowledgement) :=
  .ask (.submit connection body) .done

def cancelJob (connection : GatewayConnectionId) (jobId : Uuid) :
    Work (Except GatewayError CancellationAcknowledgement) :=
  .ask (.cancel connection jobId) .done

def record (call : StoreCall) : Work Unit := .ask (.record call) .done

/-- `after`: a time from now. -/
def after (milliseconds : Nat) : Work Timestamp :=
  .ask .now fun (now : Timestamp) => .done (now + 1000 * milliseconds)

/-! ## The dispatcher -/

/-- The settings that `process_claim` reads, in milliseconds. -/
structure DispatcherSettings where
  retryDelays : List Nat
  dependencyDelay : Nat
  requestRetention : Nat
  resultCheckDelay : Nat
  /-- `DispatcherSettings::validate`. -/
  retries : retryDelays ≠ []

/-- A dispatcher: its settings, the kind of each configured gateway connection, and what serde
makes of stored requests and of bodies. -/
structure OperationDispatcher where
  settings : DispatcherSettings
  gateways : GatewayConnectionId → Option GatewayKind
  decodeRequest : RawJson → Option OperationRequest
  serializes : SubmissionBody → Bool

/-- `platform_failure`. -/
def platformFailure (code message : String) : OperationFailure :=
  { source := .platform, code, message, executionResponse := none }

/-- The JSON of a failure. No failure that the dispatcher builds carries an execution response. -/
def failureValue (failure : OperationFailure) : Value :=
  .object [("source", .string failure.source.asStr), ("code", .string failure.code),
    ("message", .string failure.message)]

/-- The stored text of a cancellation's result. -/
def cancellationResult (accepted : Bool) : RawJson :=
  "\x7b\"kind\":\"llm_cancellation\",\"value\":\x7b\"accepted\":" ++ toString accepted ++
    "\x7d\x7d"

namespace OperationDispatcher

variable (dispatcher : OperationDispatcher)

/-- `retry_delay`. -/
def retryDelay (attemptNumber : Nat) : Nat :=
  let delays := dispatcher.settings.retryDelays
  delays.getD (min (attemptNumber - 1) (delays.length - 1)) 0

/-- `OperationDispatcher::retry`. -/
def retry (claim : ClaimedOperation) (uncertain : Bool) (httpStatus : Option Int)
    (code message : String) : Work Unit := do
  let error := .object [("code", .string code), ("message", .string message)]
  let retryAt ← after (dispatcher.retryDelay claim.attemptNumber)
  record (.recordOperationRetry claim uncertain retryAt httpStatus error)

/-- `OperationDispatcher::defer`. -/
def defer (claim : ClaimedOperation) : Work Unit := do
  let retryAt ← after dispatcher.settings.dependencyDelay
  record (.deferOperation claim retryAt)

/-- `OperationDispatcher::fail_value`: a claim that recovers an uncertain attempt is never failed,
it is tried again. -/
def failValue (claim : ClaimedOperation) (failure : OperationFailure) (httpStatus : Option Int) :
    Work Unit :=
  if claim.recoveringUncertain then
    dispatcher.retry claim true httpStatus failure.code failure.message
  else do
    let expires ← after dispatcher.settings.requestRetention
    record (.completeOperation claim .failed none (some (failureValue failure)) (some expires)
      httpStatus)

/-- `OperationDispatcher::fail`. -/
def fail (claim : ClaimedOperation) (source : FailureSource) (code message : String)
    (httpStatus : Option Int) : Work Unit :=
  dispatcher.failValue claim { source, code, message, executionResponse := none } httpStatus

/-- `OperationDispatcher::complete_result` of a cancellation. -/
def completeResult (claim : ClaimedOperation) (accepted : Bool) (httpStatus : Option Int) :
    Work Unit := do
  let expires ← after dispatcher.settings.requestRetention
  record (.completeOperation claim .succeeded (some (cancellationResult accepted)) none
    (some expires) httpStatus)

/-- `OperationDispatcher::accept`. -/
def accept (claim : ClaimedOperation) (ack : JobAcknowledgement) (httpStatus : Int) :
    Work Unit := do
  let checkAt ← after dispatcher.settings.resultCheckDelay
  record (.recordOperationAccepted claim ack.id checkAt (some httpStatus))

/-- `OperationDispatcher::gateway_failure`. -/
def gatewayFailure (claim : ClaimedOperation) (error : GatewayError) : Work Unit :=
  match error with
  | .rejected status code message =>
    if claim.recoveringUncertain then
      dispatcher.retry claim true (some status) code message
    else dispatcher.fail claim .admission code message (some status)
  | .retryable failure =>
    dispatcher.retry claim claim.recoveringUncertain (failure.status.map Int.ofNat) failure.code
      failure.message
  | .uncertain failure =>
    dispatcher.retry claim true (failure.status.map Int.ofNat) failure.code failure.message
  | .invalidRequest code message => dispatcher.fail claim .platform code message none

/-! ### Submission -/

/-- What `submission_body` hands on: the connection, the kind it must have, and the body. -/
abbrev Submission := GatewayConnectionId × GatewayKind × SubmissionBody

/-- A body of the operation's key, when it serializes. -/
def body (claim : ClaimedOperation) (connection : GatewayConnectionId) (kind : GatewayKind)
    (content : SubmissionContent) (failure : String) :
    Except OperationFailure (Option Submission) :=
  let body := { idempotencyKey := claim.operation.gatewayIdempotencyKey, content }
  if dispatcher.serializes body then .ok (some (connection, kind, body))
  else .error (platformFailure "request_serialization_failed" failure)

/-- The `Continuation` arm of `submission_body`: the parent must have succeeded with a job. A parent
that has not ended yet defers the operation. -/
def continuationBody (claim : ClaimedOperation) (connection : GatewayConnectionId)
    (previousOperationId : OperationId) (messages : List Message) :
    Work (Except OperationFailure (Option Submission)) := do
  match ← operationForSession claim.operation.sessionId previousOperationId with
  | .error _ =>
    dispatcher.retry claim claim.recoveringUncertain none "dependency_read_failed"
      "could not read continuation dependency"
    pure (.ok none)
  | .ok none =>
    pure (.error (platformFailure "continuation_not_found"
      "continuation parent does not exist in the session"))
  | .ok (some parent) =>
    if parent.kind ≠ .llm ∨ parent.gatewayConnectionId ≠ some connection then
      pure (.error (platformFailure "invalid_continuation"
        "continuation parent must be an LLM operation on the same connection"))
    else
      match parent.status with
      | .pending | .submitting | .accepted =>
        dispatcher.defer claim
        pure (.ok none)
      | .failed | .cancelled | .unknown =>
        pure (.error (platformFailure "continuation_parent_failed"
          "continuation parent did not succeed"))
      | .succeeded =>
        match parent.gatewayJobId with
        | none =>
          pure (.error (platformFailure "continuation_parent_unmapped"
            "continuation parent has no gateway job"))
        | some previousJobId =>
          pure (dispatcher.body claim connection .llm (.continuation previousJobId messages)
            "could not serialize LLM request")

/-- `submission_body`: nothing when the operation was deferred or retried. -/
def submissionBody (claim : ClaimedOperation) (request : OperationRequest) :
    Work (Except OperationFailure (Option Submission)) :=
  match request with
  | .llm connection (.fresh accountId modelId instructions messages tools providerOptions) =>
    pure (dispatcher.body claim connection .llm
      (.fresh accountId modelId instructions messages tools providerOptions)
      "could not serialize LLM request")
  | .llm connection (.continuation previousOperationId messages) =>
    dispatcher.continuationBody claim connection previousOperationId messages
  | .execution connection machineId expectedGenerationId request =>
    pure (dispatcher.body claim connection .execution
      (.execution machineId expectedGenerationId request) "could not serialize execution request")
  | .llmCancellation _ | .withdraw _ =>
    pure (.error (platformFailure "operation_kind_mismatch"
      "operation request does not match submission phase"))

/-- The end of `finish_submission`: submit and record the answer. -/
def submitAndRecord (claim : ClaimedOperation) (connection : GatewayConnectionId)
    (body : SubmissionBody) : Work Unit := do
  match ← submitBody connection body with
  | .ok ack => dispatcher.accept claim ack 202
  | .error error => dispatcher.gatewayFailure claim error

/-- `finish_submission`: a claim that recovers an uncertain attempt looks for its job first. -/
def finishSubmission (claim : ClaimedOperation) (connection : GatewayConnectionId)
    (body : SubmissionBody) : Work Unit := do
  if claim.recoveringUncertain then
    match ← findByIdempotencyKey connection claim.operation.gatewayIdempotencyKey with
    | .ok (some ack) => dispatcher.accept claim ack 200
    | .ok none => dispatcher.submitAndRecord claim connection body
    | .error error => dispatcher.gatewayFailure claim error
  else dispatcher.submitAndRecord claim connection body

/-- The stored request of a claim, or what is wrong with it. -/
def storedRequest (claim : ClaimedOperation) : Except String OperationRequest :=
  match claim.request with
  | none => .error "stored operation request is missing"
  | some raw =>
    match dispatcher.decodeRequest raw with
    | none => .error "stored operation request is invalid"
    | some request => .ok request

/-- `OperationDispatcher::submit`. -/
def submit (claim : ClaimedOperation) : Work Unit :=
  match dispatcher.storedRequest claim with
  | .error message =>
    dispatcher.fail claim .platform "invalid_operation_request" message none
  | .ok request => do
    match ← dispatcher.submissionBody claim request with
    | .error failure => dispatcher.failValue claim failure none
    | .ok none => pure ()
    | .ok (some (connection, kind, body)) =>
      match dispatcher.gateways connection with
      | none =>
        dispatcher.fail claim .platform "gateway_connection_not_configured"
          "gateway connection is not configured" none
      | some configured =>
        if configured ≠ kind then
          dispatcher.fail claim .platform "gateway_connection_kind_mismatch"
            "gateway connection has the wrong kind" none
        else dispatcher.finishSubmission claim connection body

/-! ### Cancellation and withdrawal -/

/-- The end of `cancel`: the target has a job, or may get one. -/
def cancelTarget (claim : ClaimedOperation) (target : OperationRecord) : Work Unit :=
  match target.gatewayJobId with
  | none => dispatcher.defer claim
  | some jobId =>
    match target.gatewayConnectionId with
    | none =>
      dispatcher.fail claim .platform "cancellation_target_unmapped"
        "cancellation target has no gateway connection" none
    | some connection =>
      match dispatcher.gateways connection with
      | none =>
        dispatcher.fail claim .platform "gateway_connection_not_configured"
          "gateway connection is not configured" none
      | some .execution =>
        dispatcher.fail claim .platform "gateway_connection_kind_mismatch"
          "cancellation target connection is not an LLM gateway" none
      | some .llm => do
        match ← cancelJob connection jobId with
        | .ok ack => dispatcher.completeResult claim ack.accepted (some 200)
        | .error error => dispatcher.gatewayFailure claim error

/-- `OperationDispatcher::cancel`. -/
def cancel (claim : ClaimedOperation) : Work Unit :=
  match claim.operation.targetOperationId with
  | none =>
    dispatcher.fail claim .platform "cancellation_target_not_found"
      "cancellation target does not exist" none
  | some targetId => do
    match ← operationForSession claim.operation.sessionId targetId with
    | .error _ =>
      dispatcher.retry claim claim.recoveringUncertain none "dependency_read_failed"
        "could not read cancellation target"
    | .ok none =>
      dispatcher.fail claim .platform "cancellation_target_not_found"
        "cancellation target does not exist" none
    | .ok (some target) =>
      if target.kind ≠ .llm then
        dispatcher.fail claim .platform "invalid_cancellation_target"
          "only an LLM operation can be cancelled" none
      else
        match target.status with
        | .pending | .submitting => dispatcher.defer claim
        | .failed | .cancelled | .unknown | .succeeded =>
          if claim.recoveringUncertain then dispatcher.cancelTarget claim target
          else dispatcher.completeResult claim false none
        | .accepted => dispatcher.cancelTarget claim target

/-- `OperationDispatcher::withdraw`. -/
def withdraw (claim : ClaimedOperation) : Work Unit := do
  let expires ← after dispatcher.settings.requestRetention
  record (.completeWithdrawal claim (some expires))

/-- `process_claim`. A result-retrieval claim is never dispatched. -/
def processClaim (claim : ClaimedOperation) : Work Unit :=
  match claim.phase with
  | .submission => dispatcher.submit claim
  | .cancellation => dispatcher.cancel claim
  | .withdrawal => dispatcher.withdraw claim
  | .resultRetrieval => pure ()

end OperationDispatcher

end AgentPlatform.Runtime
