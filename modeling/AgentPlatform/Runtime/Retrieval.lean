import AgentPlatform.Runtime.ExecutionIdentity
import AgentPlatform.Runtime.JobDocuments

/-!
# The retrieval of results

`process_result_claim` of `agent-runtime/src/completion.rs`: what a completion worker does with the
claim of an accepted operation. It asks the gateway for the operation's job and records what the
document says: the end of the operation, or that there is none yet. Like a dispatch worker it is a
program over requests, and may stop at any of them.
-/

namespace AgentPlatform.Runtime

open Json Store

/-! ## Requests of a worker -/

inductive RetrievalRequest where
  | operationRequest (id : OperationId)
  | getJob (connection : GatewayConnectionId) (jobId : Uuid)
  | now
  | record (call : StoreCall)

def RetrievalRequest.Answer : RetrievalRequest → Type
  | .operationRequest _ => Result (Option RawJson)
  | .getJob .. => Except GatewayError HttpAnswer
  | .now => Timestamp
  | .record _ => Unit

abbrev Retrieval := Asking RetrievalRequest RetrievalRequest.Answer

/-- The settings that `process_result_claim` reads, in milliseconds. -/
structure CompletionSettings where
  retryDelay : Nat
  fallbackInterval : Nat
  requestRetention : Nat

/-- A completion worker: its settings, the kind of each configured gateway connection, and how it
reads what it is answered. -/
structure CompletionRuntime (Time : Type) where
  settings : CompletionSettings
  gateways : GatewayConnectionId → Option GatewayKind
  reading : JobReading Time

/-- `gateway_error`: the HTTP status, the code and the message that a retry records. -/
def gatewayError : GatewayError → Option Int × String × String
  | .rejected status code message => (some status, code, message)
  | .retryable failure | .uncertain failure =>
    (failure.status.map Int.ofNat, failure.code, failure.message)
  | .invalidRequest code message => (none, code, message)

/-- `failure`. -/
def failure (source : FailureSource) (value : Value) (defaultCode defaultMessage : String) :
    OperationFailure where
  source := source
  code := ((value.get "code").bind Value.asStr).getD defaultCode
  message := ((value.get "message").bind Value.asStr).getD defaultMessage
  executionResponse := none

namespace CompletionRuntime

variable {Time : Type} (runtime : CompletionRuntime Time)

/-- `after`, and then a record of that time. -/
def recordAfter (milliseconds : Nat) (call : Timestamp → StoreCall) : Retrieval Unit :=
  .ask .now fun (now : Timestamp) => .ask (.record (call (now + 1000 * milliseconds))) .done

/-- `retry_result`. -/
def retryResult (claim : ClaimedOperation) (httpStatus : Option Int) (code message : String) :
    Retrieval Unit :=
  let error := .object [("code", .string code), ("message", .string message)]
  recordAfter runtime.settings.retryDelay fun retryAt =>
    .recordOperationRetry claim false retryAt httpStatus error

/-- `complete`. -/
def complete (claim : ClaimedOperation) (status : OperationStatus) (result : Option RawJson)
    (error : Option Value) : Retrieval Unit :=
  recordAfter runtime.settings.requestRetention fun expires =>
    .completeOperation claim status result error (some expires) (some 200)

/-- The text of a result as it is stored. -/
def encodeResult (result : OperationResult) : RawJson :=
  (OperationResult.format runtime.reading.codecs).encode result

/-- `complete_success`. -/
def completeSuccess (claim : ClaimedOperation) (response : RawJson) : Retrieval Unit :=
  let finish (result : Option OperationResult) : Retrieval Unit :=
    match result with
    | some result =>
      runtime.complete claim .succeeded (some (runtime.encodeResult result)) none
    | none =>
      runtime.retryResult claim (some 200) "invalid_gateway_result"
        "gateway returned an invalid typed result"
  match claim.operation.kind with
  | .llm =>
    finish ((fromStr (AssistantResponse.format runtime.reading.codecs).read response).map .llm)
  | .execution =>
    finish ((fromStr runtime.reading.codecs.response.read response).map .execution)
  | .llmCancellation | .withdraw => .done ()

/-- The error of a failed job that has none of its own. -/
def operationFailed : Value :=
  .object [("code", .string "operation_failed"), ("message", .string "gateway operation failed")]

/-- `complete_failure`. The response of anything but an execution is left out. -/
def completeFailure (claim : ClaimedOperation) (response : Option RawJson) (error : Option Value) :
    Retrieval Unit :=
  let fail (source : FailureSource) (result : Option RawJson) : Retrieval Unit :=
    runtime.complete claim .failed result
      (some (failureValue (failure source (error.getD operationFailed) "operation_failed"
        "gateway operation failed")))
  match claim.operation.kind, response with
  | .execution, some response =>
    match fromStr runtime.reading.codecs.response.read response with
    | none =>
      runtime.retryResult claim (some 200) "invalid_gateway_result"
        "gateway returned an invalid execution response"
    | some response => fail .protocol (some (runtime.encodeResult (.execution response)))
  | _, _ => fail .gateway none

/-- The record of a job that has not ended, or the end of the operation. -/
def completeJob (claim : ClaimedOperation) : GatewayJobOutcome → Retrieval Unit
  | .pending =>
    recordAfter runtime.settings.fallbackInterval fun checkAt =>
      .recordOperationPendingResult claim checkAt (some 200)
  | .succeeded response => runtime.completeSuccess claim response
  | .failed response error => runtime.completeFailure claim response error
  | .cancelled => runtime.complete claim .cancelled none none
  | .unknown error =>
    runtime.complete claim .unknown none
      (some (failureValue (failure .gateway error "unknown"
        "gateway could not recover the operation result")))

/-- The identity that the job of an execution must have. -/
def identityFault (job : GatewayJob) (identity : Option (Uuid × Option Uuid)) :
    Option GatewayJobIdentityError :=
  match identity with
  | none => none
  | some (machineId, expectedGenerationId) =>
    match job.validateExecutionIdentity machineId expectedGenerationId with
    | .ok () => none
    | .error error => some error

/-- The end of `process_result_claim`, from the gateway's answer on. -/
def processJob (claim : ClaimedOperation) (identity : Option (Uuid × Option Uuid))
    (job : Except GatewayError GatewayJob) : Retrieval Unit :=
  match job with
  | .error error =>
    let (status, code, message) := gatewayError error
    runtime.retryResult claim status code message
  | .ok job =>
    match identityFault job identity with
    | some error =>
      runtime.retryResult claim (some 200) "gateway_job_identity_mismatch" error.message
    | none => runtime.completeJob claim job.outcome

/-- `get_job` of the connection, and what follows. -/
def retrieve (claim : ClaimedOperation) (connection : GatewayConnectionId) (kind : GatewayKind)
    (jobId : Uuid) (identity : Option (Uuid × Option Uuid)) : Retrieval Unit :=
  .ask (.getJob connection jobId) fun answer =>
    runtime.processJob claim identity (getJob runtime.reading kind jobId answer)

/-- The kind of gateway that an operation is for. -/
def expectedKind (kind : OperationKind) : GatewayKind :=
  if kind = .llm then .llm else .execution

/-- `process_result_claim`. -/
def processResultClaim (claim : ClaimedOperation) : Retrieval Unit :=
  match claim.operation.gatewayConnectionId with
  | none =>
    runtime.retryResult claim none "gateway_connection_missing"
      "accepted operation has no gateway connection"
  | some connection =>
    match claim.operation.gatewayJobId with
    | none =>
      runtime.retryResult claim none "gateway_job_missing" "accepted operation has no gateway job"
    | some jobId =>
      match runtime.gateways connection with
      | none =>
        runtime.retryResult claim none "gateway_connection_not_configured"
          "gateway connection is not configured"
      | some kind =>
        if kind ≠ expectedKind claim.operation.kind then
          runtime.retryResult claim none "gateway_connection_kind_mismatch"
            "gateway connection has the wrong kind"
        else if claim.operation.kind = .execution then
          .ask (.operationRequest claim.operation.id) fun read =>
            let decode := fromStr (OperationRequest.format runtime.reading.codecs).read
            match executionRequestIdentity decode claim read with
            | .error fault => runtime.retryResult claim none fault.code fault.message
            | .ok identity => runtime.retrieve claim connection kind jobId (some identity)
        else runtime.retrieve claim connection kind jobId none

end CompletionRuntime

end AgentPlatform.Runtime
