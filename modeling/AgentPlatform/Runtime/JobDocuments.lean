import AgentPlatform.Contracts.OperationWire
import AgentPlatform.Lib.Fallible
import AgentPlatform.Runtime.Dispatch

/-!
# Job documents

`get_job` of `agent-gateways/src/lib.rs`: what the gateway client makes of the answer of a gateway
that it asks for a job. A document ends its job only where its status, its response and its error
agree; every other answer leaves open how the job ends.
-/

namespace AgentPlatform.Runtime

open Fallible Json Store

/-! ## Statuses -/

inductive LlmJobStatus where
  | queued
  | running
  | retryWait
  | succeeded
  | failed
  | cancelled
deriving DecidableEq, Repr

/-- `LlmJobStatus::parse`. -/
def LlmJobStatus.parse : String → Option LlmJobStatus
  | "queued" => some .queued
  | "running" => some .running
  | "retry_wait" => some .retryWait
  | "succeeded" => some .succeeded
  | "failed" => some .failed
  | "cancelled" => some .cancelled
  | _ => none

/-- `LlmJobStatus::as_str`. -/
def LlmJobStatus.asStr : LlmJobStatus → String
  | .queued => "queued"
  | .running => "running"
  | .retryWait => "retry_wait"
  | .succeeded => "succeeded"
  | .failed => "failed"
  | .cancelled => "cancelled"

inductive ExecutionJobStatus where
  | queued
  | dispatching
  | waitingResponse
  | succeeded
  | failed
  | unknown
deriving DecidableEq, Repr

/-- `ExecutionJobStatus::parse`. -/
def ExecutionJobStatus.parse : String → Option ExecutionJobStatus
  | "queued" => some .queued
  | "dispatching" => some .dispatching
  | "waiting_response" => some .waitingResponse
  | "succeeded" => some .succeeded
  | "failed" => some .failed
  | "unknown" => some .unknown
  | _ => none

/-- `ExecutionJobStatus::as_str`. -/
def ExecutionJobStatus.asStr : ExecutionJobStatus → String
  | .queued => "queued"
  | .dispatching => "dispatching"
  | .waitingResponse => "waiting_response"
  | .succeeded => "succeeded"
  | .failed => "failed"
  | .unknown => "unknown"

inductive GatewayJobStatus where
  | llm (status : LlmJobStatus)
  | execution (status : ExecutionJobStatus)
deriving DecidableEq, Repr

/-- The status that a word means to a kind of gateway. -/
def GatewayJobStatus.parse : GatewayKind → String → Option GatewayJobStatus
  | .llm, word => (LlmJobStatus.parse word).map .llm
  | .execution, word => (ExecutionJobStatus.parse word).map .execution

/-! ## Jobs -/

/-- How an operation of a gateway has ended, if it has. -/
inductive GatewayJobOutcome where
  | pending
  | succeeded (response : RawJson)
  | failed (response : Option RawJson) (error : Option Value)
  | cancelled
  | unknown (error : Value)

structure ExecutionJobMetadata where
  machineId : Uuid
  runtimeGenerationId : Option Uuid
deriving DecidableEq, Repr

structure GatewayJob where
  id : Uuid
  status : GatewayJobStatus
  outcome : GatewayJobOutcome
  execution : Option ExecutionJobMetadata

inductive GatewayJobIdentityError where
  | missingExecutionMetadata
  | machineMismatch
  | generationMismatch
deriving DecidableEq, Repr

/-- The text of an identity error. -/
def GatewayJobIdentityError.message : GatewayJobIdentityError → String
  | .missingExecutionMetadata => "execution job metadata is missing"
  | .machineMismatch => "execution job identifies a different machine"
  | .generationMismatch => "execution job identifies a different runtime generation"

/-- `validate_execution_identity`. -/
def GatewayJob.validateExecutionIdentity (job : GatewayJob) (machineId : Uuid)
    (expectedGenerationId : Option Uuid) : Except GatewayJobIdentityError Unit :=
  match job.execution with
  | none => .error .missingExecutionMetadata
  | some metadata =>
    if metadata.machineId ≠ machineId then .error .machineMismatch
    else
      match expectedGenerationId, metadata.runtimeGenerationId with
      | some expected, some actual =>
        if expected ≠ actual then .error .generationMismatch else .ok ()
      | _, _ => .ok ()

/-! ## Reading a document -/

/-- What a response of the runtime says of itself: the version of the protocol, the request that it
answers, and whether it is a success. -/
structure Envelope where
  protocolVersion : Nat
  requestId : Option String
  succeeded : Bool
deriving DecidableEq, Repr

/-- How other crates read what stands in a job document and in a stored failure, and the version of
the protocol. -/
structure JobReading (Time : Type) where
  codecs : Codecs Time
  value : Doc → Option Value
  envelope : Doc → Option Envelope
  response : Value → Option Execution.Response
  version : Nat

structure JobWire where
  id : Uuid
  status : String
  response : Option RawJson
  error : Option Value
  machineId : Option Uuid
  runtimeGenerationId : Option Uuid

/-- An answer of a gateway: its HTTP status, and the text of its body if it is one. -/
structure HttpAnswer where
  status : Nat
  body : Option RawJson

/-- `StatusCode::is_success`. -/
def HttpAnswer.isSuccess (answer : HttpAnswer) : Bool := 200 ≤ answer.status && answer.status < 300

section

variable {Time : Type} (reading : JobReading Time)

def JobWire.deserialize (d : Doc) : Option JobWire := do
  let a ← d.access [
    { key := "id" }, { key := "status" }, { key := "response" }, { key := "error" },
    { key := "machineId" }, { key := "runtimeGenerationId" }]
  let id ← (a "id").bind reading.codecs.uuid.read
  let status ← (a "status").bind Format.string.read
  let response ← optional Format.raw.read (a "response")
  let error ← optional reading.value (a "error")
  let machineId ← optional reading.codecs.uuid.read (a "machineId")
  let runtimeGenerationId ← optional reading.codecs.uuid.read (a "runtimeGenerationId")
  return { id, status, response, error, machineId, runtimeGenerationId }

/-- `classify_status`. -/
def classifyStatus (status : Nat) (code message : String) : GatewayError :=
  if status = 429 then .retryable { status := some status, code, message }
  else if 500 ≤ status ∧ status < 600 ∨ status = 408 then
    .uncertain { status := some status, code, message }
  else .rejected status code message

/-- A text of the error in the body of an answer. -/
def errorText (value : Value) (key default : String) : String :=
  (((value.get "error").bind (·.get key)).bind Value.asStr).getD default

/-- An answer that is no job document. -/
def invalidJob (status : Nat) (message : String) : GatewayError :=
  .uncertain { status := some status, code := "invalid_job_response", message }

/-- `valid_terminal_error`. -/
def validTerminalError (error : Option Value) : Bool :=
  error.any fun value =>
    ((value.get "code").bind Value.asStr).any (!·.isEmpty) &&
      ((value.get "message").bind Value.asStr).any (!·.isEmpty)

/-- `validate_execution_response`. -/
def validateExecutionResponse (response : RawJson) (jobId : Uuid)
    (machineId runtimeGenerationId : Option Uuid) (succeeded : Bool) (status : Nat) :
    Except GatewayError RawJson :=
  if machineId.isNone then .error (invalidJob status "execution job has no machine identity")
  else
    match runtimeGenerationId with
    | none => .error (invalidJob status "execution job has no runtime generation identity")
    | some generation =>
      match fromStr reading.codecs.response.read response, fromStr reading.envelope response with
      | some typed, some envelope =>
        if envelope.protocolVersion ≠ reading.version then
          .error (invalidJob status "execution response uses an unsupported protocol version")
        else if envelope.requestId ≠ some jobId.toText then
          .error (invalidJob status "execution response identifies a different request")
        else if typed.generationId ≠ generation then
          .error (invalidJob status "execution response identifies a different runtime generation")
        else if envelope.succeeded ≠ succeeded then
          .error (invalidJob status "execution job status disagrees with its protocol response")
        else .ok response
      | _, _ => .error (invalidJob status "execution job has an invalid protocol response")

/-- What a document says of the end of its job. -/
def jobOutcome (jobId : Uuid) (http : Nat) (wire : JobWire) :
    GatewayJobStatus → Except GatewayError GatewayJobOutcome
  | .llm .queued | .llm .running | .llm .retryWait
  | .execution .queued | .execution .dispatching | .execution .waitingResponse =>
    if wire.response.isSome || wire.error.isSome then
      .error (invalidJob http "pending job has a terminal outcome")
    else .ok .pending
  | .llm .succeeded =>
    if wire.error.isSome then .error (invalidJob http "succeeded LLM job has an error")
    else
      match wire.response with
      | none => .error (invalidJob http "succeeded LLM job has no response")
      | some response =>
        match fromStr (AssistantResponse.format reading.codecs).read response with
        | none => .error (invalidJob http "succeeded LLM job has an invalid response")
        | some _ => .ok (.succeeded response)
  | .execution .succeeded =>
    if wire.error.isSome then .error (invalidJob http "succeeded execution job has an error")
    else
      match wire.response with
      | none => .error (invalidJob http "succeeded execution job has no response")
      | some response =>
        (validateExecutionResponse reading response jobId wire.machineId wire.runtimeGenerationId
          true http).map .succeeded
  | .llm .failed =>
    if wire.response.isSome || !validTerminalError wire.error then
      .error (invalidJob http "failed LLM job has an invalid outcome")
    else .ok (.failed none wire.error)
  | .execution .failed =>
    if wire.response.isSome = wire.error.isSome then
      .error (invalidJob http "failed execution job must have exactly one response or error")
    else
      match wire.response with
      | some response =>
        (validateExecutionResponse reading response jobId wire.machineId wire.runtimeGenerationId
          false http).map fun response => .failed (some response) none
      | none =>
        if !validTerminalError wire.error then
          .error (invalidJob http "failed execution job has an invalid error")
        else .ok (.failed none wire.error)
  | .llm .cancelled =>
    if wire.response.isSome || wire.error.isSome then
      .error (invalidJob http "cancelled LLM job has a result or error")
    else .ok .cancelled
  | .execution .unknown =>
    match wire.error with
    | some error =>
      if wire.response.isSome || !validTerminalError (some error) then
        .error (invalidJob http "unknown execution job has an invalid outcome")
      else if wire.runtimeGenerationId.isNone then
        .error (invalidJob http "unknown execution job has no runtime generation identity")
      else .ok (.unknown error)
    | none => .error (invalidJob http "unknown execution job has an invalid outcome")

/-- What is known of the machine of a job. -/
def jobMetadata (kind : GatewayKind) (http : Nat) (wire : JobWire) :
    Except GatewayError (Option ExecutionJobMetadata) :=
  match kind with
  | .llm => .ok none
  | .execution =>
    match wire.machineId with
    | none => .error (invalidJob http "execution job has no machine identity")
    | some machineId => .ok (some { machineId, runtimeGenerationId := wire.runtimeGenerationId })

/-- `get_job`, of the answer to its request. -/
def getJob (kind : GatewayKind) (jobId : Uuid) (answer : Except GatewayError HttpAnswer) :
    Except GatewayError GatewayJob := do
  let answer ← answer
  if !answer.isSuccess then
    let value := (answer.body.bind (fromStr reading.value)).getD .null
    .error (classifyStatus answer.status (errorText value "code" "gateway_error")
      (errorText value "message" "gateway rejected the request"))
  else
    match answer.body.bind (fromStr (JobWire.deserialize reading)) with
    | none => .error (invalidJob answer.status "gateway returned an invalid job response")
    | some wire =>
      if wire.id ≠ jobId then
        .error (.uncertain {
          status := some answer.status, code := "job_identity_mismatch"
          message := "gateway returned a different job" })
      else
        match GatewayJobStatus.parse kind wire.status with
        | none => .error (invalidJob answer.status "gateway returned an unknown job status")
        | some status =>
          let execution ← jobMetadata kind answer.status wire
          let outcome ← jobOutcome reading jobId answer.status wire status
          return { id := wire.id, status, outcome, execution }

/-! ## What a document tells -/

/-- The code and the message of an error that ends a job. -/
structure ErrorTells (error : Value) (code message : String) : Prop where
  coded : (error.get "code").bind Value.asStr = some code ∧ code ≠ ""
  worded : (error.get "message").bind Value.asStr = some message ∧ message ≠ ""

/-- The outcome of an operation that a document of its job states. -/
inductive JobWire.Tells (wire : JobWire) : OperationKind → OperationOutcome → Prop
  | assistantResponse {raw : RawJson} {response : AssistantResponse}
      (status : wire.status = "succeeded") (states : wire.response = some raw)
      (alone : wire.error = none)
      (typed : fromStr (AssistantResponse.format reading.codecs).read raw = some response) :
      Tells wire .llm (.succeeded (.llm response))
  | executionResponse {raw : RawJson} {response : Execution.Response}
      (status : wire.status = "succeeded") (states : wire.response = some raw)
      (alone : wire.error = none)
      (typed : fromStr reading.codecs.response.read raw = some response) :
      Tells wire .execution (.succeeded (.execution response))
  | failed {kind : OperationKind} {error : Value} {code message : String}
      (status : wire.status = "failed") (states : wire.error = some error)
      (alone : wire.response = none) (tells : ErrorTells error code message) :
      Tells wire kind
        (.failed { source := .gateway, code, message, executionResponse := none })
  /-- The runtime answered the execution, and its answer is a failure. -/
  | answered {raw : RawJson} {response : Execution.Response}
      (status : wire.status = "failed") (states : wire.response = some raw)
      (alone : wire.error = none)
      (typed : fromStr reading.codecs.response.read raw = some response) :
      Tells wire .execution (.failed {
        source := .protocol, code := "operation_failed", message := "gateway operation failed"
        executionResponse := some response })
  | cancelled (status : wire.status = "cancelled") (response : wire.response = none)
      (error : wire.error = none) : Tells wire .llm .cancelled
  | unknown {error : Value} {code message : String}
      (status : wire.status = "unknown") (states : wire.error = some error)
      (alone : wire.response = none) (tells : ErrorTells error code message) :
      Tells wire .execution
        (.unknown { source := .gateway, code, message, executionResponse := none })

/-- The answer is a document of the job. -/
structure HttpAnswer.Carries (answer : HttpAnswer) (jobId : Uuid) (wire : JobWire) : Prop where
  success : answer.isSuccess = true
  body : answer.body.bind (fromStr (JobWire.deserialize reading)) = some wire
  id : wire.id = jobId

end

/-! ## What the client makes of a document -/

theorem LlmJobStatus.parse_eq {word : String} {status : LlmJobStatus}
    (h : parse word = some status) : word = status.asStr := by
  unfold parse at h
  split at h <;> cases h <;> rfl

theorem ExecutionJobStatus.parse_eq {word : String} {status : ExecutionJobStatus}
    (h : parse word = some status) : word = status.asStr := by
  unfold parse at h
  split at h <;> cases h <;> rfl

theorem validTerminalError_tells {error : Value} (h : validTerminalError (some error) = true) :
    ∃ code message, ErrorTells error code message := by
  simp only [validTerminalError, Option.any_some, Bool.and_eq_true, Option.any_eq_true] at h
  obtain ⟨⟨code, hcode, hcoded⟩, message, hmessage, hworded⟩ := h
  exact ⟨code, message, ⟨hcode, by simpa using hcoded⟩, hmessage, by simpa using hworded⟩

/-- How an accepted document ends its job. -/
inductive JobWire.Ends (wire : JobWire) : GatewayKind → GatewayJobOutcome → Prop
  | pending {kind : GatewayKind} : Ends wire kind .pending
  | succeeded {kind : GatewayKind} {raw : RawJson} (status : wire.status = "succeeded")
      (states : wire.response = some raw) (alone : wire.error = none) :
      Ends wire kind (.succeeded raw)
  | failed {kind : GatewayKind} {error : Value} (status : wire.status = "failed")
      (states : wire.error = some error) (alone : wire.response = none)
      (valid : validTerminalError (some error) = true) :
      Ends wire kind (.failed none (some error))
  | answered {raw : RawJson} (status : wire.status = "failed")
      (states : wire.response = some raw) (alone : wire.error = none) :
      Ends wire .execution (.failed (some raw) none)
  | cancelled (status : wire.status = "cancelled") (response : wire.response = none)
      (error : wire.error = none) : Ends wire .llm .cancelled
  | unknown {error : Value} (status : wire.status = "unknown")
      (states : wire.error = some error) (alone : wire.response = none)
      (valid : validTerminalError (some error) = true) :
      Ends wire .execution (.unknown error)

section

variable {Time : Type} {reading : JobReading Time} {jobId : Uuid} {http : Nat} {wire : JobWire}

/-- A response that is accepted is the one that was asked about. -/
theorem validateExecutionResponse_ok {raw response : RawJson} {machineId generation : Option Uuid}
    {succeeded : Bool}
    (h : validateExecutionResponse reading raw jobId machineId generation succeeded http =
      .ok response) : response = raw := by
  unfold validateExecutionResponse at h
  repeat' split at h
  all_goals cases h
  rfl

theorem jobOutcome_llm {word : LlmJobStatus} {outcome : GatewayJobOutcome}
    (status : wire.status = word.asStr)
    (h : jobOutcome reading jobId http wire (.llm word) = .ok outcome) :
    wire.Ends .llm outcome := by
  cases word with
  | queued | running | retryWait =>
    simp only [jobOutcome] at h
    split at h <;> cases h
    exact .pending
  | succeeded =>
    simp only [jobOutcome] at h
    split at h
    · cases h
    · rename_i herror
      split at h
      · cases h
      · rename_i raw hraw
        split at h
        · cases h
        · cases h
          exact .succeeded status hraw (by simpa using herror)
  | failed =>
    simp only [jobOutcome] at h
    split at h
    · cases h
    · rename_i hvalid
      cases h
      simp only [Bool.or_eq_true, Bool.not_eq_true', not_or, Bool.not_eq_true,
        Bool.not_eq_false] at hvalid
      cases herror : wire.error with
      | none =>
        rw [herror] at hvalid
        cases hvalid.2
      | some error =>
        exact .failed status herror (by simpa using hvalid.1) (herror ▸ hvalid.2)
  | cancelled =>
    simp only [jobOutcome] at h
    split at h
    · cases h
    · rename_i halone
      cases h
      simp only [Bool.or_eq_true, not_or, Bool.not_eq_true] at halone
      exact .cancelled status (by simpa using halone.1) (by simpa using halone.2)

theorem jobOutcome_execution {word : ExecutionJobStatus} {outcome : GatewayJobOutcome}
    (status : wire.status = word.asStr)
    (h : jobOutcome reading jobId http wire (.execution word) = .ok outcome) :
    wire.Ends .execution outcome := by
  cases word with
  | queued | dispatching | waitingResponse =>
    simp only [jobOutcome] at h
    split at h <;> cases h
    exact .pending
  | succeeded =>
    simp only [jobOutcome] at h
    split at h
    · cases h
    · rename_i herror
      split at h
      · cases h
      · rename_i raw hraw
        obtain ⟨response, hresponse, rfl⟩ := map_ok h
        rw [validateExecutionResponse_ok hresponse]
        exact .succeeded status hraw (by simpa using herror)
  | failed =>
    simp only [jobOutcome] at h
    split at h
    · cases h
    · rename_i hone
      split at h
      · rename_i raw hraw
        obtain ⟨response, hresponse, rfl⟩ := map_ok h
        rw [validateExecutionResponse_ok hresponse]
        have halone : wire.error = none := by
          rw [hraw] at hone
          simpa using hone
        exact .answered status hraw halone
      · rename_i hnone
        split at h
        · cases h
        · rename_i hvalid
          cases h
          cases herror : wire.error with
          | none =>
            rw [hnone, herror] at hone
            exact absurd rfl hone
          | some error =>
            rw [herror] at hvalid
            exact .failed status herror hnone (by simpa using hvalid)
  | unknown =>
    simp only [jobOutcome] at h
    split at h
    · rename_i error herror
      split at h
      · cases h
      · rename_i hvalid
        split at h
        · cases h
        · cases h
          simp only [Bool.or_eq_true, Bool.not_eq_true', not_or, Bool.not_eq_true,
            Bool.not_eq_false] at hvalid
          exact .unknown status herror (by simpa using hvalid.1) hvalid.2
    · cases h

/-- A job is read off a document of that job, and ends as the document says. -/
theorem getJob_ok {kind : GatewayKind} {answer : Except GatewayError HttpAnswer} {job : GatewayJob}
    (h : getJob reading kind jobId answer = .ok job) :
    ∃ a wire, answer = .ok a ∧ a.Carries reading jobId wire ∧ wire.Ends kind job.outcome := by
  obtain ⟨a, rfl, hread⟩ := bind_ok h
  split at hread
  · cases hread
  · rename_i hsuccess
    split at hread
    · cases hread
    · rename_i wire hbody
      split at hread
      · cases hread
      · rename_i hid
        split at hread
        · cases hread
        · rename_i status hstatus
          obtain ⟨execution, -, hread⟩ := bind_ok hread
          obtain ⟨outcome, houtcome, hread⟩ := bind_ok hread
          cases hread
          refine ⟨a, wire, rfl, ⟨by simpa using hsuccess, hbody, by simpa using hid⟩, ?_⟩
          cases kind with
          | llm =>
            obtain ⟨word, hword, rfl⟩ := Option.map_eq_some_iff.mp hstatus
            exact jobOutcome_llm (LlmJobStatus.parse_eq hword) houtcome
          | execution =>
            obtain ⟨word, hword, rfl⟩ := Option.map_eq_some_iff.mp hstatus
            exact jobOutcome_execution (ExecutionJobStatus.parse_eq hword) houtcome

end

end AgentPlatform.Runtime
