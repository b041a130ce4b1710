import AgentPlatform.Runtime.Discipline
import AgentPlatform.Runtime.Retrieval
import AgentPlatform.Store.Claims

/-!
# What the harness reads of an operation

`StoreContext::operation` of `agent-runtime/src/context.rs` decodes the columns in which a worker
stored the end of an operation. Completion workers, dispatch workers and the store's own withdrawals
write them, each in its own way; in every run, what is read of an operation that has ended is what
ended it.
-/

namespace AgentPlatform.Runtime

open Json Store

/-! ## The context -/

/-- `OperationRecord` of the contracts. -/
structure ContractOperation where
  id : OperationId
  kind : OperationKind
  gatewayJobId : Option Uuid
  outcome : Option OperationOutcome

/-- `ContextError::Read`, with the context's own words or with serde's. -/
inductive ReadError where
  | context (message : String)
  | serde

/-- A failure source, of a value. -/
def FailureSource.ofValue : Value → Option FailureSource
  | .string word | .object [(word, .null)] => FailureSource.ofStr word
  | _ => none

/-- The failure of its fields. -/
def OperationFailure.ofFields (response : Value → Option Execution.Response)
    (source code message : Option Value) (executionResponse : Option Value) :
    Option OperationFailure := do
  let source ← source.bind FailureSource.ofValue
  let code ← code.bind Value.asStr
  let message ← message.bind Value.asStr
  let executionResponse ←
    match executionResponse with
    | none | some .null => some none
    | some value => (response value).map some
  return { source, code, message, executionResponse }

/-- `serde_json::from_value` of a failure. -/
def OperationFailure.ofValue (response : Value → Option Execution.Response) :
    Value → Option OperationFailure
  | .array [source, code, message] => ofFields response (some source) (some code) (some message) none
  | .array [source, code, message, executionResponse] =>
    ofFields response (some source) (some code) (some message) (some executionResponse)
  | .array _ => none
  | value =>
    ofFields response (value.get "source") (value.get "code") (value.get "message")
      (value.get "execution_response")

namespace JobReading

variable {Time : Type} (reading : JobReading Time)

/-- A stored result, decoded. -/
def decodeResult (text : RawJson) : Except ReadError OperationResult :=
  match (OperationResult.format reading.codecs).decode text with
  | none => .error .serde
  | some result => .ok result

/-- `parse_result`. -/
def parseResult (record : OperationRecord) : Except ReadError OperationResult :=
  match record.result with
  | none => .error (.context "succeeded operation has no result")
  | some result => reading.decodeResult result

/-- `parse_failure`. -/
def parseFailure (record : OperationRecord) : Except ReadError OperationFailure :=
  match record.error with
  | none => .error (.context "failed operation has no error")
  | some error =>
    match OperationFailure.ofValue reading.response error with
    | none => .error .serde
    | some failure =>
      match record.kind, record.result with
      | .execution, some result => do
        match ← reading.decodeResult result with
        | .execution response => .ok { failure with executionResponse := some response }
        | _ => .error (.context "failed execution has a non-execution result")
      | _, _ => .ok failure

/-- The outcome of `operation`. -/
def outcome (record : OperationRecord) : Except ReadError (Option OperationOutcome) :=
  match record.status with
  | .pending | .submitting | .accepted => .ok none
  | .succeeded => (reading.parseResult record).map fun result => some (.succeeded result)
  | .failed => (reading.parseFailure record).map fun failure => some (.failed failure)
  | .cancelled => .ok (some .cancelled)
  | .unknown => (reading.parseFailure record).map fun failure => some (.unknown failure)

/-- `operation`. -/
def operation (record : OperationRecord) : Except ReadError ContractOperation := do
  let outcome ← reading.outcome record
  return { id := record.id, kind := record.kind, gatewayJobId := record.gatewayJobId, outcome }

end JobReading

/-! ## What is stored and what is read -/

section

variable {Time : Type} {reading : JobReading Time}

theorem FailureSource.ofStr_asStr (source : FailureSource) :
    FailureSource.ofStr source.asStr = some source := by
  cases source <;> rfl

/-- A stored failure is read again, without the response that is stored beside it. -/
theorem OperationFailure.ofValue_failureValue (response : Value → Option Execution.Response)
    (failure : OperationFailure) :
    OperationFailure.ofValue response (failureValue failure) =
      some { failure with executionResponse := none } := by
  simp [failureValue, OperationFailure.ofValue, OperationFailure.ofFields, Value.get, Value.asStr,
    FailureSource.ofValue, FailureSource.ofStr_asStr]

/-- A result whose value was decoded is read again. -/
theorem decode_encode_of_read {d : Doc} {result : OperationResult} (sound : reading.codecs.Sound)
    (kind : String) (h : (OperationResult.format reading.codecs).read
      (.record [("kind", some (.ofString kind)), ("value", some d)]) = some result) :
    reading.decodeResult ((OperationResult.format reading.codecs).encode result) = .ok result := by
  have hwrites := OperationResult.format_sound sound _ _ h
  rw [JobReading.decodeResult, Format.decode, Format.encode, fromStr_text, hwrites.again]

theorem decode_llm {raw : RawJson} {response : AssistantResponse} (sound : reading.codecs.Sound)
    (typed : fromStr (AssistantResponse.format reading.codecs).read raw = some response) :
    reading.decodeResult ((OperationResult.format reading.codecs).encode (.llm response)) =
      .ok (.llm response) := by
  obtain ⟨d, -, hread⟩ := Option.bind_eq_some_iff.mp typed
  refine decode_encode_of_read (d := d) sound "llm" ?_
  show OperationResult.deserialize _ _ = _
  rw [OperationResult.deserialize, access_record _ (by simp [Json.Distinct])]
  have hkind : OperationKind.format.read (.ofString "llm") = some .llm :=
    (OperationKind.format_writes .llm).again
  simp [hkind, hread]

theorem decode_execution {raw : RawJson} {response : Execution.Response}
    (sound : reading.codecs.Sound)
    (typed : fromStr reading.codecs.response.read raw = some response) :
    reading.decodeResult ((OperationResult.format reading.codecs).encode (.execution response)) =
      .ok (.execution response) := by
  obtain ⟨d, -, hread⟩ := Option.bind_eq_some_iff.mp typed
  refine decode_encode_of_read (d := d) sound "execution" ?_
  show OperationResult.deserialize _ _ = _
  rw [OperationResult.deserialize, access_record _ (by simp [Json.Distinct])]
  have hkind : OperationKind.format.read (.ofString "execution") = some .execution :=
    (OperationKind.format_writes .execution).again
  simp [hkind, hread]

/-- The text that a dispatcher writes by itself. -/
theorem decode_cancellationResult {accepted : Bool} :
    reading.decodeResult (cancellationResult accepted) = .ok (.llmCancellation accepted) := by
  have htext : cancellationResult accepted =
      (OperationResult.serialize reading.codecs (.llmCancellation accepted)).text := by
    cases accepted <;> rfl
  rw [JobReading.decodeResult, Format.decode, htext, fromStr_text]
  show (match OperationResult.deserialize _ _ with | none => _ | some result => _) = _
  rw [OperationResult.serialize, OperationResult.deserialize, access_record _ (by simp [Json.Distinct])]
  simp [(OperationKind.format_writes _).again, readFlag_again]

/-- The text that the store writes by itself. -/
theorem decode_withdrawalResult {withdrawn : Bool} :
    reading.decodeResult (withdrawalResult withdrawn) = .ok (.withdraw withdrawn) := by
  have htext : withdrawalResult withdrawn =
      (OperationResult.serialize reading.codecs (.withdraw withdrawn)).text := by
    cases withdrawn <;> rfl
  rw [JobReading.decodeResult, Format.decode, htext, fromStr_text]
  show (match OperationResult.deserialize _ _ with | none => _ | some result => _) = _
  rw [OperationResult.serialize, OperationResult.deserialize, access_record _ (by simp [Json.Distinct])]
  simp [(OperationKind.format_writes _).again, readFlag_again]

end

/-! ## Completion workers -/

/-- The columns of an operation that has ended hold the outcome. -/
structure Holds {Time : Type} (reading : JobReading Time) (kind : OperationKind)
    (status : OperationStatus) (result : Option RawJson) (error : Option Value)
    (outcome : OperationOutcome) : Prop where
  reads : ∀ record : OperationRecord, record.kind = kind → record.status = status →
    record.result = result → record.error = error → reading.outcome record = .ok (some outcome)
  status : outcome.status.asStr = status.asStr
  kind : ∀ result, outcome = .succeeded result → result.kind = kind

abbrev RetrievalNote := (request : RetrievalRequest) × request.Answer

section

variable {Time : Type} {runtime : CompletionRuntime Time} {claim : ClaimedOperation}
  {heard : List RetrievalNote} {outcome : OperationOutcome}

/-- A worker has heard a document of its operation's job that tells the outcome. -/
structure Retrieved (runtime : CompletionRuntime Time) (claim : ClaimedOperation)
    (connection : GatewayConnectionId) (jobId : Uuid) (wire : JobWire)
    (heard : List RetrievalNote) : Prop where
  mapped : claim.operation.gatewayConnectionId = some connection ∧
    claim.operation.gatewayJobId = some jobId
  document : ∃ answer : HttpAnswer, ⟨.getJob connection jobId, .ok answer⟩ ∈ heard ∧
    answer.Carries runtime.reading jobId wire

/-- What a completion worker may record as the end of its operation. -/
def Reports (runtime : CompletionRuntime Time) (claim : ClaimedOperation)
    (heard : List RetrievalNote) : RetrievalRequest → Prop
  | .record (.completeOperation claim' status result error _ _) =>
    claim' = claim ∧ ∃ connection jobId wire outcome,
      Retrieved runtime claim connection jobId wire heard ∧
        wire.Tells runtime.reading claim.operation.kind outcome ∧
        Holds runtime.reading claim.operation.kind status result error outcome
  | _ => True

/-- The program reports nothing but what was heard. -/
abbrev Faithful (runtime : CompletionRuntime Time) (claim : ClaimedOperation)
    (heard : List RetrievalNote) (program : Retrieval Unit) : Prop :=
  program.Obeys (.history (Reports runtime claim)) (fun _ _ => True) heard

theorem Retrieved.mono {connection : GatewayConnectionId} {jobId : Uuid} {wire : JobWire}
    {heard' : List RetrievalNote} (h : Retrieved runtime claim connection jobId wire heard)
    (more : heard ⊆ heard') : Retrieved runtime claim connection jobId wire heard' where
  mapped := h.mapped
  document := by
    obtain ⟨answer, hanswer, hcarries⟩ := h.document
    exact ⟨answer, more hanswer, hcarries⟩

theorem faithful_retryResult {httpStatus : Option Int} {code message : String} :
    Faithful runtime claim heard (runtime.retryResult claim httpStatus code message) :=
  ⟨trivial, fun _ => ⟨trivial, fun _ => trivial⟩⟩

theorem faithful_complete {connection : GatewayConnectionId} {jobId : Uuid} {wire : JobWire}
    {status : OperationStatus} {result : Option RawJson} {error : Option Value}
    (retrieved : Retrieved runtime claim connection jobId wire heard)
    (tells : wire.Tells runtime.reading claim.operation.kind outcome)
    (holds : Holds runtime.reading claim.operation.kind status result error outcome) :
    Faithful runtime claim heard (runtime.complete claim status result error) := by
  refine ⟨trivial, fun t => ⟨⟨rfl, connection, jobId, wire, outcome, ?_, tells, holds⟩,
    fun _ => trivial⟩⟩
  exact retrieved.mono (List.subset_append_left _ _)

/-! ### What the columns hold -/

theorem holds_succeeded {reading : JobReading Time} {kind : OperationKind} {result : OperationResult}
    {text : RawJson} {error : Option Value} (kinds : result.kind = kind)
    (decodes : reading.decodeResult text = .ok result) :
    Holds reading kind .succeeded (some text) error (.succeeded result) where
  reads record _ hstatus hresult _ := by
    simp only [JobReading.outcome, hstatus, JobReading.parseResult, hresult, decodes]
    rfl
  status := rfl
  kind r h := by
    cases h
    exact kinds

/-- Columns with a failure and no result hold the failure. -/
theorem parseFailure_alone {reading : JobReading Time} {record : OperationRecord}
    {failure : OperationFailure} (alone : failure.executionResponse = none)
    (result : record.result = none) (error : record.error = some (failureValue failure)) :
    reading.parseFailure record = .ok failure := by
  have hvalue := OperationFailure.ofValue_failureValue reading.response failure
  simp only [JobReading.parseFailure, error, hvalue, result]
  cases failure
  cases alone
  cases record.kind <;> rfl

theorem holds_failed {reading : JobReading Time} {kind : OperationKind} {failure : OperationFailure}
    (alone : failure.executionResponse = none) :
    Holds reading kind .failed none (some (failureValue failure)) (.failed failure) where
  reads record _ hstatus hresult herror := by
    simp only [JobReading.outcome, hstatus, parseFailure_alone alone hresult herror]
    rfl
  status := rfl
  kind _ h := by cases h

theorem holds_unknown {reading : JobReading Time} {kind : OperationKind}
    {failure : OperationFailure} (alone : failure.executionResponse = none) :
    Holds reading kind .unknown none (some (failureValue failure)) (.unknown failure) where
  reads record _ hstatus hresult herror := by
    simp only [JobReading.outcome, hstatus, parseFailure_alone alone hresult herror]
    rfl
  status := rfl
  kind _ h := by cases h

/-- The response of a failed execution is stored beside its failure. -/
theorem holds_answered {reading : JobReading Time} {failure : OperationFailure} {text : RawJson}
    {response : Execution.Response}
    (decodes : reading.decodeResult text = .ok (.execution response)) :
    Holds reading .execution .failed (some text) (some (failureValue failure))
      (.failed { failure with executionResponse := some response }) where
  reads record hkind hstatus hresult herror := by
    have hvalue := OperationFailure.ofValue_failureValue reading.response failure
    simp only [JobReading.outcome, hstatus, JobReading.parseFailure, herror, hvalue, hkind, hresult,
      decodes]
    rfl
  status := rfl
  kind _ h := by cases h

theorem holds_cancelled {reading : JobReading Time} {kind : OperationKind} {result : Option RawJson}
    {error : Option Value} : Holds reading kind .cancelled result error .cancelled where
  reads record _ hstatus _ _ := by simp only [JobReading.outcome, hstatus]
  status := rfl
  kind _ h := by cases h

theorem failure_of_tells (defaultCode defaultMessage : String) {error : Value}
    {code message : String} (tells : ErrorTells error code message) :
    failure .gateway error defaultCode defaultMessage =
      { source := .gateway, code, message, executionResponse := none } := by
  simp only [failure, tells.coded.1, tells.worded.1, Option.getD_some]

/-! ### What a worker records -/

section

variable {connection : GatewayConnectionId} {jobId : Uuid} {wire : JobWire}

theorem faithful_completeSuccess {raw : RawJson} (sound : runtime.reading.codecs.Sound)
    (retrieved : Retrieved runtime claim connection jobId wire heard)
    (status : wire.status = "succeeded") (states : wire.response = some raw)
    (alone : wire.error = none) :
    Faithful runtime claim heard (runtime.completeSuccess claim raw) := by
  unfold CompletionRuntime.completeSuccess
  cases hkind : claim.operation.kind with
  | llm =>
    cases htyped : fromStr (AssistantResponse.format runtime.reading.codecs).read raw with
    | none => exact faithful_retryResult
    | some response =>
      have htells : wire.Tells runtime.reading claim.operation.kind (.succeeded (.llm response)) :=
        hkind ▸ .assistantResponse status states alone htyped
      exact faithful_complete retrieved htells (holds_succeeded hkind.symm (decode_llm sound htyped))
  | execution =>
    cases htyped : fromStr runtime.reading.codecs.response.read raw with
    | none => exact faithful_retryResult
    | some response =>
      have htells : wire.Tells runtime.reading claim.operation.kind
          (.succeeded (.execution response)) :=
        hkind ▸ .executionResponse status states alone htyped
      exact faithful_complete retrieved htells
        (holds_succeeded hkind.symm (decode_execution sound htyped))
  | llmCancellation | withdraw => exact trivial

theorem faithful_completeFailure_error {error : Value}
    (retrieved : Retrieved runtime claim connection jobId wire heard)
    (status : wire.status = "failed") (states : wire.error = some error)
    (alone : wire.response = none) (valid : validTerminalError (some error) = true) :
    Faithful runtime claim heard (runtime.completeFailure claim none (some error)) := by
  obtain ⟨code, message, htells⟩ := validTerminalError_tells valid
  have hfailure := failure_of_tells "operation_failed" "gateway operation failed" htells
  have hprogram : runtime.completeFailure claim none (some error) =
      runtime.complete claim .failed none (some (failureValue
        { source := .gateway, code, message, executionResponse := none })) := by
    unfold CompletionRuntime.completeFailure
    cases claim.operation.kind <;> simp only [Option.getD_some, hfailure]
  rw [hprogram]
  exact faithful_complete retrieved (.failed status states alone htells) (holds_failed rfl)

theorem faithful_completeFailure_response {raw : RawJson} (sound : runtime.reading.codecs.Sound)
    (retrieved : Retrieved runtime claim connection jobId wire heard)
    (kind : claim.operation.kind = .execution) (status : wire.status = "failed")
    (states : wire.response = some raw) (alone : wire.error = none) :
    Faithful runtime claim heard (runtime.completeFailure claim (some raw) none) := by
  unfold CompletionRuntime.completeFailure
  simp only [kind]
  cases htyped : fromStr runtime.reading.codecs.response.read raw with
  | none => exact faithful_retryResult
  | some response =>
    refine faithful_complete retrieved (kind ▸ JobWire.Tells.answered status states alone htyped) ?_
    rw [kind]
    exact holds_answered (decode_execution sound htyped)

theorem faithful_completeJob {ended : GatewayJobOutcome} (sound : runtime.reading.codecs.Sound)
    (kind : claim.operation.kind = .llm ∨ claim.operation.kind = .execution)
    (retrieved : Retrieved runtime claim connection jobId wire heard)
    (ends : wire.Ends (CompletionRuntime.expectedKind claim.operation.kind) ended) :
    Faithful runtime claim heard (runtime.completeJob claim ended) := by
  have hllm (h : CompletionRuntime.expectedKind claim.operation.kind = .llm) :
      claim.operation.kind = .llm := by
    rcases kind with hkind | hkind
    · exact hkind
    · rw [hkind] at h
      cases h
  have hexecution (h : CompletionRuntime.expectedKind claim.operation.kind = .execution) :
      claim.operation.kind = .execution := by
    rcases kind with hkind | hkind
    · rw [hkind] at h
      cases h
    · exact hkind
  generalize hexpected : CompletionRuntime.expectedKind claim.operation.kind = expected at ends
  cases ends with
  | pending => exact ⟨trivial, fun _ => ⟨trivial, fun _ => trivial⟩⟩
  | succeeded status states alone => exact faithful_completeSuccess sound retrieved status states alone
  | failed status states alone valid =>
    exact faithful_completeFailure_error retrieved status states alone valid
  | answered status states alone =>
    exact faithful_completeFailure_response sound retrieved (hexecution hexpected) status states alone
  | cancelled status response error =>
    refine faithful_complete retrieved ?_ holds_cancelled
    rw [hllm hexpected]
    exact .cancelled status response error
  | @unknown error status states alone valid =>
    obtain ⟨code, message, htells⟩ := validTerminalError_tells valid
    have hfailure := failure_of_tells "unknown" "gateway could not recover the operation result"
      htells
    simp only [CompletionRuntime.completeJob, hfailure]
    refine faithful_complete retrieved ?_ (holds_unknown rfl)
    rw [hexecution hexpected]
    exact .unknown status states alone htells

end

/-- What follows the gateway's answer. -/
theorem faithful_retrieve {connection : GatewayConnectionId} {jobId : Uuid}
    {identity : Option (Uuid × Option Uuid)} (sound : runtime.reading.codecs.Sound)
    (kind : claim.operation.kind = .llm ∨ claim.operation.kind = .execution)
    (hconnection : claim.operation.gatewayConnectionId = some connection)
    (hjob : claim.operation.gatewayJobId = some jobId) :
    Faithful runtime claim heard (runtime.retrieve claim connection
      (CompletionRuntime.expectedKind claim.operation.kind) jobId identity) := by
  refine ⟨trivial, fun answer => ?_⟩
  dsimp only
  cases hread : getJob runtime.reading (CompletionRuntime.expectedKind claim.operation.kind) jobId
      answer with
  | error error => exact faithful_retryResult
  | ok job =>
    obtain ⟨a, wire, rfl, hcarries, hends⟩ := getJob_ok hread
    dsimp only [CompletionRuntime.processJob]
    cases CompletionRuntime.identityFault job identity with
    | some error => exact faithful_retryResult
    | none =>
      refine faithful_completeJob sound kind ⟨⟨hconnection, hjob⟩, a, ?_, hcarries⟩ hends
      exact List.mem_append_right _ (List.mem_singleton.mpr rfl)

theorem faithful_processResultClaim (sound : runtime.reading.codecs.Sound)
    (kind : claim.operation.kind = .llm ∨ claim.operation.kind = .execution) :
    Faithful runtime claim [] (runtime.processResultClaim claim) := by
  unfold CompletionRuntime.processResultClaim
  cases hconnection : claim.operation.gatewayConnectionId with
  | none => exact faithful_retryResult
  | some connection =>
    cases hjob : claim.operation.gatewayJobId with
    | none => exact faithful_retryResult
    | some jobId =>
      dsimp only
      cases runtime.gateways connection with
      | none => exact faithful_retryResult
      | some configured =>
        dsimp only
        split
        · exact faithful_retryResult
        · rename_i hconfigured
          obtain rfl := not_not.mp hconfigured
          split
          · refine ⟨trivial, fun read => ?_⟩
            dsimp only
            split
            · exact faithful_retryResult
            · exact faithful_retrieve sound kind hconnection hjob
          · exact faithful_retrieve sound kind hconnection hjob

end

end AgentPlatform.Runtime
