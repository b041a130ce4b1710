import AgentPlatform.Runtime.World

/-!
# Where the words of a worker come from

What a dispatch worker sends and records is made of its claim and of what it was told: a submission
carries the key of the operation and the content of its stored request, with the job of the parent
that was read, and a job that is recorded is one that a gateway told of.
-/

namespace AgentPlatform.Runtime

open Store

/-- What a worker was told: the records that it read, by session and operation, and jobs. -/
structure Knowledge where
  reads : List (SessionId × OperationId × OperationRecord)
  jobs : List Uuid

/-- A request that submits, and the connection it submits to. -/
def OperationRequest.submitsTo : OperationRequest → Option GatewayConnectionId
  | .llm connection _ | .execution connection .. => some connection
  | .llmCancellation _ | .withdraw _ => none

/-- The submission that a stored request makes, with the job of the parent that was read. -/
inductive Makes (claim : ClaimedOperation) (knows : Knowledge) :
    OperationRequest → GatewayConnectionId → SubmissionBody → Prop
  | fresh {connection : GatewayConnectionId} {accountId : Uuid} {modelId : String}
      {instructions : Option String} {messages : List Message} {tools : List ToolDefinition}
      {providerOptions : ProviderOptions} :
      Makes claim knows
        (.llm connection (.fresh accountId modelId instructions messages tools providerOptions))
        connection
        { idempotencyKey := claim.operation.gatewayIdempotencyKey
          content := .fresh accountId modelId instructions messages tools providerOptions }
  | continuation {connection : GatewayConnectionId} {previousOperationId : OperationId}
      {messages : List Message} {parent : OperationRecord} {jobId : Uuid}
      (read : (claim.operation.sessionId, previousOperationId, parent) ∈ knows.reads)
      (job : parent.gatewayJobId = some jobId) :
      Makes claim knows (.llm connection (.continuation previousOperationId messages)) connection
        { idempotencyKey := claim.operation.gatewayIdempotencyKey
          content := .continuation jobId messages }
  | execution {connection : GatewayConnectionId} {machineId : Uuid}
      {expectedGenerationId : Option Uuid} {request : Execution.Payload} :
      Makes claim knows (.execution connection machineId expectedGenerationId request) connection
        { idempotencyKey := claim.operation.gatewayIdempotencyKey
          content := .execution machineId expectedGenerationId request }

/-- A submission made of the claim's stored request. -/
def OperationDispatcher.Submits (dispatcher : OperationDispatcher) (claim : ClaimedOperation)
    (knows : Knowledge) (connection : GatewayConnectionId) (body : SubmissionBody) : Prop :=
  ∃ raw request, claim.request = some raw ∧ dispatcher.decodeRequest raw = some request ∧
    Makes claim knows request connection body

/-- The job that a record stores. -/
def StoreCall.acceptedJob : StoreCall → Option Uuid
  | .recordOperationAccepted _ jobId _ _ => some jobId
  | _ => none

/-- A record that the worker may make: of its own claim, and of a job that it was told of. -/
structure Known (claim : ClaimedOperation) (knows : Knowledge) (call : StoreCall) : Prop where
  own : call.operationClaim = some claim
  job : ∀ jobId ∈ StoreCall.acceptedJob call, jobId ∈ knows.jobs

theorem Known.of_other {claim : ClaimedOperation} {knows : Knowledge} {call : StoreCall}
    (own : call.operationClaim = some claim) (other : StoreCall.acceptedJob call = none) :
    Known claim knows call :=
  ⟨own, by simp [other]⟩

/-- The discipline of a worker that sends and records only what it knows. -/
def provenance (dispatcher : OperationDispatcher) (claim : ClaimedOperation) :
    Asking.Discipline Request Request.Answer Knowledge where
  allows knows
    | .submit connection body => dispatcher.Submits claim knows connection body
    | .findByIdempotencyKey _ key => key = claim.operation.gatewayIdempotencyKey
    | .record call => Known claim knows call
    | _ => True
  after knows
    | .operationForSession sessionId id, .ok (some record) =>
      { knows with reads := (sessionId, id, record) :: knows.reads }
    | .submit .., .ok ack => { knows with jobs := ack.id :: knows.jobs }
    | .findByIdempotencyKey .., .ok (some ack) => { knows with jobs := ack.id :: knows.jobs }
    | _, _ => knows

/-- From what it knows on, the program keeps to its provenance. -/
def Learned (dispatcher : OperationDispatcher) (claim : ClaimedOperation) (knows : Knowledge)
    (program : Work Unit) : Prop :=
  program.Obeys (provenance dispatcher claim) (fun _ _ => True) knows

section

variable {dispatcher : OperationDispatcher} {claim : ClaimedOperation} {knows : Knowledge}

/-! ## Records -/

theorem learned_after {milliseconds : Nat} {call : Timestamp → StoreCall}
    (known : ∀ t, Known claim knows (call t)) :
    Learned dispatcher claim knows (after milliseconds >>= fun t => record (call t)) :=
  ⟨trivial, fun _ => ⟨known _, fun _ => trivial⟩⟩

theorem learned_retry {uncertain : Bool} {httpStatus : Option Int} {code message : String} :
    Learned dispatcher claim knows (dispatcher.retry claim uncertain httpStatus code message) :=
  learned_after fun _ => .of_other rfl rfl

theorem learned_defer : Learned dispatcher claim knows (dispatcher.defer claim) :=
  learned_after fun _ => .of_other rfl rfl

theorem learned_failValue {failure : OperationFailure} {httpStatus : Option Int} :
    Learned dispatcher claim knows (dispatcher.failValue claim failure httpStatus) := by
  unfold OperationDispatcher.failValue
  split
  · exact learned_retry
  · exact learned_after fun _ => .of_other rfl rfl

theorem learned_fail {source : FailureSource} {code message : String} {httpStatus : Option Int} :
    Learned dispatcher claim knows (dispatcher.fail claim source code message httpStatus) :=
  learned_failValue

/-- A job is recorded when a gateway told of it. -/
theorem learned_accept {ack : JobAcknowledgement} {httpStatus : Int} (told : ack.id ∈ knows.jobs) :
    Learned dispatcher claim knows (dispatcher.accept claim ack httpStatus) :=
  learned_after fun _ => ⟨rfl, fun _ h => Option.some.inj h ▸ told⟩

theorem learned_completeResult {accepted : Bool} {httpStatus : Option Int} :
    Learned dispatcher claim knows (dispatcher.completeResult claim accepted httpStatus) :=
  learned_after fun _ => .of_other rfl rfl

theorem learned_gatewayFailure {error : GatewayError} :
    Learned dispatcher claim knows (dispatcher.gatewayFailure claim error) := by
  cases error with
  | rejected status code message =>
    simp only [OperationDispatcher.gatewayFailure]
    split
    · exact learned_retry
    · exact learned_fail
  | retryable | uncertain => exact learned_retry
  | invalidRequest => exact learned_fail

/-! ## Submission -/

/-- What `submission_body` hands on is made of the request and of what was read. -/
def Handed (claim : ClaimedOperation) (request : OperationRequest) (knows : Knowledge)
    (prepared : Except OperationFailure (Option OperationDispatcher.Submission)) : Prop :=
  ∀ submission, prepared = .ok (some submission) →
    Makes claim knows request submission.1 submission.2.2

theorem handed_none {request : OperationRequest} : Handed claim request knows (.ok none) := by
  intro submission h
  cases h

theorem handed_error {request : OperationRequest} {failure : OperationFailure} :
    Handed claim request knows (.error failure) := by
  intro submission h
  cases h

theorem handed_body {request : OperationRequest} {connection : GatewayConnectionId}
    {kind : GatewayKind} {content : SubmissionContent} {failure : String}
    (makes : Makes claim knows request connection
      { idempotencyKey := claim.operation.gatewayIdempotencyKey, content }) :
    Handed claim request knows (dispatcher.body claim connection kind content failure) := by
  intro submission h
  simp only [OperationDispatcher.body] at h
  split at h
  · cases h
    exact makes
  · cases h

theorem continuationBody_hands {connection : GatewayConnectionId}
    {previousOperationId : OperationId} {messages : List Message} :
    (dispatcher.continuationBody claim connection previousOperationId messages).Obeys
      (provenance dispatcher claim)
      (fun knows prepared => Handed claim (.llm connection (.continuation previousOperationId messages))
        knows prepared) knows := by
  refine ⟨trivial, fun found => ?_⟩
  cases found with
  | error error => exact learned_retry.bind fun _ _ _ => handed_none
  | ok found =>
    cases found with
    | none => exact handed_error
    | some parent =>
      show Asking.Obeys _ _ _ (ite _ _ _)
      split
      · exact handed_error
      · cases parent.status with
        | pending | submitting | accepted => exact learned_defer.bind fun _ _ _ => handed_none
        | failed | cancelled | unknown => exact handed_error
        | succeeded =>
          cases hjob : parent.gatewayJobId with
          | none => exact handed_error
          | some jobId => exact handed_body (.continuation List.mem_cons_self hjob)

theorem submissionBody_hands {request : OperationRequest} :
    (dispatcher.submissionBody claim request).Obeys (provenance dispatcher claim)
      (fun knows prepared => Handed claim request knows prepared) knows := by
  cases request with
  | llm connection request =>
    cases request with
    | fresh => exact handed_body .fresh
    | continuation => exact continuationBody_hands
  | execution => exact handed_body .execution
  | llmCancellation | withdraw => exact handed_error

theorem learned_submitAndRecord {connection : GatewayConnectionId} {body : SubmissionBody}
    (submits : dispatcher.Submits claim knows connection body) :
    Learned dispatcher claim knows (dispatcher.submitAndRecord claim connection body) := by
  refine ⟨submits, fun answer => ?_⟩
  cases answer with
  | ok ack => exact learned_accept List.mem_cons_self
  | error error => exact learned_gatewayFailure

theorem learned_finishSubmission {connection : GatewayConnectionId} {body : SubmissionBody}
    (submits : dispatcher.Submits claim knows connection body) :
    Learned dispatcher claim knows (dispatcher.finishSubmission claim connection body) := by
  unfold OperationDispatcher.finishSubmission
  split
  · refine ⟨rfl, fun found => ?_⟩
    cases found with
    | error error => exact learned_gatewayFailure
    | ok found =>
      cases found with
      | none => exact learned_submitAndRecord submits
      | some ack => exact learned_accept List.mem_cons_self
  · exact learned_submitAndRecord submits

theorem learned_submit : Learned dispatcher claim knows (dispatcher.submit claim) := by
  unfold OperationDispatcher.submit
  cases hstored : dispatcher.storedRequest claim with
  | error message => exact learned_fail
  | ok request =>
    obtain ⟨raw, hraw, hdecode⟩ : ∃ raw, claim.request = some raw ∧
        dispatcher.decodeRequest raw = some request := by
      unfold OperationDispatcher.storedRequest at hstored
      split at hstored
      · cases hstored
      · rename_i raw hraw
        split at hstored
        · cases hstored
        · rename_i hdecode
          cases hstored
          exact ⟨raw, hraw, hdecode⟩
    refine submissionBody_hands.bind fun knows' prepared hprepared => ?_
    cases prepared with
    | error failure => exact learned_failValue
    | ok submission =>
      cases submission with
      | none => trivial
      | some submission =>
        have hmakes := hprepared submission rfl
        obtain ⟨connection, kind, body⟩ := submission
        dsimp only
        cases dispatcher.gateways connection with
        | none => exact learned_fail
        | some configured =>
          show Learned dispatcher claim knows' (ite _ _ _)
          split
          · exact learned_fail
          · exact learned_finishSubmission ⟨raw, request, hraw, hdecode, hmakes⟩

/-! ## Cancellation and withdrawal -/

theorem learned_cancelTarget {target : OperationRecord} :
    Learned dispatcher claim knows (dispatcher.cancelTarget claim target) := by
  unfold OperationDispatcher.cancelTarget
  cases target.gatewayJobId with
  | none => exact learned_defer
  | some jobId =>
    cases target.gatewayConnectionId with
    | none => exact learned_fail
    | some connection =>
      cases hconfigured : dispatcher.gateways connection with
      | none =>
        simp only [hconfigured]
        exact learned_fail
      | some kind =>
        cases kind with
        | execution =>
          simp only [hconfigured]
          exact learned_fail
        | llm =>
          simp only [hconfigured]
          refine ⟨trivial, fun answer => ?_⟩
          cases answer with
          | ok ack => exact learned_completeResult
          | error error => exact learned_gatewayFailure

theorem learned_cancel : Learned dispatcher claim knows (dispatcher.cancel claim) := by
  unfold OperationDispatcher.cancel
  cases claim.operation.targetOperationId with
  | none => exact learned_fail
  | some targetId =>
    refine ⟨trivial, fun found => ?_⟩
    cases found with
    | error error => exact learned_retry
    | ok found =>
      cases found with
      | none => exact learned_fail
      | some target =>
        show Learned dispatcher claim _ (ite _ _ _)
        split
        · exact learned_fail
        · cases target.status with
          | pending | submitting => exact learned_defer
          | accepted => exact learned_cancelTarget
          | failed | cancelled | unknown | succeeded =>
            show Learned dispatcher claim _ (ite _ _ _)
            split
            · exact learned_cancelTarget
            · exact learned_completeResult

/-- The program of every claim keeps to its provenance. -/
theorem learned_processClaim : Learned dispatcher claim knows (dispatcher.processClaim claim) := by
  unfold OperationDispatcher.processClaim
  cases claim.phase with
  | submission => exact learned_submit
  | cancellation => exact learned_cancel
  | withdrawal => exact learned_after fun _ => .of_other rfl rfl
  | resultRetrieval => trivial

end

end AgentPlatform.Runtime
