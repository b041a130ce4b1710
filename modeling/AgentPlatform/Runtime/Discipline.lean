import AgentPlatform.Runtime.World

/-!
# The discipline of a dispatch worker

What a worker may ask while it processes a claim: it submits under the key of its operation only, it
records the end of its own claim and then nothing more, and once a job of its operation may exist it
leaves the operation submitting, or deferred when the claim was recovering.
-/

namespace AgentPlatform.Runtime

open Store

/-- How far a worker has come. -/
structure Stage where
  /-- A job of the operation may exist, or come to exist by a submission that was sent. -/
  possible : Bool
  /-- The end of the attempt was recorded. -/
  recorded : Bool

/-- The stage that a worker starts at. -/
def Stage.start (claim : ClaimedOperation) : Stage :=
  { possible := claim.recoveringUncertain, recorded := false }

/-- An answer after which a submission may have, or may still get, a job. -/
def mayCreate : Except GatewayError JobAcknowledgement → Bool
  | .ok _ | .error (.uncertain _) => true
  | .error _ => false

/-- A record that leaves the operation accepted or submitting. -/
def StoreCall.keepsJob : StoreCall → Bool
  | .recordOperationAccepted .. => true
  | .recordOperationRetry _ uncertain .. => uncertain
  | _ => false

/-- A record of a deferral. -/
def StoreCall.defers : StoreCall → Bool
  | .deferOperation .. => true
  | _ => false

/-- The end that a worker at `stage` may record of its claim. -/
structure Recordable (claim : ClaimedOperation) (stage : Stage) (call : StoreCall) : Prop where
  own : call.operationClaim = some claim
  keeps : claim.phase = .submission → stage.possible = true →
    StoreCall.keepsJob call = true ∨
      StoreCall.defers call = true ∧ claim.recoveringUncertain = true

/-- The discipline of the worker that processes `claim`. -/
def discipline (claim : ClaimedOperation) : Asking.Discipline Request Request.Answer Stage where
  allows stage request :=
    stage.recorded = false ∧
      match request with
      | .submit _ body =>
        claim.phase = .submission ∧ body.idempotencyKey = claim.operation.gatewayIdempotencyKey
      | .record call => Recordable claim stage call
      | _ => True
  after stage request answer :=
    match request, answer with
    | .submit .., answer => { stage with possible := stage.possible || mayCreate answer }
    | .record _, _ => { stage with recorded := true }
    | _, _ => stage

/-- The program keeps to the discipline of its claim. -/
def Keeps (claim : ClaimedOperation) (stage : Stage) (program : Work Unit) : Prop :=
  program.Obeys (discipline claim) (fun _ _ => True) stage

/-- A stage allows what a later stage does. -/
theorem Keeps.earlier {claim : ClaimedOperation} {program : Work Unit} {recorded possible : Bool}
    (h : Keeps claim { possible := true, recorded } program) :
    Keeps claim { possible, recorded } program := by
  let stands (s t : Stage) : Prop :=
    s.recorded = t.recorded ∧ (t.possible = true → s.possible = true)
  have hstands : stands { possible := true, recorded } { possible, recorded } :=
    ⟨rfl, fun _ => rfl⟩
  refine Asking.Obeys.weaken ?_ ?_ ?_ h hstands
  · rintro s t request ⟨hrecorded, hpossible⟩ ⟨hopen, hallows⟩
    refine ⟨hrecorded ▸ hopen, ?_⟩
    cases request with
    | record call =>
      exact ⟨hallows.own, fun hphase hmay => hallows.keeps hphase (hpossible hmay)⟩
    | _ => exact hallows
  · rintro s t request answer ⟨hrecorded, hpossible⟩
    cases request with
    | submit connection body =>
      refine ⟨hrecorded, fun h => ?_⟩
      simp only [discipline, Bool.or_eq_true] at h ⊢
      exact h.imp_left hpossible
    | record call => exact ⟨rfl, hpossible⟩
    | _ => exact ⟨hrecorded, hpossible⟩
  · exact fun _ _ _ _ _ => trivial

/-- Once the end is recorded, nothing is left to ask. -/
theorem Keeps.recorded {claim : ClaimedOperation} {program : Work Unit} {possible : Bool}
    (h : Keeps claim { possible, recorded := true } program) : program = .done () := by
  cases program with
  | done a => rfl
  | ask request next => cases h.1.1

/-! ## The programs of the dispatcher -/

section

variable {dispatcher : OperationDispatcher} {claim : ClaimedOperation} {stage : Stage}

/-- A time is read, and then a record ends the attempt. -/
theorem keeps_after {milliseconds : Nat} {call : Timestamp → StoreCall}
    (running : stage.recorded = false) (recordable : ∀ t, Recordable claim stage (call t)) :
    Keeps claim stage (after milliseconds >>= fun t => record (call t)) :=
  ⟨⟨running, trivial⟩, fun _ => ⟨⟨running, recordable _⟩, fun _ => trivial⟩⟩

/-- A retry keeps to the discipline when it is uncertain or nothing was possible. -/
theorem keeps_retry {uncertain : Bool} {httpStatus : Option Int} {code message : String}
    (running : stage.recorded = false)
    (safe : claim.phase = .submission → stage.possible = true → uncertain = true) :
    Keeps claim stage (dispatcher.retry claim uncertain httpStatus code message) :=
  keeps_after running fun _ => ⟨rfl, fun hphase hpossible => .inl (safe hphase hpossible)⟩

theorem keeps_defer (running : stage.recorded = false)
    (safe : claim.phase = .submission → stage.possible = true →
      claim.recoveringUncertain = true) :
    Keeps claim stage (dispatcher.defer claim) :=
  keeps_after running fun _ => ⟨rfl, fun hphase hpossible => .inr ⟨rfl, safe hphase hpossible⟩⟩

/-- A failure is stored only for a claim that recovers nothing. -/
theorem keeps_failValue {failure : OperationFailure} {httpStatus : Option Int}
    (running : stage.recorded = false)
    (safe : claim.phase = .submission → stage.possible = true →
      claim.recoveringUncertain = true) :
    Keeps claim stage (dispatcher.failValue claim failure httpStatus) := by
  unfold OperationDispatcher.failValue
  cases hrecovering : claim.recoveringUncertain with
  | true => exact keeps_retry running fun _ _ => rfl
  | false =>
    refine keeps_after running fun _ => ⟨rfl, fun hphase hpossible => ?_⟩
    have := safe hphase hpossible
    rw [hrecovering] at this
    cases this

theorem keeps_fail {source : FailureSource} {code message : String} {httpStatus : Option Int}
    (running : stage.recorded = false)
    (safe : claim.phase = .submission → stage.possible = true →
      claim.recoveringUncertain = true) :
    Keeps claim stage (dispatcher.fail claim source code message httpStatus) :=
  keeps_failValue running safe

theorem keeps_accept {ack : JobAcknowledgement} {httpStatus : Int}
    (running : stage.recorded = false) :
    Keeps claim stage (dispatcher.accept claim ack httpStatus) :=
  keeps_after running fun _ => ⟨rfl, fun _ _ => .inl rfl⟩

theorem keeps_completeResult {accepted : Bool} {httpStatus : Option Int}
    (running : stage.recorded = false) (phase : claim.phase = .cancellation) :
    Keeps claim stage (dispatcher.completeResult claim accepted httpStatus) := by
  refine keeps_after running fun _ => ⟨rfl, fun hphase => ?_⟩
  rw [phase] at hphase
  cases hphase

/-- A gateway's answer is recorded as failed only when nothing was possible. -/
theorem keeps_gatewayFailure {error : GatewayError} (running : stage.recorded = false)
    (safe : claim.phase = .submission → stage.possible = true →
      claim.recoveringUncertain = true ∨ mayCreate (.error error) = true) :
    Keeps claim stage (dispatcher.gatewayFailure claim error) := by
  have certain (hcertain : mayCreate (.error error) = false) : claim.phase = .submission →
      stage.possible = true → claim.recoveringUncertain = true := by
    intro hphase hpossible
    rcases safe hphase hpossible with h | h
    · exact h
    · rw [hcertain] at h
      cases h
  cases error with
  | rejected status code message =>
    simp only [OperationDispatcher.gatewayFailure]
    split
    · exact keeps_retry running fun _ _ => rfl
    · exact keeps_fail running (certain rfl)
  | retryable failure => exact keeps_retry running (certain rfl)
  | uncertain failure => exact keeps_retry running fun _ _ => rfl
  | invalidRequest code message => exact keeps_fail running (certain rfl)

end

/-! ### Submission -/

section

variable {dispatcher : OperationDispatcher} {claim : ClaimedOperation}

/-- A submission is handed on under the key of its operation. -/
theorem body_key {connection : GatewayConnectionId} {kind : GatewayKind}
    {content : SubmissionContent} {failure : String} {submission : OperationDispatcher.Submission}
    (h : dispatcher.body claim connection kind content failure = .ok (some submission)) :
    submission.2.2.idempotencyKey = claim.operation.gatewayIdempotencyKey := by
  simp only [OperationDispatcher.body] at h
  split at h
  · cases h
    rfl
  · cases h

/-- What `submission_body` leaves: an open attempt with a body, or the attempt recorded. -/
def Prepared (claim : ClaimedOperation) (stage : Stage)
    (prepared : Except OperationFailure (Option OperationDispatcher.Submission)) : Prop :=
  match prepared with
  | .ok none => True
  | .ok (some submission) => stage = .start claim ∧
      submission.2.2.idempotencyKey = claim.operation.gatewayIdempotencyKey
  | .error _ => stage = .start claim

theorem prepared_body {connection : GatewayConnectionId} {kind : GatewayKind}
    {content : SubmissionContent} {failure : String} :
    Prepared claim (.start claim) (dispatcher.body claim connection kind content failure) := by
  cases h : dispatcher.body claim connection kind content failure with
  | error failure => rfl
  | ok submission =>
    cases submission with
    | none => trivial
    | some submission => exact ⟨rfl, body_key h⟩

theorem continuationBody_obeys {connection : GatewayConnectionId}
    {previousOperationId : OperationId} {messages : List Message} :
    (dispatcher.continuationBody claim connection previousOperationId messages).Obeys
      (discipline claim) (Prepared claim) (.start claim) := by
  refine ⟨⟨rfl, trivial⟩, fun found => ?_⟩
  cases found with
  | error error =>
    exact (keeps_retry rfl fun _ hpossible => hpossible).bind fun _ _ _ => trivial
  | ok found =>
    cases found with
    | none => exact rfl
    | some parent =>
      show Asking.Obeys (discipline claim) (Prepared claim) (.start claim) (ite _ _ _)
      split
      · exact rfl
      · cases parent.status with
        | pending | submitting | accepted =>
          exact (keeps_defer rfl fun _ hpossible => hpossible).bind fun _ _ _ => trivial
        | failed | cancelled | unknown => exact rfl
        | succeeded =>
          cases hjob : parent.gatewayJobId with
          | none => exact rfl
          | some jobId => exact prepared_body

theorem submissionBody_obeys {request : OperationRequest} :
    (dispatcher.submissionBody claim request).Obeys (discipline claim) (Prepared claim)
      (.start claim) := by
  cases request with
  | llm connection request =>
    cases request with
    | fresh => exact prepared_body
    | continuation => exact continuationBody_obeys
  | execution => exact prepared_body
  | llmCancellation | withdraw => exact rfl

theorem keeps_submitAndRecord {connection : GatewayConnectionId} {body : SubmissionBody}
    (phase : claim.phase = .submission)
    (key : body.idempotencyKey = claim.operation.gatewayIdempotencyKey) :
    Keeps claim (.start claim) (dispatcher.submitAndRecord claim connection body) := by
  refine ⟨⟨rfl, phase, key⟩, fun answer => ?_⟩
  cases answer with
  | ok ack => exact keeps_accept rfl
  | error error =>
    refine keeps_gatewayFailure rfl fun _ hpossible => ?_
    simpa [discipline, Stage.start, Bool.or_eq_true] using hpossible

theorem keeps_finishSubmission {connection : GatewayConnectionId} {body : SubmissionBody}
    (phase : claim.phase = .submission)
    (key : body.idempotencyKey = claim.operation.gatewayIdempotencyKey) :
    Keeps claim (.start claim) (dispatcher.finishSubmission claim connection body) := by
  unfold OperationDispatcher.finishSubmission
  split
  · refine ⟨⟨rfl, trivial⟩, fun found => ?_⟩
    cases found with
    | error error => exact keeps_gatewayFailure rfl fun _ hpossible => .inl hpossible
    | ok found =>
      cases found with
      | none => exact keeps_submitAndRecord phase key
      | some ack => exact keeps_accept rfl
  · exact keeps_submitAndRecord phase key

theorem keeps_submit (phase : claim.phase = .submission) :
    Keeps claim (.start claim) (dispatcher.submit claim) := by
  unfold OperationDispatcher.submit
  cases dispatcher.storedRequest claim with
  | error message => exact keeps_fail rfl fun _ hpossible => hpossible
  | ok request =>
    refine submissionBody_obeys.bind fun stage prepared hprepared => ?_
    cases prepared with
    | error failure =>
      have hstage : stage = .start claim := hprepared
      subst hstage
      exact keeps_failValue rfl fun _ hpossible => hpossible
    | ok submission =>
      cases submission with
      | none => trivial
      | some submission =>
        obtain ⟨connection, kind, body⟩ := submission
        obtain ⟨rfl, key⟩ :
            stage = .start claim ∧
              body.idempotencyKey = claim.operation.gatewayIdempotencyKey := hprepared
        dsimp only
        cases dispatcher.gateways connection with
        | none => exact keeps_fail rfl fun _ hpossible => hpossible
        | some configured =>
          show Keeps claim (.start claim) (ite _ _ _)
          split
          · exact keeps_fail rfl fun _ hpossible => hpossible
          · exact keeps_finishSubmission phase key

end

/-! ### Cancellation and withdrawal -/

section

variable {dispatcher : OperationDispatcher} {claim : ClaimedOperation}

/-- What needs no care in a phase that submits nothing. -/
theorem unsubmitted {P : Prop} (phase : claim.phase = .cancellation) :
    claim.phase = .submission → P := by
  rw [phase]
  intro h
  cases h

theorem keeps_cancelTarget {target : OperationRecord} (phase : claim.phase = .cancellation) :
    Keeps claim (.start claim) (dispatcher.cancelTarget claim target) := by
  unfold OperationDispatcher.cancelTarget
  cases target.gatewayJobId with
  | none => exact keeps_defer rfl (unsubmitted phase)
  | some jobId =>
    cases target.gatewayConnectionId with
    | none => exact keeps_fail rfl (unsubmitted phase)
    | some connection =>
      cases hconfigured : dispatcher.gateways connection with
      | none =>
        simp only [hconfigured]
        exact keeps_fail rfl (unsubmitted phase)
      | some kind =>
        cases kind with
        | execution =>
          simp only [hconfigured]
          exact keeps_fail rfl (unsubmitted phase)
        | llm =>
          simp only [hconfigured]
          refine ⟨⟨rfl, trivial⟩, fun answer => ?_⟩
          cases answer with
          | ok ack => exact keeps_completeResult rfl phase
          | error error => exact keeps_gatewayFailure rfl (unsubmitted phase)

theorem keeps_cancel (phase : claim.phase = .cancellation) :
    Keeps claim (.start claim) (dispatcher.cancel claim) := by
  unfold OperationDispatcher.cancel
  cases claim.operation.targetOperationId with
  | none => exact keeps_fail rfl (unsubmitted phase)
  | some targetId =>
    refine ⟨⟨rfl, trivial⟩, fun found => ?_⟩
    cases found with
    | error error => exact keeps_retry rfl (unsubmitted phase)
    | ok found =>
      cases found with
      | none => exact keeps_fail rfl (unsubmitted phase)
      | some target =>
        show Keeps claim (.start claim) (ite _ _ _)
        split
        · exact keeps_fail rfl (unsubmitted phase)
        · cases target.status with
          | pending | submitting => exact keeps_defer rfl (unsubmitted phase)
          | accepted => exact keeps_cancelTarget phase
          | failed | cancelled | unknown | succeeded =>
            show Keeps claim (.start claim) (ite _ _ _)
            split
            · exact keeps_cancelTarget phase
            · exact keeps_completeResult rfl phase

/-- The program of every claim keeps to its discipline. -/
theorem keeps_processClaim : Keeps claim (.start claim) (dispatcher.processClaim claim) := by
  unfold OperationDispatcher.processClaim
  cases hphase : claim.phase with
  | submission => exact keeps_submit hphase
  | cancellation => exact keeps_cancel hphase
  | withdrawal =>
    refine keeps_after rfl fun _ => ⟨rfl, fun h => ?_⟩
    rw [hphase] at h
    cases h
  | resultRetrieval => trivial

end

end AgentPlatform.Runtime
