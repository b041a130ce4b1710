import AgentPlatform.Contracts.EventWire
import AgentPlatform.Runtime.Outcomes
import AgentPlatform.Store.Hints

/-!
# Operations that have ended

In every run whose completions come from workers, an operation reads as not ended until it has, and
then for good as the outcome that its gateway's document, its dispatcher or its withdrawal gave it.
-/

namespace AgentPlatform.Runtime

open Json Store

/-! ## Dispatch workers -/

abbrev DispatchNote := (request : Request) × request.Answer

/-- The columns that a dispatch worker writes at the end of an operation. -/
inductive Written (claim : ClaimedOperation) :
    OperationStatus → Option RawJson → Option Value → Prop
  | failed {failure : OperationFailure} (alone : failure.executionResponse = none)
      (source : failure.source = .admission ∨ failure.source = .platform) :
      Written claim .failed none (some (failureValue failure))
  | cancellation {accepted : Bool} (phase : claim.phase = .cancellation) :
      Written claim .succeeded (some (cancellationResult accepted)) none

/-- What a dispatch worker may record as the end of its operation. -/
def Dispatched (claim : ClaimedOperation) (_ : List DispatchNote) : Request → Prop
  | .record (.completeOperation claim' status result error _ _) =>
    claim' = claim ∧ Written claim status result error
  | _ => True

section

variable {dispatcher : OperationDispatcher} {claim : ClaimedOperation} {α : Type}

/-- The program ends its operation as dispatchers do, and returns what `post` says. -/
def Writes (claim : ClaimedOperation) (post : α → Prop) (program : Work α) : Prop :=
  ∀ heard, program.Obeys (.history (Dispatched claim)) (fun _ => post) heard

theorem writes_done {post : α → Prop} {a : α} (h : post a) : Writes claim post (.done a) :=
  fun _ => h

/-- A request that records no completion. -/
theorem writes_ask {post : α → Prop} {request : Request} {next : request.Answer → Work α}
    (silent : ∀ heard, Dispatched claim heard request) (rest : ∀ a, Writes claim post (next a)) :
    Writes claim post (.ask request next) :=
  fun heard => ⟨silent heard, fun a => rest a _⟩

theorem Writes.bind {β : Type} {middle : α → Prop} {post : β → Prop} {program : Work α}
    {f : α → Work β} (first : Writes claim middle program)
    (rest : ∀ a, middle a → Writes claim post (f a)) : Writes claim post (program >>= f) :=
  fun heard => (first heard).bind fun heard' a h => rest a h heard'

theorem writes_after {milliseconds : Nat} {call : Timestamp → StoreCall}
    (h : ∀ t heard, Dispatched claim heard (.record (call t))) :
    Writes claim (fun _ => True) (after milliseconds >>= fun t => record (call t)) :=
  writes_ask (fun _ => trivial) fun _ => writes_ask (h _) fun _ => writes_done trivial

theorem writes_retry {uncertain : Bool} {httpStatus : Option Int} {code message : String} :
    Writes claim (fun _ => True) (dispatcher.retry claim uncertain httpStatus code message) :=
  writes_after fun _ _ => trivial

theorem writes_defer : Writes claim (fun _ => True) (dispatcher.defer claim) :=
  writes_after fun _ _ => trivial

theorem writes_accept {ack : JobAcknowledgement} {httpStatus : Int} :
    Writes claim (fun _ => True) (dispatcher.accept claim ack httpStatus) :=
  writes_after fun _ _ => trivial

/-- A failure of the dispatcher's own, with nothing beside it. -/
structure Own (failure : OperationFailure) : Prop where
  alone : failure.executionResponse = none
  source : failure.source = .admission ∨ failure.source = .platform

theorem own_platformFailure {code message : String} : Own (platformFailure code message) :=
  ⟨rfl, .inr rfl⟩

theorem writes_failValue {failure : OperationFailure} {httpStatus : Option Int}
    (own : Own failure) :
    Writes claim (fun _ => True) (dispatcher.failValue claim failure httpStatus) := by
  unfold OperationDispatcher.failValue
  split
  · exact writes_retry
  · exact writes_after fun _ _ => ⟨rfl, .failed own.alone own.source⟩

theorem writes_fail {source : FailureSource} {code message : String} {httpStatus : Option Int}
    (own : source = .admission ∨ source = .platform) :
    Writes claim (fun _ => True) (dispatcher.fail claim source code message httpStatus) :=
  writes_failValue ⟨rfl, own⟩

theorem writes_completeResult {accepted : Bool} {httpStatus : Option Int}
    (phase : claim.phase = .cancellation) :
    Writes claim (fun _ => True) (dispatcher.completeResult claim accepted httpStatus) :=
  writes_after fun _ _ => ⟨rfl, .cancellation phase⟩

theorem writes_gatewayFailure {error : GatewayError} :
    Writes claim (fun _ => True) (dispatcher.gatewayFailure claim error) := by
  cases error with
  | rejected status code message =>
    simp only [OperationDispatcher.gatewayFailure]
    split
    · exact writes_retry
    · exact writes_fail (.inl rfl)
  | retryable failure | uncertain failure => exact writes_retry
  | invalidRequest code message => exact writes_fail (.inr rfl)

/-! ### Submission -/

/-- What keeps a submission from being sent is a failure of the dispatcher's own. -/
def OwnFailure (prepared : Except OperationFailure (Option OperationDispatcher.Submission)) : Prop :=
  ∀ failure, prepared = .error failure → Own failure

theorem ownFailure_ok {submission : Option OperationDispatcher.Submission} :
    OwnFailure (.ok submission) := by
  intro failure h
  cases h

theorem ownFailure_platform {code message : String} :
    OwnFailure (.error (platformFailure code message)) := by
  intro failure h
  cases h
  exact own_platformFailure

theorem ownFailure_body {connection : GatewayConnectionId} {kind : GatewayKind}
    {content : SubmissionContent} {failure : String} :
    OwnFailure (dispatcher.body claim connection kind content failure) := by
  simp only [OperationDispatcher.body]
  split
  · exact ownFailure_ok
  · exact ownFailure_platform

theorem writes_continuationBody {connection : GatewayConnectionId}
    {previousOperationId : OperationId} {messages : List Message} :
    Writes claim OwnFailure
      (dispatcher.continuationBody claim connection previousOperationId messages) := by
  refine writes_ask (fun _ => trivial) fun found => ?_
  cases found with
  | error error => exact writes_retry.bind fun _ _ => writes_done ownFailure_ok
  | ok found =>
    cases found with
    | none => exact writes_done ownFailure_platform
    | some parent =>
      show Writes claim OwnFailure (ite _ _ _)
      split
      · exact writes_done ownFailure_platform
      · cases parent.status with
        | pending | submitting | accepted =>
          exact writes_defer.bind fun _ _ => writes_done ownFailure_ok
        | failed | cancelled | unknown => exact writes_done ownFailure_platform
        | succeeded =>
          cases parent.gatewayJobId with
          | none => exact writes_done ownFailure_platform
          | some jobId => exact writes_done ownFailure_body

theorem writes_submissionBody {request : OperationRequest} :
    Writes claim OwnFailure (dispatcher.submissionBody claim request) := by
  cases request with
  | llm connection request =>
    cases request with
    | fresh => exact writes_done ownFailure_body
    | continuation => exact writes_continuationBody
  | execution => exact writes_done ownFailure_body
  | llmCancellation | withdraw => exact writes_done ownFailure_platform

theorem writes_submitAndRecord {connection : GatewayConnectionId} {body : SubmissionBody} :
    Writes claim (fun _ => True) (dispatcher.submitAndRecord claim connection body) := by
  refine writes_ask (fun _ => trivial) fun answer => ?_
  cases answer with
  | ok ack => exact writes_accept
  | error error => exact writes_gatewayFailure

theorem writes_finishSubmission {connection : GatewayConnectionId} {body : SubmissionBody} :
    Writes claim (fun _ => True) (dispatcher.finishSubmission claim connection body) := by
  unfold OperationDispatcher.finishSubmission
  split
  · refine writes_ask (fun _ => trivial) fun found => ?_
    cases found with
    | error error => exact writes_gatewayFailure
    | ok found =>
      cases found with
      | none => exact writes_submitAndRecord
      | some ack => exact writes_accept
  · exact writes_submitAndRecord

theorem writes_submit : Writes claim (fun _ => True) (dispatcher.submit claim) := by
  unfold OperationDispatcher.submit
  cases dispatcher.storedRequest claim with
  | error message => exact writes_fail (.inr rfl)
  | ok request =>
    refine writes_submissionBody.bind fun prepared hprepared => ?_
    cases prepared with
    | error failure => exact writes_failValue (hprepared failure rfl)
    | ok submission =>
      cases submission with
      | none => exact writes_done trivial
      | some submission =>
        obtain ⟨connection, kind, body⟩ := submission
        dsimp only
        cases dispatcher.gateways connection with
        | none => exact writes_fail (.inr rfl)
        | some configured =>
          show Writes claim (fun _ => True) (ite _ _ _)
          split
          · exact writes_fail (.inr rfl)
          · exact writes_finishSubmission

/-! ### Cancellation and withdrawal -/

theorem writes_cancelTarget {target : OperationRecord} (phase : claim.phase = .cancellation) :
    Writes claim (fun _ => True) (dispatcher.cancelTarget claim target) := by
  unfold OperationDispatcher.cancelTarget
  cases target.gatewayJobId with
  | none => exact writes_defer
  | some jobId =>
    cases target.gatewayConnectionId with
    | none => exact writes_fail (.inr rfl)
    | some connection =>
      dsimp only
      cases dispatcher.gateways connection with
      | none => exact writes_fail (.inr rfl)
      | some kind =>
        cases kind with
        | execution => exact writes_fail (.inr rfl)
        | llm =>
          refine writes_ask (fun _ => trivial) fun answer => ?_
          cases answer with
          | ok ack => exact writes_completeResult phase
          | error error => exact writes_gatewayFailure

theorem writes_cancel (phase : claim.phase = .cancellation) :
    Writes claim (fun _ => True) (dispatcher.cancel claim) := by
  unfold OperationDispatcher.cancel
  cases claim.operation.targetOperationId with
  | none => exact writes_fail (.inr rfl)
  | some targetId =>
    refine writes_ask (fun _ => trivial) fun found => ?_
    cases found with
    | error error => exact writes_retry
    | ok found =>
      cases found with
      | none => exact writes_fail (.inr rfl)
      | some target =>
        show Writes claim (fun _ => True) (ite _ _ _)
        split
        · exact writes_fail (.inr rfl)
        · cases target.status with
          | pending | submitting => exact writes_defer
          | accepted => exact writes_cancelTarget phase
          | failed | cancelled | unknown | succeeded =>
            show Writes claim (fun _ => True) (ite _ _ _)
            split
            · exact writes_cancelTarget phase
            · exact writes_completeResult phase

theorem writes_processClaim : Writes claim (fun _ => True) (dispatcher.processClaim claim) := by
  unfold OperationDispatcher.processClaim
  cases hphase : claim.phase with
  | submission => exact writes_submit
  | cancellation => exact writes_cancel hphase
  | withdrawal => exact writes_after fun _ _ => trivial
  | resultRetrieval => exact writes_done trivial

end

/-! ## Claims -/

section

variable {codec : Codec} {trace : List Entry} {db : Db}

/-- A row that has ended takes no step but in its times. -/
theorem ended_essence {base : Uuid} {call : StoreCall} {reply : Reply} {v v' : OperationView}
    (step : OperationStep base call reply v v') (sound : v.Sound)
    (ended : v.row.status.terminal = true) : v'.row.essence = v.row.essence := by
  have working {P : Prop} (h : v.row.status = .submitting ∨ v.row.status = .accepted) : P := by
    rcases h with h | h <;> rw [h] at ended <;> cases ended
  cases step with
  | same row running announced => exact row
  | claimed lease eligible token issued =>
    rcases OperationStep.eligible_status eligible with h | h
    · rw [h] at ended
      cases ended
    · exact working h
  | deferred held | accepted now held | retried held | pendingResult held | completed now held
  | withdrew now withdrawn held => exact working (OperationStep.held_status sound held)
  | withdrawn now target withdrawable =>
    have hpending : v.row.status = .pending := by
      simp only [OperationRow.withdrawable, Bool.and_eq_true, decide_eq_true_eq] at withdrawable
      exact withdrawable.1
    rw [hpending] at ended
    cases ended

/-- A record is made of columns that are more than times. -/
theorem record_of_essence {o o' : OperationRow} (h : o'.essence = o.essence)
    (sessionId : SessionId) : o'.record sessionId = o.record sessionId :=
  congrArg (·.record sessionId) h

/-- A claim as it was issued, and its operation as it is now. -/
structure Issuance (codec : Codec) (db : Db) (claim : ClaimedOperation) : Prop where
  issued : ∃ trace₀ db₀, Run codec trace₀ db₀ ∧ ∃ s₀ ∈ db₀.sessions, ∃ o₀ ∈ s₀.operations,
    claim.phase.eligible o₀ = true ∧
    (∃ lease sessionId, claim.operation = (o₀.claimed lease).record sessionId) ∧
    ∃ s ∈ db.sessions, ∃ o ∈ s.operations, o.effect = o₀.effect ∧ o₀.Later o

theorem issuance (run : Run codec trace db) {claim : ClaimedOperation}
    (issued : claim ∈ operationClaims trace) : Issuance codec db claim := by
  induction run with
  | start => cases issued
  | @step trace db call clock run admissible ih =>
    obtain ⟨owner, hstep⟩ := run.operations_step admissible clock
    rw [operationClaims_concat] at issued
    rcases List.mem_append.mp issued with hold | hnew
    · obtain ⟨trace₀, db₀, hrun, s₀, hs₀, o₀, ho₀, heligible, hrecord, s, hs, o, ho, heffect,
        hlater⟩ := (ih hold).issued
      obtain ⟨s', hs', -, o', ho', hop⟩ := hstep.forward s hs o ho
      exact ⟨trace₀, db₀, hrun, s₀, hs₀, o₀, ho₀, heligible, hrecord, s', hs', o', ho',
        hop.effect.trans heffect, hlater.trans hop.later⟩
    · have hreply := issuedOperationClaim_reply.mp (Option.mem_toList.mp hnew)
      obtain ⟨locked, phase, leaseFor, rfl⟩ := run.claims_of_reply hreply
      obtain ⟨s, hs, o, ho, heligible, hissued, -⟩ := run.claimed_operation hreply
      obtain ⟨s', hs', -, o', ho', hop⟩ := hstep.forward s hs o ho
      exact ⟨trace, db, run, s, hs, o, ho, hissued.phase ▸ heligible, hissued.record, s', hs', o',
        ho', hop.effect, hop.later⟩

/-- What is known of an operation from a claim of it. -/
structure ClaimTells (claim : ClaimedOperation) (o : OperationRow) : Prop where
  kind : o.kind = claim.operation.kind
  connection : o.gatewayConnectionId = claim.operation.gatewayConnectionId
  job : ∀ jobId, claim.operation.gatewayJobId = some jobId → o.gatewayJobId = some jobId

theorem claim_tells (run : Run codec trace db) {claim : ClaimedOperation}
    (issued : claim ∈ operationClaims trace) {s : Session} (hs : s ∈ db.sessions)
    {o : OperationRow} (ho : o ∈ s.operations) (own : claim.operation.id = o.id) :
    ClaimTells claim o := by
  obtain ⟨trace₀, db₀, -, s₀, -, o₀, -, -, ⟨lease, sessionId, hrecord⟩, t, ht, o', ho', heffect,
    hlater⟩ := (issuance run issued).issued
  have hid : claim.operation.id = o₀.id := congrArg (·.id) hrecord
  have hsame : o' = o := run.operation_unique ht hs ho' ho (hlater.id.trans (hid.symm.trans own))
  subst hsame
  have hkind : claim.operation.kind = o₀.kind := congrArg (·.kind) hrecord
  have hconnection : claim.operation.gatewayConnectionId = o₀.gatewayConnectionId :=
    congrArg (·.gatewayConnectionId) hrecord
  have hjob : claim.operation.gatewayJobId = o₀.gatewayJobId :=
    congrArg (·.gatewayJobId) hrecord
  have heffectKind : o'.kind = o₀.kind := congrArg (·.kind) heffect
  have heffectConnection : o'.gatewayConnectionId = o₀.gatewayConnectionId :=
    congrArg (·.gatewayConnectionId) heffect
  exact ⟨heffectKind.trans hkind.symm, heffectConnection.trans hconnection.symm,
    fun jobId h => hlater.mapped jobId (hjob ▸ h)⟩

/-- A claim of a phase is of a kind that the phase takes. -/
theorem claim_phase (run : Run codec trace db) {claim : ClaimedOperation}
    (issued : claim ∈ operationClaims trace) :
    (claim.phase = .submission →
      claim.operation.kind = .llm ∨ claim.operation.kind = .execution) ∧
    (claim.phase = .cancellation → claim.operation.kind = .llmCancellation) := by
  obtain ⟨trace₀, db₀, -, s₀, -, o₀, -, heligible, ⟨lease, sessionId, hrecord⟩, -⟩ :=
    (issuance run issued).issued
  have hkind : claim.operation.kind = o₀.kind := congrArg (·.kind) hrecord
  constructor
  · intro hphase
    rw [hphase] at heligible
    simp only [OperationPhase.eligible, Bool.and_eq_true, Bool.or_eq_true, decide_eq_true_eq]
      at heligible
    rw [hkind]
    exact heligible.2
  · intro hphase
    rw [hphase] at heligible
    simp only [OperationPhase.eligible, Bool.and_eq_true, decide_eq_true_eq] at heligible
    exact hkind.trans heligible.2

/-- An operation is accepted by the record of a submission. -/
theorem accepted_step {base : Uuid} {call : StoreCall} {reply : Reply} {v v' : OperationView}
    (step : OperationStep base call reply v v') (accepted : v'.row.status = .accepted) :
    v.row.status = .accepted ∨ ∃ claim ∈ call.operationClaim,
      claim.phase = .submission ∧ claim.operation.id = v.row.id := by
  cases step with
  | same row running announced =>
    rw [(OperationRow.essence_eq row).2.2.2.1] at accepted
    exact .inl accepted
  | claimed lease eligible token issued =>
    simp only [OperationRow.claimed] at accepted
    split at accepted
    · cases accepted
    · exact .inl accepted
  | deferred held => cases accepted
  | @accepted claim jobId checkAt httpStatus v now held phase submitting unmapped =>
    exact .inr ⟨claim, rfl, phase, held.id⟩
  | retried held next =>
    rcases OperationStep.retryStatus_some next with ⟨-, h | h⟩ | ⟨h, -⟩
    · cases h.symm.trans accepted
    · cases h.symm.trans accepted
    · exact .inl h
  | pendingResult held hstatus => exact .inl hstatus
  | @completed claim status result error expiresAt httpStatus reply v now held terminal allowed =>
    have hstatus : status = .accepted := accepted
    rw [hstatus] at terminal
    cases terminal
  | withdrew now withdrawn held => cases accepted
  | withdrawn now target withdrawable => cases accepted

/-- Only what was submitted is accepted. -/
theorem accepted_kind (run : Run codec trace db) {s : Session} (hs : s ∈ db.sessions)
    {o : OperationRow} (ho : o ∈ s.operations) (accepted : o.status = .accepted) :
    o.kind = .llm ∨ o.kind = .execution := by
  induction run generalizing s o with
  | start => cases hs
  | @step trace db call clock run admissible ih =>
    obtain ⟨owner, hstep⟩ := run.operations_step admissible clock
    rcases hstep.back s hs o ho with ⟨s₀, hs₀, -, o₀, ho₀, hop⟩ | ⟨-, hfresh, -⟩
    · have hkind : o.kind = o₀.kind := congrArg (·.kind) hop.effect
      rw [hkind]
      rcases accepted_step hop accepted with hbefore | ⟨claim, hclaim, hphase, hid⟩
      · exact ih hs₀ ho₀ hbefore
      · have hissued := admissible.operation claim hclaim
        rw [(claim_tells run hissued hs₀ ho₀ hid).kind]
        exact (claim_phase run hissued).1 hphase
    · rw [hfresh.status] at accepted
      cases accepted

/-- A result is retrieved only of what was submitted. -/
theorem retrieval_kind (run : Run codec trace db) {claim : ClaimedOperation}
    (issued : claim ∈ operationClaims trace) (phase : claim.phase = .resultRetrieval) :
    claim.operation.kind = .llm ∨ claim.operation.kind = .execution := by
  obtain ⟨trace₀, db₀, hrun, s₀, hs₀, o₀, ho₀, heligible, ⟨lease, sessionId, hrecord⟩, -⟩ :=
    (issuance run issued).issued
  rw [phase] at heligible
  have hkind : claim.operation.kind = o₀.kind := congrArg (·.kind) hrecord
  rw [hkind]
  exact accepted_kind hrun hs₀ ho₀ (of_decide_eq_true heligible)

end

/-! ## Every run -/

section

variable {Time : Type}

/-- Every completion of the trace was recorded by the worker that held its claim. -/
structure Served (runtime : CompletionRuntime Time) (dispatcher : OperationDispatcher)
    (trace : List Entry) : Prop where
  retrieved : ∀ entry ∈ trace, ∀ claim status result error expiresAt httpStatus,
    entry.call = .completeOperation claim status result error expiresAt httpStatus →
    claim.phase = .resultRetrieval →
      ∃ heard, (runtime.processResultClaim claim).Hears (heard ++ [⟨.record entry.call, ()⟩])
  dispatched : ∀ entry ∈ trace, ∀ claim status result error expiresAt httpStatus,
    entry.call = .completeOperation claim status result error expiresAt httpStatus →
    claim.phase ≠ .resultRetrieval →
      ∃ heard, (dispatcher.processClaim claim).Hears (heard ++ [⟨.record entry.call, ()⟩])

/-- Who told the outcome of an operation. -/
inductive Told (runtime : CompletionRuntime Time) (dispatcher : OperationDispatcher)
    (trace : List Entry) (o : OperationRow) : OperationOutcome → Prop
  /-- A completion worker heard it in a document of the operation's job. -/
  | retrieved {claim : ClaimedOperation} {heard : List RetrievalNote}
      {connection : GatewayConnectionId} {jobId : Uuid} {wire : JobWire}
      {outcome : OperationOutcome} (issued : claim ∈ operationClaims trace)
      (own : claim.operation.id = o.id) (hears : (runtime.processResultClaim claim).Hears heard)
      (retrieved : Retrieved runtime claim connection jobId wire heard)
      (connection : o.gatewayConnectionId = some connection) (job : o.gatewayJobId = some jobId)
      (tells : wire.Tells runtime.reading o.kind outcome) :
      Told runtime dispatcher trace o outcome
  /-- A dispatch worker gave the operation up. -/
  | failed {claim : ClaimedOperation} {heard : List DispatchNote} {failure : OperationFailure}
      {expiresAt : Option Timestamp} {httpStatus : Option Int}
      (issued : claim ∈ operationClaims trace) (own : claim.operation.id = o.id)
      (hears : (dispatcher.processClaim claim).Hears (heard ++ [⟨.record (.completeOperation claim
        .failed none (some (failureValue failure)) expiresAt httpStatus), ()⟩]))
      (source : Own failure) : Told runtime dispatcher trace o (.failed failure)
  /-- A dispatch worker asked for a cancellation, or found its target ended. -/
  | cancellation {claim : ClaimedOperation} {heard : List DispatchNote} {accepted : Bool}
      {expiresAt : Option Timestamp} {httpStatus : Option Int}
      (issued : claim ∈ operationClaims trace) (own : claim.operation.id = o.id)
      (hears : (dispatcher.processClaim claim).Hears (heard ++ [⟨.record (.completeOperation claim
        .succeeded (some (cancellationResult accepted)) none expiresAt httpStatus), ()⟩]))
      (kind : o.kind = .llmCancellation) :
      Told runtime dispatcher trace o (.succeeded (.llmCancellation accepted))
  /-- The store withdrew its target, or found it too late. -/
  | withdrawal {claim : ClaimedOperation} {withdrawn : Bool}
      (issued : claim ∈ operationClaims trace) (own : claim.operation.id = o.id)
      (kind : o.kind = .withdraw) :
      Told runtime dispatcher trace o (.succeeded (.withdraw withdrawn))
  /-- A withdrawal took the operation back. -/
  | withdrawn {claim : ClaimedOperation} (issued : claim ∈ operationClaims trace)
      (target : claim.operation.targetOperationId = some o.id) :
      Told runtime dispatcher trace o .cancelled

variable {runtime : CompletionRuntime Time} {dispatcher : OperationDispatcher} {codec : Codec}
  {trace : List Entry} {db : Db}

theorem Served.earlier {entries : List Entry} (h : Served runtime dispatcher (trace ++ entries)) :
    Served runtime dispatcher trace where
  retrieved entry hentry := h.retrieved entry (List.mem_append_left _ hentry)
  dispatched entry hentry := h.dispatched entry (List.mem_append_left _ hentry)

/-- What was told is told of the operation in every later state of it. -/
theorem Told.later {o o' : OperationRow} {outcome : OperationOutcome} {trace' : List Entry}
    (h : Told runtime dispatcher trace o outcome) (effect : o'.effect = o.effect)
    (job : o'.gatewayJobId = o.gatewayJobId)
    (more : ∀ claim ∈ operationClaims trace, claim ∈ operationClaims trace') :
    Told runtime dispatcher trace' o' outcome := by
  have hid : o'.id = o.id := congrArg (·.id) effect
  have hkind : o'.kind = o.kind := congrArg (·.kind) effect
  have hconnection : o'.gatewayConnectionId = o.gatewayConnectionId :=
    congrArg (·.gatewayConnectionId) effect
  cases h with
  | retrieved issued own hears retrieved connection hjob tells =>
    exact .retrieved (more _ issued) (own.trans hid.symm) hears retrieved
      (hconnection.trans connection) (job.trans hjob) (hkind ▸ tells)
  | failed issued own hears source => exact .failed (more _ issued) (own.trans hid.symm) hears source
  | cancellation issued own hears kind =>
    exact .cancellation (more _ issued) (own.trans hid.symm) hears (hkind.trans kind)
  | withdrawal issued own kind =>
    exact .withdrawal (more _ issued) (own.trans hid.symm) (hkind.trans kind)
  | withdrawn issued target => exact .withdrawn (more _ issued) (hid ▸ target)

/-- An operation that has ended holds the outcome that it was told. -/
structure Ended (runtime : CompletionRuntime Time) (dispatcher : OperationDispatcher)
    (trace : List Entry) (o : OperationRow) (outcome : OperationOutcome) : Prop where
  holds : Holds runtime.reading o.kind o.status o.result o.error outcome
  told : Told runtime dispatcher trace o outcome

/-- A completion that a worker recorded holds what the worker was told. -/
theorem ended_of_completion {claim : ClaimedOperation} {o o' : OperationRow}
    {status : OperationStatus} {result : Option RawJson} {error : Option Value}
    {expiresAt : Option Timestamp} {httpStatus : Option Int} {trace' : List Entry} {entry : Entry}
    (sound : runtime.reading.codecs.Sound) (run : Run codec trace db) {s : Session}
    (hs : s ∈ db.sessions) (ho : o ∈ s.operations) (issued : claim ∈ operationClaims trace)
    (own : claim.operation.id = o.id) (served : Served runtime dispatcher trace')
    (hentry : entry ∈ trace')
    (call : entry.call = .completeOperation claim status result error expiresAt httpStatus)
    (more : ∀ claim ∈ operationClaims trace, claim ∈ operationClaims trace')
    (effect : o'.effect = o.effect) (job : o'.gatewayJobId = o.gatewayJobId)
    (hstatus : o'.status = status) (hresult : o'.result = result) (herror : o'.error = error) :
    ∃ outcome, Ended runtime dispatcher trace' o' outcome := by
  have tells := claim_tells run issued hs ho own
  have hid : o'.id = o.id := congrArg (·.id) effect
  have hkind : o'.kind = claim.operation.kind :=
    (congrArg OperationEffect.kind effect).trans tells.kind
  have hconnection : o'.gatewayConnectionId = claim.operation.gatewayConnectionId :=
    (congrArg OperationEffect.gatewayConnectionId effect).trans tells.connection
  by_cases hphase : claim.phase = .resultRetrieval
  · obtain ⟨heard, hears⟩ := served.retrieved entry hentry _ _ _ _ _ _ call hphase
    have hreports := (faithful_processResultClaim sound (retrieval_kind run issued hphase)).asked
      hears
    rw [call] at hreports
    obtain ⟨-, connection, jobId, wire, outcome, hretrieved, htells, hholds⟩ := hreports
    refine ⟨outcome, ?_, ?_⟩
    · rw [hkind, hstatus, hresult, herror]
      exact hholds
    · refine .retrieved (more _ issued) (own.trans hid.symm) hears.before hretrieved ?_ ?_ ?_
      · rw [hconnection, hretrieved.mapped.1]
      · rw [job, tells.job jobId hretrieved.mapped.2]
      · rw [hkind]
        exact htells
  · obtain ⟨heard, hears⟩ := served.dispatched entry hentry _ _ _ _ _ _ call hphase
    have hdispatched := (writes_processClaim []).asked hears
    rw [call] at hears hdispatched
    obtain ⟨-, hwritten⟩ := hdispatched
    cases hwritten with
    | failed alone source =>
      refine ⟨_, ?_, .failed (more _ issued) (own.trans hid.symm) hears ⟨alone, source⟩⟩
      rw [hstatus, hresult, herror]
      exact holds_failed alone
    | cancellation hcancels =>
      have hcancellation := (claim_phase run issued).2 hcancels
      refine ⟨_, ?_, .cancellation (more _ issued) (own.trans hid.symm) hears
        (hkind.trans hcancellation)⟩
      rw [hstatus, hresult, herror, hkind, hcancellation]
      exact holds_succeeded rfl decode_cancellationResult

theorem mem_operationClaims_concat {entry : Entry} {claim : ClaimedOperation}
    (h : claim ∈ operationClaims trace) : claim ∈ operationClaims (trace ++ [entry]) := by
  rw [operationClaims_concat]
  exact List.mem_append_left _ h

/-- One step of an operation: it stays ended as it was, or ends as it is told. -/
theorem ended_step {base : Uuid} {call : StoreCall} {clock : Clock} {reply : Reply}
    {v v' : OperationView} (sound : runtime.reading.codecs.Sound) (run : Run codec trace db)
    {s : Session} (hs : s ∈ db.sessions) (ho : v.row ∈ s.operations) (consistent : v.Sound)
    (admissible : Admissible trace call)
    (served : Served runtime dispatcher (trace ++ [⟨call, clock, reply⟩]))
    (step : OperationStep base call reply v v')
    (before : v.row.status.terminal = true →
      ∃ outcome, Ended runtime dispatcher trace v.row outcome)
    (ended : v'.row.status.terminal = true) :
    ∃ outcome, Ended runtime dispatcher (trace ++ [⟨call, clock, reply⟩]) v'.row outcome := by
  by_cases hbefore : v.row.status.terminal = true
  · obtain ⟨outcome, hholds, htold⟩ := before hbefore
    obtain ⟨-, hkind, heffect, hstatus, hresult, herror, hjob, -⟩ :=
      OperationRow.essence_eq (ended_essence step consistent hbefore)
    refine ⟨outcome, ?_, htold.later heffect hjob fun _ => mem_operationClaims_concat⟩
    rw [hkind, hstatus, hresult, herror]
    exact hholds
  · cases step with
    | same row running announced =>
      rw [(OperationRow.essence_eq row).2.2.2.1] at ended
      exact absurd ended hbefore
    | claimed lease eligible token issued =>
      simp only [OperationRow.claimed] at ended
      split at ended
      · cases ended
      · exact absurd ended hbefore
    | deferred held => cases ended
    | accepted now held => cases ended
    | retried held next =>
      rcases OperationStep.retryStatus_some next with ⟨-, rfl | rfl⟩ | ⟨-, rfl⟩ <;> cases ended
    | pendingResult held accepted => exact absurd ended hbefore
    | completed now held terminal allowed =>
      exact ended_of_completion sound run hs ho (admissible.operation _ rfl) held.id served
        (List.mem_append_right _ (List.mem_singleton.mpr rfl)) rfl
        (fun _ => mem_operationClaims_concat) rfl rfl rfl rfl rfl
    | withdrew now withdrawn held kind =>
      refine ⟨.succeeded (.withdraw withdrawn), holds_succeeded kind.symm decode_withdrawalResult,
        .withdrawal (mem_operationClaims_concat (admissible.operation _ rfl)) held.id kind⟩
    | withdrawn now target withdrawable =>
      exact ⟨.cancelled, holds_cancelled,
        .withdrawn (mem_operationClaims_concat (admissible.operation _ rfl)) target⟩

theorem ended_outcome (sound : runtime.reading.codecs.Sound) (run : Run codec trace db)
    (served : Served runtime dispatcher trace) {s : Session} (hs : s ∈ db.sessions)
    {o : OperationRow} (ho : o ∈ s.operations) (ended : o.status.terminal = true) :
    ∃ outcome, Ended runtime dispatcher trace o outcome := by
  induction run generalizing s o with
  | start => cases hs
  | @step trace db call clock run admissible ih =>
    obtain ⟨owner, hstep⟩ := run.operations_step admissible clock
    rcases hstep.back s hs o ho with ⟨s₀, hs₀, -, o₀, ho₀, hop⟩ | ⟨-, hfresh, -⟩
    · exact ended_step sound run hs₀ ho₀ ((run.ledgerInvariant hs₀).sound.views o₀ ho₀) admissible
        served hop (ih served.earlier hs₀ ho₀) ended
    · rw [hfresh.status] at ended
      cases ended

/-- The record of an operation that has ended never changes. -/
theorem ended_record {trace' : List Entry} {db' : Db} (later : Continues codec trace db trace' db')
    (run : Run codec trace db) {s : Session} (hs : s ∈ db.sessions) {o : OperationRow}
    (ho : o ∈ s.operations) (ended : o.status.terminal = true) :
    ∃ s' ∈ db'.sessions, s'.id = s.id ∧
      ∃ o' ∈ s'.operations, o'.record s'.id = o.record s.id := by
  induction later with
  | refl => exact ⟨s, hs, rfl, o, ho, rfl⟩
  | step call clock before admissible ih =>
    obtain ⟨s₁, hs₁, hid₁, o₁, ho₁, hrecord₁⟩ := ih
    have hrun := before.run run
    obtain ⟨owner, hstep⟩ := hrun.operations_step admissible clock
    obtain ⟨s₂, hs₂, hid₂, o₂, ho₂, hop⟩ := hstep.forward s₁ hs₁ o₁ ho₁
    have hended : o₁.status.terminal = true := by
      have hstatus : o₁.status = o.status := congrArg (·.status) hrecord₁
      rw [hstatus]
      exact ended
    have hessence : o₂.essence = o₁.essence :=
      ended_essence hop ((hrun.ledgerInvariant hs₁).sound.views o₁ ho₁) hended
    refine ⟨s₂, hs₂, hid₂.trans hid₁, o₂, ho₂, ?_⟩
    rw [record_of_essence hessence, hid₂, hrecord₁]

/-- What the harness reads of an operation that has ended, from then on. -/
structure Kept (runtime : CompletionRuntime Time) (dispatcher : OperationDispatcher)
    (codec : Codec) (trace : List Entry) (db : Db) (s : Session) (o : OperationRow)
    (outcome : OperationOutcome) : Prop where
  told : Told runtime dispatcher trace o outcome
  /-- A result is one of the operation's kind. -/
  kind : ∀ result, outcome = .succeeded result → result.kind = o.kind
  status : outcome.status.asStr = o.status.asStr
  announced : (s.completionEvents o.id).map (·.payload) = [operationPayload o.id o.kind o.status]
  reads : ∀ trace' db', Continues codec trace db trace' db' →
    ∃ s' ∈ db'.sessions, s'.id = s.id ∧ ∃ o' ∈ s'.operations,
      runtime.reading.operation (o'.record s'.id) =
        .ok { id := o.id, kind := o.kind, gatewayJobId := o.gatewayJobId, outcome := some outcome }

/-- An operation that has not ended reads so, and one that has reads as what it was told, for good. -/
theorem ended_operations_read (sound : runtime.reading.codecs.Sound) (run : Run codec trace db)
    (served : Served runtime dispatcher trace) {s : Session} (hs : s ∈ db.sessions)
    {o : OperationRow} (ho : o ∈ s.operations) :
    (o.status.terminal = false → runtime.reading.operation (o.record s.id) =
      .ok { id := o.id, kind := o.kind, gatewayJobId := o.gatewayJobId, outcome := none }) ∧
    (o.status.terminal = true → ∃ outcome, Kept runtime dispatcher codec trace db s o outcome) := by
  constructor
  · intro working
    have hstatus : o.status = .pending ∨ o.status = .submitting ∨ o.status = .accepted := by
      cases h : o.status <;> simp_all [OperationStatus.terminal]
    have houtcome : runtime.reading.outcome (o.record s.id) = .ok none := by
      rcases hstatus with h | h | h <;> simp only [JobReading.outcome, OperationRow.record, h]
    simp only [JobReading.operation, houtcome]
    rfl
  · intro ended
    obtain ⟨outcome, hholds, htold⟩ := ended_outcome sound run served hs ho ended
    have hlife := (operation_lifecycle run).1 s hs o ho
    refine ⟨outcome, htold, hholds.kind, hholds.status, ?_, fun trace' db' later => ?_⟩
    · rw [hlife.completed, if_pos ended]
    · obtain ⟨s', hs', hid, o', ho', hrecord⟩ := ended_record later run hs ho ended
      refine ⟨s', hs', hid, o', ho', ?_⟩
      have houtcome := hholds.reads (o.record s.id) rfl rfl rfl rfl
      rw [hrecord]
      simp only [JobReading.operation, houtcome]
      rfl

end

/-! ## A job that was cancelled -/

/-- Codecs that read the job id 40. -/
def jobCodecs : Codecs Unit where
  uuid := .word false Uuid.toText fun text => if text = "40" then some 40 else none
  time := firstCodecs.time
  map := firstCodecs.map
  payload := firstCodecs.payload
  response := firstCodecs.response

theorem jobCodecs_sound : jobCodecs.Sound where
  uuid := word_sound fun text id h => by
    cases (Option.ite_none_right_eq_some.mp h).2
    rfl
  time := firstCodecs_sound.time
  map := firstCodecs_sound.map
  mapReadable := firstCodecs_sound.mapReadable
  payload := firstCodecs_sound.payload
  response := firstCodecs_sound.response

def jobReading : JobReading Unit where
  codecs := jobCodecs
  value := fun _ => none
  envelope := fun _ => none
  response := fun _ => none
  version := 1

/-- A worker of one LLM gateway. -/
def llmRuntime : CompletionRuntime Unit where
  settings := { retryDelay := 5, fallbackInterval := 30, requestRetention := 60 }
  gateways connection := if connection = "llm" then some .llm else none
  reading := jobReading

/-- The document of a job that was cancelled. -/
def cancelledDoc : Doc := .record [
  ("id", some (jobCodecs.uuid.write 40)), ("status", some (Format.string.write "cancelled"))]

def cancelledAnswer : HttpAnswer := { status := 200, body := some cancelledDoc.text }

def cancelledWire : JobWire where
  id := 40
  status := "cancelled"
  response := none
  error := none
  machineId := none
  runtimeGenerationId := none

section

variable {reading : JobReading Time}

theorem cancelledDoc_read (uuid : reading.codecs.uuid.read (jobCodecs.uuid.write 40) = some 40) :
    JobWire.deserialize reading cancelledDoc = some cancelledWire := by
  rw [cancelledDoc, JobWire.deserialize, access_record _ (by simp [Json.Distinct])]
  simp [uuid, (Format.string_writes "cancelled").again, cancelledWire]

theorem cancelledAnswer_read (uuid : reading.codecs.uuid.read (jobCodecs.uuid.write 40) = some 40) :
    cancelledAnswer.body.bind (fromStr (JobWire.deserialize reading)) = some cancelledWire := by
  rw [cancelledAnswer, Option.bind_some, fromStr_text, cancelledDoc_read uuid]

theorem cancelledAnswer_job (uuid : reading.codecs.uuid.read (jobCodecs.uuid.write 40) = some 40) :
    getJob reading .llm 40 (.ok cancelledAnswer) =
      .ok { id := 40, status := .llm .cancelled, outcome := .cancelled, execution := none } := by
  have hsuccess : cancelledAnswer.isSuccess = true := by simp [HttpAnswer.isSuccess, cancelledAnswer]
  have hstatus : GatewayJobStatus.parse .llm cancelledWire.status = some (.llm .cancelled) := rfl
  have hid : cancelledWire.id = 40 := rfl
  have houtcome (http : Nat) :
      jobOutcome reading 40 http cancelledWire (.llm .cancelled) = .ok .cancelled := rfl
  simp only [getJob, bind, Except.bind, hsuccess, cancelledAnswer_read uuid, hid, hstatus, houtcome,
    Bool.not_true, Bool.false_eq_true, if_false, ne_eq, not_true_eq_false]
  rfl

/-- A worker of the job that was cancelled records it. -/
theorem cancelled_heard {runtime : CompletionRuntime Time} {claim : ClaimedOperation}
    (uuid : runtime.reading.codecs.uuid.read (jobCodecs.uuid.write 40) = some 40)
    (configured : runtime.gateways "llm" = some .llm) (kind : claim.operation.kind = .llm)
    (connection : claim.operation.gatewayConnectionId = some "llm")
    (job : claim.operation.gatewayJobId = some 40) :
    ∃ heard, (runtime.processResultClaim claim).Hears (heard ++ [⟨.record (.completeOperation claim
      .cancelled none none (some (1000 * runtime.settings.requestRetention)) (some 200)), ()⟩]) := by
  refine ⟨[⟨.getJob "llm" 40, .ok cancelledAnswer⟩, ⟨.now, (0 : Timestamp)⟩], ?_⟩
  have hprogram : runtime.processResultClaim claim = runtime.retrieve claim "llm" .llm 40 none := by
    simp [CompletionRuntime.processResultClaim, connection, job, configured, kind,
      CompletionRuntime.expectedKind]
  rw [hprogram]
  refine ⟨.ok cancelledAnswer, rfl, ?_⟩
  show Asking.Logs _ (runtime.processJob claim none
    (getJob runtime.reading .llm 40 (.ok cancelledAnswer))) _
  rw [cancelledAnswer_job uuid]
  refine ⟨(0 : Timestamp), rfl, (), ?_, trivial⟩
  rw [Int.zero_add]

end

/-- The end of the cancelled operation, as the worker records it. -/
def cancelledCompletion : StoreCall :=
  .completeOperation earlyRetrieval .cancelled none none (some 60000) (some 200)

def cancelledCalls : List StoreCall := matchedCallback.take 7 ++ [cancelledCompletion]

theorem cancelledCalls_run :
    Run plainCodec (replay plainCodec stillClock cancelledCalls).1
      (replay plainCodec stillClock cancelledCalls).2 := by
  refine Run.replay fun n call hcall => ?_
  match n, hcall with
  | 0, rfl | 1, rfl | 2, rfl => exact .of_unclaimed rfl rfl rfl
  | 3, rfl => exact .of_handler rfl (by decide) rfl rfl
  | 4, rfl => exact .of_unclaimed rfl rfl rfl
  | 5, rfl => exact .of_operation rfl (List.mem_singleton.mpr rfl)
  | 6, rfl => exact .of_unclaimed rfl rfl rfl
  | 7, rfl => exact .of_operation rfl (List.mem_cons_of_mem _ (List.mem_singleton.mpr rfl))

theorem replay_calls (codec : Codec) (clock : Clock) (calls : List StoreCall) :
    (replay codec clock calls).1.map (·.call) = calls := by
  induction calls using List.reverseRecOn with
  | nil => rfl
  | append_singleton calls call ih =>
    simp only [replay, List.foldl_append, List.foldl_cons, List.foldl_nil] at ih ⊢
    rw [List.map_append, ih]
    rfl

theorem cancelledCompletion_heard : ∃ heard,
    (llmRuntime.processResultClaim earlyRetrieval).Hears
      (heard ++ [⟨.record cancelledCompletion, ()⟩]) := by
  have uuid : jobCodecs.uuid.Writes 40 := Format.word_writes (if_pos rfl)
  exact cancelled_heard uuid.again rfl rfl rfl rfl

theorem cancelledCalls_served (dispatcher : OperationDispatcher) :
    Served llmRuntime dispatcher (replay plainCodec stillClock cancelledCalls).1 := by
  have honly : ∀ entry ∈ (replay plainCodec stillClock cancelledCalls).1,
      ∀ claim status result error expiresAt httpStatus,
        entry.call = .completeOperation claim status result error expiresAt httpStatus →
          entry.call = cancelledCompletion := by
    intro entry hentry claim status result error expiresAt httpStatus hcall
    have hmem : entry.call ∈ cancelledCalls := by
      rw [← replay_calls plainCodec stillClock cancelledCalls]
      exact List.mem_map.mpr ⟨entry, hentry, rfl⟩
    rw [hcall] at hmem ⊢
    simpa [cancelledCalls, matchedCallback, firstTurn] using hmem
  constructor
  · intro entry hentry claim status result error expiresAt httpStatus hcall hphase
    have hsame := honly entry hentry _ _ _ _ _ _ hcall
    have hclaim : claim = earlyRetrieval := by
      rw [hcall] at hsame
      cases hsame
      rfl
    rw [hsame, hclaim]
    exact cancelledCompletion_heard
  · intro entry hentry claim status result error expiresAt httpStatus hcall hphase
    have hsame := honly entry hentry _ _ _ _ _ _ hcall
    rw [hcall] at hsame
    cases hsame
    exact absurd rfl hphase

/-- A dispatcher without connections. -/
def idleDispatcher : OperationDispatcher where
  settings :=
    { retryDelays := [1], dependencyDelay := 1, requestRetention := 1, resultCheckDelay := 1
      retries := List.cons_ne_nil 1 [] }
  gateways _ := none
  decodeRequest _ := none
  serializes _ := true

/-- The first request of a session whose job was cancelled. -/
theorem ended_operations_read_cancelled :
    let (trace, db) := replay plainCodec stillClock cancelledCalls
    ∃ s ∈ db.sessions, ∃ o ∈ s.operations, ∃ outcome,
      Kept llmRuntime idleDispatcher plainCodec trace db s o outcome :=
  ⟨_, List.mem_cons_self, _, List.mem_cons_self,
    (ended_operations_read jobCodecs_sound cancelledCalls_run (cancelledCalls_served idleDispatcher)
      List.mem_cons_self List.mem_cons_self).2 rfl⟩

end AgentPlatform.Runtime
