import AgentPlatform.Runtime.FailureRecords

/-!
# The session scheduler

`process_claim` of `agent-runtime/src/scheduler.rs`: what a handler worker does with one claim. It
runs the handler of the session's harness, prepares and commits its outcome, and records how an
attempt failed: a handler that reports an error or panics is retried after the delays of the retry
policy, data that no retry can mend blocks the session, and a failure of the infrastructure abandons
the attempt.

Harnesses, the decoding of an event and the preparation of an outcome are not modelled: a worker
asks for what they make of their inputs, as it asks the store. The keeper that renews the lease of
a claim meanwhile is none of the worker's requests. Delays are in the range of `chrono`, which
`record_failure` expects of them.
-/

namespace AgentPlatform.Runtime

open Store

/-! ## What a worker hears -/

inductive RuntimeError where
  | duplicateHarness (id : HarnessId) (version : HarnessVersion)
  | invalidConfiguration (error : String)
  | invalidState (error : String)
  | initialization (error : String)
  | handler (error : String)
  | serialization (error : String)
deriving DecidableEq, Repr, Inhabited

/-- `Display for RuntimeError`. -/
def RuntimeError.toText : RuntimeError → String
  | .duplicateHarness id version => "duplicate harness " ++ id ++ " version " ++ version
  | .invalidConfiguration error => "invalid configuration: " ++ error
  | .invalidState error => "invalid saved state: " ++ error
  | .initialization error => "initialization failed: " ++ error
  | .handler error => "handler failed: " ++ error
  | .serialization error => "outcome serialization failed: " ++ error

/-- What a caught `validate_configuration` ends with. -/
inductive Validation where
  | valid
  | invalid (error : RuntimeError)
  | panicked

/-- What a caught handler ends with. -/
inductive Handled (Outcome : Type) where
  | outcome (outcome : Outcome)
  | failed (error : RuntimeError)
  | panicked

inductive OutcomePreparationError where
  | invalid (error : String)
  | store (error : StoreError)

/-- What a handler worker asks for. -/
inductive HandlerRequest (Event Outcome : Type) where
  | harness (id : HarnessId) (version : HarnessVersion)
  | validateConfiguration (session : SessionRecord)
  | decodeEvent (event : EventRecord)
  | handle (claimed : ClaimedEvent) (event : Event)
  | takeInfrastructureFailure
  | ownershipLost
  | renewAuthority (claim : HandlerClaim)
  | prepareOutcome (sessionId : SessionId) (outcome : Outcome)
  | commit (claim : HandlerClaim) (outcome : OutcomeCommit)
  | sleep (milliseconds : Nat)
  | handlerAttemptStatus (attemptId : Uuid)
  | handlerFailureCount (eventId : EventId)
  | recordFailure (claim : HandlerClaim) (code message : String) (delay : Nat) (blocked : Bool)
  | abandonInfrastructure (claim : HandlerClaim) (code message : String)

/-- A handler, a preparation and a commit answer nothing when the lease is lost first, and a sleep
answers whether it was. -/
def HandlerRequest.Answer {Event Outcome : Type} : HandlerRequest Event Outcome → Type
  | .harness .. => Bool
  | .validateConfiguration _ => Validation
  | .decodeEvent _ => Except String Event
  | .handle .. => Option (Handled Outcome)
  | .takeInfrastructureFailure => Option String
  | .ownershipLost => Bool
  | .renewAuthority _ => Bool
  | .prepareOutcome .. => Option (Except OutcomePreparationError OutcomeCommit)
  | .commit .. => Option (Except HandlerCommitError Unit)
  | .sleep _ => Bool
  | .handlerAttemptStatus _ => Except StoreError (Option HandlerAttemptStatus)
  | .handlerFailureCount _ => Except StoreError Int
  | .recordFailure .. => Unit
  | .abandonInfrastructure .. => Unit

abbrev HandlerWork (Event Outcome : Type) :=
  Asking (HandlerRequest Event Outcome) HandlerRequest.Answer

section

variable {Event Outcome : Type}

def findHarness (id : HarnessId) (version : HarnessVersion) : HandlerWork Event Outcome Bool :=
  .ask (.harness id version) .done

def validateConfiguration (session : SessionRecord) : HandlerWork Event Outcome Validation :=
  .ask (.validateConfiguration session) .done

def decodeEvent (event : EventRecord) : HandlerWork Event Outcome (Except String Event) :=
  .ask (.decodeEvent event) .done

def handle (claimed : ClaimedEvent) (event : Event) :
    HandlerWork Event Outcome (Option (Handled Outcome)) :=
  .ask (.handle claimed event) .done

def takeInfrastructureFailure : HandlerWork Event Outcome (Option String) :=
  .ask .takeInfrastructureFailure .done

def ownershipLost : HandlerWork Event Outcome Bool := .ask .ownershipLost .done

def renewAuthority (claim : HandlerClaim) : HandlerWork Event Outcome Bool :=
  .ask (.renewAuthority claim) .done

def prepareOutcome (sessionId : SessionId) (outcome : Outcome) :
    HandlerWork Event Outcome (Option (Except OutcomePreparationError OutcomeCommit)) :=
  .ask (.prepareOutcome sessionId outcome) .done

def commitHandlerOutcome (claim : HandlerClaim) (outcome : OutcomeCommit) :
    HandlerWork Event Outcome (Option (Except HandlerCommitError Unit)) :=
  .ask (.commit claim outcome) .done

def sleep (milliseconds : Nat) : HandlerWork Event Outcome Bool :=
  .ask (.sleep milliseconds) .done

def handlerAttemptStatus (attemptId : Uuid) :
    HandlerWork Event Outcome (Except StoreError (Option HandlerAttemptStatus)) :=
  .ask (.handlerAttemptStatus attemptId) .done

def handlerFailureCount (eventId : EventId) : HandlerWork Event Outcome (Except StoreError Int) :=
  .ask (.handlerFailureCount eventId) .done

end

/-! ## The scheduler -/

/-- The settings that `process_claim` reads, in milliseconds, as `SchedulerSettings::validate`
admits them. -/
structure SchedulerSettings where
  leaseDuration : Nat
  /-- `RetryPolicy`. -/
  retryDelays : List Nat
  commitRetryDelays : List Nat
  infrastructureRetryDelay : Nat
  leases : leaseDuration ≠ 0
  retries : ∀ delay ∈ retryDelays, delay ≠ 0
  recommits : ∀ delay ∈ commitRetryDelays, delay ≠ 0
  waits : infrastructureRetryDelay ≠ 0

/-- A scheduler, and the text of an error of the store. -/
structure SessionScheduler where
  settings : SchedulerSettings
  errorText : StoreError → String

namespace SessionScheduler

variable (scheduler : SessionScheduler) {Event Outcome : Type}

/-- `SessionScheduler::record_failure`. -/
def recordFailure (claim : HandlerClaim) (code message : String) (delay : Nat) (blocked : Bool) :
    HandlerWork Event Outcome Unit :=
  .ask (.recordFailure claim code message delay blocked) .done

/-- `SessionScheduler::block`. -/
def block (claim : HandlerClaim) (code message : String) : HandlerWork Event Outcome Unit :=
  recordFailure claim code message 0 true

/-- `SessionScheduler::retry_handler`. A count of rows less its baseline is never negative, so it
keeps its value as a `usize`. -/
def retryHandler (claim : HandlerClaim) (code message : String) :
    HandlerWork Event Outcome Unit := do
  match ← handlerFailureCount claim.eventId with
  | .error _ => pure ()
  | .ok count =>
    let priorFailures := count.toNat
    let retryDelays := scheduler.settings.retryDelays
    recordFailure claim code message (retryDelays[priorFailures]?.getD 0)
      (decide (retryDelays.length ≤ priorFailures))

/-- `SessionScheduler::abandon_infrastructure`. -/
def abandonInfrastructure (claim : HandlerClaim) (code message : String) :
    HandlerWork Event Outcome Unit :=
  .ask (.abandonInfrastructure claim code message) .done

/-- Go on while `renew_authority` keeps the claim. -/
def whileOwned (claim : HandlerClaim) (program : HandlerWork Event Outcome Unit) :
    HandlerWork Event Outcome Unit := do
  if ← renewAuthority claim then program else pure ()

/-- One turn of the loop of `commit_prepared`: what follows a rollback is `retry`. -/
def commitOnce (claim : HandlerClaim) (outcome : OutcomeCommit)
    (retry : StoreError → HandlerWork Event Outcome Unit) : HandlerWork Event Outcome Unit := do
  match ← commitHandlerOutcome claim outcome with
  | none | some (.ok ()) | some (.error .staleClaim) => pure ()
  | some (.error (.retryable error)) => retry error
  | some (.error (.rejected error)) =>
    whileOwned claim (block claim "invalid_handler_outcome" (scheduler.errorText error))
  | some (.error (.uncertain _)) =>
    -- only logged: the lease recovers an attempt that did not commit
    let _ ← handlerAttemptStatus claim.attemptId
    pure ()

/-- `SessionScheduler::commit_prepared`, with the retry delays that are left. -/
def commitPrepared (claim : HandlerClaim) (outcome : OutcomeCommit) :
    List Nat → HandlerWork Event Outcome Unit
  | [] =>
    scheduler.commitOnce claim outcome fun error =>
      whileOwned claim (abandonInfrastructure claim "outcome_commit_unavailable"
        (scheduler.errorText error))
  | delay :: delays =>
    scheduler.commitOnce claim outcome fun _ => do
      if ← sleep delay then pure ()
      else if ← ownershipLost then pure ()
      else commitPrepared claim outcome delays

/-- What `process_claim` does with the outcome of a handler. -/
def commitOutcome (claim : HandlerClaim) (outcome : Outcome) : HandlerWork Event Outcome Unit := do
  match ← prepareOutcome claim.sessionId outcome with
  | none => pure ()
  | some prepared =>
    if ← ownershipLost then pure ()
    else
      match prepared with
      | .ok outcome =>
        scheduler.commitPrepared claim outcome scheduler.settings.commitRetryDelays
      | .error (.invalid error) =>
        whileOwned claim (block claim "invalid_handler_outcome" error)
      | .error (.store error) =>
        whileOwned claim (abandonInfrastructure claim "outcome_preparation_unavailable"
          (scheduler.errorText error))

/-- What `process_claim` does with what a handler ended with. -/
def finishHandled (claim : HandlerClaim) : Handled Outcome → HandlerWork Event Outcome Unit
  | .failed (.handler message) => do
    match ← takeInfrastructureFailure with
    | some error =>
      whileOwned claim (abandonInfrastructure claim "context_unavailable" error)
    | none => whileOwned claim (scheduler.retryHandler claim "handler_failed" message)
  | .failed error => whileOwned claim (block claim "invalid_handler_data" error.toText)
  | .panicked =>
    whileOwned claim (scheduler.retryHandler claim "handler_panicked" "handler panicked")
  | .outcome outcome => scheduler.commitOutcome claim outcome

/-- `SessionScheduler::process_claim`. -/
def processClaim (claimed : ClaimedEvent) : HandlerWork Event Outcome Unit := do
  let claim := claimed.claim
  let session := claimed.session
  if ← findHarness session.harnessId session.harnessVersion then
    match ← validateConfiguration session with
    | .invalid error => block claim "invalid_configuration" error.toText
    | .panicked =>
      block claim "harness_validation_panicked" "harness configuration validation panicked"
    | .valid =>
      match ← decodeEvent claimed.event with
      | .error error => block claim "invalid_event" error
      | .ok event =>
        match ← handle claimed event with
        | none => pure ()
        | some handled => scheduler.finishHandled claim handled
  else
    block claim "harness_not_registered"
      ("harness " ++ session.harnessId ++ " version " ++ session.harnessVersion ++
        " is not registered")

end SessionScheduler

end AgentPlatform.Runtime
