import AgentPlatform.Runtime.Scheduler
import AgentPlatform.Store.FailureCounts

/-!
# Handler workers

Any number of schedulers of the same settings and their handler workers over one store, in every
interleaving with the rest of the platform. A worker can stall before each of its requests, crash,
and lose the answer of a call that the store made. Leases expire as the clocks of the calls say, and
a worker whose lease expired goes on until its next call refuses it.

Workers are told apart by the lease tokens of their claims. Only workers claim events and end
attempts; the rest of the platform calls the store as it likes.
-/

namespace AgentPlatform.Runtime

open Store

/-! ## Failures -/

/-- A failure that a worker records. -/
structure HandlerFailure where
  claim : HandlerClaim
  code : String
  message : String
  delay : Nat
  blocked : Bool
  /-- What `Utc::now()` read. -/
  now : Timestamp
deriving DecidableEq, Repr

namespace HandlerFailure

def retryAt (failure : HandlerFailure) : Timestamp := failure.now + 1000 * failure.delay

def call (failure : HandlerFailure) : StoreCall :=
  .recordHandlerFailure failure.claim (failureReport failure.code failure.message) failure.retryAt
    failure.blocked

/-- The handler reported an error or panicked: what `retry_handler` records, and `block` does not. -/
def retryable (failure : HandlerFailure) : Bool :=
  failure.code = "handler_failed" || failure.code = "handler_panicked"

/-- The failure is of the event. -/
def isOf (failure : HandlerFailure) (sessionId : SessionId) (eventId : EventId) : Bool :=
  failure.claim.sessionId = sessionId && failure.claim.eventId = eventId

end HandlerFailure

/-- What a step of the world is to an event: a worker's failure was recorded, an operator let the
event be tried again, or neither. -/
inductive Mark where
  | failed (failure : HandlerFailure)
  | retried (sessionId : SessionId) (eventId : EventId)
  | other
deriving DecidableEq, Repr

/-- The failures of an event over one more step. -/
def Mark.count (sessionId : SessionId) (eventId : EventId) (failures : List HandlerFailure) :
    Mark → List HandlerFailure
  | .failed failure => if failure.isOf sessionId eventId then failures ++ [failure] else failures
  | .retried s e => if s = sessionId ∧ e = eventId then [] else failures
  | .other => failures

/-- The failures of an event since it was created or last retried by an operator. -/
def failuresSince (marks : List Mark) (sessionId : SessionId) (eventId : EventId) :
    List HandlerFailure :=
  marks.foldl (Mark.count sessionId eventId) []

@[simp] theorem failuresSince_concat (marks : List Mark) (mark : Mark) (sessionId : SessionId)
    (eventId : EventId) : failuresSince (marks ++ [mark]) sessionId eventId =
      mark.count sessionId eventId (failuresSince marks sessionId eventId) := by
  simp [failuresSince]

/-! ## The world -/

structure HandlerWorker (Event Outcome : Type) where
  claim : HandlerClaim
  program : HandlerWork Event Outcome Unit

/-- The store with the calls that were made, and the workers by the tokens of their claims. -/
structure HandlerWorld (Event Outcome : Type) where
  trace : List Entry
  db : Db
  workers : Uuid → Option (HandlerWorker Event Outcome)

/-- What the rest of the platform may call: it claims no event and ends no attempt. -/
def StoreCall.unscheduled : StoreCall → Bool
  | .claimNextEvent .. | .recordHandlerFailure .. | .abandonHandlerAttempt ..
  | .commitHandlerOutcome .. => false
  | _ => true

/-- The call was made. -/
def replied : Reply → Bool
  | .done => true
  | _ => false

/-- The mark of a call that records a failure. -/
def recordMark (failure : HandlerFailure) (reply : Reply) : Mark :=
  if replied reply then .failed failure else .other

/-- The mark of a call of the rest of the platform. -/
def storeMark (db : Db) (call : StoreCall) (reply : Reply) : Mark :=
  match db.retriedEvent call reply with
  | some (sessionId, eventId) => .retried sessionId eventId
  | none => .other

/-- What `commit_handler_outcome_classified` can answer where the store answers `reply`: the
acknowledgement of a commit can get lost, and the lease can be lost first. -/
inductive CommitAnswers : Reply → Option (Except HandlerCommitError Unit) → Prop
  | committed : CommitAnswers .done (some (.ok ()))
  | uncertain (error : StoreError) : CommitAnswers .done (some (.error (.uncertain error)))
  | refused (error : StoreError) :
      CommitAnswers (.failed error) (some (.error (.ofStore error)))
  | unheard (reply : Reply) : CommitAnswers reply none

/-- A request whose answer is not the store's, or is only logged. -/
def HandlerRequest.external {Event Outcome : Type} : HandlerRequest Event Outcome → Bool
  | .renewAuthority _ | .commit .. | .handlerFailureCount _ | .recordFailure ..
  | .abandonInfrastructure .. => false
  | _ => true

namespace HandlerWorld

variable {Event Outcome : Type}

/-- One store call. -/
def call (codec : Codec) (w : HandlerWorld Event Outcome) (call : StoreCall) (clock : Clock) :
    HandlerWorld Event Outcome :=
  { w with
    trace := w.trace ++ [⟨call, clock, (exec codec clock w.db call).1⟩]
    db := (exec codec clock w.db call).2 }

/-- Put the worker of a claim at a program. -/
def place (w : HandlerWorld Event Outcome) (token : Uuid) (claim : HandlerClaim)
    (program : HandlerWork Event Outcome Unit) : HandlerWorld Event Outcome :=
  { w with workers := Function.update w.workers token (some { claim, program }) }

/-- Drop a worker. -/
def drop (w : HandlerWorld Event Outcome) (token : Uuid) : HandlerWorld Event Outcome :=
  { w with workers := Function.update w.workers token none }

def start : HandlerWorld Event Outcome :=
  { trace := [], db := Db.empty, workers := fun _ => none }

/-- The call that abandons an attempt. -/
def abandonCall (scheduler : SessionScheduler) (claim : HandlerClaim) (code message : String)
    (now : Timestamp) : StoreCall :=
  .abandonHandlerAttempt claim (failureReport code message)
    (now + 1000 * scheduler.settings.infrastructureRetryDelay)

/-- One step of the world, and its mark. -/
inductive Step (codec : Codec) (scheduler : SessionScheduler) (w : HandlerWorld Event Outcome) :
    Mark → HandlerWorld Event Outcome → Prop
  /-- The rest of the platform, or the keeper of a lease, calls the store. -/
  | store (call : StoreCall) (clock : Clock) (admissible : Admissible w.trace call)
      (unscheduled : StoreCall.unscheduled call = true) :
      Step codec scheduler w (storeMark w.db call (exec codec clock w.db call).1)
        (w.call codec call clock)
  /-- A scheduler finds no event to claim. -/
  | unclaimed (locked : SessionId → Bool) (leaseFor : Nat) (clock : Clock)
      (none : ∀ claimed, (exec codec clock w.db (.claimNextEvent locked leaseFor)).1 ≠
        .claimedEvent (some claimed)) :
      Step codec scheduler w .other (w.call codec (.claimNextEvent locked leaseFor) clock)
  /-- A scheduler claims an event and starts a worker. -/
  | claim (locked : SessionId → Bool) (leaseFor : Nat) (clock : Clock) (claimed : ClaimedEvent)
      (claims : (exec codec clock w.db (.claimNextEvent locked leaseFor)).1 =
        .claimedEvent (some claimed)) :
      Step codec scheduler w .other
        ((w.call codec (.claimNextEvent locked leaseFor) clock).place claimed.leaseToken
          claimed.claim (scheduler.processClaim claimed))
  /-- A worker hears from its harness, its context or the clock. -/
  | hear (token : Uuid) (worker : HandlerWorker Event Outcome)
      (request : HandlerRequest Event Outcome) (next : request.Answer → HandlerWork Event Outcome Unit)
      (answer : request.Answer) (present : w.workers token = some worker)
      (asks : worker.program = .ask request next) (external : request.external = true) :
      Step codec scheduler w .other (w.place token worker.claim (next answer))
  | renew (token : Uuid) (worker : HandlerWorker Event Outcome) (claim : HandlerClaim)
      (next : Bool → HandlerWork Event Outcome Unit) (clock : Clock)
      (present : w.workers token = some worker)
      (asks : worker.program = .ask (.renewAuthority claim) next) :
      Step codec scheduler w .other
        ((w.call codec (.renewEventClaim claim scheduler.settings.leaseDuration) clock).place token
          worker.claim (next (replied (exec codec clock w.db
            (.renewEventClaim claim scheduler.settings.leaseDuration)).1)))
  /-- The renewal does not reach the store. -/
  | renewFailed (token : Uuid) (worker : HandlerWorker Event Outcome) (claim : HandlerClaim)
      (next : Bool → HandlerWork Event Outcome Unit) (present : w.workers token = some worker)
      (asks : worker.program = .ask (.renewAuthority claim) next) :
      Step codec scheduler w .other (w.place token worker.claim (next false))
  | commit (token : Uuid) (worker : HandlerWorker Event Outcome) (claim : HandlerClaim)
      (outcome : OutcomeCommit)
      (next : Option (Except HandlerCommitError Unit) → HandlerWork Event Outcome Unit)
      (answer : Option (Except HandlerCommitError Unit)) (clock : Clock)
      (present : w.workers token = some worker)
      (asks : worker.program = .ask (.commit claim outcome) next)
      (answers : CommitAnswers (exec codec clock w.db (.commitHandlerOutcome claim outcome)).1
        answer) :
      Step codec scheduler w .other
        ((w.call codec (.commitHandlerOutcome claim outcome) clock).place token worker.claim
          (next answer))
  /-- The commit does not reach the store, or the store rolls it back. -/
  | commitFailed (token : Uuid) (worker : HandlerWorker Event Outcome) (claim : HandlerClaim)
      (outcome : OutcomeCommit)
      (next : Option (Except HandlerCommitError Unit) → HandlerWork Event Outcome Unit)
      (answer : Option (Except HandlerCommitError Unit)) (present : w.workers token = some worker)
      (asks : worker.program = .ask (.commit claim outcome) next)
      (failed : answer ≠ some (.ok ())) :
      Step codec scheduler w .other (w.place token worker.claim (next answer))
  | count (token : Uuid) (worker : HandlerWorker Event Outcome) (eventId : EventId)
      (next : Except StoreError Int → HandlerWork Event Outcome Unit)
      (present : w.workers token = some worker)
      (asks : worker.program = .ask (.handlerFailureCount eventId) next) :
      Step codec scheduler w .other
        (w.place token worker.claim (next (w.db.handlerFailureCount eventId)))
  | countFailed (token : Uuid) (worker : HandlerWorker Event Outcome) (eventId : EventId)
      (next : Except StoreError Int → HandlerWork Event Outcome Unit) (error : StoreError)
      (present : w.workers token = some worker)
      (asks : worker.program = .ask (.handlerFailureCount eventId) next) :
      Step codec scheduler w .other (w.place token worker.claim (next (.error error)))
  /-- A worker records a failure. -/
  | record (token : Uuid) (worker : HandlerWorker Event Outcome) (failure : HandlerFailure)
      (next : Unit → HandlerWork Event Outcome Unit) (clock : Clock)
      (present : w.workers token = some worker)
      (asks : worker.program = .ask (.recordFailure failure.claim failure.code failure.message
        failure.delay failure.blocked) next) :
      Step codec scheduler w (recordMark failure (exec codec clock w.db failure.call).1)
        ((w.call codec failure.call clock).place token worker.claim (next ()))
  /-- The record does not reach the store. -/
  | recordFailed (token : Uuid) (worker : HandlerWorker Event Outcome) (failure : HandlerFailure)
      (next : Unit → HandlerWork Event Outcome Unit) (present : w.workers token = some worker)
      (asks : worker.program = .ask (.recordFailure failure.claim failure.code failure.message
        failure.delay failure.blocked) next) :
      Step codec scheduler w .other (w.place token worker.claim (next ()))
  /-- A worker abandons its attempt. -/
  | abandon (token : Uuid) (worker : HandlerWorker Event Outcome) (claim : HandlerClaim)
      (code message : String) (next : Unit → HandlerWork Event Outcome Unit) (now : Timestamp)
      (clock : Clock) (present : w.workers token = some worker)
      (asks : worker.program = .ask (.abandonInfrastructure claim code message) next) :
      Step codec scheduler w .other
        ((w.call codec (abandonCall scheduler claim code message now) clock).place token worker.claim
          (next ()))
  | abandonFailed (token : Uuid) (worker : HandlerWorker Event Outcome) (claim : HandlerClaim)
      (code message : String) (next : Unit → HandlerWork Event Outcome Unit)
      (present : w.workers token = some worker)
      (asks : worker.program = .ask (.abandonInfrastructure claim code message) next) :
      Step codec scheduler w .other (w.place token worker.claim (next ()))
  /-- A worker is done, or crashes. -/
  | stop (token : Uuid) (worker : HandlerWorker Event Outcome)
      (present : w.workers token = some worker) : Step codec scheduler w .other (w.drop token)

/-- A world that the schedulers and the rest of the platform reach, with the marks of the steps
to it. -/
inductive Reachable (codec : Codec) (scheduler : SessionScheduler) :
    List Mark → HandlerWorld Event Outcome → Prop
  | start : Reachable codec scheduler [] .start
  | step {marks : List Mark} {w w' : HandlerWorld Event Outcome} {mark : Mark}
      (before : Reachable codec scheduler marks w) (step : Step codec scheduler w mark w') :
      Reachable codec scheduler (marks ++ [mark]) w'

end HandlerWorld

end AgentPlatform.Runtime
