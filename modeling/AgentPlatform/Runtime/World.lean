import AgentPlatform.Runtime.Dispatch

/-!
# Dispatchers and a gateway

Any number of dispatch workers, the store, and the gateways they call, in every interleaving. A
gateway keeps one job for an idempotency key. It creates the job of a submission only when it answers
with success or with an uncertain failure; a worker whose call got lost reads an uncertain failure
too, while the call is still on its way. A worker can stall before each of its requests, and crash.

Workers are told apart by the lease tokens of their claims. The rest of the platform calls the store
as it likes, except that only workers record the end of a submission, cancellation or withdrawal
attempt.
-/

namespace AgentPlatform.Runtime

open Store

/-! ## The gateway -/

/-- A job that a gateway holds. -/
structure Job where
  connection : GatewayConnectionId
  key : String
  id : Uuid
deriving DecidableEq, Repr, Inhabited

/-- A submission on its way to a gateway. -/
structure Flight where
  connection : GatewayConnectionId
  key : String
deriving DecidableEq, Repr, Inhabited

/-- The job of a key. -/
def jobFor (jobs : List Job) (connection : GatewayConnectionId) (key : String) : Option Job :=
  jobs.find? fun job => job.connection = connection && job.key = key

/-- Create the job of a submission, unless its key has one. -/
def createJob (jobs : List Job) (flight : Flight) (id : Uuid) : List Job :=
  match jobFor jobs flight.connection flight.key with
  | some _ => jobs
  | none => jobs ++ [{ connection := flight.connection, key := flight.key, id }]

/-- What a gateway can answer a submission with, and the jobs it then holds. -/
inductive Answers (jobs : List Job) (flight : Flight) :
    Except GatewayError JobAcknowledgement → List Job → Prop
  | accepted (id : Uuid) (job : Job)
      (held : jobFor (createJob jobs flight id) flight.connection flight.key = some job) :
      Answers jobs flight (.ok { id := job.id }) (createJob jobs flight id)
  | uncertain (failure : GatewayFailure) (id : Uuid) :
      Answers jobs flight (.error (.uncertain failure)) (createJob jobs flight id)
  | lost (failure : GatewayFailure) : Answers jobs flight (.error (.uncertain failure)) jobs
  | rejected (status : Nat) (code message : String) :
      Answers jobs flight (.error (.rejected status code message)) jobs
  | retryable (failure : GatewayFailure) : Answers jobs flight (.error (.retryable failure)) jobs
  | invalidRequest (code message : String) :
      Answers jobs flight (.error (.invalidRequest code message)) jobs

/-! ## The world -/

/-- What a worker is at: about to go on with its program, or waiting for the answer to a
submission. -/
inductive Position where
  | running (program : Work Unit)
  | awaiting (flight : Flight) (next : Except GatewayError JobAcknowledgement → Work Unit)

structure Worker where
  claim : ClaimedOperation
  position : Position

/-- The store with the calls that were made, the jobs of the gateways, the submissions whose worker
is gone or no longer waits, and the workers by the tokens of their claims. -/
structure World where
  trace : List Entry
  db : Db
  jobs : List Job
  flights : List Flight
  workers : Uuid → Option Worker

namespace World

/-- One store call. -/
def call (codec : Codec) (w : World) (call : StoreCall) (clock : Clock) : World :=
  { w with
    trace := w.trace ++ [⟨call, clock, (exec codec clock w.db call).1⟩]
    db := (exec codec clock w.db call).2 }

/-- Put a worker at a position. -/
def place (w : World) (token : Uuid) (claim : ClaimedOperation) (position : Position) : World :=
  { w with workers := Function.update w.workers token (some { claim, position }) }

/-- Drop a worker. -/
def drop (w : World) (token : Uuid) : World :=
  { w with workers := Function.update w.workers token none }

/-- A submission that carries `key` is on its way. -/
def inFlight (w : World) (key : String) : Prop :=
  (∃ flight ∈ w.flights, flight.key = key) ∨
    ∃ token worker flight next, w.workers token = some worker ∧
      worker.position = .awaiting flight next ∧ flight.key = key

/-- A gateway holds a job for `key`. -/
def hasJob (w : World) (key : String) : Prop := ∃ job ∈ w.jobs, job.key = key

def start : World :=
  { trace := [], db := Db.empty, jobs := [], flights := [], workers := fun _ => none }

end World

/-- A call that is not a worker's: it takes and presents no claim that dispatchers work on, unless it
renews its lease. -/
def StoreCall.undispatched : StoreCall → Prop
  | .claimOperation _ phase _ => phase = .resultRetrieval
  | .renewOperationClaim .. => True
  | call => ∀ claim ∈ call.operationClaim, claim.phase = .resultRetrieval

/-- `operation_for_session`: the record that a read finds. -/
def readOperation (db : Db) (sessionId : SessionId) (id : OperationId) : Option OperationRecord :=
  (db.sessions.find? (·.id = sessionId)).bind fun s =>
    (s.operations.find? (·.id = id)).map (·.record s.id)

/-- One step of the world. -/
inductive World.Step (codec : Codec) (dispatcher : OperationDispatcher) (w : World) : World → Prop
  /-- The rest of the platform, or the keeper of a lease, calls the store. -/
  | store (call : StoreCall) (clock : Clock) (admissible : Admissible w.trace call)
      (undispatched : StoreCall.undispatched call) :
      Step codec dispatcher w (w.call codec call clock)
  /-- A dispatcher finds nothing to claim. -/
  | unclaimed (locked : SessionId → Bool) (phase : OperationPhase) (leaseFor : Nat) (clock : Clock)
      (none : ∀ claim, (exec codec clock w.db (.claimOperation locked phase leaseFor)).1 ≠
        .claimedOperation (some claim)) :
      Step codec dispatcher w (w.call codec (.claimOperation locked phase leaseFor) clock)
  /-- A dispatcher claims an operation and starts a worker. -/
  | claim (locked : SessionId → Bool) (phase : OperationPhase) (leaseFor : Nat) (clock : Clock)
      (claim : ClaimedOperation) (dispatched : phase ≠ .resultRetrieval)
      (claimed : (exec codec clock w.db (.claimOperation locked phase leaseFor)).1 =
        .claimedOperation (some claim)) :
      Step codec dispatcher w
        ((w.call codec (.claimOperation locked phase leaseFor) clock).place claim.leaseToken claim
          (.running (dispatcher.processClaim claim)))
  | read (token : Uuid) (worker : Worker) (sessionId : SessionId) (id : OperationId)
      (next : Except StoreError (Option OperationRecord) → Work Unit)
      (present : w.workers token = some worker)
      (reads : worker.position = .running (.ask (.operationForSession sessionId id) next)) :
      Step codec dispatcher w
        (w.place token worker.claim (.running (next (.ok (readOperation w.db sessionId id)))))
  | readFailed (token : Uuid) (worker : Worker) (sessionId : SessionId) (id : OperationId)
      (next : Except StoreError (Option OperationRecord) → Work Unit) (error : StoreError)
      (present : w.workers token = some worker)
      (reads : worker.position = .running (.ask (.operationForSession sessionId id) next)) :
      Step codec dispatcher w (w.place token worker.claim (.running (next (.error error))))
  | now (token : Uuid) (worker : Worker) (next : Timestamp → Work Unit) (now : Timestamp)
      (present : w.workers token = some worker)
      (reads : worker.position = .running (.ask .now next)) :
      Step codec dispatcher w (w.place token worker.claim (.running (next now)))
  | find (token : Uuid) (worker : Worker) (connection : GatewayConnectionId) (key : String)
      (next : Except GatewayError (Option JobAcknowledgement) → Work Unit)
      (present : w.workers token = some worker)
      (finds : worker.position = .running (.ask (.findByIdempotencyKey connection key) next)) :
      Step codec dispatcher w
        (w.place token worker.claim (.running
          (next (.ok ((jobFor w.jobs connection key).map fun job => { id := job.id })))))
  | findFailed (token : Uuid) (worker : Worker) (connection : GatewayConnectionId) (key : String)
      (next : Except GatewayError (Option JobAcknowledgement) → Work Unit) (error : GatewayError)
      (present : w.workers token = some worker)
      (finds : worker.position = .running (.ask (.findByIdempotencyKey connection key) next)) :
      Step codec dispatcher w (w.place token worker.claim (.running (next (.error error))))
  | cancel (token : Uuid) (worker : Worker) (connection : GatewayConnectionId) (jobId : Uuid)
      (next : Except GatewayError CancellationAcknowledgement → Work Unit)
      (answer : Except GatewayError CancellationAcknowledgement)
      (present : w.workers token = some worker)
      (cancels : worker.position = .running (.ask (.cancel connection jobId) next)) :
      Step codec dispatcher w (w.place token worker.claim (.running (next answer)))
  /-- A worker sends a submission. -/
  | send (token : Uuid) (worker : Worker) (connection : GatewayConnectionId) (body : SubmissionBody)
      (next : Except GatewayError JobAcknowledgement → Work Unit)
      (present : w.workers token = some worker)
      (sends : worker.position = .running (.ask (.submit connection body) next)) :
      Step codec dispatcher w
        (w.place token worker.claim (.awaiting { connection, key := body.idempotencyKey } next))
  /-- The gateway answers the worker that waits. -/
  | answer (token : Uuid) (worker : Worker) (flight : Flight)
      (next : Except GatewayError JobAcknowledgement → Work Unit)
      (answer : Except GatewayError JobAcknowledgement) (jobs : List Job)
      (present : w.workers token = some worker) (awaits : worker.position = .awaiting flight next)
      (answers : Answers w.jobs flight answer jobs) :
      Step codec dispatcher w { (w.place token worker.claim (.running (next answer))) with jobs }
  /-- The worker stops waiting; its submission is still on its way. -/
  | timeout (token : Uuid) (worker : Worker) (flight : Flight)
      (next : Except GatewayError JobAcknowledgement → Work Unit) (failure : GatewayFailure)
      (present : w.workers token = some worker) (awaits : worker.position = .awaiting flight next) :
      Step codec dispatcher w
        { (w.place token worker.claim (.running (next (.error (.uncertain failure))))) with
          flights := w.flights ++ [flight] }
  /-- The gateway gets a submission that nobody waits for. -/
  | land (flight : Flight) (answer : Except GatewayError JobAcknowledgement) (jobs : List Job)
      (flying : flight ∈ w.flights) (answers : Answers w.jobs flight answer jobs) :
      Step codec dispatcher w { w with jobs, flights := w.flights.erase flight }
  /-- A worker records the end of its attempt. -/
  | record (token : Uuid) (worker : Worker) (call : StoreCall) (next : Unit → Work Unit)
      (clock : Clock) (present : w.workers token = some worker)
      (records : worker.position = .running (.ask (.record call) next)) :
      Step codec dispatcher w
        ((w.call codec call clock).place token worker.claim (.running (next ())))
  /-- The record does not reach the store. -/
  | recordFailed (token : Uuid) (worker : Worker) (call : StoreCall) (next : Unit → Work Unit)
      (present : w.workers token = some worker)
      (records : worker.position = .running (.ask (.record call) next)) :
      Step codec dispatcher w (w.place token worker.claim (.running (next ())))
  /-- A worker is done, crashes, or stops because its lease is lost. -/
  | stop (token : Uuid) (worker : Worker) (program : Work Unit)
      (present : w.workers token = some worker) (running : worker.position = .running program) :
      Step codec dispatcher w (w.drop token)
  /-- A worker crashes while it waits; its submission is still on its way. -/
  | crash (token : Uuid) (worker : Worker) (flight : Flight)
      (next : Except GatewayError JobAcknowledgement → Work Unit)
      (present : w.workers token = some worker) (awaits : worker.position = .awaiting flight next) :
      Step codec dispatcher w { (w.drop token) with flights := w.flights ++ [flight] }

/-- A world that the dispatchers and the rest of the platform reach. -/
inductive World.Reachable (codec : Codec) (dispatcher : OperationDispatcher) : World → Prop
  | start : Reachable codec dispatcher .start
  | step {w w' : World} (before : Reachable codec dispatcher w)
      (step : World.Step codec dispatcher w w') : Reachable codec dispatcher w'

end AgentPlatform.Runtime
