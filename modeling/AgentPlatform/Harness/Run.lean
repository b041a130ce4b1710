import AgentPlatform.Harness.Handler
import AgentPlatform.Harness.ToolDiscipline
import AgentPlatform.Lib.Transition

/-!
# Sessions of the harness

A session as the platform drives it: it delivers one event after the other to the handler, saves the
state that the handler returns, and stages the operations that it asks for. A staged operation ends
once, with an outcome that its kind allows, and its completion is delivered in any order with the
other events.
-/

namespace AgentPlatform.Harness

/-- The outcomes that an operation of a kind can end with. Only the runtime's failures carry a
response of the runtime. -/
def allowedFor (kind : OperationKind) (outcome : OperationOutcome) : Bool :=
  succeedsAs kind outcome &&
    (kind == .execution ||
      (Cancellation.failureOf outcome).all (·.executionResponse.isNone))

/-- Whether an outcome confirms that a target was withdrawn. -/
def confirmsWithdrawal : OperationOutcome → Bool
  | .succeeded (.withdraw withdrawn) => withdrawn
  | _ => false

/-- What the platform has for the handler. -/
inductive Stimulus where
  | userMessage (message : Message)
  | cancellationRequested (reason : Option String)
  | waitResumed (waitId : WaitId) (reason : WaitResumeReason)
  | completed (operationId : OperationId) (outcome : OperationOutcome)

/-- A stimulus in the event that delivers it. The date is that of the event's time, written out. -/
structure Delivery where
  eventId : EventId
  sequence : EventSequence
  timestampMillis : Int
  date : String
  stimulus : Stimulus
  dated : date.isEmpty = false

/-- A session: the saved state, the supply of identifiers, the history, the status, the operations
that were staged, and the outcomes that were delivered. -/
structure Session where
  id : SessionId
  state : BasicCodexState
  nextId : Uuid
  history : List Message
  status : SessionStatus
  staged : List StagedOperation
  completed : List (OperationId × OperationOutcome)

namespace Session

def start (id : SessionId) (nextId : Uuid) : Session :=
  { id, state := .initial, nextId, history := [], status := .idle, staged := [], completed := [] }

/-- Whether an operation's completion was delivered. -/
def isCompleted (s : Session) (id : OperationId) : Bool := s.completed.any (·.1 == id)

/-- The operations whose completion was not delivered yet. -/
def outstanding (s : Session) : List StagedOperation :=
  s.staged.filter fun operation => !s.isCompleted operation.id

/-- The staged operation of an identifier. -/
def operation (s : Session) (id : OperationId) : Option StagedOperation :=
  s.staged.find? (·.id == id)

/-- Whether the completion of an operation was delivered and said that it was cancelled. -/
def endedCancelled (s : Session) (id : OperationId) : Bool :=
  s.completed.any fun c => c.1 == id && c.2.status == .cancelled

/-- Whether an operation may end so now. A withdrawal that succeeds has cancelled its target, whose
completion comes before its own. -/
def mayEnd (s : Session) (operation : StagedOperation) (outcome : OperationOutcome) : Bool :=
  allowedFor operation.request.kind outcome &&
    match operation.request with
    | .withdraw target => !confirmsWithdrawal outcome || s.endedCancelled target
    | _ => true

/-- Whether the platform may deliver a stimulus now. -/
def admits (s : Session) : Stimulus → Bool
  | .completed id outcome => (s.outstanding.find? (·.id == id)).any fun operation =>
      s.mayEnd operation outcome
  | _ => true

/-- The kind of a staged operation, as the platform stores it. -/
def kindOf (s : Session) (id : OperationId) : OperationKind :=
  ((s.operation id).map (·.request.kind)).getD default

/-- The event that delivers a stimulus. -/
def event (s : Session) (d : Delivery) : SessionEvent where
  id := d.eventId
  sessionId := s.id
  sequence := d.sequence
  timestampMillis := d.timestampMillis
  date := d.date
  kind :=
    match d.stimulus with
    | .userMessage message => .userMessage message
    | .cancellationRequested reason => .cancellationRequested reason
    | .waitResumed waitId reason => .waitResumed waitId reason
    | .completed id outcome => .operationCompleted id (s.kindOf id) outcome.status

/-- The outcomes that are stored while a stimulus is handled. -/
def outcomes (s : Session) : Stimulus → List (OperationId × OperationOutcome)
  | .completed id outcome => s.completed ++ [(id, outcome)]
  | _ => s.completed

/-- What the handler reads while a stimulus is handled. -/
def context (s : Session) (stimulus : Stimulus) : HarnessContext where
  operation id := .ok ((s.operation id).map fun operation =>
    { kind := operation.request.kind
      outcome := ((s.outcomes stimulus).find? (·.1 == id)).map (·.2) })
  historyThroughSequence := s.history.length

/-- The session after an invocation that returned an outcome. -/
def after (s : Session) (stimulus : Stimulus) (result : OutcomeBuilder BasicCodexState) :
    Session where
  id := s.id
  state := result.state
  nextId := result.nextId
  history := s.history ++ result.outcome.history
  status := result.outcome.status.getD s.status
  staged := s.staged ++ result.outcome.operations
  completed := s.outcomes stimulus

/-- The invocation that delivers a stimulus. -/
def invoke (agent : Agent) (s : Session) (d : Delivery) :
    Except HandlerError (OutcomeBuilder BasicCodexState) :=
  Handler.handle agent s.state (s.event d) (s.context d.stimulus) s.nextId

/-- A delivery that the platform may make and that the handler answers with an outcome. -/
def Step (agent : Agent) (s : Session) (d : Delivery) (t : Session) : Prop :=
  s.admits d.stimulus = true ∧
    ∃ result, s.invoke agent d = .ok result ∧ t = s.after d.stimulus result

/-- A session that some deliveries lead to. -/
def Reachable (agent : Agent) (s : Session) : Prop :=
  ∃ id nextId deliveries, StepPath (Step agent) (start id nextId) deliveries s

theorem Reachable.start (agent : Agent) (id : SessionId) (nextId : Uuid) :
    Reachable agent (start id nextId) := ⟨id, nextId, [], .nil _⟩

theorem Reachable.step {agent : Agent} {s t : Session} {d : Delivery}
    (before : Reachable agent s) (step : Step agent s d t) : Reachable agent t := by
  obtain ⟨id, nextId, deliveries, path⟩ := before
  exact ⟨id, nextId, deliveries ++ [d], path.append (.single step)⟩

/-- What holds at the start and is kept by every step from a reachable session holds in every
reachable session. -/
theorem Reachable.induct {agent : Agent} {P : Session → Prop}
    (start : ∀ id nextId, P (Session.start id nextId))
    (keep : ∀ s d t, Reachable agent s → P s → Step agent s d t → P t) {s : Session}
    (reach : Reachable agent s) : P s := by
  obtain ⟨id, nextId, deliveries, path⟩ := reach
  have both := path.preserves (P := fun t => Reachable agent t ∧ P t)
    (fun s d t h step => ⟨h.1.step step, keep s d t h.1 h.2 step⟩)
    ⟨Reachable.start agent id nextId, start id nextId⟩
  exact both.2

/-- A session is running while it is neither failed nor being cancelled. -/
def Running (s : Session) : Prop := s.state.terminalFailure = none ∧ s.state.cancellation = none

end Session

end AgentPlatform.Harness
