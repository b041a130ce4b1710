import AgentPlatform.Contracts.Operation

/-!
# Events and handler outcomes

`agent-contracts/src/event.rs` and `outcome.rs`: the event that a handler gets and the outcome it
builds. `OutcomeBuilder` draws its identifiers from a supply, which the model carries in it.
-/

namespace AgentPlatform

/-! ## Events -/

inductive EventKind where
  | userMessage (message : Message)
  | operationCompleted (operationId : OperationId) (operationKind : OperationKind)
      (outcomeStatus : OperationOutcomeStatus)
  | cancellationRequested (reason : Option String)
  | waitResumed (waitId : WaitId) (reason : WaitResumeReason)
deriving Repr, Inhabited

/-- `SessionEvent`. Of its creation time a handler reads the milliseconds and the date. -/
structure SessionEvent where
  id : EventId
  sessionId : SessionId
  sequence : EventSequence
  timestampMillis : Int
  date : String
  kind : EventKind
deriving Repr, Inhabited

/-- `HandlerError`. -/
structure HandlerError where
  message : String
deriving DecidableEq, Repr, Inhabited

/-! ## Outcomes -/

structure StagedOperation where
  id : OperationId
  request : OperationRequest
deriving Repr, Inhabited

/-- `HandlerOutcome`. No modelled handler creates or cancels a wait. -/
structure HandlerOutcome (S : Type) where
  state : S
  history : List Message
  operations : List StagedOperation
  progress : List Value
  status : Option SessionStatus

/-- `OutcomeBuilder`: the outcome so far, and the next identifier of the supply. -/
structure OutcomeBuilder (S : Type) where
  outcome : HandlerOutcome S
  nextId : Uuid

namespace OutcomeBuilder

variable {S : Type}

def new (state : S) (nextId : Uuid) : OutcomeBuilder S where
  outcome := { state, history := [], operations := [], progress := [], status := none }
  nextId

def state (builder : OutcomeBuilder S) : S := builder.outcome.state

/-- `*state_mut() = state`. -/
def setState (builder : OutcomeBuilder S) (state : S) : OutcomeBuilder S :=
  { builder with outcome := { builder.outcome with state } }

/-- `Uuid::new_v4` while an outcome is built. -/
def draw (builder : OutcomeBuilder S) : Uuid × OutcomeBuilder S :=
  (builder.nextId, { builder with nextId := builder.nextId + 1 })

def appendMessage (builder : OutcomeBuilder S) (message : Message) : OutcomeBuilder S :=
  { builder with outcome := { builder.outcome with history := builder.outcome.history ++ [message] } }

def setStatus (builder : OutcomeBuilder S) (status : SessionStatus) : OutcomeBuilder S :=
  { builder with outcome := { builder.outcome with status := some status } }

def emitProgress (builder : OutcomeBuilder S) (payload : Value) : OutcomeBuilder S :=
  { builder with
    outcome := { builder.outcome with progress := builder.outcome.progress ++ [payload] } }

/-- `push_operation`: the identifier of the staged operation and the outcome with it. -/
def pushOperation (builder : OutcomeBuilder S) (request : OperationRequest) :
    OperationId × OutcomeBuilder S :=
  (builder.nextId,
    { outcome := { builder.outcome with
        operations := builder.outcome.operations ++ [{ id := builder.nextId, request }] }
      nextId := builder.nextId + 1 })

def requestLlm (builder : OutcomeBuilder S) (connection : GatewayConnectionId)
    (request : LlmRequest) : OperationId × OutcomeBuilder S :=
  builder.pushOperation (.llm connection request)

/-- `request_execution` and `request_execution_for_generation`. They refuse a shutdown of the
runtime, which no modelled payload holds. -/
def requestExecution (builder : OutcomeBuilder S) (connection : GatewayConnectionId)
    (machineId : Uuid) (expectedGenerationId : Option Uuid) (request : Execution.Payload) :
    OperationId × OutcomeBuilder S :=
  builder.pushOperation (.execution connection machineId expectedGenerationId request)

def requestLlmCancellation (builder : OutcomeBuilder S) (target : OperationId) :
    OperationId × OutcomeBuilder S :=
  builder.pushOperation (.llmCancellation target)

def withdrawOperation (builder : OutcomeBuilder S) (target : OperationId) :
    OperationId × OutcomeBuilder S :=
  builder.pushOperation (.withdraw target)

/-! ## What each function changes -/

@[simp] theorem setState_state (builder : OutcomeBuilder S) (state : S) :
    (builder.setState state).state = state := rfl

@[simp] theorem setState_history (builder : OutcomeBuilder S) (state : S) :
    (builder.setState state).outcome.history = builder.outcome.history := rfl

@[simp] theorem setState_operations (builder : OutcomeBuilder S) (state : S) :
    (builder.setState state).outcome.operations = builder.outcome.operations := rfl

@[simp] theorem setState_progress (builder : OutcomeBuilder S) (state : S) :
    (builder.setState state).outcome.progress = builder.outcome.progress := rfl

@[simp] theorem setState_status (builder : OutcomeBuilder S) (state : S) :
    (builder.setState state).outcome.status = builder.outcome.status := rfl

@[simp] theorem setState_nextId (builder : OutcomeBuilder S) (state : S) :
    (builder.setState state).nextId = builder.nextId := rfl

@[simp] theorem appendMessage_state (builder : OutcomeBuilder S) (message : Message) :
    (builder.appendMessage message).state = builder.state := rfl

@[simp] theorem appendMessage_history (builder : OutcomeBuilder S) (message : Message) :
    (builder.appendMessage message).outcome.history = builder.outcome.history ++ [message] := rfl

@[simp] theorem appendMessage_operations (builder : OutcomeBuilder S) (message : Message) :
    (builder.appendMessage message).outcome.operations = builder.outcome.operations := rfl

@[simp] theorem appendMessage_progress (builder : OutcomeBuilder S) (message : Message) :
    (builder.appendMessage message).outcome.progress = builder.outcome.progress := rfl

@[simp] theorem appendMessage_status (builder : OutcomeBuilder S) (message : Message) :
    (builder.appendMessage message).outcome.status = builder.outcome.status := rfl

@[simp] theorem appendMessage_nextId (builder : OutcomeBuilder S) (message : Message) :
    (builder.appendMessage message).nextId = builder.nextId := rfl

@[simp] theorem setStatus_state (builder : OutcomeBuilder S) (status : SessionStatus) :
    (builder.setStatus status).state = builder.state := rfl

@[simp] theorem setStatus_history (builder : OutcomeBuilder S) (status : SessionStatus) :
    (builder.setStatus status).outcome.history = builder.outcome.history := rfl

@[simp] theorem setStatus_operations (builder : OutcomeBuilder S) (status : SessionStatus) :
    (builder.setStatus status).outcome.operations = builder.outcome.operations := rfl

@[simp] theorem setStatus_progress (builder : OutcomeBuilder S) (status : SessionStatus) :
    (builder.setStatus status).outcome.progress = builder.outcome.progress := rfl

@[simp] theorem setStatus_status (builder : OutcomeBuilder S) (status : SessionStatus) :
    (builder.setStatus status).outcome.status = some status := rfl

@[simp] theorem setStatus_nextId (builder : OutcomeBuilder S) (status : SessionStatus) :
    (builder.setStatus status).nextId = builder.nextId := rfl

@[simp] theorem emitProgress_state (builder : OutcomeBuilder S) (payload : Value) :
    (builder.emitProgress payload).state = builder.state := rfl

@[simp] theorem emitProgress_history (builder : OutcomeBuilder S) (payload : Value) :
    (builder.emitProgress payload).outcome.history = builder.outcome.history := rfl

@[simp] theorem emitProgress_operations (builder : OutcomeBuilder S) (payload : Value) :
    (builder.emitProgress payload).outcome.operations = builder.outcome.operations := rfl

@[simp] theorem emitProgress_progress (builder : OutcomeBuilder S) (payload : Value) :
    (builder.emitProgress payload).outcome.progress = builder.outcome.progress ++ [payload] := rfl

@[simp] theorem emitProgress_status (builder : OutcomeBuilder S) (payload : Value) :
    (builder.emitProgress payload).outcome.status = builder.outcome.status := rfl

@[simp] theorem emitProgress_nextId (builder : OutcomeBuilder S) (payload : Value) :
    (builder.emitProgress payload).nextId = builder.nextId := rfl

@[simp] theorem new_state (state : S) (nextId : Uuid) :
    (OutcomeBuilder.new state nextId).state = state := rfl

@[simp] theorem new_history (state : S) (nextId : Uuid) :
    (OutcomeBuilder.new state nextId).outcome.history = [] := rfl

@[simp] theorem new_operations (state : S) (nextId : Uuid) :
    (OutcomeBuilder.new state nextId).outcome.operations = [] := rfl

@[simp] theorem new_progress (state : S) (nextId : Uuid) :
    (OutcomeBuilder.new state nextId).outcome.progress = [] := rfl

@[simp] theorem new_nextId (state : S) (nextId : Uuid) :
    (OutcomeBuilder.new state nextId).nextId = nextId := rfl

@[simp] theorem outcome_state (builder : OutcomeBuilder S) :
    builder.outcome.state = builder.state := rfl

end OutcomeBuilder

end AgentPlatform
