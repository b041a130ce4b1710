import AgentPlatform.Harness.Llm

/-!
# Cancellation

`cancellation.rs`: once a cancellation is requested, the harness withdraws what it has in flight,
interrupts the processes it knows of, and waits until all of that has an end.

The functions of the source reach the cancellation state through the harness's state and expect it
to be there; here it stands beside the outcome until the status is set.
-/

namespace AgentPlatform.Harness

/-- The outcome of an invocation during a cancellation, and the cancellation state. -/
structure Cleanup where
  result : OutcomeBuilder BasicCodexState
  cancellation : CancellationState

namespace Cleanup

def setTargets (c : Cleanup) (targets : List CancellationTarget) : Cleanup :=
  { c with cancellation := { c.cancellation with targets } }

def setProcesses (c : Cleanup) (processes : List ProcessCleanup) : Cleanup :=
  { c with cancellation := { c.cancellation with processes } }

def setDiscovery (c : Cleanup) (discovery : Option ProcessDiscovery) : Cleanup :=
  { c with cancellation := { c.cancellation with discovery } }

/-- `targets[index].control = control`. -/
def setControl (c : Cleanup) (index : Nat) (control : CancellationControl) : Cleanup :=
  c.setTargets (c.cancellation.targets.modify index fun target => { target with control })

/-- `record_cleanup_failure`. -/
def recordCleanupFailure (c : Cleanup) (operationId : OperationId) (code message : String) :
    Cleanup :=
  { c with cancellation := { c.cancellation with
      cleanupFailures := c.cancellation.cleanupFailures ++ [{ operationId, code, message }] } }

end Cleanup

/-- Whether an outcome, where it is a success, holds a result of a kind. -/
def succeedsAs (kind : OperationKind) : OperationOutcome → Bool
  | .succeeded result => result.kind == kind
  | _ => true

/-- Whether a control operation of this identifier is awaited by a target. -/
def CancellationControl.awaits (control : CancellationControl) (operationId : OperationId) :
    Bool :=
  match control with
  | .withdrawalRequested requested => requested == operationId
  | .llmCancellationRequested requested _ => requested == operationId
  | _ => false

/-- Whether a control operation of this identifier is awaited by a process. -/
def ProcessCleanupControl.awaits (control : ProcessCleanupControl) (operationId : OperationId) :
    Bool :=
  match control with
  | .interruptRequested requested => requested == operationId
  | .terminateRequested requested _ => requested == operationId
  | .settled => false

/-- The kind of the operations that a kind of target has. -/
def CancellationTargetKind.operationKind : CancellationTargetKind → OperationKind
  | .llm => .llm
  | .execution => .execution

namespace Cancellation

/-- `MAX_CLEANUP_ATTEMPTS`. -/
def maxCleanupAttempts : Nat := 2

/-- `TERMINATION_GRACE_MS`. -/
def terminationGraceMs : Nat := 2000

variable (agent : Agent)

/-! ## What is outstanding -/

/-- `target_for_control`. -/
def targetForControl (cancellation : CancellationState) (operationId : OperationId) :
    Except HandlerError Nat :=
  match cancellation.targets.findIdx? fun target =>
      target.control.awaits operationId with
  | some index => .ok index
  | none => .error { message := "completion does not match a cancellation control operation" }

/-- `process_for_control`, where there is such a process, and `is_process_control`. -/
def processForControl (cancellation : CancellationState) (operationId : OperationId) :
    Option Nat :=
  cancellation.processes.findIdx? fun process =>
    process.control.awaits operationId

/-- `is_discovery`. -/
def isDiscovery (cancellation : CancellationState) (operationId : OperationId) : Bool :=
  cancellation.discovery.any fun discovery => discovery.operationId == operationId

/-- Whether nothing more is expected of a target. -/
def targetComplete (target : CancellationTarget) : Bool :=
  target.control == .settled ||
    (target.originalCompleted && target.control == .awaitingCompletion)

/-- `cancellation_complete`. -/
def cancellationComplete (cancellation : CancellationState) : Bool :=
  cancellation.discovery.isNone && cancellation.targets.all targetComplete &&
    cancellation.processes.all fun process => process.control == .settled

/-- `set_lifecycle_status`, which ends the work on the cancellation state. -/
def setLifecycleStatus (c : Cleanup) (emitCompletion : Bool) : OutcomeBuilder BasicCodexState :=
  let state := { c.result.state with cancellation := some c.cancellation }
  if cancellationComplete c.cancellation then
    let wasActive := state.activeTurn.isSome
    let result := c.result.setState { state with activeTurn := none, executions := [] }
    let result :=
      if emitCompletion && wasActive then
        result.emitProgress (.object [("type", .string "cancellation_completed")])
      else result
    result.setStatus .cancelled
  else (c.result.setState state).setStatus .cancelling

/-! ## Staging -/

/-- `stage_interrupt`: one interrupt for each process. -/
def stageInterrupt (sequence : EventSequence) (c : Cleanup) (sessionId : Option Int)
    (handle : Execution.ExecutionHandle) : Cleanup :=
  if c.cancellation.processes.any (·.handle == handle) then c
  else
    let (operationId, result) := c.result.requestExecution agent.harness.executionConnectionId
      agent.config.machineId (some handle.generationId)
      (.single (.interrupt handle
        ("cancel-" ++ toString sequence ++ "-" ++ handle.id.toText)))
    let c : Cleanup := { c with result }
    c.setProcesses (c.cancellation.processes ++
      [{ sessionId, handle, control := .interruptRequested operationId }])

/-- The interrupts of the processes that are reported and not finished. -/
def stageInterrupts (sequence : EventSequence) (c : Cleanup)
    (processes : List Execution.Execution) : Cleanup :=
  processes.foldl (fun c execution =>
    if execution.state = .finished then c
    else stageInterrupt agent sequence c none execution.handle) c

/-- `stage_terminate`. -/
def stageTerminate (c : Cleanup) (index : Nat) (handle : Execution.ExecutionHandle)
    (attempt : Nat) : Cleanup :=
  let (operationId, result) := c.result.requestExecution agent.harness.executionConnectionId
    agent.config.machineId (some handle.generationId)
    (.single (.terminate handle terminationGraceMs))
  let c : Cleanup := { c with result }
  c.setProcesses (c.cancellation.processes.modify index fun process =>
    { process with control := .terminateRequested operationId attempt })

/-- `stage_discovery`. -/
def stageDiscovery (platformSessionId : SessionId) (c : Cleanup) (attempt : Nat) : Cleanup :=
  let labels := ("agent_session_id", platformSessionId.toText) ::
    (c.cancellation.turnId.map fun turnId => ("agent_turn_id", turnId.toText)).toList
  let (operationId, result) := c.result.requestExecution agent.harness.executionConnectionId
    agent.config.machineId none
    (.single (.list { labels, limit := 50, pageCursor := none }))
  let c : Cleanup := { c with result }
  c.setDiscovery (some { operationId, attempt })

/-! ## Beginning -/

/-- What the active turn has in flight, and of which kind. -/
def inFlight (state : BasicCodexState) :
    Except HandlerError (List (OperationId × CancellationTargetKind)) :=
  match state.activeTurn with
  | none => .ok []
  | some active =>
    match active.phase with
    | .awaitingLlm awaiting => .ok [(awaiting.operationId, .llm)]
    | .compacting compaction => .ok [(compaction.operationId, .llm)]
    | .executingTools plan =>
      .ok (plan.calls.filterMap fun call =>
        match call.status with
        | .submitted operationId _ => some (operationId, .execution)
        | _ => none)
    | .cancelling =>
      .error { message := "active turn is cancelling without durable cancellation state" }

/-- A target of a cancellation before its withdrawal. -/
def newTarget (target : OperationId × CancellationTargetKind) : CancellationTarget where
  operationId := target.1
  kind := target.2
  originalCompleted := false
  control := .awaitingCompletion

/-- The withdrawal of the target at an index. -/
def withdrawTarget (c : Cleanup) (index : Nat) : Cleanup :=
  match c.cancellation.targets[index]? with
  | none => c
  | some target =>
    let (controlId, result) := c.result.withdrawOperation target.operationId
    let c : Cleanup := { c with result }
    c.setControl index (.withdrawalRequested controlId)

/-- The turn that a cancellation interrupts. -/
def cancelTurn (active : ActiveTurn) : ActiveTurn :=
  { active with pendingSteering := [], phase := .cancelling }

/-- `begin`, in a session that is not being cancelled yet. -/
def begin (state : BasicCodexState) (reason : Option String) (sequence : EventSequence)
    (nextId : Uuid) : Except HandlerError (OutcomeBuilder BasicCodexState) :=
  match inFlight state with
  | .error failure => .error failure
  | .ok targets =>
    let cancellation : CancellationState := {
      reason
      requestedAtSequence := sequence
      turnId := state.activeTurn.map (·.id)
      targets := targets.map newTarget
      processes := []
      discovery := none
      cleanupFailures := [] }
    let state := { state with activeTurn := state.activeTurn.map cancelTurn }
    let c : Cleanup := { result := .new state nextId, cancellation }
    let c := (List.range targets.length).foldl withdrawTarget c
    let c := state.executions.foldl
      (fun c tracked => stageInterrupt agent sequence c (some tracked.sessionId) tracked.handle) c
    let c := { c with result := c.result.emitProgress (.object
      [("type", .string "cancellation_started"), ("targets", .nat targets.length),
        ("processes", .nat c.cancellation.processes.length)]) }
    .ok (setLifecycleStatus c true)

/-! ## Completions of controls -/

/-- `executions_from_outcome`: the processes that an outcome reports. -/
def executionsFromResult (lib : Foreign) (result : Value) : List Execution.Execution :=
  match (result.get "execution").bind lib.decodeExecution with
  | some execution => [execution]
  | none =>
    match (result.get "executions").bind lib.decodeExecutions with
    | some executions => executions
    | none => (lib.decodeExecution result).toList

/-- The response of the runtime that an outcome holds. -/
def responseOf : OperationOutcome → Option Execution.Response
  | .succeeded (.execution response) => some response
  | .failed failure => failure.executionResponse
  | .unknown failure => failure.executionResponse
  | _ => none

def executionsFromOutcome (lib : Foreign) (outcome : OperationOutcome) :
    List Execution.Execution :=
  match responseOf outcome with
  | some { outcome := .ok result, .. } => executionsFromResult lib result
  | _ => []

/-- `handle_withdrawal`. -/
def handleWithdrawal (c : Cleanup) (operationId : OperationId) (outcome : OperationOutcome) :
    Except HandlerError Cleanup :=
  match targetForControl c.cancellation operationId with
  | .error failure => .error failure
  | .ok index =>
    match outcome with
    | .succeeded (.withdraw true) =>
      .ok (c.setTargets (c.cancellation.targets.modify index fun target =>
        { target with originalCompleted := true, control := .settled }))
    | _ =>
      if succeedsAs .withdraw outcome then
        match c.cancellation.targets[index]? with
        | none => .error { message := "withdrawal target disappeared" }
        | some target =>
          match target.kind with
          | .llm =>
            let (controlId, result) := c.result.requestLlmCancellation target.operationId
            let c : Cleanup := { c with result }
            .ok (c.setControl index (.llmCancellationRequested controlId 1))
          | .execution =>
            .ok (c.setControl index
              (if target.originalCompleted then .settled else .awaitingCompletion))
      else .error { message := "successful withdrawal contains the wrong result kind" }

/-- `handle_llm_cancellation`. -/
def handleLlmCancellation (c : Cleanup) (operationId : OperationId) (outcome : OperationOutcome) :
    Except HandlerError Cleanup :=
  match targetForControl c.cancellation operationId with
  | .error failure => .error failure
  | .ok index =>
    match c.cancellation.targets[index]? with
    | some { operationId := targetId, control := .llmCancellationRequested _ attempt, .. } =>
      let again (failure : OperationFailure) : Cleanup :=
        if attempt < maxCleanupAttempts then
          let (next, result) := c.result.requestLlmCancellation targetId
          let c : Cleanup := { c with result }
          (c.setControl index (.llmCancellationRequested next (attempt + 1))).recordCleanupFailure
            operationId failure.code failure.message
        else
          (c.recordCleanupFailure operationId failure.code failure.message).setControl index
            .settled
      match outcome with
      | .succeeded (.llmCancellation _) => .ok (c.setControl index .settled)
      | .cancelled => .ok (c.setControl index .settled)
      | .failed failure => .ok (again failure)
      | .unknown failure => .ok (again failure)
      | .succeeded _ =>
        .error { message := "successful LLM cancellation contains the wrong result kind" }
    | _ => .error { message := "LLM cancellation target has an invalid control state" }

/-- What the end of its operation makes of a target. -/
def completeTarget (uncertain : Bool) (target : CancellationTarget) : CancellationTarget :=
  { target with
    originalCompleted := true
    control :=
      if uncertain then .awaitingDiscovery
      else if target.control = .awaitingCompletion then .settled
      else target.control }

/-- `handle_original_completion`. -/
def handleOriginalCompletion (platformSessionId : SessionId) (sequence : EventSequence)
    (c : Cleanup) (operationId : OperationId) (expectedKind : CancellationTargetKind)
    (outcome : OperationOutcome) : Except HandlerError Cleanup :=
  if succeedsAs (expectedKind.operationKind) outcome then
    match c.cancellation.targets.findIdx? (·.operationId == operationId) with
    | none => .error { message := "late operation completion is not a cancellation target" }
    | some index =>
      if c.cancellation.targets[index]?.any (·.kind != expectedKind) then
        .error { message := "late operation completion has the wrong target kind" }
      else
        let processes := executionsFromOutcome agent.lib outcome
        let uncertain := expectedKind == .execution && outcome.status == .unknown &&
          processes.isEmpty
        let c := stageInterrupts agent sequence c processes
        let c := c.setTargets (c.cancellation.targets.modify index (completeTarget uncertain))
        if uncertain ∧ c.cancellation.discovery.isNone then
          .ok (stageDiscovery agent platformSessionId c 1)
        else .ok c
  else .error { message := "successful late operation contains the wrong result kind" }

/-- `settle_process`. -/
def settleProcess (c : Cleanup) (index : Nat) (sessionId : Option Int) : Cleanup :=
  let c := c.setProcesses (c.cancellation.processes.modify index fun process =>
    { process with control := .settled })
  match sessionId with
  | none => c
  | some sessionId =>
    { c with result := c.result.setState { c.result.state with
        executions := c.result.state.executions.filter (·.sessionId != sessionId) } }

/-- The answer to an interrupt: the process is finished, or has to be terminated. -/
def handleInterrupt (c : Cleanup) (index : Nat) (process : ProcessCleanup)
    (outcome : OperationOutcome) : Cleanup :=
  if (executionsFromOutcome agent.lib outcome).any (·.state == .finished) then
    settleProcess c index process.sessionId
  else stageTerminate agent c index process.handle 1

/-- The answer to a termination: the process is settled, or terminated once more. -/
def handleTerminate (sequence : EventSequence) (c : Cleanup) (index : Nat)
    (process : ProcessCleanup) (operationId : OperationId) (attempt : Nat)
    (outcome : OperationOutcome) : Cleanup :=
  let again (failure : OperationFailure) : Cleanup :=
    let c := c.recordCleanupFailure operationId failure.code failure.message
    if attempt < maxCleanupAttempts then
      stageTerminate agent c index process.handle (attempt + 1)
    else
      let c := settleProcess c index process.sessionId
      { c with result := c.result.emitProgress (.object
        [("type", .string "cancellation_cleanup_failed"),
          ("handle", .object [("id", .uuid process.handle.id),
            ("generation_id", .uuid process.handle.generationId)]),
          ("attempts", .nat attempt), ("requested_at_sequence", .nat sequence)]) }
  match outcome with
  | .succeeded _ => settleProcess c index process.sessionId
  | .cancelled => settleProcess c index process.sessionId
  | .failed failure => again failure
  | .unknown failure => again failure

/-- `handle_process_control`, of the process at an index. -/
def handleProcessControl (sequence : EventSequence) (c : Cleanup) (index : Nat)
    (operationId : OperationId) (outcome : OperationOutcome) : Except HandlerError Cleanup :=
  if succeedsAs .execution outcome then
    match c.cancellation.processes[index]? with
    | none => .error { message := "completion does not match a process cleanup operation" }
    | some process =>
      match process.control with
      | .interruptRequested _ => .ok (handleInterrupt agent c index process outcome)
      | .terminateRequested _ attempt =>
        .ok (handleTerminate agent sequence c index process operationId attempt outcome)
      | .settled => .ok c
  else .error { message := "successful process cleanup contains the wrong result kind" }

/-- A target that waited for the discovery that has now ended. -/
def discovered (target : CancellationTarget) : CancellationTarget :=
  if target.control = .awaitingDiscovery then { target with control := .settled } else target

/-- The code and message of a failure that an outcome reports. -/
def failureOf : OperationOutcome → Option OperationFailure
  | .failed failure => some failure
  | .unknown failure => some failure
  | _ => none

/-- `handle_discovery`, of the discovery at hand. -/
def handleDiscovery (platformSessionId : SessionId) (sequence : EventSequence) (c : Cleanup)
    (operationId : OperationId) (outcome : OperationOutcome) : Except HandlerError Cleanup :=
  if succeedsAs .execution outcome then
    match c.cancellation.discovery with
    | none => .error { message := "process discovery state disappeared" }
    | some discovery =>
      if outcome.status ≠ .succeeded ∧ discovery.attempt < maxCleanupAttempts then
        let c := match failureOf outcome with
          | some failure => c.recordCleanupFailure operationId failure.code failure.message
          | none => c
        .ok (stageDiscovery agent platformSessionId c (discovery.attempt + 1))
      else
        let c := (c.setDiscovery none).setTargets (c.cancellation.targets.map discovered)
        .ok (stageInterrupts agent sequence c (executionsFromOutcome agent.lib outcome))
  else .error { message := "successful process discovery contains the wrong result kind" }

/-- The part of `handle_completion` that a kind of operation has. -/
def applyCompletion (platformSessionId : SessionId) (sequence : EventSequence) (c : Cleanup)
    (operationId : OperationId) (kind : OperationKind) (outcome : OperationOutcome) :
    Except HandlerError Cleanup :=
  match kind with
  | .withdraw => handleWithdrawal c operationId outcome
  | .llmCancellation => handleLlmCancellation c operationId outcome
  | .llm =>
    handleOriginalCompletion agent platformSessionId sequence c operationId .llm outcome
  | .execution =>
    match processForControl c.cancellation operationId with
    | some index => handleProcessControl agent sequence c index operationId outcome
    | none =>
      if isDiscovery c.cancellation operationId then
        handleDiscovery agent platformSessionId sequence c operationId outcome
      else
        handleOriginalCompletion agent platformSessionId sequence c operationId .execution outcome

end Cancellation

end AgentPlatform.Harness
