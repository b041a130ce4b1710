import AgentPlatform.Harness.ShellTools

/-!
# Running a tool plan

`tool_execution.rs`: `schedule_ready` submits what the active segment allows, and
`apply_completion` takes in the end of a submitted operation.

The file tools keep a state of their own and are a parameter here: no result of this development
depends on what they do.
-/

namespace AgentPlatform.Harness

/-! ## The file tools -/

/-- `PreparedFileOperation`. -/
structure PreparedFileOperation where
  request : Execution.Payload
  expectedGenerationId : Option Uuid
  progress : FileToolState

/-- `AppliedFileResult`. -/
inductive AppliedFileResult where
  | ready (progress : FileToolState)
  | completed (snapshot : ToolResultSnapshot)

/-- The functions of `filesystem_tools.rs`, with the publication of images that `apply_response`
asks the platform for. -/
structure FileTools where
  prepareNew : ToolCallState → BasicCodexConfig →
    Except ToolResultSnapshot (Option PreparedFileOperation)
  prepareReady : FileToolState → BasicCodexConfig →
    Except ToolResultSnapshot PreparedFileOperation
  applyResponse : FileToolState → Execution.Response → Uuid → String →
    Except ToolResultSnapshot AppliedFileResult

/-- `filesystem_tools::apply_unknown`: only an interrupted patch can be looked after. -/
def applyFileUnknown (progress : FileToolState) (message : String) :
    Except ToolResultSnapshot AppliedFileResult :=
  let unknown : ToolResultSnapshot := ShellTools.toolErrorWithDetails "filesystem_unknown"
    ("filesystem operation outcome is unknown: " ++ message)
    (.object [("operation_outcome", .string "unknown")])
  match progress with
  | .applyPatch state =>
    if state.phase = .mutating then .ok (.ready (.applyPatch { state with phase := .reconciling }))
    else .error unknown
  | .viewImage _ => .error unknown

/-- A configured harness: the libraries, the file tools, the connections and the configuration. -/
structure Agent where
  lib : Foreign
  files : FileTools
  harness : BasicCodexHarness
  config : BasicCodexConfig

/-- What an invocation of the handler knows of its session and its moment. -/
structure Invocation where
  platformSessionId : SessionId
  timestampMs : Int

namespace ToolExecution

/-! ## Scheduling -/

/-- `PreparedCall`. -/
structure PreparedCall where
  ordinal : Nat
  request : Execution.Payload
  expectedGenerationId : Option Uuid
  progress : ToolCallProgress

def fromShell (ordinal : Nat) (operation : PreparedShellOperation) : PreparedCall where
  ordinal
  request := operation.request
  expectedGenerationId := operation.expectedGenerationId
  progress := .shell operation.progress

def fromFile (ordinal : Nat) (operation : PreparedFileOperation) : PreparedCall where
  ordinal
  request := operation.request
  expectedGenerationId := operation.expectedGenerationId
  progress := .filesystem operation.progress

/-- The session that a submitted call works on. -/
def submittedSession (call : ToolCallState) : Option Int :=
  match call.status with
  | .submitted _ progress => progress.sessionId
  | _ => none

/-- `submitted_resources`. -/
def submittedResources (plan : ToolPlanState) : List Int := plan.calls.filterMap submittedSession

/-- The session that the arguments of a `write_stdin` call name. -/
def inputSessionId : ToolInput → Option Int
  | .json value =>
    ((value.get "session_id").bind Value.asI64).filter fun n =>
      decide (-2 ^ 31 ≤ n ∧ n < 2 ^ 31)
  | .text _ => none

/-- `resource_session_id`: the session that a call works on or is about to. -/
def resourceSessionId (call : ToolCallState) : Option Int :=
  match call.status with
  | .ready progress => progress.sessionId
  | .submitted _ progress => progress.sessionId
  | .pending => if call.name = "write_stdin" then inputSessionId call.input else none
  | .completed _ => none

variable (agent : Agent)

/-- What a call does next: nothing while it is submitted or completed, else an operation or an
immediate end. -/
def prepareCall (executions : List TrackedExecution) (invocation : Invocation) (turnId : Uuid)
    (call : ToolCallState) (ordinal : Nat) (draw : Uuid) :
    Option (Except ToolResultSnapshot PreparedCall) :=
  match call.status with
  | .pending => some <|
    match ShellTools.prepareNew agent.lib call agent.config executions
        invocation.platformSessionId turnId invocation.timestampMs draw with
    | .ok (some operation) => .ok (fromShell ordinal operation)
    | .ok none =>
      match agent.files.prepareNew call agent.config with
      | .ok (some operation) => .ok (fromFile ordinal operation)
      | .ok none => .error (ShellTools.toolError "tool_not_implemented"
          (call.name ++ " is not implemented yet"))
      | .error snapshot => .error snapshot
    | .error snapshot => .error snapshot
  | .ready (.shell progress) =>
    some ((ShellTools.prepareReady progress).map (fromShell ordinal))
  | .ready (.filesystem progress) =>
    some ((agent.files.prepareReady progress agent.config).map (fromFile ordinal))
  | .submitted .. => none
  | .completed _ => none

/-- What one pass over a segment collects. -/
structure Round where
  plan : ToolPlanState
  busy : List Int
  prepared : List PreparedCall
  completedImmediately : Bool
  nextId : Uuid

/-- A pass over the active segment before its first call. -/
def Round.start (plan : ToolPlanState) (nextId : Uuid) : Round :=
  { plan, busy := submittedResources plan, prepared := [], completedImmediately := false, nextId }

/-- One call of the pass. A call whose session is busy waits. -/
def visit (executions : List TrackedExecution) (invocation : Invocation) (turnId : Uuid)
    (round : Round) (ordinal : Nat) : Except HandlerError Round :=
  match round.plan.calls[ordinal]? with
  | none => .error { message := "tool plan contains an invalid call ordinal" }
  | some call =>
    let resource := resourceSessionId call
    if resource.any round.busy.contains then .ok round
    else
      match prepareCall agent executions invocation turnId call ordinal round.nextId with
      | none => .ok round
      | some (.error snapshot) =>
        .ok { round with
          plan := round.plan.setStatus ordinal (.completed snapshot)
          completedImmediately := true
          nextId := round.nextId + 1 }
      | some (.ok prepared) =>
        .ok { round with
          busy := (resource.or prepared.progress.sessionId).toList ++ round.busy
          prepared := round.prepared ++ [prepared]
          nextId := round.nextId + 1 }

/-- A prepared call becomes an operation. -/
def submit {S : Type} (result : ToolPlanState × OutcomeBuilder S) (prepared : PreparedCall) :
    ToolPlanState × OutcomeBuilder S :=
  let (operationId, builder) := result.2.requestExecution agent.harness.executionConnectionId
    agent.config.machineId prepared.expectedGenerationId prepared.request
  (result.1.setStatus prepared.ordinal (.submitted operationId prepared.progress), builder)

/-- The loop of `schedule_ready`, for as many rounds as it is given. A round in which every call
ended at once is followed by another. -/
def scheduleLoop {S : Type} (executions : List TrackedExecution) (invocation : Invocation)
    (turnId : Uuid) :
    Nat → ToolPlanState → OutcomeBuilder S → Except HandlerError (ToolPlanState × OutcomeBuilder S)
  | 0, plan, result => .ok (plan, result)
  | rounds + 1, plan, result =>
    match plan.currentSegment with
    | none => .ok (plan, result)
    | some segment =>
      match segment.callOrdinals.foldlM (visit agent executions invocation turnId)
          (Round.start plan result.nextId) with
      | .error failure => .error failure
      | .ok round =>
        let result := { result with nextId := round.nextId }
        if round.prepared.isEmpty then
          if round.completedImmediately then
            scheduleLoop executions invocation turnId rounds round.plan.advanceCompletedSegments
              result
          else .ok (round.plan, result)
        else .ok (round.prepared.foldl (submit agent) (round.plan, result))

/-- `schedule_ready`. Every round but the last completes a call, so one more than there are calls
are enough. -/
def scheduleReady (result : OutcomeBuilder BasicCodexState) (invocation : Invocation) :
    Except HandlerError (OutcomeBuilder BasicCodexState) :=
  match result.state.activeTurn with
  | none => .error { message := "tool scheduling requires an active turn" }
  | some active =>
    match active.phase with
    | .executingTools plan =>
      match scheduleLoop agent result.state.executions invocation active.id
          (plan.calls.length + 1) plan result with
      | .error failure => .error failure
      | .ok (plan, result) =>
        .ok (result.setState { result.state with
          activeTurn := some { active with phase := .executingTools plan } })
    | _ => .error { message := "tool scheduling requires an executing-tools phase" }

/-! ## Completions -/

/-- The submitted call of an operation, and its progress. -/
def submittedCall (plan : ToolPlanState) (operationId : OperationId) :
    Option (ToolCallState × ToolCallProgress) :=
  plan.calls.findSome? fun call =>
    match call.status with
    | .submitted submitted progress =>
      if submitted = operationId then some (call, progress) else none
    | _ => none

/-- `apply_response`, with the executions that it leaves tracked. -/
def applyResponse (progress : ToolCallProgress) (response : Execution.Response)
    (state : BasicCodexState) (turnId : Uuid) (callId : String) (completedAtMs : Int) :
    ToolCallStatus × BasicCodexState :=
  match progress with
  | .shell progress =>
    match ShellTools.applyResponse agent.lib progress response state turnId completedAtMs with
    | .ok (.ready progress, state) => (.ready (.shell progress), state)
    | .ok (.completed snapshot, state) => (.completed snapshot, state)
    | .error snapshot => (.completed snapshot, state)
  | .filesystem progress =>
    match agent.files.applyResponse progress response turnId callId with
    | .ok (.ready progress) => (.ready (.filesystem progress), state)
    | .ok (.completed snapshot) => (.completed snapshot, state)
    | .error snapshot => (.completed snapshot, state)

/-- The details of a tool result after a failed or unknown operation. -/
def failureDetails (word : String) (failure : OperationFailure) : Value :=
  .object [("operation_outcome", .string word), ("failure", agent.lib.failureValue failure)]

/-- What the end of its operation makes of a submitted call. -/
def applyOutcome (progress : ToolCallProgress) (outcome : OperationOutcome)
    (state : BasicCodexState) (turnId : Uuid) (callId : String) (completedAtMs : Int) :
    Except HandlerError (ToolCallStatus × BasicCodexState) :=
  match outcome with
  | .succeeded (.execution response) =>
    .ok (applyResponse agent progress response state turnId callId completedAtMs)
  | .succeeded _ =>
    .error { message := "successful execution operation contains a non-execution result" }
  | .failed failure =>
    match failure.executionResponse with
    | some response =>
      .ok (applyResponse agent progress response state turnId callId completedAtMs)
    | none =>
      .ok (.completed (ShellTools.toolErrorWithDetails failure.code
        ("execution gateway rejected the operation: " ++ failure.message)
        (failureDetails agent "failed" failure)), state)
  | .unknown failure =>
    match progress with
    | .filesystem progress =>
      match applyFileUnknown progress failure.message with
      | .ok (.ready progress) => .ok (.ready (.filesystem progress), state)
      | .ok (.completed snapshot) => .ok (.completed snapshot, state)
      | .error snapshot => .ok (.completed snapshot, state)
    | .shell _ =>
      .ok (.completed (ShellTools.toolErrorWithDetails "execution_unknown"
        ("execution outcome is unknown; do not automatically repeat the command or input: " ++
          failure.message) (failureDetails agent "unknown" failure)), state)
  | .cancelled =>
    .ok (.completed (ShellTools.toolError "execution_cancelled"
      "execution operation was cancelled"), state)

/-- `apply_completion`. -/
def applyCompletion (state : BasicCodexState) (operationId : OperationId)
    (outcome : OperationOutcome) (completedAtMs : Int) : Except HandlerError BasicCodexState :=
  match state.activeTurn with
  | none => .error { message := "execution completion has no active turn" }
  | some active =>
    match active.phase with
    | .executingTools plan =>
      match submittedCall plan operationId with
      | none =>
        .error { message := "execution completion does not match a submitted tool call" }
      | some (call, progress) =>
        match applyOutcome agent progress outcome state active.id call.callId completedAtMs with
        | .error failure => .error failure
        | .ok (status, state) =>
          let plan := (plan.setStatus call.ordinal status).advanceCompletedSegments
          .ok { state with activeTurn := some { active with phase := .executingTools plan } }
    | _ =>
      .error { message := "execution completion arrived outside the executing-tools phase" }

end ToolExecution

end AgentPlatform.Harness
