import AgentPlatform.Harness.Cancellation

/-!
# The handler

`failure.rs` and `handler.rs`: what the harness does with one event of a session.
-/

namespace AgentPlatform.Harness

/-! ## Failure -/

/-- `FailureDetails`. -/
structure FailureDetails where
  phase : FailurePhase
  operationId : Option OperationId
  source : Option FailureSource
  code : String
  message : String
  attempts : Nat
  eventSequence : EventSequence

namespace Failure

/-- `FailureDetails::operation`. -/
def operation (phase : FailurePhase) (operationId : OperationId) (failure : OperationFailure)
    (attempts : Nat) (eventSequence : EventSequence) : FailureDetails :=
  { phase, operationId := some operationId, source := some failure.source, code := failure.code,
    message := failure.message, attempts, eventSequence }

/-- `FailureDetails::malformed`. -/
def malformed (phase : FailurePhase) (operationId : OperationId) (message : String)
    (attempts : Nat) (eventSequence : EventSequence) : FailureDetails :=
  { phase, operationId := some operationId, source := some .protocol,
    code := "malformed_provider_response", message, attempts, eventSequence }

/-- `FailureDetails::local`. -/
def «local» (phase : FailurePhase) (operationId : Option OperationId) (code message : String)
    (attempts : Nat) (eventSequence : EventSequence) : FailureDetails :=
  { phase, operationId, source := none, code, message, attempts, eventSequence }

/-- The progress record of a failure. -/
def progress (details : FailureDetails) : Value :=
  .object [("type", .string "harness_failed"), ("phase", .string details.phase.asStr),
    ("operation_id", (details.operationId.map Value.uuid).getD .null),
    ("code", .string details.code), ("message", .string details.message),
    ("attempts", .nat details.attempts)]

/-- `apply_terminal`. -/
def applyTerminal (result : OutcomeBuilder BasicCodexState) (details : FailureDetails) :
    OutcomeBuilder BasicCodexState :=
  let result := result.setState { result.state with
    activeTurn := none
    terminalFailure := some {
      phase := details.phase
      operationId := details.operationId
      source := details.source
      code := details.code
      message := details.message
      attempts := details.attempts
      occurredAtSequence := details.eventSequence } }
  (result.emitProgress (progress details)).setStatus .failed

/-- `terminal`. -/
def terminal (state : BasicCodexState) (nextId : Uuid) (details : FailureDetails) :
    OutcomeBuilder BasicCodexState :=
  applyTerminal (.new state nextId) details

end Failure

/-! ## The context of an invocation -/

/-- What the handler reads of `OperationRecord`. -/
structure OperationRecord where
  kind : OperationKind
  outcome : Option OperationOutcome

/-- What the handler asks of `HarnessContext`. -/
structure HarnessContext where
  operation : OperationId → Except String (Option OperationRecord)
  historyThroughSequence : HistorySequence

namespace Handler

variable (agent : Agent)

/-! ## The context window -/

/-- `needs_compaction`. -/
def needsCompaction (state : BasicCodexState) : Bool :=
  autoCompactLimit ≤ state.contextWindow.estimatedTokens.getD
    (Compaction.estimateRequestTokens agent state.contextWindow.modelHistory)

/-- `extend_projection`. -/
def extendProjection (state : BasicCodexState) (messages : List Message) : BasicCodexState :=
  { state with contextWindow := { state.contextWindow with
      estimatedTokens := state.contextWindow.estimatedTokens.map fun estimate =>
        saturatingAdd estimate (Compaction.estimateMessages agent.lib messages)
      modelHistory := state.contextWindow.modelHistory ++ messages } }

/-- `add_latest_projection_estimate`. -/
def addLatestProjectionEstimate (state : BasicCodexState) : BasicCodexState :=
  let window := state.contextWindow
  match window.estimatedTokens with
  | none =>
    { state with contextWindow := { window with
        estimatedTokens := some (Compaction.estimateRequestTokens agent window.modelHistory) } }
  | some estimate =>
    match window.modelHistory.getLast? with
    | some message =>
      { state with contextWindow := { window with
          estimatedTokens := some
            (saturatingAdd estimate (Compaction.estimateMessageTokens agent.lib message)) } }
    | none => state

/-- A message at the end of the conversation, the estimate left alone. -/
def pushMessage (state : BasicCodexState) (message : Message) : BasicCodexState :=
  { state with contextWindow := { state.contextWindow with
      modelHistory := state.contextWindow.modelHistory ++ [message] } }

/-- `advance_history_sequence`. -/
def advanceHistorySequence (sequence : HistorySequence) (addedEntries : Nat) :
    Except HandlerError HistorySequence :=
  if 2 ^ 63 ≤ addedEntries then
    .error { message := "too many history entries to advance the compaction boundary" }
  else if 2 ^ 63 ≤ sequence + addedEntries then
    .error { message := "compaction history boundary overflowed" }
  else .ok (sequence + addedEntries)

/-! ## Requests -/

/-- The next request of a turn, over the conversation so far. -/
def requestTurn (result : OutcomeBuilder BasicCodexState) (platformSessionId : SessionId)
    (active : ActiveTurn) : OutcomeBuilder BasicCodexState :=
  let (operationId, result) := result.requestLlm agent.harness.llmConnectionId
    (Llm.freshRequest agent
      { sessionId := platformSessionId, currentDate := active.currentDate }
      result.state.contextWindow.modelHistory)
  result.setState { result.state with
    activeTurn := some { active with phase := .awaitingLlm { operationId, purpose := .turn } } }

/-- The request to compact the conversation so far. -/
def requestCompaction (result : OutcomeBuilder BasicCodexState) (platformSessionId : SessionId)
    (active : ActiveTurn) (compaction : OperationId → CompactionState) :
    OutcomeBuilder BasicCodexState :=
  let (operationId, result) := result.requestLlm agent.harness.llmConnectionId
    (Llm.compactionRequest agent
      { sessionId := platformSessionId, currentDate := active.currentDate }
      result.state.contextWindow.modelHistory)
  result.setState { result.state with
    activeTurn := some { active with phase := .compacting (compaction operationId) } }

/-- The progress record of a compaction. -/
def compactionStarted (trigger : CompactionTrigger) : Value :=
  .object [("type", .string "context_compaction_started"), ("trigger", .string trigger.asStr)]

/-- `stage_compaction`. -/
def stageCompaction (result : OutcomeBuilder BasicCodexState)
    (historyThroughSequence : HistorySequence) (trigger : CompactionTrigger)
    (platformSessionId : SessionId) : Except HandlerError (OutcomeBuilder BasicCodexState) :=
  match result.state.activeTurn with
  | none => .error { message := "cannot build an LLM request without an active turn" }
  | some active =>
    let sourceProjectionSha256 :=
      Compaction.projectionSha256 agent.lib result.state.contextWindow.modelHistory
    let result := requestCompaction agent result platformSessionId active fun operationId => {
      operationId
      sourceThroughSequence := historyThroughSequence
      sourceProjectionSha256
      attempt := 1
      trigger
      initialInput := none }
    .ok ((result.emitProgress (compactionStarted trigger)).setStatus .running)

/-- `stage_after_boundary`: compact first if the conversation is too long, else go on with the
messages that arrived meanwhile. -/
def stageAfterBoundary (result : OutcomeBuilder BasicCodexState)
    (historyThroughSequence : HistorySequence) (platformSessionId : SessionId) :
    Except HandlerError (OutcomeBuilder BasicCodexState) :=
  if needsCompaction agent result.state then
    stageCompaction agent result historyThroughSequence .midTurn platformSessionId
  else
    match result.state.activeTurn with
    | none => .error { message := "active turn disappeared at an LLM boundary" }
    | some active =>
      let state := extendProjection agent result.state (active.pendingSteering.map (·.message))
      let result := requestTurn agent (result.setState state) platformSessionId
        { active with pendingSteering := [] }
      .ok (result.setStatus .running)

/-- Tool results, in the conversation and in the platform's history. -/
def appendResults (result : OutcomeBuilder BasicCodexState) (messages : List Message) :
    OutcomeBuilder BasicCodexState :=
  messages.foldl OutcomeBuilder.appendMessage
    (result.setState (extendProjection agent result.state messages))

/-- `finish_completed_tool_plan`: the boundary after a plan, once the plan is complete. -/
def finishCompletedToolPlan (result : OutcomeBuilder BasicCodexState)
    (historyThroughSequence : HistorySequence) (platformSessionId : SessionId) :
    Except HandlerError (Bool × OutcomeBuilder BasicCodexState) :=
  match result.state.activeTurn with
  | none => .error { message := "tool completion has no active turn" }
  | some active =>
    match active.phase with
    | .executingTools plan =>
      if plan.isComplete then
        match plan.orderedResultMessages agent.lib with
        | .error failure => .error { message := failure.message }
        | .ok messages => do
          let sourceThroughSequence ← advanceHistorySequence historyThroughSequence messages.length
          let result ← stageAfterBoundary agent (appendResults agent result messages)
            sourceThroughSequence platformSessionId
          return (true, result)
      else .ok (false, result)
    | _ => .error { message := "tool completion has no active tool plan" }

/-- The rest of an invocation that runs a plan: submit what is ready, then the boundary if the
plan is complete. -/
def runPlan (result : OutcomeBuilder BasicCodexState) (historyThroughSequence : HistorySequence)
    (invocation : Invocation) : Except HandlerError (OutcomeBuilder BasicCodexState) := do
  let result ← ToolExecution.scheduleReady agent result invocation
  let (finished, result) ← finishCompletedToolPlan agent result historyThroughSequence
    invocation.platformSessionId
  if finished then return result else return result.setStatus .running

/-! ## User messages -/

/-- `handle_user_message`. -/
def handleUserMessage (state : BasicCodexState) (message : Message) (event : SessionEvent)
    (historyThroughSequence : HistorySequence) (nextId : Uuid) :
    Except HandlerError (OutcomeBuilder BasicCodexState) :=
  if !message.isUser then
    .error { message := "user_message event did not contain a user message" }
  else
    match state.activeTurn with
    | some active =>
      let steering : SteeringMessage :=
        { eventId := event.id, eventSequence := event.sequence, message }
      let active := { active with pendingSteering := active.pendingSteering ++ [steering] }
      .ok ((OutcomeBuilder.new { state with activeTurn := some active } nextId).appendMessage
        message)
    | none =>
      let result := (OutcomeBuilder.new state nextId).appendMessage message
      let (activeTurnId, result) := result.draw
      let active (phase : TurnPhase) : ActiveTurn := {
        id := activeTurnId
        startedAtSequence := event.sequence
        currentDate := event.date
        phase
        pendingSteering := []
        retry := .default }
      if needsCompaction agent state then
        let sourceProjectionSha256 :=
          Compaction.projectionSha256 agent.lib state.contextWindow.modelHistory
        let result := requestCompaction agent result event.sessionId (active .cancelling)
          fun operationId => {
            operationId
            sourceThroughSequence := historyThroughSequence
            sourceProjectionSha256
            attempt := 1
            trigger := .preTurn
            initialInput := some message }
        .ok ((result.emitProgress (compactionStarted .preTurn)).setStatus .running)
      else
        let state := addLatestProjectionEstimate agent (pushMessage state message)
        -- the phase is replaced as the request is staged
        let result := requestTurn agent (result.setState state) event.sessionId
          (active .cancelling)
        .ok (result.setStatus .running)

/-! ## Completions of the model -/

/-- `saturating_add(1)` of a `u32`. -/
def nextAttempt (attempts : Nat) : Nat := min (attempts + 1) (2 ^ 32 - 1)

/-- The attempts of the active turn, the current one included. -/
def turnAttempts (state : BasicCodexState) : Nat :=
  (state.activeTurn.map fun turn => nextAttempt turn.retry.llmAttempts).getD 1

/-- What an accepted response leaves in the context window. -/
def recordResponse (state : BasicCodexState) (response : AssistantResponse) : BasicCodexState :=
  let state := pushMessage state response.message
  match Llm.estimatedContextTokens response.usage with
  | some tokens =>
    { state with contextWindow := { state.contextWindow with estimatedTokens := some tokens } }
  | none => state

/-- The part of `handle_llm_outcome` after a response without tool calls. -/
def handleStopReason (result : OutcomeBuilder BasicCodexState) (operationId : OperationId)
    (stopReason : StopReason) (event : SessionEvent) (historyThroughSequence : HistorySequence) :
    Except HandlerError (OutcomeBuilder BasicCodexState) :=
  let boundary : Except HandlerError (OutcomeBuilder BasicCodexState) := do
    let sourceThroughSequence ← advanceHistorySequence historyThroughSequence 1
    stageAfterBoundary agent result sourceThroughSequence event.sessionId
  let ended (code : String) : OutcomeBuilder BasicCodexState :=
    Failure.applyTerminal result (Failure.local .stopReason (some operationId) code
      ("LLM turn ended with terminal stop reason " ++ ToolPlan.stopReasonText stopReason) 1
      event.sequence)
  match stopReason with
  | .stop | .refusal =>
    if result.state.activeTurn.any (!·.pendingSteering.isEmpty) then boundary
    else
      .ok ((result.setState { result.state with activeTurn := none }).setStatus .idle)
  | .pauseTurn => boundary
  | .length => .ok (ended "output_length")
  | .contentFilter => .ok (ended "content_filter")
  | .toolUse => .error { message := "tool_use without a plan is rejected above" }

/-- The part of `handle_llm_outcome` after a response that the provider check accepts. -/
def handleResponse (state : BasicCodexState) (operationId : OperationId)
    (response : AssistantResponse) (event : SessionEvent)
    (historyThroughSequence : HistorySequence) (nextId : Uuid) :
    Except HandlerError (OutcomeBuilder BasicCodexState) :=
  let plan := ToolPlan.parse agent.lib operationId response.message response.stopReason
  let result := (OutcomeBuilder.new (recordResponse state response) nextId).appendMessage
    response.message
  match plan with
  | .error failure =>
    .ok (Failure.applyTerminal result (Failure.local .toolPlanning (some operationId)
      "tool_plan_rejected" failure.message 1 event.sequence))
  | .ok none =>
    handleStopReason agent result operationId response.stopReason event historyThroughSequence
  | .ok (some plan) =>
    if plan.isComplete then
      match plan.orderedResultMessages agent.lib with
      | .error failure => .error { message := failure.message }
      | .ok messages => do
        let sourceThroughSequence ← advanceHistorySequence historyThroughSequence
          (1 + messages.length)
        stageAfterBoundary agent (appendResults agent result messages) sourceThroughSequence
          event.sessionId
    else
      match result.state.activeTurn with
      | none => .error { message := "active turn disappeared while saving a tool plan" }
      | some active =>
        let state := { result.state with
          activeTurn := some { active with phase := .executingTools plan } }
        runPlan agent (result.setState state) historyThroughSequence
          { platformSessionId := event.sessionId, timestampMs := event.timestampMillis }

/-- The progress record of a repeated request. -/
def llmRetried (attempt : Nat) (operationId : OperationId) : Value :=
  .object [("type", .string "llm_retried"), ("attempt", .nat attempt),
    ("previous_operation_id", .uuid operationId)]

/-- `handle_llm_outcome`. -/
def handleLlmOutcome (state : BasicCodexState) (operationId : OperationId)
    (outcome : OperationOutcome) (event : SessionEvent)
    (historyThroughSequence : HistorySequence) (nextId : Uuid) :
    Except HandlerError (OutcomeBuilder BasicCodexState) :=
  match outcome with
  | .succeeded (.llm response) =>
    match Llm.responseProvider agent response with
    | .error message =>
      .ok (Failure.terminal state nextId (Failure.malformed .llm operationId message
        (turnAttempts state) event.sequence))
    | .ok _ => handleResponse agent state operationId response event historyThroughSequence nextId
  | .succeeded _ => .error { message := "successful LLM operation contains a non-LLM result" }
  | .unknown failure =>
    match state.activeTurn with
    | none => .error { message := "unknown LLM outcome has no active turn" }
    | some active =>
      if active.retry.llmAttempts < 1 then
        let active := { active with retry := { llmAttempts := active.retry.llmAttempts + 1 } }
        let result := requestTurn agent (.new state nextId) event.sessionId active
        .ok ((result.emitProgress (llmRetried (active.retry.llmAttempts + 1) operationId)).setStatus
          .running)
      else
        .ok (Failure.terminal state nextId (Failure.operation .llm operationId failure
          (nextAttempt active.retry.llmAttempts) event.sequence))
  | .failed failure =>
    .ok (Failure.terminal state nextId (Failure.operation .llm operationId failure
      (turnAttempts state) event.sequence))
  | .cancelled =>
    .ok (Failure.terminal state nextId (Failure.local .llm (some operationId)
      "unexpected_llm_cancellation"
      "LLM operation was cancelled without a session cancellation request" 1 event.sequence))

/-! ## Completions of a compaction -/

/-- The context window behind a new checkpoint. -/
def installCheckpoint (state : BasicCodexState) (validated : Compaction.ValidatedCompaction)
    (compaction : CompactionState) (providerItem : Message) (generation : Nat) :
    BasicCodexState :=
  let retained := Compaction.retainedUserMessages agent.lib state.contextWindow.modelHistory
  let modelHistory := retained ++ [providerItem]
  { state with contextWindow := {
      generation
      estimatedTokens := some (Compaction.estimateRequestTokens agent modelHistory)
      modelHistory
      checkpoint := some {
        provider := validated.provider
        responseId := validated.responseId
        nativeItem := validated.nativeItem
        sourceThroughSequence := compaction.sourceThroughSequence
        sourceProjectionSha256 := compaction.sourceProjectionSha256
        retainedUserMessages := retained
        generation
        usage := validated.usage } } }

/-- The part of `handle_compaction_outcome` after a response that the compaction check accepts. -/
def resumeAfterCompaction (state : BasicCodexState) (active : ActiveTurn)
    (compaction : CompactionState) (validated : Compaction.ValidatedCompaction)
    (event : SessionEvent) (nextId : Uuid) :
    Except HandlerError (OutcomeBuilder BasicCodexState) :=
  let retained := Compaction.retainedUserMessages agent.lib state.contextWindow.modelHistory
  match Compaction.providerMessage agent validated.nativeItem with
  | .error failure => .error { message := failure }
  | .ok providerItem =>
    let generation := state.contextWindow.generation + 1
    if 2 ^ 32 ≤ generation then .error { message := "context generation overflowed" }
    else
      match Compaction.checkpointMessage agent.lib validated compaction.sourceThroughSequence
          compaction.sourceProjectionSha256 retained.length generation compaction.trigger with
      | .error failure => .error { message := failure }
      | .ok checkpointMessage =>
        let input := compaction.initialInput.toList ++ active.pendingSteering.map (·.message)
        let state := extendProjection agent
          (installCheckpoint agent state validated compaction providerItem generation) input
        let result := (OutcomeBuilder.new state nextId).appendMessage checkpointMessage
        let result := requestTurn agent result event.sessionId
          { active with pendingSteering := [] }
        .ok ((result.emitProgress (.object [("type", .string "context_compaction_completed"),
          ("generation", .nat generation), ("trigger", .string compaction.trigger.asStr)])).setStatus
          .running)

/-- `handle_compaction_outcome`. -/
def handleCompactionOutcome (state : BasicCodexState) (operationId : OperationId)
    (outcome : OperationOutcome) (event : SessionEvent) (nextId : Uuid) :
    Except HandlerError (OutcomeBuilder BasicCodexState) :=
  match state.activeTurn with
  | none => .error { message := "compaction completion has no active turn" }
  | some active =>
    match active.phase with
    | .compacting compaction =>
      let failed (failure : OperationFailure) : OutcomeBuilder BasicCodexState :=
        Failure.terminal state nextId (Failure.operation .compaction operationId failure
          compaction.attempt event.sequence)
      match outcome with
      | .succeeded (.llm response) =>
        if Compaction.projectionSha256 agent.lib state.contextWindow.modelHistory ≠
            compaction.sourceProjectionSha256 then
          .error { message := "model projection changed while provider compaction was in flight" }
        else
          match Compaction.validateResponse agent response with
          | .error message =>
            .ok (Failure.terminal state nextId (Failure.malformed .compaction operationId message
              compaction.attempt event.sequence))
          | .ok validated =>
            resumeAfterCompaction agent state active compaction validated event nextId
      | .succeeded _ =>
        .error { message := "successful compaction operation contains a non-LLM result" }
      | .unknown failure =>
        if compaction.attempt < 2 then
          let result := requestCompaction agent (.new state nextId) event.sessionId active
            fun operationId => { compaction with operationId, attempt := compaction.attempt + 1 }
          .ok ((result.emitProgress (.object [("type", .string "context_compaction_retried"),
            ("attempt", .nat (compaction.attempt + 1))])).setStatus .running)
        else .ok (failed failure)
      | .failed failure => .ok (failed failure)
      | .cancelled =>
        .ok (Failure.terminal state nextId (Failure.local .compaction (some operationId)
          "unexpected_compaction_cancellation"
          "compaction was cancelled without a session cancellation request" compaction.attempt
          event.sequence))
    | _ => .error { message := "compaction completion has no compaction state" }

/-! ## Reading a completion -/

/-- The terminal outcome of a completed operation, as the context has it. The operation's role
words the errors. -/
def readOutcome (context : HarnessContext) (role noun mismatch status : String)
    (operationId : OperationId) (kind : OperationKind) (outcomeStatus : OperationOutcomeStatus) :
    Except HandlerError OperationOutcome :=
  match context.operation operationId with
  | .error failure =>
    .error { message := "could not read " ++ role ++ " operation: " ++ failure }
  | .ok none => .error { message := "completed " ++ noun ++ " operation was not found" }
  | .ok (some record) =>
    if record.kind ≠ kind then .error { message := mismatch }
    else
      match record.outcome with
      | none => .error { message := "completed " ++ noun ++ " operation has no terminal outcome" }
      | some outcome =>
        if outcome.status ≠ outcomeStatus then .error { message := status } else .ok outcome

/-- `handle_execution_completion`. -/
def handleExecutionCompletion (state : BasicCodexState) (operationId : OperationId)
    (outcomeStatus : OperationOutcomeStatus) (event : SessionEvent) (context : HarnessContext)
    (nextId : Uuid) : Except HandlerError (OutcomeBuilder BasicCodexState) := do
  let outcome ← readOutcome context "completed execution" "execution"
    "completed execution operation record has the wrong kind"
    "completion event status does not match the stored execution outcome"
    operationId .execution outcomeStatus
  let state ← ToolExecution.applyCompletion agent state operationId outcome event.timestampMillis
  runPlan agent (.new state nextId) context.historyThroughSequence
    { platformSessionId := event.sessionId, timestampMs := event.timestampMillis }

/-- The operation that the active turn awaits from the model, and whether it compacts. -/
def expectedOperation (state : BasicCodexState) : Except HandlerError (OperationId × Bool) :=
  match state.activeTurn with
  | none => .error { message := "received an LLM completion without an active turn" }
  | some active =>
    match active.phase with
    | .awaitingLlm awaiting => .ok (awaiting.operationId, false)
    | .compacting compaction => .ok (compaction.operationId, true)
    | _ =>
      .error
        { message := "received an LLM completion while the turn was not awaiting LLM work" }

/-- The part of `handle` for the completion of a model operation. -/
def handleLlmCompletion (state : BasicCodexState) (operationId : OperationId)
    (outcomeStatus : OperationOutcomeStatus) (event : SessionEvent) (context : HarnessContext)
    (nextId : Uuid) : Except HandlerError (OutcomeBuilder BasicCodexState) := do
  let (expected, isCompaction) ← expectedOperation state
  if expected ≠ operationId then
    .error
      { message := "LLM completion does not match the operation awaited by the active turn" }
  else
    let outcome ← readOutcome context "completed LLM" "LLM"
      "completed operation record is not an LLM operation"
      "completion event status does not match the stored operation outcome"
      operationId .llm outcomeStatus
    if isCompaction then handleCompactionOutcome agent state operationId outcome event nextId
    else
      handleLlmOutcome agent state operationId outcome event context.historyThroughSequence nextId

/-- `cancellation::handle_completion`. -/
def handleCancellationCompletion (state : BasicCodexState) (cancellation : CancellationState)
    (operationId : OperationId) (operationKind : OperationKind)
    (outcomeStatus : OperationOutcomeStatus) (event : SessionEvent) (context : HarnessContext)
    (nextId : Uuid) : Except HandlerError (OutcomeBuilder BasicCodexState) := do
  let outcome ← readOutcome context "cancellation" "cancellation"
    "cancellation completion kind does not match its operation record"
    "cancellation completion status does not match its operation record"
    operationId operationKind outcomeStatus
  let c ← Cancellation.applyCompletion agent event.sessionId event.sequence
    { result := .new state nextId, cancellation } operationId operationKind outcome
  return Cancellation.setLifecycleStatus c true

/-! ## The event router -/

/-- A turn from before the date was saved gets the date of the event. -/
def fillDate (state : BasicCodexState) (date : String) : BasicCodexState :=
  { state with activeTurn := state.activeTurn.map fun active =>
      if active.currentDate.isEmpty then { active with currentDate := date } else active }

/-- The branch of `handle` for a failed session. -/
def handleFailed (state : BasicCodexState) (event : SessionEvent) (nextId : Uuid) :
    Except HandlerError (OutcomeBuilder BasicCodexState) :=
  let result := OutcomeBuilder.new state nextId
  match event.kind with
  | .userMessage message =>
    if !message.isUser then
      .error { message := "user_message event did not contain a user message" }
    else .ok ((result.appendMessage message).setStatus .failed)
  | _ => .ok (result.setStatus .failed)

/-- The status that the event router gives a cancelled session. -/
def routerStatus (state : BasicCodexState) : SessionStatus :=
  if state.activeTurn.isSome then .cancelling else .cancelled

/-- The branch of `handle` for a session that is being cancelled. -/
def handleCancelled (state : BasicCodexState) (cancellation : CancellationState)
    (event : SessionEvent) (context : HarnessContext) (nextId : Uuid) :
    Except HandlerError (OutcomeBuilder BasicCodexState) :=
  match event.kind with
  | .operationCompleted operationId operationKind outcomeStatus =>
    handleCancellationCompletion agent state cancellation operationId operationKind outcomeStatus
      event context nextId
  | .userMessage message =>
    if !message.isUser then
      .error { message := "user_message event did not contain a user message" }
    else
      .ok (((OutcomeBuilder.new state nextId).appendMessage message).setStatus
        (routerStatus state))
  | .cancellationRequested _ =>
    .ok ((OutcomeBuilder.new state nextId).setStatus (routerStatus state))
  | .waitResumed .. =>
    .ok ((OutcomeBuilder.new state nextId).setStatus (routerStatus state))

/-- The branch of `handle` for any other session. -/
def handleRunning (state : BasicCodexState) (event : SessionEvent) (context : HarnessContext)
    (nextId : Uuid) : Except HandlerError (OutcomeBuilder BasicCodexState) :=
  match event.kind with
  | .userMessage message =>
    handleUserMessage agent state message event context.historyThroughSequence nextId
  | .operationCompleted operationId operationKind outcomeStatus =>
    match operationKind with
    | .execution =>
      handleExecutionCompletion agent state operationId outcomeStatus event context nextId
    | .llm => handleLlmCompletion agent state operationId outcomeStatus event context nextId
    | _ => .error { message := "received an unsupported operation completion" }
  | .cancellationRequested reason =>
    Cancellation.begin agent state reason event.sequence nextId
  | .waitResumed .. =>
    .error { message := "basic Codex does not create waits in the current implementation" }

/-- `handle`. -/
def handle (state : BasicCodexState) (event : SessionEvent) (context : HarnessContext)
    (nextId : Uuid) : Except HandlerError (OutcomeBuilder BasicCodexState) :=
  let state := fillDate state event.date
  match state.terminalFailure with
  | some _ => handleFailed state event nextId
  | none =>
    match state.cancellation with
    | some cancellation => handleCancelled agent state cancellation event context nextId
    | none => handleRunning agent state event context nextId

end Handler

end AgentPlatform.Harness
