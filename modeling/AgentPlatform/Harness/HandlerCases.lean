import AgentPlatform.Harness.Run

/-!
# The branches of the handler

What an invocation that returns an outcome can have done in a running session, one case for each
branch of `handler.rs`. The invariants of a session are proved from these cases.
-/

namespace AgentPlatform.Harness.Handler

open ToolExecution (planOf)

variable {agent : Agent}

/-- The completion of an operation, as the event and the context have it. -/
structure Completes (event : SessionEvent) (context : HarnessContext) (id : OperationId)
    (kind : OperationKind) (outcome : OperationOutcome) : Prop where
  delivered : event.kind = .operationCompleted id kind outcome.status
  stored : context.operation id = .ok (some { kind, outcome := some outcome })

theorem readOutcome_ok {context : HarnessContext} {role noun mismatch status : String}
    {id : OperationId} {kind : OperationKind} {outcomeStatus : OperationOutcomeStatus}
    {outcome : OperationOutcome}
    (h : readOutcome context role noun mismatch status id kind outcomeStatus = .ok outcome) :
    context.operation id = .ok (some { kind, outcome := some outcome }) ∧
      outcome.status = outcomeStatus := by
  unfold readOutcome at h
  split at h
  · cases h
  · cases h
  next record hrecord =>
  split at h
  · cases h
  next hkind =>
  split at h
  · cases h
  next stored hstored =>
  split at h
  · cases h
  next hstatus =>
    cases h
    simp only [ne_eq, Decidable.not_not] at hkind hstatus
    obtain ⟨k, o⟩ := record
    simp only at hkind hstored
    subst hkind hstored
    exact ⟨hrecord, hstatus⟩

/-! ## Boundaries -/

/-- The outcome of a compaction that is requested at a boundary. -/
def compacted (agent : Agent) (b : OutcomeBuilder BasicCodexState) (active : ActiveTurn)
    (through : HistorySequence) (sid : SessionId) : OutcomeBuilder BasicCodexState :=
  ((requestCompaction agent b sid active fun operationId => {
    operationId
    sourceThroughSequence := through
    sourceProjectionSha256 :=
      Compaction.projectionSha256 agent.lib b.state.contextWindow.modelHistory
    attempt := 1
    trigger := .midTurn
    initialInput := none }).emitProgress (compactionStarted .midTurn)).setStatus .running

/-- The outcome of a turn that goes on at a boundary, with what arrived meanwhile. -/
def resumed (agent : Agent) (b : OutcomeBuilder BasicCodexState) (active : ActiveTurn)
    (sid : SessionId) : OutcomeBuilder BasicCodexState :=
  (requestTurn agent
    (b.setState (extendProjection agent b.state (active.pendingSteering.map (·.message)))) sid
    { active with pendingSteering := [] }).setStatus .running

/-- What `stage_after_boundary` does in a turn. -/
inductive Boundary (agent : Agent) (b : OutcomeBuilder BasicCodexState) (active : ActiveTurn)
    (through : HistorySequence) (sid : SessionId) : OutcomeBuilder BasicCodexState → Prop
  | compact (long : needsCompaction agent b.state = true) :
      Boundary agent b active through sid (compacted agent b active through sid)
  | resume (short : needsCompaction agent b.state = false) :
      Boundary agent b active through sid (resumed agent b active sid)

theorem stageAfterBoundary_ok {b r : OutcomeBuilder BasicCodexState} {through : HistorySequence}
    {sid : SessionId} (h : stageAfterBoundary agent b through sid = .ok r) :
    ∃ active, b.state.activeTurn = some active ∧ Boundary agent b active through sid r := by
  unfold stageAfterBoundary at h
  split at h
  next hlong =>
    unfold stageCompaction at h
    split at h
    · cases h
    next active hactive =>
      cases h
      exact ⟨active, hactive, .compact hlong⟩
  next hshort =>
    split at h
    · cases h
    next active hactive =>
      cases h
      exact ⟨active, hactive, .resume (by simpa using hshort)⟩

/-! ## Running a plan -/

/-- What `runPlan` does: it schedules, and goes on to the boundary if that completed the plan. -/
inductive PlanRan (agent : Agent) (b : OutcomeBuilder BasicCodexState) (invocation : Invocation) :
    OutcomeBuilder BasicCodexState → Prop
  | waits {scheduled : OutcomeBuilder BasicCodexState} {plan : ToolPlanState}
      (schedule : ToolExecution.scheduleReady agent b invocation = .ok scheduled)
      (executes : planOf scheduled.state = some plan) (incomplete : plan.isComplete = false) :
      PlanRan agent b invocation (scheduled.setStatus .running)
  | finished {scheduled r : OutcomeBuilder BasicCodexState} {plan : ToolPlanState}
      {messages : List Message} {active : ActiveTurn} {through : HistorySequence}
      (schedule : ToolExecution.scheduleReady agent b invocation = .ok scheduled)
      (executes : planOf scheduled.state = some plan) (complete : plan.isComplete = true)
      (results : plan.orderedResultMessages agent.lib = .ok messages)
      (turn : (appendResults agent scheduled messages).state.activeTurn = some active)
      (boundary : Boundary agent (appendResults agent scheduled messages) active through
        invocation.platformSessionId r) : PlanRan agent b invocation r

theorem appendMessages_state (b : OutcomeBuilder BasicCodexState) (messages : List Message) :
    (messages.foldl OutcomeBuilder.appendMessage b).state = b.state := by
  induction messages generalizing b with
  | nil => rfl
  | cons m ms ih => exact ih (b.appendMessage m)

/-- Tool results leave the turn as it is. -/
theorem appendResults_activeTurn (b : OutcomeBuilder BasicCodexState) (messages : List Message) :
    (appendResults agent b messages).state.activeTurn = b.state.activeTurn := by
  unfold appendResults
  rw [appendMessages_state]
  rfl

theorem finishCompletedToolPlan_ok {b r : OutcomeBuilder BasicCodexState} {finished : Bool}
    {through : HistorySequence} {sid : SessionId}
    (h : finishCompletedToolPlan agent b through sid = .ok (finished, r)) :
    ∃ plan, planOf b.state = some plan ∧
      ((finished = false ∧ plan.isComplete = false ∧ r = b) ∨
        (finished = true ∧ plan.isComplete = true ∧ ∃ messages source,
          plan.orderedResultMessages agent.lib = .ok messages ∧
          stageAfterBoundary agent (appendResults agent b messages) source sid = .ok r)) := by
  unfold finishCompletedToolPlan at h
  split at h
  · cases h
  next active hactive =>
  split at h
  next plan hphase =>
    refine ⟨plan, ToolExecution.planOf_some.mpr ⟨active, hactive, hphase⟩, ?_⟩
    split at h
    next hcomplete =>
      split at h
      · cases h
      next messages hmessages =>
        obtain ⟨source, -, h⟩ := Fallible.bind_ok h
        obtain ⟨r', hr', h⟩ := Fallible.bind_ok h
        cases h
        exact .inr ⟨rfl, hcomplete, messages, source, hmessages, hr'⟩
    next hincomplete =>
      cases h
      exact .inl ⟨rfl, by simpa using hincomplete, rfl⟩
  next => cases h

theorem runPlan_ok {b r : OutcomeBuilder BasicCodexState} {through : HistorySequence}
    {invocation : Invocation} (h : runPlan agent b through invocation = .ok r) :
    PlanRan agent b invocation r := by
  unfold runPlan at h
  obtain ⟨scheduled, hschedule, h⟩ := Fallible.bind_ok h
  obtain ⟨⟨finished, result⟩, hfinish, hresult⟩ := Fallible.bind_ok h
  obtain ⟨plan, hplan, ⟨rfl, hincomplete, rfl⟩ | ⟨rfl, hcomplete, messages, source, hmessages, hb⟩⟩ :=
    finishCompletedToolPlan_ok hfinish
  · cases hresult
    exact .waits hschedule hplan hincomplete
  · cases hresult
    obtain ⟨active, hactive, hboundary⟩ := stageAfterBoundary_ok hb
    exact .finished hschedule hplan hcomplete hmessages hactive hboundary

/-! ## The branches -/

/-- The outcome of a response, before anything follows from it. -/
def recorded (state : BasicCodexState) (response : AssistantResponse) (nextId : Uuid) :
    OutcomeBuilder BasicCodexState :=
  (OutcomeBuilder.new (recordResponse state response) nextId).appendMessage response.message

/-- A turn with one more steering message. -/
def steer (active : ActiveTurn) (event : SessionEvent) (message : Message) : ActiveTurn :=
  { active with pendingSteering := active.pendingSteering ++
      [{ eventId := event.id, eventSequence := event.sequence, message }] }

/-- A turn that a user message begins. -/
def newTurn (event : SessionEvent) (id : Uuid) : ActiveTurn where
  id
  startedAtSequence := event.sequence
  currentDate := event.date
  phase := .cancelling
  pendingSteering := []
  retry := .default

/-- The outcome of a user message whose turn begins with a compaction. -/
def compactedFirst (agent : Agent) (state : BasicCodexState) (event : SessionEvent)
    (message : Message) (through : HistorySequence) (nextId : Uuid) :
    OutcomeBuilder BasicCodexState :=
  ((requestCompaction agent
    ((OutcomeBuilder.new state nextId).appendMessage message).draw.2 event.sessionId
    (newTurn event nextId) fun operationId => {
      operationId
      sourceThroughSequence := through
      sourceProjectionSha256 :=
        Compaction.projectionSha256 agent.lib state.contextWindow.modelHistory
      attempt := 1
      trigger := .preTurn
      initialInput := some message }).emitProgress (compactionStarted .preTurn)).setStatus .running

/-- The outcome of a user message whose turn begins with its request. -/
def started (agent : Agent) (state : BasicCodexState) (event : SessionEvent) (message : Message)
    (nextId : Uuid) : OutcomeBuilder BasicCodexState :=
  (requestTurn agent
    (((OutcomeBuilder.new state nextId).appendMessage message).draw.2.setState
      (addLatestProjectionEstimate agent (pushMessage state message))) event.sessionId
    (newTurn event nextId)).setStatus .running

/-- A turn whose request is repeated. -/
def retry (active : ActiveTurn) : ActiveTurn :=
  { active with retry := { llmAttempts := active.retry.llmAttempts + 1 } }

/-- The outcome of a request that is repeated. -/
def retried (agent : Agent) (state : BasicCodexState) (active : ActiveTurn) (event : SessionEvent)
    (id : OperationId) (nextId : Uuid) : OutcomeBuilder BasicCodexState :=
  ((requestTurn agent (.new state nextId) event.sessionId (retry active)).emitProgress
    (llmRetried (active.retry.llmAttempts + 1 + 1) id)).setStatus .running

/-- The outcome of a compaction that is requested again. -/
def compactedAgain (agent : Agent) (state : BasicCodexState) (active : ActiveTurn)
    (compaction : CompactionState) (event : SessionEvent) (nextId : Uuid) :
    OutcomeBuilder BasicCodexState :=
  ((requestCompaction agent (.new state nextId) event.sessionId active fun operationId =>
    { compaction with operationId, attempt := compaction.attempt + 1 }).emitProgress
    (.object [("type", .string "context_compaction_retried"),
      ("attempt", .nat (compaction.attempt + 1))])).setStatus .running

/-- The outcome of a compaction that is installed. -/
def installed (agent : Agent) (state : BasicCodexState) (active : ActiveTurn)
    (compaction : CompactionState) (validated : Compaction.ValidatedCompaction)
    (providerItem checkpointMessage : Message) (event : SessionEvent) (nextId : Uuid) :
    OutcomeBuilder BasicCodexState :=
  ((requestTurn agent
    ((OutcomeBuilder.new (extendProjection agent
      (installCheckpoint agent state validated compaction providerItem
        (state.contextWindow.generation + 1))
      (compaction.initialInput.toList ++ active.pendingSteering.map (·.message)))
      nextId).appendMessage checkpointMessage) event.sessionId
    { active with pendingSteering := [] }).emitProgress
    (.object [("type", .string "context_compaction_completed"),
      ("generation", .nat (state.contextWindow.generation + 1)),
      ("trigger", .string compaction.trigger.asStr)])).setStatus .running

/-- Handling an event in a running session. -/
inductive Handled (agent : Agent) (state : BasicCodexState) (event : SessionEvent)
    (context : HarnessContext) (nextId : Uuid) : OutcomeBuilder BasicCodexState → Prop
  | steered {message : Message} {active : ActiveTurn} (kind : event.kind = .userMessage message)
      (user : message.isUser = true) (turn : state.activeTurn = some active) :
      Handled agent state event context nextId
        ((OutcomeBuilder.new { state with activeTurn := some (steer active event message) }
          nextId).appendMessage message)
  | compactFirst {message : Message} (kind : event.kind = .userMessage message)
      (user : message.isUser = true) (turn : state.activeTurn = none)
      (long : needsCompaction agent state = true) :
      Handled agent state event context nextId
        (compactedFirst agent state event message context.historyThroughSequence nextId)
  | start {message : Message} (kind : event.kind = .userMessage message)
      (user : message.isUser = true) (turn : state.activeTurn = none)
      (short : needsCompaction agent state = false) :
      Handled agent state event context nextId (started agent state event message nextId)
  | failAwaiting {id : OperationId} {outcome : OperationOutcome} {active : ActiveTurn}
      {awaiting : AwaitingLlmState} {b : OutcomeBuilder BasicCodexState} {details : FailureDetails}
      (completes : Completes event context id .llm outcome)
      (turn : state.activeTurn = some active) (phase : active.phase = .awaitingLlm awaiting)
      (awaited : awaiting.operationId = id)
      (base : b = .new state nextId ∨ ∃ response, b = recorded state response nextId) :
      Handled agent state event context nextId (Failure.applyTerminal b details)
  | failCompacting {id : OperationId} {outcome : OperationOutcome} {active : ActiveTurn}
      {compaction : CompactionState} {details : FailureDetails}
      (completes : Completes event context id .llm outcome)
      (turn : state.activeTurn = some active) (phase : active.phase = .compacting compaction)
      (awaited : compaction.operationId = id) :
      Handled agent state event context nextId (Failure.terminal state nextId details)
  | idle {id : OperationId} {response : AssistantResponse} {active : ActiveTurn}
      {awaiting : AwaitingLlmState}
      (completes : Completes event context id .llm (.succeeded (.llm response)))
      (turn : state.activeTurn = some active) (phase : active.phase = .awaitingLlm awaiting)
      (awaited : awaiting.operationId = id)
      (noPlan : ToolPlan.parse agent.lib id response.message response.stopReason = .ok none)
      (quiet : active.pendingSteering = []) :
      Handled agent state event context nextId
        (((recorded state response nextId).setState
          { recordResponse state response with activeTurn := none }).setStatus .idle)
  | respond {id : OperationId} {response : AssistantResponse} {active : ActiveTurn}
      {awaiting : AwaitingLlmState} {through : HistorySequence}
      {r : OutcomeBuilder BasicCodexState}
      (completes : Completes event context id .llm (.succeeded (.llm response)))
      (turn : state.activeTurn = some active) (phase : active.phase = .awaitingLlm awaiting)
      (awaited : awaiting.operationId = id)
      (noPlan : ToolPlan.parse agent.lib id response.message response.stopReason = .ok none)
      (boundary : Boundary agent (recorded state response nextId) active through event.sessionId r) :
      Handled agent state event context nextId r
  | refused {id : OperationId} {response : AssistantResponse} {active : ActiveTurn}
      {awaiting : AwaitingLlmState} {plan : ToolPlanState} {messages : List Message}
      {through : HistorySequence} {r : OutcomeBuilder BasicCodexState}
      (completes : Completes event context id .llm (.succeeded (.llm response)))
      (turn : state.activeTurn = some active) (phase : active.phase = .awaitingLlm awaiting)
      (awaited : awaiting.operationId = id)
      (planned : ToolPlan.parse agent.lib id response.message response.stopReason =
        .ok (some plan)) (complete : plan.isComplete = true)
      (results : plan.orderedResultMessages agent.lib = .ok messages)
      (boundary : Boundary agent (appendResults agent (recorded state response nextId) messages)
        active through event.sessionId r) : Handled agent state event context nextId r
  | plan {id : OperationId} {response : AssistantResponse} {active : ActiveTurn}
      {awaiting : AwaitingLlmState} {plan : ToolPlanState} {r : OutcomeBuilder BasicCodexState}
      (completes : Completes event context id .llm (.succeeded (.llm response)))
      (turn : state.activeTurn = some active) (phase : active.phase = .awaitingLlm awaiting)
      (awaited : awaiting.operationId = id)
      (planned : ToolPlan.parse agent.lib id response.message response.stopReason =
        .ok (some plan)) (incomplete : plan.isComplete = false)
      (ran : PlanRan agent ((recorded state response nextId).setState
        { recordResponse state response with
          activeTurn := some { active with phase := .executingTools plan } })
        { platformSessionId := event.sessionId, timestampMs := event.timestampMillis } r) :
      Handled agent state event context nextId r
  | retry {id : OperationId} {failure : OperationFailure} {active : ActiveTurn}
      {awaiting : AwaitingLlmState}
      (completes : Completes event context id .llm (.unknown failure))
      (turn : state.activeTurn = some active) (phase : active.phase = .awaitingLlm awaiting)
      (awaited : awaiting.operationId = id) (first : active.retry.llmAttempts < 1) :
      Handled agent state event context nextId (retried agent state active event id nextId)
  | install {id : OperationId} {response : AssistantResponse} {active : ActiveTurn}
      {compaction : CompactionState} {validated : Compaction.ValidatedCompaction}
      {providerItem checkpointMessage : Message}
      (completes : Completes event context id .llm (.succeeded (.llm response)))
      (turn : state.activeTurn = some active) (phase : active.phase = .compacting compaction)
      (awaited : compaction.operationId = id)
      (accepted : Compaction.validateResponse agent response = .ok validated)
      (item : Compaction.providerMessage agent validated.nativeItem = .ok providerItem)
      (checkpoint : Compaction.checkpointMessage agent.lib validated
        compaction.sourceThroughSequence compaction.sourceProjectionSha256
        (Compaction.retainedUserMessages agent.lib state.contextWindow.modelHistory).length
        (state.contextWindow.generation + 1) compaction.trigger = .ok checkpointMessage)
      (bound : state.contextWindow.generation + 1 < 2 ^ 32) :
      Handled agent state event context nextId
        (installed agent state active compaction validated providerItem checkpointMessage event
          nextId)
  | compactAgain {id : OperationId} {failure : OperationFailure} {active : ActiveTurn}
      {compaction : CompactionState}
      (completes : Completes event context id .llm (.unknown failure))
      (turn : state.activeTurn = some active) (phase : active.phase = .compacting compaction)
      (awaited : compaction.operationId = id) (first : compaction.attempt < 2) :
      Handled agent state event context nextId
        (compactedAgain agent state active compaction event nextId)
  | execution {id : OperationId} {outcome : OperationOutcome} {state' : BasicCodexState}
      {r : OutcomeBuilder BasicCodexState}
      (completes : Completes event context id .execution outcome)
      (applied : ToolExecution.applyCompletion agent state id outcome event.timestampMillis =
        .ok state')
      (ran : PlanRan agent (.new state' nextId)
        { platformSessionId := event.sessionId, timestampMs := event.timestampMillis } r) :
      Handled agent state event context nextId r
  | cancel {reason : Option String} {r : OutcomeBuilder BasicCodexState}
      (kind : event.kind = .cancellationRequested reason)
      (begun : Cancellation.begin agent state reason event.sequence nextId = .ok r) :
      Handled agent state event context nextId r

variable {state : BasicCodexState} {event : SessionEvent} {context : HarnessContext}
  {nextId : Uuid} {r : OutcomeBuilder BasicCodexState}

theorem handled_userMessage {message : Message} (kind : event.kind = .userMessage message)
    (h : handleUserMessage agent state message event context.historyThroughSequence nextId =
      .ok r) : Handled agent state event context nextId r := by
  unfold handleUserMessage at h
  split at h
  · cases h
  next huser =>
  have huser : message.isUser = true := by simpa using huser
  split at h
  next active hactive =>
    cases h
    exact .steered kind huser hactive
  next hnone =>
    dsimp only [OutcomeBuilder.draw] at h
    split at h
    next hlong =>
      cases h
      exact .compactFirst kind huser hnone hlong
    next hshort =>
      cases h
      exact .start kind huser hnone (by simpa using hshort)

section

variable {id : OperationId} {active : ActiveTurn}

theorem handled_response {response : AssistantResponse} {awaiting : AwaitingLlmState}
    {through : HistorySequence}
    (completes : Completes event context id .llm (.succeeded (.llm response)))
    (turn : state.activeTurn = some active) (phase : active.phase = .awaitingLlm awaiting)
    (awaited : awaiting.operationId = id)
    (h : handleResponse agent state id response event through nextId = .ok r) :
    Handled agent state event context nextId r := by
  have hturn : (recorded state response nextId).state.activeTurn = some active := by
    simp only [recorded, recordResponse, OutcomeBuilder.appendMessage_state,
      OutcomeBuilder.new_state, pushMessage]
    split <;> exact turn
  unfold handleResponse at h
  dsimp only at h
  split at h
  next failure _ =>
    cases h
    exact .failAwaiting completes turn phase awaited (.inr ⟨response, rfl⟩)
  next hnone =>
    unfold handleStopReason at h
    dsimp only at h
    have hboundary : ∀ {source : HistorySequence}, stageAfterBoundary agent
        (recorded state response nextId) source event.sessionId = .ok r →
        Handled agent state event context nextId r := by
      intro source hb
      obtain ⟨active', hactive', hb⟩ := stageAfterBoundary_ok hb
      rw [hturn] at hactive'
      cases hactive'
      exact .respond completes turn phase awaited hnone hb
    have hstop : (if (recorded state response nextId).state.activeTurn.any
          (fun turn => !turn.pendingSteering.isEmpty) = true then do
          let source ← advanceHistorySequence through 1
          stageAfterBoundary agent (recorded state response nextId) source event.sessionId
        else .ok (((recorded state response nextId).setState
          { (recorded state response nextId).state with activeTurn := none }).setStatus .idle)) =
          .ok r → Handled agent state event context nextId r := by
      intro h
      split at h
      next =>
        obtain ⟨source, -, h⟩ := Fallible.bind_ok h
        exact hboundary h
      next hquiet =>
        cases h
        rw [hturn] at hquiet
        exact .idle completes turn phase awaited hnone (by simpa using hquiet)
    split at h
    · exact hstop h
    · exact hstop h
    · obtain ⟨source, -, h⟩ := Fallible.bind_ok h
      exact hboundary h
    · cases h
      exact .failAwaiting completes turn phase awaited (.inr ⟨response, rfl⟩)
    · cases h
      exact .failAwaiting completes turn phase awaited (.inr ⟨response, rfl⟩)
    · cases h
  next plan hplan =>
    split at h
    next hcomplete =>
      split at h
      · cases h
      next messages hmessages =>
        obtain ⟨source, -, h⟩ := Fallible.bind_ok h
        obtain ⟨active', hactive', hb⟩ := stageAfterBoundary_ok h
        rw [appendResults_activeTurn] at hactive'
        cases hturn.symm.trans hactive'
        exact .refused completes turn phase awaited hplan hcomplete hmessages hb
    next hincomplete =>
      have hturn' := hturn
      simp only [recorded] at hturn'
      rw [hturn'] at h
      exact .plan completes turn phase awaited hplan (by simpa using hincomplete) (runPlan_ok h)

theorem handled_llmOutcome {outcome : OperationOutcome} {awaiting : AwaitingLlmState}
    {through : HistorySequence} (completes : Completes event context id .llm outcome)
    (turn : state.activeTurn = some active) (phase : active.phase = .awaitingLlm awaiting)
    (awaited : awaiting.operationId = id)
    (h : handleLlmOutcome agent state id outcome event through nextId = .ok r) :
    Handled agent state event context nextId r := by
  unfold handleLlmOutcome at h
  split at h
  next response =>
    split at h
    · cases h
      exact .failAwaiting completes turn phase awaited (.inl rfl)
    · exact handled_response completes turn phase awaited h
  next => cases h
  next failure =>
    rw [turn] at h
    simp only at h
    split at h
    next hfirst =>
      cases h
      exact .retry completes turn phase awaited hfirst
    next =>
      cases h
      exact .failAwaiting completes turn phase awaited (.inl rfl)
  next =>
    cases h
    exact .failAwaiting completes turn phase awaited (.inl rfl)
  next =>
    cases h
    exact .failAwaiting completes turn phase awaited (.inl rfl)

theorem handled_compactionOutcome {outcome : OperationOutcome} {compaction : CompactionState}
    (completes : Completes event context id .llm outcome)
    (turn : state.activeTurn = some active) (phase : active.phase = .compacting compaction)
    (awaited : compaction.operationId = id)
    (h : handleCompactionOutcome agent state id outcome event nextId = .ok r) :
    Handled agent state event context nextId r := by
  unfold handleCompactionOutcome at h
  rw [turn] at h
  simp only [phase] at h
  split at h
  next response =>
    split at h
    · cases h
    · split at h
      · cases h
        exact .failCompacting completes turn phase awaited
      next validated hvalidated =>
        unfold resumeAfterCompaction at h
        dsimp only at h
        split at h
        · cases h
        next providerItem hitem =>
        split at h
        · cases h
        next hbound =>
        split at h
        · cases h
        next checkpointMessage hcheckpoint =>
          cases h
          exact .install completes turn phase awaited hvalidated hitem hcheckpoint (by omega)
  next => cases h
  next failure =>
    split at h
    next hfirst =>
      cases h
      exact .compactAgain completes turn phase awaited hfirst
    next =>
      cases h
      exact .failCompacting completes turn phase awaited
  next =>
    cases h
    exact .failCompacting completes turn phase awaited
  next =>
    cases h
    exact .failCompacting completes turn phase awaited

end

theorem expectedOperation_ok {id : OperationId} {isCompaction : Bool}
    (h : expectedOperation state = .ok (id, isCompaction)) :
    ∃ active, state.activeTurn = some active ∧
      ((isCompaction = false ∧ ∃ awaiting, active.phase = .awaitingLlm awaiting ∧
          awaiting.operationId = id) ∨
        (isCompaction = true ∧ ∃ compaction, active.phase = .compacting compaction ∧
          compaction.operationId = id)) := by
  unfold expectedOperation at h
  split at h
  · cases h
  next active hactive =>
  refine ⟨active, hactive, ?_⟩
  split at h
  next awaiting hphase =>
    cases h
    exact .inl ⟨rfl, awaiting, hphase, rfl⟩
  next compaction hphase =>
    cases h
    exact .inr ⟨rfl, compaction, hphase, rfl⟩
  next => cases h

/-- Every invocation in a running session that returns an outcome is one of the branches. -/
theorem handleRunning_cases (h : handleRunning agent state event context nextId = .ok r) :
    Handled agent state event context nextId r := by
  unfold handleRunning at h
  split at h
  next message hkind => exact handled_userMessage hkind h
  next id kind status hkind =>
    split at h
    next =>
      unfold handleExecutionCompletion at h
      obtain ⟨outcome, hread, h⟩ := Fallible.bind_ok h
      obtain ⟨hstored, hstatus⟩ := readOutcome_ok hread
      obtain ⟨state', happly, h⟩ := Fallible.bind_ok h
      exact .execution ⟨hstatus ▸ hkind, hstored⟩ happly (runPlan_ok h)
    next =>
      unfold handleLlmCompletion at h
      obtain ⟨⟨expected, isCompaction⟩, hexpected, h⟩ := Fallible.bind_ok h
      obtain ⟨active, hactive, hphase⟩ := expectedOperation_ok hexpected
      dsimp only at h
      split at h
      · cases h
      next hawaited =>
      simp only [ne_eq, Decidable.not_not] at hawaited
      subst hawaited
      obtain ⟨outcome, hread, h⟩ := Fallible.bind_ok h
      obtain ⟨hstored, hstatus⟩ := readOutcome_ok hread
      have completes : Completes event context expected .llm outcome :=
        ⟨hstatus ▸ hkind, hstored⟩
      rcases hphase with ⟨rfl, awaiting, hphase, hawaited⟩ | ⟨rfl, compaction, hphase, hawaited⟩
      · exact handled_llmOutcome completes hactive hphase hawaited h
      · exact handled_compactionOutcome completes hactive hphase hawaited h
    next => cases h
  next reason hkind => exact .cancel hkind h
  next => cases h

end AgentPlatform.Harness.Handler
