import AgentPlatform.Harness.PromptPrefix

/-!
# The boundary of a compaction

A compaction saves the sequence in the platform's history of the last message that it compacts. The
handler counts it by hand, from the sequence at the beginning of its invocation and the messages
that it appended. It counts right wherever a compaction begins, but for one place: when a response
asks for calls that all end while they are scheduled, the response itself is left out of the count.

**What an invocation appends** (`Appends`). The same messages reach the platform's history and the
projection. The lemmas follow a response or a completion through the plan to the boundary.
-/

namespace AgentPlatform.Harness.Handler

open ToolExecution (planOf scheduleLoop scheduleReady visit submit)

variable {agent : Agent}

/-! ## The compaction of a state -/

/-- The compaction that the active turn waits for. -/
def compactionOf (state : BasicCodexState) : Option CompactionState :=
  match state.activeTurn with
  | some { phase := .compacting compaction, .. } => some compaction
  | _ => none

theorem compactionOf_eq (state : BasicCodexState) : compactionOf state =
    state.activeTurn.bind fun active =>
      match active.phase with
      | .compacting compaction => some compaction
      | _ => none := by
  unfold compactionOf
  cases state.activeTurn with
  | none => rfl
  | some active =>
    obtain ⟨id, started, date, phase, steering, retry⟩ := active
    cases phase <;> rfl

theorem compactionOf_some {state : BasicCodexState} {compaction : CompactionState} :
    compactionOf state = some compaction ↔
      ∃ active, state.activeTurn = some active ∧ active.phase = .compacting compaction := by
  rw [compactionOf_eq, Option.bind_eq_some_iff]
  constructor
  · rintro ⟨active, hactive, hphase⟩
    split at hphase
    next heq =>
      cases hphase
      exact ⟨active, hactive, heq⟩
    next => cases hphase
  · rintro ⟨active, hactive, hphase⟩
    exact ⟨active, hactive, by rw [hphase]⟩

theorem compactionOf_none {state : BasicCodexState} (h : state.activeTurn = none) :
    compactionOf state = none := by
  rw [compactionOf_eq, h]
  rfl

/-- Only the phase of the turn says what it waits for. -/
theorem compactionOf_congr {state state' : BasicCodexState}
    (h : state'.activeTurn.map (·.phase) = state.activeTurn.map (·.phase)) :
    compactionOf state' = compactionOf state := by
  have hphase (s : BasicCodexState) : compactionOf s = (s.activeTurn.map (·.phase)).bind fun phase =>
      match phase with
      | .compacting compaction => some compaction
      | _ => none := by
    rw [compactionOf_eq, Option.bind_map]
    rfl
  rw [hphase, hphase, h]

theorem compactionOf_fillDate (state : BasicCodexState) (date : String) :
    compactionOf (fillDate state date) = compactionOf state := by
  refine compactionOf_congr ?_
  show (state.activeTurn.map _).map _ = _
  rw [Option.map_map]
  refine congrArg (Option.map · state.activeTurn) (funext fun active => ?_)
  show (if active.currentDate.isEmpty then _ else active : ActiveTurn).phase = active.phase
  split <;> rfl

/-- A turn that executes a plan waits for no compaction. -/
theorem compactionOf_of_plan {state : BasicCodexState} {plan : ToolPlanState}
    (h : planOf state = some plan) : compactionOf state = none := by
  obtain ⟨active, hactive, hphase⟩ := ToolExecution.planOf_some.mp h
  rw [compactionOf_eq, hactive, Option.bind_some, hphase]

/-! ## What an invocation appends -/

/-- Messages that reach the platform's history and the projection. -/
structure Appends (b r : OutcomeBuilder BasicCodexState) (messages : List Message) : Prop where
  history : r.outcome.history = b.outcome.history ++ messages
  projection : r.state.contextWindow.modelHistory = b.state.contextWindow.modelHistory ++ messages

theorem Appends.none {b r : OutcomeBuilder BasicCodexState}
    (history : r.outcome.history = b.outcome.history)
    (window : r.state.contextWindow = b.state.contextWindow) : Appends b r [] :=
  ⟨by rw [history, List.append_nil], by rw [window, List.append_nil]⟩

theorem Appends.trans {b r r' : OutcomeBuilder BasicCodexState} {xs ys : List Message}
    (first : Appends b r xs) (second : Appends r r' ys) : Appends b r' (xs ++ ys) :=
  ⟨by rw [second.history, first.history, List.append_assoc],
    by rw [second.projection, first.projection, List.append_assoc]⟩

theorem appendMessages_history (b : OutcomeBuilder BasicCodexState) (messages : List Message) :
    (messages.foldl OutcomeBuilder.appendMessage b).outcome.history =
      b.outcome.history ++ messages := by
  induction messages generalizing b with
  | nil => exact (List.append_nil _).symm
  | cons message messages ih =>
    rw [List.foldl_cons, ih]
    show (b.outcome.history ++ [message]) ++ messages = _
    rw [List.append_assoc, List.singleton_append]

theorem appendResults_appends (b : OutcomeBuilder BasicCodexState) (messages : List Message) :
    Appends b (appendResults agent b messages) messages := by
  unfold appendResults
  refine ⟨appendMessages_history _ _, ?_⟩
  rw [appendMessages_state]
  rfl

theorem recordResponse_projection (state : BasicCodexState) (response : AssistantResponse) :
    (recordResponse state response).contextWindow.modelHistory =
      state.contextWindow.modelHistory ++ [response.message] := by
  unfold recordResponse
  dsimp only
  split <;> rfl

theorem recorded_appends (state : BasicCodexState) (response : AssistantResponse) (nextId : Uuid) :
    Appends (.new state nextId) (recorded state response nextId) [response.message] :=
  ⟨rfl, recordResponse_projection state response⟩

/-! ## Scheduling -/

/-- Scheduling appends nothing, and a plan keeps its calls. -/
structure Leaves (b : OutcomeBuilder BasicCodexState) (plan : ToolPlanState)
    (r : OutcomeBuilder BasicCodexState) (plan' : ToolPlanState) : Prop where
  history : r.outcome.history = b.outcome.history
  window : r.state.contextWindow = b.state.contextWindow
  calls : plan'.callIds = plan.callIds

theorem submits_leave (prepared : List ToolExecution.PreparedCall)
    (result : ToolPlanState × OutcomeBuilder BasicCodexState) :
    Leaves result.2 result.1 (prepared.foldl (submit agent) result).2
      (prepared.foldl (submit agent) result).1 := by
  induction prepared generalizing result with
  | nil => exact ⟨rfl, rfl, rfl⟩
  | cons p prepared ih =>
    obtain ⟨history, window, calls⟩ := ih (submit agent result p)
    exact ⟨history, window, calls.trans (ToolPlanState.setStatus_callIds _ _ _)⟩

theorem visit_calls {executions : List TrackedExecution} {invocation : Invocation} {turnId : Uuid}
    {round round' : ToolExecution.Round} {ordinal : Nat}
    (h : visit agent executions invocation turnId round ordinal = .ok round') :
    round'.plan.callIds = round.plan.callIds := by
  unfold visit at h
  split at h
  · cases h
  next call hcall =>
    dsimp only at h
    split at h
    · cases h
      rfl
    · split at h <;> cases h
      · rfl
      · exact ToolPlanState.setStatus_callIds _ _ _
      · rfl

theorem visits_calls {executions : List TrackedExecution} {invocation : Invocation} {turnId : Uuid}
    {round round' : ToolExecution.Round} {ordinals : List Nat}
    (h : ordinals.foldlM (visit agent executions invocation turnId) round = .ok round') :
    round'.plan.callIds = round.plan.callIds := by
  induction ordinals generalizing round with
  | nil =>
    cases h
    rfl
  | cons ordinal ordinals ih =>
    obtain ⟨next, hnext, h⟩ := Fallible.bind_ok h
    exact (ih h).trans (visit_calls hnext)

theorem scheduleLoop_leaves {executions : List TrackedExecution} {invocation : Invocation}
    {turnId : Uuid} {rounds : Nat} {plan plan' : ToolPlanState}
    {b r : OutcomeBuilder BasicCodexState}
    (h : scheduleLoop agent executions invocation turnId rounds plan b = .ok (plan', r)) :
    Leaves b plan r plan' := by
  induction rounds generalizing plan b with
  | zero =>
    cases h
    exact ⟨rfl, rfl, rfl⟩
  | succ rounds ih =>
    unfold scheduleLoop at h
    split at h
    · cases h
      exact ⟨rfl, rfl, rfl⟩
    next segment hsegment =>
    split at h
    · cases h
    next round hround =>
    have hcalls := visits_calls hround
    dsimp only at h
    split at h
    · split at h
      · obtain ⟨history, window, calls⟩ := ih h
        exact ⟨history, window, calls.trans hcalls⟩
      · cases h
        exact ⟨rfl, rfl, hcalls⟩
    · have hleaves := @submits_leave agent round.prepared
        (round.plan, { b with nextId := round.nextId })
      rw [Except.ok.inj h] at hleaves
      exact ⟨hleaves.history, hleaves.window, hleaves.calls.trans hcalls⟩

theorem scheduleReady_leaves {b scheduled : OutcomeBuilder BasicCodexState}
    {invocation : Invocation} {plan : ToolPlanState} (hplan : planOf b.state = some plan)
    (h : scheduleReady agent b invocation = .ok scheduled) :
    ∃ plan', planOf scheduled.state = some plan' ∧ Leaves b plan scheduled plan' := by
  obtain ⟨active, p, plan', builder, hactive, hphase, hloop, rfl⟩ := ToolExecution.scheduleReady_ok h
  obtain ⟨active', hactive', hphase'⟩ := ToolExecution.planOf_some.mp hplan
  cases hactive.symm.trans hactive'
  cases hphase.symm.trans hphase'
  obtain ⟨history, window, calls⟩ := scheduleLoop_leaves hloop
  exact ⟨plan', rfl, history, window, calls⟩

theorem answers_length {calls : List (Option String)} {results : List Message}
    (h : Answers calls results) : results.length = calls.length := by
  induction h with
  | nil => rfl
  | cons _ ih => rw [List.length_cons, List.length_cons, ih]

theorem results_length {plan : ToolPlanState} {messages : List Message}
    (h : plan.orderedResultMessages agent.lib = .ok messages) :
    messages.length = plan.callIds.length := by
  rw [answers_length (orderedResultMessages_answers h), List.length_map]

/-! ## Boundaries -/

/-- A compaction that begins after messages were appended, with a boundary. -/
structure Compacts (b r : OutcomeBuilder BasicCodexState) (compaction : CompactionState)
    (messages : List Message) (through : HistorySequence) : Prop where
  trigger : compaction.trigger = .midTurn
  boundary : compaction.sourceThroughSequence = through
  appends : Appends b r messages

variable {b r : OutcomeBuilder BasicCodexState} {compaction : CompactionState}
  {through : HistorySequence} {sid : SessionId}

theorem advanceHistorySequence_ok {sequence sequence' : HistorySequence} {added : Nat}
    (h : advanceHistorySequence sequence added = .ok sequence') :
    sequence' = sequence + added := by
  unfold advanceHistorySequence at h
  split at h
  · cases h
  split at h
  · cases h
  cases h
  rfl

theorem stageAfterBoundary_compacts (h : stageAfterBoundary agent b through sid = .ok r)
    (after : compactionOf r.state = some compaction) : Compacts b r compaction [] through := by
  obtain ⟨active, -, boundary⟩ := stageAfterBoundary_ok h
  cases boundary with
  | compact =>
    cases after
    exact ⟨rfl, rfl, .none rfl rfl⟩
  | resume => cases after

theorem Compacts.after {b' : OutcomeBuilder BasicCodexState} {xs ys : List Message}
    (compacts : Compacts b' r compaction ys through) (appends : Appends b b' xs) :
    Compacts b r compaction (xs ++ ys) through :=
  ⟨compacts.trigger, compacts.boundary, appends.trans compacts.appends⟩

/-- A boundary after tool results counts what it is told to. -/
theorem resultsBoundary_compacts (messages : List Message) (added : Nat)
    (h : (do
      let source ← advanceHistorySequence through added
      stageAfterBoundary agent (appendResults agent b messages) source sid) = .ok r)
    (after : compactionOf r.state = some compaction) :
    Compacts b r compaction messages (through + added) := by
  obtain ⟨source, hsource, h⟩ := Fallible.bind_ok h
  rw [advanceHistorySequence_ok hsource] at h
  have compacts := (stageAfterBoundary_compacts h after).after (appendResults_appends b messages)
  rwa [List.append_nil] at compacts

/-- The boundary after a plan counts the results of the plan. -/
theorem runPlan_compacts {plan : ToolPlanState} {invocation : Invocation}
    (hplan : planOf b.state = some plan) (h : runPlan agent b through invocation = .ok r)
    (after : compactionOf r.state = some compaction) : ∃ messages,
      messages.length = plan.callIds.length ∧
        Compacts b r compaction messages (through + messages.length) := by
  unfold runPlan at h
  obtain ⟨scheduled, hschedule, h⟩ := Fallible.bind_ok h
  obtain ⟨plan', hplan', leaves⟩ := scheduleReady_leaves hplan hschedule
  obtain ⟨⟨finished, result⟩, hfinish, h⟩ := Fallible.bind_ok h
  unfold finishCompletedToolPlan at hfinish
  obtain ⟨active, hactive, hphase⟩ := ToolExecution.planOf_some.mp hplan'
  rw [hactive] at hfinish
  dsimp only at hfinish
  rw [hphase] at hfinish
  dsimp only at hfinish
  split at hfinish
  next hcomplete =>
    split at hfinish
    · cases hfinish
    next messages hmessages =>
      obtain ⟨source, hsource, hfinish⟩ := Fallible.bind_ok hfinish
      obtain ⟨result', hresult', hfinish⟩ := Fallible.bind_ok hfinish
      cases hfinish
      cases h
      have hboundary : (do
          let source ← advanceHistorySequence through messages.length
          stageAfterBoundary agent (appendResults agent scheduled messages) source
            invocation.platformSessionId) = .ok r := by
        rw [hsource]
        exact hresult'
      have compacts := resultsBoundary_compacts messages messages.length hboundary after
      refine ⟨messages, (results_length hmessages).trans (congrArg List.length leaves.calls), ?_⟩
      exact compacts.after (.none leaves.history leaves.window)
  next hincomplete =>
    cases hfinish
    cases h
    rw [OutcomeBuilder.setStatus_state, compactionOf_of_plan hplan'] at after
    cases after

/-! ## Responses and completions -/

/-- A response that asks for calls of which some are still to be run. -/
def OpensPlan (lib : Foreign) (id : OperationId) (response : AssistantResponse) : Prop :=
  ∃ plan, ToolPlan.parse lib id response.message response.stopReason = .ok (some plan) ∧
    plan.isComplete = false

theorem recordResponse_turn (state : BasicCodexState) (response : AssistantResponse) :
    (recordResponse state response).activeTurn = state.activeTurn := by
  unfold recordResponse
  dsimp only
  split <;> rfl

variable {state : BasicCodexState} {event : SessionEvent} {context : HarnessContext}
  {nextId : Uuid}

/-- A boundary behind a response alone counts the response. -/
theorem stopReason_compacts {id : OperationId} {stopReason : StopReason}
    (h : handleStopReason agent b id stopReason event through = .ok r)
    (after : compactionOf r.state = some compaction) : Compacts b r compaction [] (through + 1) := by
  have hboundary : ∀ {r' : OutcomeBuilder BasicCodexState}, (do
      let source ← advanceHistorySequence through 1
      stageAfterBoundary agent b source event.sessionId) = .ok r' → r' = r →
        Compacts b r compaction [] (through + 1) := by
    rintro r' hr' rfl
    obtain ⟨source, hsource, hr'⟩ := Fallible.bind_ok hr'
    rw [advanceHistorySequence_ok hsource] at hr'
    exact stageAfterBoundary_compacts hr' after
  have hstop : (if b.state.activeTurn.any (!·.pendingSteering.isEmpty) then (do
        let source ← advanceHistorySequence through 1
        stageAfterBoundary agent b source event.sessionId)
      else .ok ((b.setState { b.state with activeTurn := none }).setStatus .idle)) = .ok r →
        Compacts b r compaction [] (through + 1) := by
    intro h
    split at h
    · exact hboundary h rfl
    · cases h
      cases after
  unfold handleStopReason at h
  dsimp only at h
  split at h
  · exact hstop h
  · exact hstop h
  · exact hboundary h rfl
  · cases h
    cases after
  · cases h
    cases after
  · cases h

/-- A compaction behind a response counts the response and the results, unless the response opened
a plan: then it counts the results only. -/
theorem response_compacts {id : OperationId} {response : AssistantResponse}
    (h : handleResponse agent state id response event through nextId = .ok r)
    (after : compactionOf r.state = some compaction) : ∃ messages source,
      Compacts (.new state nextId) r compaction (response.message :: messages) source ∧
        ((OpensPlan agent.lib id response ∧ source = through + messages.length) ∨
          (¬ OpensPlan agent.lib id response ∧ source = through + (1 + messages.length))) := by
  have appended := recorded_appends state response nextId
  unfold handleResponse at h
  dsimp only at h
  split at h
  next failure hfailed =>
    cases h
    cases after
  next hnone =>
    have compacts := (stopReason_compacts h after).after appended
    refine ⟨[], through + 1, compacts, .inr ⟨?_, rfl⟩⟩
    rintro ⟨plan, hplan, -⟩
    cases hnone.symm.trans hplan
  next plan hplan =>
    split at h
    next hcomplete =>
      split at h
      · cases h
      next messages hmessages =>
        have compacts := (resultsBoundary_compacts messages _ h after).after appended
        refine ⟨messages, _, compacts, .inr ⟨?_, rfl⟩⟩
        rintro ⟨plan', hplan', hincomplete⟩
        cases hplan.symm.trans hplan'
        rw [hcomplete] at hincomplete
        cases hincomplete
    next hincomplete =>
      split at h
      · cases h
      next active hactive =>
        obtain ⟨messages, -, compacts⟩ := runPlan_compacts rfl h after
        have planned : Appends (.new state nextId) ((recorded state response nextId).setState
            { recordResponse state response with
              activeTurn := some { active with phase := .executingTools plan } })
            [response.message] := ⟨appended.history, appended.projection⟩
        refine ⟨messages, _, compacts.after planned, .inl ⟨?_, rfl⟩⟩
        exact ⟨plan, hplan, by simpa using hincomplete⟩

/-- A compaction behind the completion of a call counts the results. -/
theorem execution_compacts {id : OperationId} {status : OperationOutcomeStatus}
    (h : handleExecutionCompletion agent state id status event context nextId = .ok r)
    (after : compactionOf r.state = some compaction) : ∃ messages, messages ≠ [] ∧
      Compacts (.new state nextId) r compaction messages
        (context.historyThroughSequence + messages.length) := by
  unfold handleExecutionCompletion at h
  obtain ⟨outcome, -, h⟩ := Fallible.bind_ok h
  obtain ⟨state', happly, h⟩ := Fallible.bind_ok h
  obtain ⟨active, plan, call, progress, status, state'', hactive, hphase, hcall, houtcome, rfl⟩ :=
    ToolExecution.applyCompletion_ok happly
  obtain ⟨messages, hlength, compacts⟩ := runPlan_compacts rfl h after
  refine ⟨messages, ?_, ⟨compacts.trigger, compacts.boundary, compacts.appends.history, ?_⟩⟩
  · rw [ToolPlanState.advance_callIds, ToolPlanState.setStatus_callIds, ToolPlanState.callIds,
      List.length_map] at hlength
    rintro rfl
    have hnone : plan.calls = [] := List.eq_nil_of_length_eq_zero hlength.symm
    rw [ToolExecution.submittedCall, hnone] at hcall
    cases hcall
  · rw [compacts.appends.projection]
    show state''.contextWindow.modelHistory ++ messages = state.contextWindow.modelHistory ++ messages
    rw [ToolExecution.applyOutcome_retracked houtcome]

/-- The event delivers a response that asks for calls of which some are still to be run. -/
def DeliversOpenPlan (agent : Agent) (event : SessionEvent) (context : HarnessContext) : Prop :=
  ∃ id response, Completes event context id .llm (.succeeded (.llm response)) ∧
    OpensPlan agent.lib id response

theorem Completes.unique {id id' : OperationId} {kind kind' : OperationKind}
    {outcome outcome' : OperationOutcome} (first : Completes event context id kind outcome)
    (second : Completes event context id' kind' outcome') :
    id' = id ∧ kind' = kind ∧ outcome' = outcome := by
  have hdelivered := first.delivered.symm.trans second.delivered
  rw [EventKind.operationCompleted.injEq] at hdelivered
  obtain ⟨rfl, -, -⟩ := hdelivered
  have hstored := first.stored.symm.trans second.stored
  rw [Except.ok.injEq, Option.some.injEq, OperationRecord.mk.injEq, Option.some.injEq] at hstored
  exact ⟨rfl, hstored.1.symm, hstored.2.symm⟩

/-- A compaction before the first request of a turn, over the conversation without the new message. -/
structure CompactsFirst (state : BasicCodexState) (event : SessionEvent)
    (r : OutcomeBuilder BasicCodexState) (compaction : CompactionState)
    (through : HistorySequence) : Prop where
  trigger : compaction.trigger = .preTurn
  boundary : compaction.sourceThroughSequence = through
  history : ∃ message, event.kind = .userMessage message ∧ r.outcome.history = [message]
  projection : r.state.contextWindow.modelHistory = state.contextWindow.modelHistory

theorem userMessage_compacts {message : Message} (kind : event.kind = .userMessage message)
    (h : handleUserMessage agent state message event through nextId = .ok r)
    (before : compactionOf state = none) (after : compactionOf r.state = some compaction) :
    CompactsFirst state event r compaction through := by
  unfold handleUserMessage at h
  split at h
  · cases h
  split at h
  next active hactive =>
    -- a steering message leaves the phase of the turn
    cases h
    have same : compactionOf { state with activeTurn := some (steer active event message) } =
        compactionOf state := compactionOf_congr (by rw [hactive]; rfl)
    cases (same.trans before).symm.trans after
  next hnone =>
    dsimp only [OutcomeBuilder.draw] at h
    split at h
    · cases h
      cases after
      exact ⟨rfl, rfl, ⟨message, kind, rfl⟩, rfl⟩
    · cases h
      cases after

/-- A compaction behind the completion of a request to the model. -/
theorem llmCompletion_compacts {id : OperationId} {status : OperationOutcomeStatus}
    (kind : event.kind = .operationCompleted id .llm status)
    (h : handleLlmCompletion agent state id status event context nextId = .ok r)
    (before : compactionOf state = none) (after : compactionOf r.state = some compaction) :
    ∃ messages source, messages ≠ [] ∧ Compacts (.new state nextId) r compaction messages source ∧
      ((DeliversOpenPlan agent event context ∧
          source + 1 = context.historyThroughSequence + messages.length) ∨
        (¬ DeliversOpenPlan agent event context ∧
          source = context.historyThroughSequence + messages.length)) := by
  unfold handleLlmCompletion at h
  obtain ⟨⟨expected, isCompaction⟩, hexpected, h⟩ := Fallible.bind_ok h
  obtain ⟨active, hactive, hphase⟩ := expectedOperation_ok hexpected
  dsimp only at h
  split at h
  · cases h
  obtain ⟨outcome, hread, h⟩ := Fallible.bind_ok h
  obtain ⟨hstored, hstatus⟩ := readOutcome_ok hread
  have completes : Completes event context id .llm outcome := ⟨hstatus ▸ kind, hstored⟩
  rcases hphase with ⟨rfl, -⟩ | ⟨-, compacting, hphase, -⟩
  · rw [if_neg Bool.false_ne_true] at h
    unfold handleLlmOutcome at h
    split at h
    next response =>
      split at h
      · cases h
        cases after
      · obtain ⟨messages, source, compacts, hcount⟩ := response_compacts h after
        refine ⟨_, source, List.cons_ne_nil _ _, compacts, ?_⟩
        rw [List.length_cons]
        rcases hcount with ⟨hopen, rfl⟩ | ⟨hclosed, rfl⟩
        · exact .inl ⟨⟨id, response, completes, hopen⟩, Nat.add_assoc _ _ _⟩
        · refine .inr ⟨?_, by rw [Nat.add_comm 1]⟩
          rintro ⟨id', response', completes', hopen⟩
          obtain ⟨rfl, -, heq⟩ := completes.unique completes'
          cases heq
          exact hclosed hopen
    next => cases h
    next failure =>
      rw [hactive] at h
      dsimp only at h
      split at h <;> cases h <;> cases after
    next =>
      cases h
      cases after
    next =>
      cases h
      cases after
  · rw [compactionOf_some.mpr ⟨active, hactive, hphase⟩] at before
    cases before

theorem begin_turn {reason : Option String} {sequence : EventSequence}
    (h : Cancellation.begin agent state reason sequence nextId = .ok r) :
    r.state.activeTurn = none ∨
      r.state.activeTurn = state.activeTurn.map Cancellation.cancelTurn := by
  obtain ⟨c, targets, -, moves, rfl⟩ := begin_cleanup h
  obtain ⟨-, -, hnone | hsame⟩ := setLifecycleStatus_state
    { c with result := c.result.emitProgress (.object
        [("type", .string "cancellation_started"), ("targets", .nat targets.length),
          ("processes", .nat c.cancellation.processes.length)]) } true
  · exact .inl hnone
  · refine .inr ?_
    rw [hsame, OutcomeBuilder.emitProgress_state, moves.state]
    rfl

theorem begin_compaction {reason : Option String} {sequence : EventSequence}
    (h : Cancellation.begin agent state reason sequence nextId = .ok r) :
    compactionOf r.state = none := by
  rcases begin_turn h with hnone | hcancelling
  · exact compactionOf_none hnone
  · rw [compactionOf_eq, hcancelling]
    cases state.activeTurn <;> rfl

/-- How a compaction begins in a running session. -/
theorem handleRunning_compacts (h : handleRunning agent state event context nextId = .ok r)
    (before : compactionOf state = none) (after : compactionOf r.state = some compaction) :
    CompactsFirst state event r compaction context.historyThroughSequence ∨
      ∃ messages source, messages ≠ [] ∧ Compacts (.new state nextId) r compaction messages source ∧
        ((DeliversOpenPlan agent event context ∧
            source + 1 = context.historyThroughSequence + messages.length) ∨
          (¬ DeliversOpenPlan agent event context ∧
            source = context.historyThroughSequence + messages.length)) := by
  unfold handleRunning at h
  split at h
  next message hkind => exact .inl (userMessage_compacts hkind h before after)
  next id kind status hkind =>
    split at h
    next =>
      obtain ⟨messages, hsome, compacts⟩ := execution_compacts h after
      refine .inr ⟨messages, _, hsome, compacts, .inr ⟨?_, rfl⟩⟩
      rintro ⟨id', response, completes, -⟩
      cases hkind.symm.trans completes.delivered
    next => exact .inr (llmCompletion_compacts hkind h before after)
    next => cases h
  next reason hkind => cases (begin_compaction h).symm.trans after
  next => cases h

/-! ## The boundary -/

/-- An outcome that leaves a compaction where there was none. -/
structure BeginsCompaction (state : BasicCodexState) (r : OutcomeBuilder BasicCodexState)
    (compaction : CompactionState) : Prop where
  before : compactionOf state = none
  after : compactionOf r.state = some compaction

theorem handle_running (live : (fillDate state event.date).terminalFailure = none)
    (uncancelled : (fillDate state event.date).cancellation = none) :
    handle agent state event context nextId =
      handleRunning agent (fillDate state event.date) event context nextId := by
  unfold handle
  dsimp only
  rw [live]
  dsimp only
  rw [uncancelled]

/-- An invocation of a session that has failed or is being cancelled begins no compaction. -/
theorem BeginsCompaction.running (begins : BeginsCompaction state r compaction)
    (h : handle agent state event context nextId = .ok r) :
    handleRunning agent (fillDate state event.date) event context nextId = .ok r := by
  have before : compactionOf (fillDate state event.date) = none :=
    (compactionOf_fillDate state event.date).trans begins.before
  cases handle_answered h with
  | failed _ silent | routed _ _ _ silent =>
    have after := begins.after
    rw [silent.state, before] at after
    cases after
  | @cleaned _ _ _ _ c _ _ _ applied =>
    have after := begins.after
    obtain ⟨-, -, hnone | hsame⟩ := setLifecycleStatus_state c true
    · rw [compactionOf_none hnone] at after
      cases after
    · have hturn : (Cancellation.setLifecycleStatus c true).state.activeTurn =
          (fillDate state event.date).activeTurn := by
        rw [hsame, (Cancellation.applyCompletion_moves applied).state]
        rfl
      cases (compactionOf_congr (by rw [hturn])).symm.trans after |>.symm.trans before
  | running live uncancelled _ => exact (handle_running live uncancelled).symm.trans h

/-- A compaction before a turn saves the sequence at the beginning of its invocation, and its
projection is without the new message. A compaction within a turn ends its projection with what its
invocation appended, and saves the sequence of the last of it exactly if the event does not deliver
a response with calls still to be run. -/
theorem compaction_boundary (h : handle agent state event context nextId = .ok r)
    (begins : BeginsCompaction state r compaction) :
    (compaction.trigger = .preTurn →
      compaction.sourceThroughSequence = context.historyThroughSequence ∧
        (∃ message, event.kind = .userMessage message ∧ r.outcome.history = [message]) ∧
        r.state.contextWindow.modelHistory = state.contextWindow.modelHistory) ∧
    (compaction.trigger = .midTurn →
      r.outcome.history ≠ [] ∧
        r.state.contextWindow.modelHistory =
          state.contextWindow.modelHistory ++ r.outcome.history ∧
        (compaction.sourceThroughSequence =
            context.historyThroughSequence + r.outcome.history.length ↔
          ¬ DeliversOpenPlan agent event context)) := by
  have before : compactionOf (fillDate state event.date) = none :=
    (compactionOf_fillDate state event.date).trans begins.before
  rcases handleRunning_compacts (begins.running h) before begins.after with
    first | ⟨messages, source, hsome, compacts, hcount⟩
  · refine ⟨fun _ => ⟨first.boundary, first.history, first.projection⟩, fun hmid => ?_⟩
    cases first.trigger.symm.trans hmid
  · refine ⟨fun hpre => ?_, fun _ => ?_⟩
    · cases compacts.trigger.symm.trans hpre
    · have happended : r.outcome.history = messages := compacts.appends.history
      rw [happended, compacts.boundary]
      refine ⟨hsome, compacts.appends.projection, ?_⟩
      rcases hcount with ⟨hopen, hless⟩ | ⟨hclosed, hequal⟩
      · refine iff_of_false (fun heq => ?_) fun hnot => hnot hopen
        exact Nat.succ_ne_self source (hless.trans heq.symm)
      · exact iff_of_true hequal hclosed

/-- A compaction that goes on keeps its boundary, also when it is requested again. -/
theorem compaction_kept {compaction' : CompactionState}
    (h : handle agent state event context nextId = .ok r)
    (before : compactionOf state = some compaction)
    (after : compactionOf r.state = some compaction') :
    compaction'.trigger = compaction.trigger ∧
      compaction'.sourceThroughSequence = compaction.sourceThroughSequence := by
  have before' : compactionOf (fillDate state event.date) = some compaction :=
    (compactionOf_fillDate state event.date).trans before
  obtain ⟨active, hactive, hphase⟩ := compactionOf_some.mp before'
  have same (heq : r.state.activeTurn.map (·.phase) =
      (fillDate state event.date).activeTurn.map (·.phase)) :
      compaction'.trigger = compaction.trigger ∧
        compaction'.sourceThroughSequence = compaction.sourceThroughSequence := by
    rw [compactionOf_congr heq, before'] at after
    cases after
    exact ⟨rfl, rfl⟩
  cases handle_answered h with
  | failed _ silent | routed _ _ _ silent => exact same (by rw [silent.state])
  | @cleaned _ _ _ _ c _ _ _ applied =>
    obtain ⟨-, -, hnone | hsame⟩ := setLifecycleStatus_state c true
    · rw [compactionOf_none hnone] at after
      cases after
    · refine same ?_
      rw [hsame, (Cancellation.applyCompletion_moves applied).state]
      rfl
  | running _ _ handled =>
    have other {awaiting : AwaitingLlmState} {turn : ActiveTurn}
        (hturn : (fillDate state event.date).activeTurn = some turn)
        (hawaiting : turn.phase = .awaitingLlm awaiting) : False := by
      cases hactive.symm.trans hturn
      cases hphase.symm.trans hawaiting
    cases handled with
    | @steered message turn kind user hturn => exact same (by rw [hturn]; rfl)
    | compactFirst _ _ hnone => cases hnone.symm.trans hactive
    | start _ _ hnone => cases hnone.symm.trans hactive
    | failAwaiting _ hturn hawaiting => exact (other hturn hawaiting).elim
    | failCompacting => cases after
    | idle _ hturn hawaiting => exact (other hturn hawaiting).elim
    | respond _ hturn hawaiting => exact (other hturn hawaiting).elim
    | refused _ hturn hawaiting => exact (other hturn hawaiting).elim
    | plan _ hturn hawaiting => exact (other hturn hawaiting).elim
    | retry _ hturn hawaiting => exact (other hturn hawaiting).elim
    | install => cases after
    | compactAgain _ hturn hcompacting =>
      cases hactive.symm.trans hturn
      cases hphase.symm.trans hcompacting
      cases after
      exact ⟨rfl, rfl⟩
    | execution _ applied =>
      obtain ⟨turn, plan, call, progress, status, state'', hturn, hplan, -⟩ :=
        ToolExecution.applyCompletion_ok applied
      cases hactive.symm.trans hturn
      cases hphase.symm.trans hplan
    | cancel _ begun => cases (begin_compaction begun).symm.trans after

/-! ## A session that writes to a process it does not have -/

def inputCall : RawJson :=
  "\x7b\"type\":\"function_call\",\"call_id\":\"a\",\"name\":\"write_stdin\"," ++
    "\"arguments\":\"\x7b\\\"session_id\\\":1\x7d\"\x7d"

def inputArguments : RawJson := "\x7b\"session_id\":1\x7d"

/-- A harness whose model may ask to write to process 1. -/
def inputAgent : Agent :=
  { ToolExecution.listAgent with
    lib := ToolExecution.tableLib [(inputCall, .object [("type", .string "function_call"),
        ("call_id", .string "a"), ("name", .string "write_stdin"),
        ("arguments", .string inputArguments)]),
      (inputArguments, .object [("session_id", .nat 1)])] }

/-- A response to a long conversation. -/
def longResponse (message : Message) (stopReason : StopReason)
    (assistant : message.isAssistant = true) : AssistantResponse where
  id := "r"
  modelId := "gpt-5.6-sol"
  message
  stopReason
  usage := some { input := some 250000, output := some 10, cacheRead := none, cacheWrite := none }
  assistant

/-- The session that waits for the answer to its first message. -/
def askedSession : Session :=
  ((Session.start 3 9).play inputAgent
    [Session.delivery 1 (.userMessage (.userText "go on"))]).getD (Session.start 3 9)

theorem askedSession_reachable : Session.Reachable inputAgent askedSession := by
  obtain ⟨t, played, reach, -⟩ := Session.exists_of_played (p := fun _ => true)
    (Session.Reachable.start inputAgent 3 9)
    (show ((Session.start 3 9).play inputAgent
      [Session.delivery 1 (.userMessage (.userText "go on"))]).any _ = true by decide +kernel)
  have heq : askedSession = t := by
    rw [askedSession, played]
    rfl
  rw [heq]
  exact reach

/-- The answer that asks to write to a process which the session does not have. -/
def inputDelivery : Delivery :=
  Session.delivery 2 (.completed 10 (.succeeded (.llm
    (longResponse (.assistant .default .openai [inputCall]) .toolUse rfl))))

/-- The answer that is to be continued. -/
def pauseDelivery : Delivery :=
  Session.delivery 2 (.completed 10 (.succeeded (.llm
    (longResponse (.assistant .default .openai []) .pauseTurn rfl))))

def boundaryResult (d : Delivery) : OutcomeBuilder BasicCodexState :=
  (askedSession.invoke inputAgent d).toOption.getD (.new .initial 0)

/-- What the handler makes of the delivery, computed to begin a compaction. -/
theorem boundaryResult_begins (d : Delivery) (through : HistorySequence)
    (answered : (askedSession.invoke inputAgent d).isOk = true)
    (h : (compactionOf (boundaryResult d).state).map
      (fun c => (c.trigger, c.sourceThroughSequence)) = some (.midTurn, through)) :
    handle inputAgent askedSession.state (askedSession.event d) (askedSession.context d.stimulus)
        askedSession.nextId = .ok (boundaryResult d) ∧
      ∃ compaction, BeginsCompaction askedSession.state (boundaryResult d) compaction ∧
        compaction.trigger = .midTurn ∧ compaction.sourceThroughSequence = through := by
  obtain ⟨compaction, after, heq⟩ := Option.map_eq_some_iff.mp h
  rw [Prod.mk.injEq] at heq
  have before : (compactionOf askedSession.state).isNone = true := by decide +kernel
  exact ⟨Fallible.eq_ok_getD answered _, compaction, ⟨Option.isNone_iff_eq_none.mp before, after⟩,
    heq.1, heq.2⟩

theorem context_through (s : Session) (stimulus : Stimulus) :
    (s.context stimulus).historyThroughSequence = s.history.length := rfl

/-- The boundary behind a response that is to be continued. -/
theorem compaction_boundary_paused : ∃ compaction,
    BeginsCompaction askedSession.state (boundaryResult pauseDelivery) compaction ∧
      compaction.sourceThroughSequence =
        askedSession.history.length + (boundaryResult pauseDelivery).outcome.history.length := by
  obtain ⟨answered, compaction, begins, htrigger, -⟩ :=
    boundaryResult_begins pauseDelivery 2 (by decide +kernel) (by decide +kernel)
  have hclosed : ¬ DeliversOpenPlan inputAgent (askedSession.event pauseDelivery)
      (askedSession.context pauseDelivery.stimulus) := by
    rintro ⟨id, response, completes, plan, hplan, -⟩
    have hdelivered := (Session.completes_delivered askedSession_reachable.kept.numbered
      (by decide +kernel) completes).1
    cases hdelivered
    have hnone : ToolPlan.parse inputAgent.lib 10 (.assistant .default .openai []) .pauseTurn =
        .ok none := rfl
    cases hnone.symm.trans hplan
  have hboundary := ((compaction_boundary answered begins).2 htrigger).2.2.mpr hclosed
  rw [context_through] at hboundary
  exact ⟨compaction, begins, hboundary⟩

/-- Behind a call that ends while it is scheduled, the boundary is one short. -/
theorem compaction_boundary_short : ¬ (∀ (agent : Agent) (state : BasicCodexState)
    (event : SessionEvent) (context : HarnessContext) (nextId : Uuid)
    (r : OutcomeBuilder BasicCodexState) (compaction : CompactionState),
      handle agent state event context nextId = .ok r → BeginsCompaction state r compaction →
        compaction.trigger = .midTurn → compaction.sourceThroughSequence =
          context.historyThroughSequence + r.outcome.history.length) := by
  intro hall
  obtain ⟨answered, compaction, begins, htrigger, hsource⟩ :=
    boundaryResult_begins inputDelivery 2 (by decide +kernel) (by decide +kernel)
  have hboundary := hall _ _ _ _ _ _ compaction answered begins htrigger
  rw [hsource] at hboundary
  revert hboundary
  decide +kernel

end AgentPlatform.Harness.Handler
