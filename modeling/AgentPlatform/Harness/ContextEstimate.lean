import AgentPlatform.Harness.CompactionBoundary

/-!
# The estimate of the context

The handler decides about compaction by an estimate that it carries along: a response that counts
its tokens sets it, a full estimate is made at the first turn and behind a compaction, and what is
added to the projection in between is added to it. Only a response that does not count its tokens is
added to the projection and not to the estimate.

**What an invocation does to the window** (`WindowMoves`). It extends it, puts a response before
that, installs a checkpoint or begins a turn. The estimate of a run is compared with a meter that
says what was measured last and how many messages that covers.
-/

namespace AgentPlatform.Harness

namespace Handler

open ToolExecution (planOf)

variable {agent : Agent}

/-! ## Windows -/

/-- `extend_projection`, of the window alone. -/
def extendWindow (agent : Agent) (window : ContextWindowState) (messages : List Message) :
    ContextWindowState :=
  { window with
    estimatedTokens := window.estimatedTokens.map fun estimate =>
      saturatingAdd estimate (Compaction.estimateMessages agent.lib messages)
    modelHistory := window.modelHistory ++ messages }

theorem extendProjection_window (state : BasicCodexState) (messages : List Message) :
    (extendProjection agent state messages).contextWindow =
      extendWindow agent state.contextWindow messages := rfl

/-- A window that messages were added to, with their estimates. -/
inductive Extends (agent : Agent) (window : ContextWindowState) : ContextWindowState → Prop
  | same : Extends agent window window
  | more {window' : ContextWindowState} (before : Extends agent window window')
      (messages : List Message) : Extends agent window (extendWindow agent window' messages)

theorem Extends.trans {w w' w'' : ContextWindowState} (first : Extends agent w w')
    (rest : Extends agent w' w'') : Extends agent w w'' := by
  induction rest with
  | same => exact first
  | more _ messages ih => exact .more ih messages

theorem Extends.of_eq {w w' : ContextWindowState} (h : w' = w) : Extends agent w w' := by
  rw [h]
  exact .same

theorem Extends.generation {w w' : ContextWindowState} (h : Extends agent w w') :
    w'.generation = w.generation := by
  induction h with
  | same => rfl
  | more _ _ ih => exact ih

variable {b r : OutcomeBuilder BasicCodexState} {through : HistorySequence} {sid : SessionId}
  {state : BasicCodexState} {event : SessionEvent} {context : HarnessContext} {nextId : Uuid}

theorem stageAfterBoundary_extends (h : stageAfterBoundary agent b through sid = .ok r) :
    Extends agent b.state.contextWindow r.state.contextWindow := by
  obtain ⟨active, -, boundary⟩ := stageAfterBoundary_ok h
  cases boundary with
  | compact => exact .same
  | resume => exact .more .same _

theorem appendResults_extends (b : OutcomeBuilder BasicCodexState) (messages : List Message) :
    Extends agent b.state.contextWindow (appendResults agent b messages).state.contextWindow := by
  unfold appendResults
  rw [appendMessages_state]
  exact .more .same messages

theorem finishCompletedToolPlan_extends {finished : Bool}
    (h : finishCompletedToolPlan agent b through sid = .ok (finished, r)) :
    Extends agent b.state.contextWindow r.state.contextWindow := by
  obtain ⟨plan, -, ⟨-, -, rfl⟩ | ⟨-, -, messages, source, -, hstage⟩⟩ :=
    finishCompletedToolPlan_ok h
  · exact .same
  · exact (appendResults_extends b messages).trans (stageAfterBoundary_extends hstage)

theorem runPlan_extends {invocation : Invocation} (h : runPlan agent b through invocation = .ok r) :
    Extends agent b.state.contextWindow r.state.contextWindow := by
  unfold runPlan at h
  obtain ⟨scheduled, hschedule, h⟩ := Fallible.bind_ok h
  obtain ⟨active, plan, plan', builder, hactive, hphase, -⟩ :=
    ToolExecution.scheduleReady_ok hschedule
  obtain ⟨plan'', -, leaves⟩ := scheduleReady_leaves
    (ToolExecution.planOf_some.mpr ⟨active, hactive, hphase⟩) hschedule
  obtain ⟨⟨finished, result⟩, hfinish, h⟩ := Fallible.bind_ok h
  have extended := finishCompletedToolPlan_extends hfinish
  rw [leaves.window] at extended
  dsimp only at h
  split at h <;> cases h <;> exact extended

theorem handleStopReason_extends {id : OperationId} {stopReason : StopReason}
    (h : handleStopReason agent b id stopReason event through = .ok r) :
    Extends agent b.state.contextWindow r.state.contextWindow := by
  have hboundary : ∀ {r' : OutcomeBuilder BasicCodexState}, (do
      let source ← advanceHistorySequence through 1
      stageAfterBoundary agent b source event.sessionId) = .ok r' →
        Extends agent b.state.contextWindow r'.state.contextWindow := by
    intro r' hr'
    obtain ⟨source, -, hr'⟩ := Fallible.bind_ok hr'
    exact stageAfterBoundary_extends hr'
  have hstop : (if b.state.activeTurn.any (!·.pendingSteering.isEmpty) then (do
        let source ← advanceHistorySequence through 1
        stageAfterBoundary agent b source event.sessionId)
      else .ok ((b.setState { b.state with activeTurn := none }).setStatus .idle)) = .ok r →
        Extends agent b.state.contextWindow r.state.contextWindow := by
    intro h
    split at h
    · exact hboundary h
    · cases h
      exact .same
  unfold handleStopReason at h
  dsimp only at h
  split at h
  · exact hstop h
  · exact hstop h
  · exact hboundary h
  · cases h
    exact .same
  · cases h
    exact .same
  · cases h

theorem handleResponse_extends {id : OperationId} {response : AssistantResponse}
    (h : handleResponse agent state id response event through nextId = .ok r) :
    Extends agent (recordResponse state response).contextWindow r.state.contextWindow := by
  unfold handleResponse at h
  dsimp only at h
  split at h
  next failure hfailed =>
    cases h
    exact .same
  next hnone => exact handleStopReason_extends h
  next plan hplan =>
    split at h
    next hcomplete =>
      split at h
      · cases h
      next messages hmessages =>
        obtain ⟨source, -, h⟩ := Fallible.bind_ok h
        exact (appendResults_extends _ messages).trans (stageAfterBoundary_extends h)
    next hincomplete =>
      split at h
      · cases h
      · exact runPlan_extends h

theorem handleExecutionCompletion_extends {id : OperationId} {status : OperationOutcomeStatus}
    (h : handleExecutionCompletion agent state id status event context nextId = .ok r) :
    Extends agent state.contextWindow r.state.contextWindow := by
  unfold handleExecutionCompletion at h
  obtain ⟨outcome, -, h⟩ := Fallible.bind_ok h
  obtain ⟨state', happly, h⟩ := Fallible.bind_ok h
  obtain ⟨active, plan, call, progress, status, state'', hactive, hphase, hcall, houtcome, rfl⟩ :=
    ToolExecution.applyCompletion_ok happly
  have extended := runPlan_extends h
  have same : state''.contextWindow = state.contextWindow := by
    rw [ToolExecution.applyOutcome_retracked houtcome]
  rw [← same]
  exact extended

/-! ## What an invocation does to the window -/

/-- The active turn waits for an ordinary request to the model. -/
def awaitedTurn (state : BasicCodexState) : Option OperationId :=
  match state.activeTurn with
  | some { phase := .awaitingLlm awaiting, .. } => some awaiting.operationId
  | _ => none

theorem awaitedTurn_eq {active : ActiveTurn} (h : state.activeTurn = some active) :
    awaitedTurn state =
      match active.phase with
      | .awaitingLlm awaiting => some awaiting.operationId
      | _ => none := by
  obtain ⟨id, started, date, phase, steering, retry⟩ := active
  unfold awaitedTurn
  rw [h]
  cases phase <;> rfl

theorem awaitedTurn_none (h : state.activeTurn = none) : awaitedTurn state = none := by
  unfold awaitedTurn
  rw [h]

/-- A response that the provider check accepts. -/
def accepted (agent : Agent) (response : AssistantResponse) : Bool :=
  (Llm.responseProvider agent response).isOk

/-- What an invocation does to the window of a session. -/
inductive WindowMoves (agent : Agent) (state : BasicCodexState) (event : SessionEvent)
    (context : HarnessContext) (r : OutcomeBuilder BasicCodexState) : Prop
  | extend (extended : Extends agent state.contextWindow r.state.contextWindow)
      (unanswered : ∀ id response, Completes event context id .llm (.succeeded (.llm response)) →
        awaitedTurn state = some id → accepted agent response = false)
      (unstarted : state.activeTurn = none → awaitedTurn r.state = none)
  | respond {id : OperationId} {response : AssistantResponse}
      (completes : Completes event context id .llm (.succeeded (.llm response)))
      (awaited : awaitedTurn state = some id) (checked : accepted agent response = true)
      (extended : Extends agent (recordResponse state response).contextWindow
        r.state.contextWindow)
  | install {id : OperationId} {response : AssistantResponse} {compaction : CompactionState}
      {validated : Compaction.ValidatedCompaction} {item : Message} {input : List Message}
      (completes : Completes event context id .llm (.succeeded (.llm response)))
      (unawaited : awaitedTurn state = none)
      (window : r.state.contextWindow = extendWindow agent (installCheckpoint agent state validated
        compaction item (state.contextWindow.generation + 1)).contextWindow input)
  | start {message : Message} (kind : event.kind = .userMessage message)
      (turn : state.activeTurn = none) (awaits : (awaitedTurn r.state).isSome = true)
      (window : r.state.contextWindow =
        (addLatestProjectionEstimate agent (pushMessage state message)).contextWindow)

theorem userMessage_windowMoves {message : Message} (kind : event.kind = .userMessage message)
    (h : handleUserMessage agent state message event through nextId = .ok r) :
    WindowMoves agent state event context r := by
  have unanswered : ∀ id response, Completes event context id .llm (.succeeded (.llm response)) →
      awaitedTurn state = some id → accepted agent response = false := by
    intro id response completes
    cases kind.symm.trans completes.delivered
  unfold handleUserMessage at h
  split at h
  · cases h
  split at h
  next active hactive =>
    cases h
    refine .extend .same unanswered fun hnone => ?_
    cases hactive.symm.trans hnone
  next hnone =>
    dsimp only [OutcomeBuilder.draw] at h
    split at h
    · cases h
      exact .extend .same unanswered fun _ => rfl
    · cases h
      exact .start kind hnone rfl rfl

theorem llmOutcome_windowMoves {id : OperationId} {outcome : OperationOutcome} {active : ActiveTurn}
    (completes : Completes event context id .llm outcome) (turn : state.activeTurn = some active)
    (awaited : awaitedTurn state = some id)
    (h : handleLlmOutcome agent state id outcome event through nextId = .ok r) :
    WindowMoves agent state event context r := by
  have unstarted : state.activeTurn = none → awaitedTurn r.state = none := by
    intro hnone
    cases turn.symm.trans hnone
  have other (houtcome : ∀ response, outcome = .succeeded (.llm response) →
      accepted agent response = false) (same : r.state.contextWindow = state.contextWindow) :
      WindowMoves agent state event context r := by
    refine .extend (.of_eq same) ?_ unstarted
    intro id' response completes' _
    obtain ⟨-, -, heq⟩ := completes.unique completes'
    exact houtcome response heq.symm
  unfold handleLlmOutcome at h
  split at h
  next response =>
    split at h
    next message hrefused =>
      cases h
      refine other (fun response' heq => ?_) rfl
      cases heq
      rw [accepted, hrefused]
      rfl
    next provider hprovider =>
      refine .respond completes awaited ?_ (handleResponse_extends h)
      rw [accepted, hprovider]
      rfl
  next => cases h
  next failure =>
    refine other (fun response heq => by cases heq) ?_
    rw [turn] at h
    dsimp only at h
    split at h <;> cases h <;> rfl
  next failure =>
    cases h
    exact other (fun response heq => by cases heq) rfl
  next =>
    cases h
    exact other (fun response heq => by cases heq) rfl

theorem compactionOutcome_windowMoves {id : OperationId} {outcome : OperationOutcome}
    {active : ActiveTurn} {compaction : CompactionState}
    (completes : Completes event context id .llm outcome) (turn : state.activeTurn = some active)
    (phase : active.phase = .compacting compaction)
    (h : handleCompactionOutcome agent state id outcome event nextId = .ok r) :
    WindowMoves agent state event context r := by
  have unawaited : awaitedTurn state = none := by
    rw [awaitedTurn_eq turn, phase]
  have other (same : r.state.contextWindow = state.contextWindow) :
      WindowMoves agent state event context r := by
    refine .extend (.of_eq same) ?_ fun hnone => ?_
    · intro id' response _ awaited
      cases unawaited.symm.trans awaited
    · cases turn.symm.trans hnone
  unfold handleCompactionOutcome at h
  rw [turn] at h
  dsimp only at h
  rw [phase] at h
  dsimp only at h
  split at h
  next response =>
    split at h
    · cases h
    · split at h
      · cases h
        exact other rfl
      next validated hvalidated =>
        unfold resumeAfterCompaction at h
        dsimp only at h
        split at h
        · cases h
        next item hitem =>
        split at h
        · cases h
        split at h
        · cases h
        · cases h
          exact .install completes unawaited rfl
  next => cases h
  next failure =>
    split at h <;> cases h <;> exact other rfl
  next =>
    cases h
    exact other rfl
  next =>
    cases h
    exact other rfl

/-- Every invocation in a running session that returns an outcome moves the window so. -/
theorem handleRunning_windowMoves (h : handleRunning agent state event context nextId = .ok r) :
    WindowMoves agent state event context r := by
  unfold handleRunning at h
  split at h
  next message hkind => exact userMessage_windowMoves hkind h
  next id kind status hkind =>
    split at h
    next =>
      refine .extend (handleExecutionCompletion_extends h) ?_ ?_
      · intro id' response completes
        cases hkind.symm.trans completes.delivered
      · intro hnone
        unfold handleExecutionCompletion at h
        obtain ⟨outcome, -, h⟩ := Fallible.bind_ok h
        obtain ⟨state', happly, -⟩ := Fallible.bind_ok h
        obtain ⟨active, plan, call, progress, status, state'', hactive, -⟩ :=
          ToolExecution.applyCompletion_ok happly
        cases hactive.symm.trans hnone
    next =>
      unfold handleLlmCompletion at h
      obtain ⟨⟨expected, isCompaction⟩, hexpected, h⟩ := Fallible.bind_ok h
      obtain ⟨active, hactive, hphase⟩ := expectedOperation_ok hexpected
      dsimp only at h
      split at h
      · cases h
      next hawaited =>
      simp only [ne_eq, Decidable.not_not] at hawaited
      subst hawaited
      obtain ⟨outcome, hread, h⟩ := Fallible.bind_ok h
      obtain ⟨hstored, hstatus⟩ := readOutcome_ok hread
      have completes : Completes event context expected .llm outcome := ⟨hstatus ▸ hkind, hstored⟩
      rcases hphase with ⟨rfl, awaiting, hphase, hid⟩ | ⟨rfl, compaction, hphase, -⟩
      · have awaited : awaitedTurn state = some expected := by
          rw [awaitedTurn_eq hactive, hphase]
          exact congrArg some hid
        exact llmOutcome_windowMoves completes hactive awaited h
      · exact compactionOutcome_windowMoves completes hactive hphase h
    next => cases h
  next reason hkind =>
    refine .extend (.of_eq ?_) ?_ fun hnone => awaitedTurn_none ?_
    · obtain ⟨c, targets, -, moves, rfl⟩ := begin_cleanup h
      rw [setLifecycleStatus_contextWindow, OutcomeBuilder.emitProgress_state, moves.state]
      rfl
    · intro id response completes
      cases hkind.symm.trans completes.delivered
    · rcases begin_turn h with hended | hcancelling
      · exact hended
      · rw [hcancelling, hnone]
        rfl
  next => cases h

end Handler

/-! ## The meter -/

/-- What was measured last: its tokens, and how many messages of the projection it covers. -/
structure Meter where
  total : Nat
  covered : Nat

/-- The measured tokens and the estimates of the messages behind them. -/
def Meter.tokens (agent : Agent) (meter : Meter) (window : ContextWindowState) : Nat :=
  meter.total + Compaction.estimateMessages agent.lib (window.modelHistory.drop meter.covered)

/-- An estimate that counts what was measured and every message behind it, as far as a `u64` goes. -/
def Covers (agent : Agent) (window : ContextWindowState) (meter : Option Meter) : Prop :=
  ∀ estimate, window.estimatedTokens = some estimate → ∃ m, meter = some m ∧
    m.covered ≤ window.modelHistory.length ∧ estimate = min (m.tokens agent window) (2 ^ 64 - 1)

section

variable {agent : Agent} {window window' : ContextWindowState} {meter : Option Meter}

theorem estimateMessages_append (lib : Foreign) (xs ys : List Message) :
    Compaction.estimateMessages lib (xs ++ ys) =
      Compaction.estimateMessages lib xs + Compaction.estimateMessages lib ys := by
  rw [Compaction.estimateMessages, List.map_append, List.sum_append]
  rfl

/-- Messages that are added with their estimates stay counted. -/
theorem Covers.extend (covers : Covers agent window meter) (messages : List Message) :
    Covers agent (Handler.extendWindow agent window messages) meter := by
  intro estimate' hestimate'
  obtain ⟨estimate, hestimate, rfl⟩ := Option.map_eq_some_iff.mp hestimate'
  obtain ⟨m, hm, hcovered, rfl⟩ := covers estimate hestimate
  refine ⟨m, hm, ?_, ?_⟩
  · show m.covered ≤ (window.modelHistory ++ messages).length
    rw [List.length_append]
    omega
  · have htokens : m.tokens agent (Handler.extendWindow agent window messages) =
        m.tokens agent window + Compaction.estimateMessages agent.lib messages := by
      show m.total + Compaction.estimateMessages agent.lib
        ((window.modelHistory ++ messages).drop m.covered) = _
      rw [List.drop_append_of_le_length hcovered, estimateMessages_append, ← Nat.add_assoc]
      rfl
    rw [htokens, saturatingAdd]
    omega

theorem Covers.extends (covers : Covers agent window meter)
    (extended : Handler.Extends agent window window') : Covers agent window' meter := by
  induction extended with
  | same => exact covers
  | more _ messages ih => exact ih.extend messages

/-- What is measured now covers the whole projection. -/
theorem covers_measured {total : Nat} (bound : total ≤ 2 ^ 64 - 1)
    (hestimate : window.estimatedTokens = some total) :
    Covers agent window (some { total, covered := window.modelHistory.length }) := by
  intro estimate hsome
  cases hestimate.symm.trans hsome
  refine ⟨_, rfl, Nat.le_refl _, ?_⟩
  rw [Meter.tokens, List.drop_length]
  show total = min (total + 0) _
  omega

theorem saturatingAdd_le (a b : Nat) : saturatingAdd a b ≤ 2 ^ 64 - 1 := Nat.min_le_right _ _

theorem estimateRequestTokens_le (agent : Agent) (messages : List Message) :
    Compaction.estimateRequestTokens agent messages ≤ 2 ^ 64 - 1 := saturatingAdd_le _ _

theorem estimatedContextTokens_le {usage : Option Usage} {tokens : Nat}
    (h : Llm.estimatedContextTokens usage = some tokens) : tokens ≤ 2 ^ 64 - 1 := by
  unfold Llm.estimatedContextTokens at h
  obtain ⟨u, -, h⟩ := Option.bind_eq_some_iff.mp h
  obtain ⟨input, -, h⟩ := Option.bind_eq_some_iff.mp h
  obtain ⟨output, -, h⟩ := Option.bind_eq_some_iff.mp h
  cases h
  exact saturatingAdd_le _ _

theorem covers_response {state : BasicCodexState} {response : AssistantResponse} {tokens : Nat}
    (usage : Llm.estimatedContextTokens response.usage = some tokens) :
    Covers agent (Handler.recordResponse state response).contextWindow
      (some { total := tokens, covered := state.contextWindow.modelHistory.length + 1 }) := by
  have hlength : (Handler.recordResponse state response).contextWindow.modelHistory.length =
      state.contextWindow.modelHistory.length + 1 := by
    rw [Handler.recordResponse_projection, List.length_append, List.length_singleton]
  rw [← hlength]
  refine covers_measured (estimatedContextTokens_le usage) ?_
  unfold Handler.recordResponse
  rw [usage]

end

namespace Session

open Handler

variable {agent : Agent} {s t : Session} {d : Delivery}

/-- The session is running and the completion answers the request that its turn awaits. -/
def answersTurn (s : Session) (id : OperationId) : Bool :=
  s.kindOf id == .llm && awaitedTurn s.state == some id

/-- What a step of a running session measures: a response that counts its tokens covers the
projection with the response, and a full estimate is made of what a compaction leaves and of a first
turn's projection. -/
def measuredRunning (agent : Agent) (s : Session) (d : Delivery) (t : Session) : Option Meter :=
  match d.stimulus with
  | .completed id (.succeeded (.llm response)) =>
    if s.answersTurn id then
      if accepted agent response then
        (Llm.estimatedContextTokens response.usage).map fun tokens =>
          { total := tokens, covered := s.state.contextWindow.modelHistory.length + 1 }
      else none
    else if s.state.contextWindow.generation < t.state.contextWindow.generation then
      let covered := (t.state.contextWindow.checkpoint.map fun checkpoint =>
        checkpoint.retainedUserMessages.length + 1).getD 0
      some {
        total := Compaction.estimateRequestTokens agent
          (t.state.contextWindow.modelHistory.take covered)
        covered }
    else none
  | .userMessage _ =>
    if s.state.activeTurn.isNone && (awaitedTurn t.state).isSome &&
        s.state.contextWindow.estimatedTokens.isNone then
      some {
        total := Compaction.estimateRequestTokens agent t.state.contextWindow.modelHistory
        covered := t.state.contextWindow.modelHistory.length }
    else none
  | _ => none

/-- What a step measures. A session that has failed or is being cancelled measures nothing. -/
def measured (agent : Agent) (s : Session) (d : Delivery) (t : Session) : Option Meter :=
  if s.state.terminalFailure.isSome || s.state.cancellation.isSome then none
  else measuredRunning agent s d t

/-- A run of a session whose steps meet a condition, with what was measured last. -/
inductive Metered (agent : Agent) (meets : Session → Delivery → Prop) :
    Session → Option Meter → Prop
  | start (id : SessionId) (nextId : Uuid) : Metered agent meets (start id nextId) none
  | step {s t : Session} {d : Delivery} {meter : Option Meter}
      (before : Metered agent meets s meter) (met : meets s d) (step : Step agent s d t) :
      Metered agent meets t ((measured agent s d t).or meter)

/-- The response that a delivery brings to an awaited request counts its tokens, if it is accepted. -/
def CountsTokens (agent : Agent) (s : Session) (d : Delivery) : Prop :=
  ∀ id response, d.stimulus = .completed id (.succeeded (.llm response)) →
    s.answersTurn id = true → accepted agent response = true →
      (Llm.estimatedContextTokens response.usage).isSome = true

theorem Metered.reachable {meets : Session → Delivery → Prop} {meter : Option Meter}
    (run : Metered agent meets s meter) : Reachable agent s := by
  induction run with
  | start id nextId => exact .start agent id nextId
  | step _ _ step ih => exact ih.step step

/-- A completion that the platform may deliver is the one that the handler reads. -/
theorem completes_of_admitted (numbered : s.Numbered) {id : OperationId}
    {outcome : OperationOutcome} (hstimulus : d.stimulus = .completed id outcome)
    (admitted : s.admits d.stimulus = true) :
    Completes (s.event d) (s.context d.stimulus) id (s.kindOf id) outcome := by
  rw [hstimulus] at admitted ⊢
  obtain ⟨o, ho, rfl, -⟩ := admits_completed admitted
  obtain ⟨hstaged, hopen⟩ := mem_outstanding.mp ho
  have hfresh : s.completed.find? (·.1 == o.id) = none := by
    rw [List.find?_eq_none]
    intro c hc hid
    rw [← Bool.not_eq_true, isCompleted_iff] at hopen
    exact hopen ⟨c.2, by rw [← beq_iff_eq.mp hid]; exact hc⟩
  have hfound := numbered.operation_eq hstaged
  constructor
  · simp [event, hstimulus]
  · simp [context, outcomes, hfound, kindOf, List.find?_append, hfresh]

theorem awaitedTurn_fillDate (state : BasicCodexState) (date : String) :
    awaitedTurn (fillDate state date) = awaitedTurn state := by
  cases hactive : state.activeTurn with
  | none =>
    have hnone : (fillDate state date).activeTurn = none := fillDate_none.mpr hactive
    rw [awaitedTurn_none hnone, awaitedTurn_none hactive]
  | some active =>
    have hdated : (fillDate state date).activeTurn = some
        (if active.currentDate.isEmpty then { active with currentDate := date } else active) := by
      rw [fillDate, hactive]
      rfl
    rw [awaitedTurn_eq hdated, awaitedTurn_eq hactive]
    by_cases hempty : active.currentDate.isEmpty = true
    · rw [if_pos hempty]
    · rw [if_neg hempty]

/-- What a step does to the window: nothing unless the session is running. -/
theorem Step.windowMoves (step : Step agent s d t) :
    ((s.state.terminalFailure.isSome || s.state.cancellation.isSome) = true ∧
        t.state.contextWindow = s.state.contextWindow) ∨
      ((s.state.terminalFailure.isSome || s.state.cancellation.isSome) = false ∧ ∃ r,
        t = s.after d.stimulus r ∧ WindowMoves agent (fillDate s.state d.date) (s.event d)
          (s.context d.stimulus) r) := by
  obtain ⟨-, r, hinvoke, rfl⟩ := step
  cases handle_answered hinvoke with
  | failed ended silent =>
    have hended : s.state.terminalFailure.isSome = true := ended
    refine .inl ⟨by rw [hended]; rfl, ?_⟩
    show r.state.contextWindow = _
    rw [silent.state]
    rfl
  | routed live cancelled _ silent =>
    have hcancelled : s.state.cancellation.isSome = true := Option.isSome_of_mem cancelled
    refine .inl ⟨by rw [hcancelled, Bool.or_true], ?_⟩
    show r.state.contextWindow = _
    rw [silent.state]
    rfl
  | @cleaned _ _ _ _ c live cancelled _ applied =>
    have hcancelled : s.state.cancellation.isSome = true := Option.isSome_of_mem cancelled
    refine .inl ⟨by rw [hcancelled, Bool.or_true], ?_⟩
    show (Cancellation.setLifecycleStatus c true).state.contextWindow = _
    rw [setLifecycleStatus_contextWindow, (Cancellation.applyCompletion_moves applied).state]
    rfl
  | running live uncancelled _ =>
    have hlive : s.state.terminalFailure = none := live
    have huncancelled : s.state.cancellation = none := uncancelled
    refine .inr ⟨by rw [hlive, huncancelled]; rfl, r, rfl, ?_⟩
    exact handleRunning_windowMoves ((handle_running live uncancelled).symm.trans hinvoke)

theorem answersTurn_iff {id : OperationId} :
    s.answersTurn id = true ↔ s.kindOf id = .llm ∧ awaitedTurn s.state = some id := by
  rw [answersTurn, Bool.and_eq_true, beq_iff_eq, beq_iff_eq]

/-- A completion that the handler reads as the model's is one of the model's. -/
theorem kindOf_of_completes {id : OperationId} {kind : OperationKind} {outcome : OperationOutcome}
    (completes : Completes (s.event d) (s.context d.stimulus) id kind outcome)
    (hstimulus : d.stimulus = .completed id outcome) : s.kindOf id = kind := by
  have hdelivered := completes.delivered
  simp only [event, hstimulus, EventKind.operationCompleted.injEq] at hdelivered
  exact hdelivered.2.1

/-- A step that extends the window measures nothing. -/
theorem measuredRunning_none (numbered : s.Numbered) (admitted : s.admits d.stimulus = true)
    (unanswered : ∀ id response,
      Completes (s.event d) (s.context d.stimulus) id .llm (.succeeded (.llm response)) →
        awaitedTurn s.state = some id → accepted agent response = false)
    (unstarted : s.state.activeTurn = none → awaitedTurn t.state = none)
    (generation : t.state.contextWindow.generation = s.state.contextWindow.generation) :
    measuredRunning agent s d t = none := by
  unfold measuredRunning
  split
  next id response hstimulus =>
    split
    next hanswers =>
      obtain ⟨hkind, hawaited⟩ := answersTurn_iff.mp hanswers
      have completes := completes_of_admitted numbered hstimulus admitted
      rw [hkind] at completes
      rw [if_neg (by rw [unanswered id response completes hawaited]; exact Bool.false_ne_true)]
    next =>
      rw [if_neg (by rw [generation]; exact Nat.lt_irrefl _)]
  next message hstimulus =>
    rw [if_neg]
    rw [Bool.and_eq_true, Bool.and_eq_true, Option.isNone_iff_eq_none]
    rintro ⟨⟨hnone, hawaits⟩, -⟩
    rw [unstarted hnone] at hawaits
    cases hawaits
  next => rfl

/-- What a response that is accepted leaves, and what it measures. -/
theorem covers_respond {meter : Option Meter} {r : OutcomeBuilder BasicCodexState}
    {id : OperationId} {response : AssistantResponse} (numbered : s.Numbered)
    (admitted : s.admits d.stimulus = true) (counts : CountsTokens agent s d)
    (completes : Completes (s.event d) (s.context d.stimulus) id .llm (.succeeded (.llm response)))
    (awaited : awaitedTurn s.state = some id) (checked : accepted agent response = true)
    (extended : Extends agent (recordResponse (fillDate s.state d.date) response).contextWindow
      r.state.contextWindow) :
    Covers agent r.state.contextWindow
      ((measuredRunning agent s d (s.after d.stimulus r)).or meter) := by
  obtain ⟨hstimulus, -⟩ := completes_delivered numbered admitted completes
  have hanswers := answersTurn_iff.mpr ⟨kindOf_of_completes completes hstimulus, awaited⟩
  obtain ⟨tokens, htokens⟩ :=
    Option.isSome_iff_exists.mp (counts id response hstimulus hanswers checked)
  have hmeasured : measuredRunning agent s d (s.after d.stimulus r) =
      some { total := tokens, covered := s.state.contextWindow.modelHistory.length + 1 } := by
    unfold measuredRunning
    simp only [hstimulus, if_pos hanswers, if_pos checked, htokens, Option.map_some]
  have covers : Covers agent (recordResponse (fillDate s.state d.date) response).contextWindow
      (some { total := tokens, covered := s.state.contextWindow.modelHistory.length + 1 }) :=
    covers_response htokens
  rw [hmeasured, Option.some_or]
  exact covers.extends extended

/-- What an installed checkpoint leaves, and what it measures. -/
theorem covers_install {meter : Option Meter} {r : OutcomeBuilder BasicCodexState}
    {id : OperationId} {response : AssistantResponse} {compaction : CompactionState}
    {validated : Compaction.ValidatedCompaction} {item : Message} {input : List Message}
    (hstimulus : d.stimulus = .completed id (.succeeded (.llm response)))
    (unawaited : awaitedTurn s.state = none)
    (window : r.state.contextWindow = extendWindow agent (installCheckpoint agent
      (fillDate s.state d.date) validated compaction item
        (s.state.contextWindow.generation + 1)).contextWindow input) :
    Covers agent r.state.contextWindow
      ((measuredRunning agent s d (s.after d.stimulus r)).or meter) := by
  have hanswers : ¬ s.answersTurn id = true := by
    rw [answersTurn_iff, unawaited]
    rintro ⟨-, hawaited⟩
    cases hawaited
  let installed := (installCheckpoint agent (fillDate s.state d.date) validated compaction item
    (s.state.contextWindow.generation + 1)).contextWindow
  have hgeneration : s.state.contextWindow.generation <
      (s.after d.stimulus r).state.contextWindow.generation := by
    show _ < r.state.contextWindow.generation
    rw [window]
    exact Nat.lt_succ_self _
  have hcovered : ((s.after d.stimulus r).state.contextWindow.checkpoint.map fun checkpoint =>
      checkpoint.retainedUserMessages.length + 1).getD 0 = installed.modelHistory.length := by
    show (r.state.contextWindow.checkpoint.map _).getD 0 = _
    rw [window]
    show _ = (Compaction.retainedUserMessages agent.lib _ ++ [item]).length
    rw [List.length_append]
    rfl
  have hcounted : (s.after d.stimulus r).state.contextWindow.modelHistory.take
      installed.modelHistory.length = installed.modelHistory := by
    show r.state.contextWindow.modelHistory.take _ = _
    rw [window]
    exact List.take_left
  have hmeasured : measuredRunning agent s d (s.after d.stimulus r) = some {
      total := Compaction.estimateRequestTokens agent installed.modelHistory
      covered := installed.modelHistory.length } := by
    unfold measuredRunning
    simp only [hstimulus, if_neg hanswers]
    rw [hstimulus] at hgeneration hcovered hcounted
    rw [if_pos hgeneration, hcovered, hcounted]
  rw [hmeasured, Option.some_or, window]
  exact (covers_measured (estimateRequestTokens_le agent _) rfl).extend input

/-- A first turn's estimate is of its whole projection. -/
theorem firstEstimate_none {state : BasicCodexState} {message : Message}
    (h : state.contextWindow.estimatedTokens = none) :
    (addLatestProjectionEstimate agent (pushMessage state message)).contextWindow =
      { state.contextWindow with
        estimatedTokens := some (Compaction.estimateRequestTokens agent
          (state.contextWindow.modelHistory ++ [message]))
        modelHistory := state.contextWindow.modelHistory ++ [message] } := by
  unfold addLatestProjectionEstimate pushMessage
  simp only [h]

/-- A later turn adds its message to the estimate. -/
theorem firstEstimate_some {state : BasicCodexState} {message : Message} {estimate : Nat}
    (h : state.contextWindow.estimatedTokens = some estimate) :
    (addLatestProjectionEstimate agent (pushMessage state message)).contextWindow =
      extendWindow agent state.contextWindow [message] := by
  unfold addLatestProjectionEstimate pushMessage extendWindow
  simp only [h, List.getLast?_concat, Option.map_some, Compaction.estimateMessages, List.map_cons,
    List.map_nil, List.sum_cons, List.sum_nil, Nat.add_zero]

/-- What the beginning of a turn leaves, and what it measures. -/
theorem covers_start {meter : Option Meter} {r : OutcomeBuilder BasicCodexState} {message : Message}
    (covers : Covers agent s.state.contextWindow meter)
    (hstimulus : d.stimulus = .userMessage message) (turn : s.state.activeTurn = none)
    (awaits : (awaitedTurn r.state).isSome = true)
    (window : r.state.contextWindow = (addLatestProjectionEstimate agent
      (pushMessage (fillDate s.state d.date) message)).contextWindow) :
    Covers agent r.state.contextWindow
      ((measuredRunning agent s d (s.after d.stimulus r)).or meter) := by
  cases hestimate : s.state.contextWindow.estimatedTokens with
  | none =>
    have hcondition : (s.state.activeTurn.isNone &&
        (awaitedTurn (s.after d.stimulus r).state).isSome &&
          s.state.contextWindow.estimatedTokens.isNone) = true := by
      rw [turn, hestimate]
      exact (Bool.and_true _).trans awaits
    have hmeasured : measuredRunning agent s d (s.after d.stimulus r) = some {
        total := Compaction.estimateRequestTokens agent r.state.contextWindow.modelHistory
        covered := r.state.contextWindow.modelHistory.length } := by
      unfold measuredRunning
      rw [if_pos hcondition]
      simp only [hstimulus]
      rfl
    rw [hmeasured, Option.some_or, window]
    refine covers_measured (estimateRequestTokens_le agent _) ?_
    rw [firstEstimate_none (show (fillDate s.state d.date).contextWindow.estimatedTokens = none from
      hestimate)]
  | some estimate =>
    have hcondition : ¬ (s.state.activeTurn.isNone &&
        (awaitedTurn (s.after d.stimulus r).state).isSome &&
          s.state.contextWindow.estimatedTokens.isNone) = true := by
      rw [hestimate]
      exact fun h => Bool.false_ne_true ((Bool.and_false _).symm.trans h)
    have hmeasured : measuredRunning agent s d (s.after d.stimulus r) = none := by
      unfold measuredRunning
      rw [if_neg hcondition]
      simp only [hstimulus]
    rw [hmeasured, Option.none_or, window, firstEstimate_some
      (show (fillDate s.state d.date).contextWindow.estimatedTokens = some estimate from hestimate)]
    exact covers.extend [message]

/-- A step that counts its tokens keeps the estimate of what was measured and what follows it. -/
theorem covers_step {meter : Option Meter} (covers : Covers agent s.state.contextWindow meter)
    (numbered : s.Numbered) (counts : CountsTokens agent s d) (step : Step agent s d t) :
    Covers agent t.state.contextWindow ((measured agent s d t).or meter) := by
  have admitted := step.1
  rcases step.windowMoves with ⟨hstopped, hwindow⟩ | ⟨hrunning, r, rfl, moves⟩
  · rw [measured, if_pos hstopped, Option.none_or, hwindow]
    exact covers
  rw [measured, if_neg (by rw [hrunning]; exact Bool.false_ne_true)]
  cases moves with
  | extend extended unanswered unstarted =>
    rw [awaitedTurn_fillDate] at unanswered
    rw [measuredRunning_none numbered admitted unanswered
      (fun hnone => unstarted (fillDate_none.mpr hnone)) extended.generation, Option.none_or]
    exact covers.extends extended
  | @respond id response completes awaited checked extended =>
    rw [awaitedTurn_fillDate] at awaited
    exact covers_respond numbered admitted counts completes awaited checked extended
  | @install id response compaction validated item input completes unawaited window =>
    rw [awaitedTurn_fillDate] at unawaited
    exact covers_install (completes_delivered numbered admitted completes).1 unawaited window
  | @start message kind turn awaits window =>
    have hstimulus : d.stimulus = .userMessage message := by
      unfold event at kind
      dsimp only at kind
      split at kind <;> cases kind
      assumption
    exact covers_start covers hstimulus (fillDate_none.mp turn) awaits window

theorem Metered.covers {meter : Option Meter} (run : Metered agent (CountsTokens agent) s meter) :
    Covers agent s.state.contextWindow meter := by
  induction run with
  | start id nextId =>
    intro estimate hestimate
    cases hestimate
  | step before met step ih => exact covers_step ih before.reachable.kept.numbered met step

/-- In every run in which each accepted response counts its tokens, the estimate is at least what
was measured last and the estimates of the messages behind it, as far as a `u64` goes. So a session
that needs no compaction has fewer tokens than the limit, whatever their number. -/
theorem no_message_escapes {meter : Option Meter} {estimate : Nat}
    (run : Metered agent (CountsTokens agent) s meter)
    (estimated : s.state.contextWindow.estimatedTokens = some estimate) :
    ∃ m, meter = some m ∧
      (m.tokens agent s.state.contextWindow < 2 ^ 64 →
        m.tokens agent s.state.contextWindow ≤ estimate) ∧
      (needsCompaction agent s.state = false →
        m.tokens agent s.state.contextWindow < autoCompactLimit) := by
  obtain ⟨m, hmeter, -, hestimate⟩ := run.covers estimate estimated
  refine ⟨m, hmeter, fun hbound => by omega, fun hshort => ?_⟩
  rw [needsCompaction, estimated, Option.getD_some, decide_eq_false_iff_not] at hshort
  rw [autoCompactLimit] at hshort ⊢
  omega

/-! ## Two runs -/

def firstDelivery : Delivery := delivery 1 (.userMessage (.userText "go on"))

/-- A response that is to be continued, with its usage or without. -/
theorem isAssistant_pause : (Message.assistant .default .openai []).isAssistant = true := rfl

def pauseResponse (usage : Option Usage) : AssistantResponse :=
  { id := "r", modelId := "gpt-5.6-sol", message := .assistant .default .openai [],
    stopReason := .pauseTurn, usage, assistant := isAssistant_pause }

def pausing (usage : Option Usage) : Delivery :=
  delivery 2 (.completed 10 (.succeeded (.llm (pauseResponse usage))))

def smallUsage : Usage :=
  { input := some 100, output := some 10, cacheRead := none, cacheWrite := none }

/-- The session that a delivery leads to. -/
def next (agent : Agent) (s : Session) (d : Delivery) : Session := (s.play agent [d]).getD s

theorem step_next (h : (s.play agent [d]).isSome = true) : Step agent s d (next agent s d) := by
  obtain ⟨t, ht⟩ := Option.isSome_iff_exists.mp h
  rw [next, ht, Option.getD_some]
  exact step_of_play ht

def promptedSession : Session := next inputAgent (start 3 9) firstDelivery

def pausedSession (usage : Option Usage) : Session :=
  next inputAgent promptedSession (pausing usage)

/-- What was measured last before the turn goes on. -/
def pausedMeter (usage : Option Usage) : Option Meter :=
  (measured inputAgent promptedSession (pausing usage) (pausedSession usage)).or
    ((measured inputAgent (start 3 9) firstDelivery promptedSession).or none)

theorem paused_metered {usage : Option Usage} {meets : Session → Delivery → Prop}
    (first : meets (start 3 9) firstDelivery) (second : meets promptedSession (pausing usage))
    (played : (promptedSession.play inputAgent [pausing usage]).isSome = true) :
    Metered inputAgent meets (pausedSession usage) (pausedMeter usage) :=
  .step (.step (.start 3 9) first (step_next (by decide +kernel))) second (step_next played)

/-- The estimate behind a response that counts its tokens. -/
theorem no_message_escapes_paused : ∃ m, pausedMeter (some smallUsage) = some m ∧
    m.tokens inputAgent (pausedSession (some smallUsage)).state.contextWindow ≤ 110 := by
  have run : Metered inputAgent (CountsTokens inputAgent) (pausedSession (some smallUsage))
      (pausedMeter (some smallUsage)) := by
    refine paused_metered ?_ ?_ (by decide +kernel)
    · intro id response hstimulus
      cases hstimulus
    · intro id response hstimulus _ _
      cases hstimulus
      decide
  have estimated : (pausedSession (some smallUsage)).state.contextWindow.estimatedTokens =
      some 110 := by decide +kernel
  obtain ⟨m, hmeter, hbelow, hlimit⟩ := no_message_escapes run estimated
  have hshort := hlimit (by decide +kernel)
  rw [autoCompactLimit] at hshort
  exact ⟨m, hmeter, hbelow (by omega)⟩

/-- A response without a count is in the projection and not in the estimate. -/
theorem no_message_escapes_uncounted : ¬ (∀ (agent : Agent) (s : Session) (meter : Option Meter)
    (estimate : Nat), Metered agent (fun _ _ => True) s meter →
      s.state.contextWindow.estimatedTokens = some estimate →
        ∃ m, meter = some m ∧ m.tokens agent s.state.contextWindow ≤ estimate) := by
  intro hall
  have run : Metered inputAgent (fun _ _ => True) (pausedSession none) (pausedMeter none) :=
    paused_metered trivial trivial (by decide +kernel)
  have hsome : (pausedSession none).state.contextWindow.estimatedTokens.isSome = true := by
    decide +kernel
  obtain ⟨estimate, hestimate⟩ := Option.isSome_iff_exists.mp hsome
  obtain ⟨m, hmeter, hle⟩ := hall _ _ _ _ run hestimate
  have hmore : (pausedMeter none).all (fun m => decide
      (m.tokens inputAgent (pausedSession none).state.contextWindow ≤
        (pausedSession none).state.contextWindow.estimatedTokens.getD 0)) = false := by
    decide +kernel
  rw [hmeter, hestimate, Option.all_some, Option.getD_some, decide_eq_true hle] at hmore
  cases hmore

end Session

end AgentPlatform.Harness
