import AgentPlatform.Harness.Correlation
import AgentPlatform.Harness.ContextEstimate

/-!
# The completions of a running session

In a running session the completion of an operation is taken in, whatever came before it. The
handler refuses one only at its guards: where the sequence of the history or the generation of the
conversation has no successor.
-/

namespace AgentPlatform.Harness.Handler

open ToolExecution (planOf)

variable {agent : Agent} {b : OutcomeBuilder BasicCodexState} {through : HistorySequence}
  {sid : SessionId} {e : HandlerError}

/-! ## Boundaries -/

theorem stageAfterBoundary_total {active : ActiveTurn} (turn : b.state.activeTurn = some active)
    (agent : Agent) (source : HistorySequence) (sid : SessionId) :
    ∃ r, stageAfterBoundary agent b source sid = .ok r := by
  unfold stageAfterBoundary
  split
  · unfold stageCompaction
    rw [turn]
    exact ⟨_, rfl⟩
  · rw [turn]
    exact ⟨_, rfl⟩

/-- A boundary in a turn is refused only by the guard of the history. -/
theorem boundary_error {active : ActiveTurn} {added : Nat} (turn : b.state.activeTurn = some active)
    (h : (do
      let source ← advanceHistorySequence through added
      stageAfterBoundary agent b source sid) = .error e) :
    advanceHistorySequence through added = .error e := by
  rcases Fallible.bind_error h with hadvance | ⟨source, -, hstage⟩
  · exact hadvance
  · obtain ⟨r, hr⟩ := stageAfterBoundary_total turn agent source sid
    cases hr.symm.trans hstage

theorem orderedResultMessages_total {plan : ToolPlanState} (complete : plan.isComplete = true)
    (lib : Foreign) : ∃ messages, plan.orderedResultMessages lib = .ok messages := by
  unfold ToolPlanState.orderedResultMessages
  unfold ToolPlanState.isComplete at complete
  generalize plan.calls = calls at complete
  induction calls with
  | nil => exact ⟨[], rfl⟩
  | cons call calls ih =>
    rw [List.all_cons, Bool.and_eq_true] at complete
    obtain ⟨rest, hrest⟩ := ih complete.2
    rw [List.mapM_cons, hrest]
    have hcompleted := complete.1
    cases hstatus : call.status with
    | completed snapshot => exact ⟨_, rfl⟩
    | pending | ready | submitted =>
      rw [hstatus] at hcompleted
      cases hcompleted

theorem finishCompletedToolPlan_error {plan : ToolPlanState} (hplan : planOf b.state = some plan)
    (h : finishCompletedToolPlan agent b through sid = .error e) :
    advanceHistorySequence through plan.callIds.length = .error e := by
  obtain ⟨active, hactive, hphase⟩ := ToolExecution.planOf_some.mp hplan
  unfold finishCompletedToolPlan at h
  rw [hactive] at h
  dsimp only at h
  rw [hphase] at h
  dsimp only at h
  split at h
  next complete =>
    obtain ⟨messages, hmessages⟩ := orderedResultMessages_total complete agent.lib
    rw [hmessages] at h
    rw [← results_length hmessages]
    have hturn : (appendResults agent b messages).state.activeTurn = some active := by
      rw [appendResults_activeTurn, hactive]
    rcases Fallible.bind_error h with hadvance | ⟨source, -, h⟩
    · exact hadvance
    rcases Fallible.bind_error h with hstage | ⟨r, -, h⟩
    · obtain ⟨r, hr⟩ := stageAfterBoundary_total hturn agent source sid
      cases hr.symm.trans hstage
    · cases h
  next => cases h

/-- Running a plan is refused only by the guard of the history, for the results of the plan. -/
theorem runPlan_error {plan : ToolPlanState} {invocation : Invocation}
    (hplan : planOf b.state = some plan) (sound : plan.Sound)
    (h : runPlan agent b through invocation = .error e) :
    advanceHistorySequence through plan.callIds.length = .error e := by
  obtain ⟨scheduled, hschedule⟩ :
      ∃ scheduled, ToolExecution.scheduleReady agent b invocation = .ok scheduled :=
    ToolExecution.scheduleReady_total hplan sound
  obtain ⟨plan', hplan', leaves⟩ := scheduleReady_leaves hplan hschedule
  unfold runPlan at h
  rw [Fallible.ok_bind hschedule] at h
  rcases Fallible.bind_error h with hfinish | ⟨⟨finished, result⟩, -, h⟩
  · rw [← leaves.calls]
    exact finishCompletedToolPlan_error hplan' hfinish
  · cases finished <;> cases h

/-! ## Responses -/

variable {state : BasicCodexState} {event : SessionEvent} {nextId : Uuid} {id : OperationId}
  {active : ActiveTurn}

/-- A response without a plan did not stop to use tools. -/
theorem parse_none_stop {lib : Foreign} {message : Message} {stopReason : StopReason}
    (h : ToolPlan.parse lib id message stopReason = .ok none) : stopReason ≠ .toolUse := by
  rintro rfl
  unfold ToolPlan.parse at h
  split at h
  · obtain ⟨calls, -, h⟩ := Fallible.bind_ok h
    split at h <;> cases h
  · cases h

theorem stopReason_error {stopReason : StopReason} (turn : b.state.activeTurn = some active)
    (stops : stopReason ≠ .toolUse)
    (h : handleStopReason agent b id stopReason event through = .error e) :
    advanceHistorySequence through 1 = .error e := by
  have hstop : (if b.state.activeTurn.any (!·.pendingSteering.isEmpty) then (do
        let source ← advanceHistorySequence through 1
        stageAfterBoundary agent b source event.sessionId)
      else .ok ((b.setState { b.state with activeTurn := none }).setStatus .idle)) = .error e →
        advanceHistorySequence through 1 = .error e := by
    intro h
    split at h
    · exact boundary_error turn h
    · cases h
  unfold handleStopReason at h
  dsimp only at h
  split at h
  · exact hstop h
  · exact hstop h
  · exact boundary_error turn h
  · cases h
  · cases h
  · exact absurd rfl stops

/-- The entries that a response puts before the next boundary: itself, and the results of its
calls. -/
def responseEntries (lib : Foreign) (id : OperationId) (response : AssistantResponse) : Nat :=
  match ToolPlan.parse lib id response.message response.stopReason with
  | .ok (some plan) => 1 + plan.callIds.length
  | _ => 1

theorem responseEntries_some {lib : Foreign} {response : AssistantResponse} {plan : ToolPlanState}
    (h : ToolPlan.parse lib id response.message response.stopReason = .ok (some plan)) :
    responseEntries lib id response = 1 + plan.callIds.length := by
  rw [responseEntries, h]

theorem responseEntries_none {lib : Foreign} {response : AssistantResponse}
    (h : ToolPlan.parse lib id response.message response.stopReason = .ok none) :
    responseEntries lib id response = 1 := by
  rw [responseEntries, h]

theorem response_error {response : AssistantResponse} (turn : state.activeTurn = some active)
    (h : handleResponse agent state id response event through nextId = .error e) :
    ∃ added ≤ responseEntries agent.lib id response,
      advanceHistorySequence through added = .error e := by
  have hturn : (recorded state response nextId).state.activeTurn = some active :=
    (recordResponse_turn state response).trans turn
  unfold handleResponse at h
  dsimp only at h
  split at h
  next => cases h
  next hnone =>
    rw [responseEntries_none hnone]
    exact ⟨1, le_refl 1, stopReason_error hturn (parse_none_stop hnone) h⟩
  next plan hplan =>
    rw [responseEntries_some hplan]
    split at h
    next complete =>
      obtain ⟨messages, hmessages⟩ := orderedResultMessages_total complete agent.lib
      rw [hmessages] at h
      have happended : (appendResults agent (recorded state response nextId) messages).state.activeTurn =
          some active := by
        rw [appendResults_activeTurn]
        exact hturn
      refine ⟨1 + messages.length, ?_, boundary_error happended h⟩
      rw [results_length hmessages]
    next =>
      have happended : ((OutcomeBuilder.new (recordResponse state response) nextId).appendMessage
          response.message).state.activeTurn = some active := hturn
      rw [happended] at h
      refine ⟨plan.callIds.length, Nat.le_add_left _ _, ?_⟩
      exact runPlan_error rfl (ToolPlan.parse_sound hplan).1 h

/-- What a completion of the model awaited by its turn is refused for. -/
theorem llmOutcome_error {outcome : OperationOutcome} (turn : state.activeTurn = some active)
    (allowed : succeedsAs .llm outcome = true)
    (h : handleLlmOutcome agent state id outcome event through nextId = .error e) :
    ∃ response added, outcome = .succeeded (.llm response) ∧
      added ≤ responseEntries agent.lib id response ∧
        advanceHistorySequence through added = .error e := by
  unfold handleLlmOutcome at h
  split at h
  next response =>
    split at h
    · cases h
    · obtain ⟨added, hadded, hadvance⟩ := response_error turn h
      exact ⟨response, added, rfl, hadded, hadvance⟩
  next result hresult =>
    cases result with
    | llm response => exact absurd rfl (hresult response)
    | execution | llmCancellation | withdraw => cases allowed
  · rw [turn] at h
    dsimp only at h
    split at h <;> cases h
  · cases h
  · cases h

/-! ## Compactions -/

/-- The item that a compaction keeps was read before. -/
theorem findNativeItem_parses {lib : Foreign} {items : List RawJson} {found : Option RawJson}
    {item : RawJson} (h : Compaction.findNativeItem lib items found = .ok (some item)) :
    found = some item ∨ ∃ value, lib.parseJson item = .ok value := by
  induction items generalizing found with
  | nil =>
    cases h
    exact .inl rfl
  | cons first items ih =>
    unfold Compaction.findNativeItem at h
    split at h
    · cases h
    next value hvalue =>
    dsimp only at h
    split at h
    · exact ih h
    split at h
    · cases h
    split at h
    · cases h
    split at h
    · cases h
    rcases ih h with hfound | hparses
    · cases hfound
      exact .inr ⟨value, hvalue⟩
    · exact .inr hparses

theorem validateResponse_parses {response : AssistantResponse}
    {validated : Compaction.ValidatedCompaction}
    (h : Compaction.validateResponse agent response = .ok validated) :
    ∃ value, agent.lib.parseJson validated.nativeItem = .ok value := by
  unfold Compaction.validateResponse at h
  split at h
  · cases h
  split at h
  · cases h
  split at h
  next =>
    split at h
    · cases h
    · cases h
    next hfound =>
      cases h
      rcases findNativeItem_parses hfound with hnone | hparses
      · cases hnone
      · exact hparses
  · cases h

/-- What a compaction is refused for: its generation has no successor. -/
theorem compactionOutcome_error {outcome : OperationOutcome} {compaction : CompactionState}
    (turn : state.activeTurn = some active) (phase : active.phase = .compacting compaction)
    (source : compaction.sourceProjectionSha256 =
      Compaction.projectionSha256 agent.lib state.contextWindow.modelHistory)
    (allowed : succeedsAs .llm outcome = true)
    (h : handleCompactionOutcome agent state id outcome event nextId = .error e) :
    2 ^ 32 ≤ state.contextWindow.generation + 1 ∧
      e = { message := "context generation overflowed" } := by
  unfold handleCompactionOutcome at h
  rw [turn] at h
  dsimp only at h
  rw [phase] at h
  dsimp only at h
  split at h
  next response =>
    rw [if_neg (not_not_intro source.symm)] at h
    split at h
    · cases h
    next validated hvalidated =>
      obtain ⟨value, hvalue⟩ := validateResponse_parses hvalidated
      unfold resumeAfterCompaction Compaction.providerMessage Compaction.checkpointMessage at h
      rw [hvalue] at h
      dsimp only at h
      split at h
      next full =>
        cases h
        exact ⟨full, rfl⟩
      · cases h
  next result hresult =>
    cases result with
    | llm response => exact absurd rfl (hresult response)
    | execution | llmCancellation | withdraw => cases allowed
  · split at h <;> cases h
  · cases h
  · cases h

/-! ## The conversation that a compaction reads -/

/-- A compaction that is awaited reads the conversation as it is. -/
def Projected (agent : Agent) (state : BasicCodexState) : Prop :=
  ∀ compaction, compactionOf state = some compaction → compaction.sourceProjectionSha256 =
    Compaction.projectionSha256 agent.lib state.contextWindow.modelHistory

theorem projected_of_none {state : BasicCodexState} (h : compactionOf state = none) :
    Projected agent state := by
  intro compaction hcompaction
  cases h.symm.trans hcompaction

theorem Boundary.projected {r : OutcomeBuilder BasicCodexState}
    (boundary : Boundary agent b active through sid r) : Projected agent r.state := by
  cases boundary with
  | compact =>
    intro compaction hcompaction
    cases hcompaction
    rfl
  | resume => exact projected_of_none rfl

theorem PlanRan.projected {r : OutcomeBuilder BasicCodexState} {invocation : Invocation}
    (ran : PlanRan agent b invocation r) : Projected agent r.state := by
  cases ran with
  | waits _ executes => exact projected_of_none (compactionOf_of_plan executes)
  | finished _ _ _ _ _ boundary => exact boundary.projected

theorem Handled.projected {context : HarnessContext} {r : OutcomeBuilder BasicCodexState}
    (handled : Handled agent state event context nextId r) (projected : Projected agent state) :
    Projected agent r.state := by
  cases handled with
  | @steered message active kind user turn =>
    intro compaction hcompaction
    refine projected compaction ?_
    rw [← hcompaction]
    refine (compactionOf_congr ?_).symm
    show some (steer active event message).phase = state.activeTurn.map (·.phase)
    rw [turn]
    rfl
  | compactFirst =>
    intro compaction hcompaction
    cases hcompaction
    rfl
  | start | failAwaiting | failCompacting | idle | retry | install => exact projected_of_none rfl
  | respond _ _ _ _ _ boundary => exact boundary.projected
  | refused _ _ _ _ _ _ _ boundary => exact boundary.projected
  | plan _ _ _ _ _ _ ran => exact ran.projected
  | compactAgain _ turn phase =>
    have hsource := projected _ (compactionOf_some.mpr ⟨_, turn, phase⟩)
    intro compaction hcompaction
    cases hcompaction
    exact hsource
  | execution _ _ ran => exact ran.projected
  | cancel _ begun => exact projected_of_none (begin_compaction begun)

theorem Answered.projected {context : HarnessContext} {r : OutcomeBuilder BasicCodexState}
    (answered : Answered agent state event context nextId r) (projected : Projected agent state) :
    Projected agent r.state := by
  cases answered with
  | failed _ silent | routed _ _ _ silent =>
    rw [silent.state]
    exact projected
  | @cleaned _ _ _ _ c _ _ _ applied =>
    obtain ⟨-, -, hnone | hsame⟩ := setLifecycleStatus_state c true
    · exact projected_of_none (compactionOf_none hnone)
    · intro compaction hcompaction
      have hstate := (Cancellation.applyCompletion_moves applied).state
      rw [setLifecycleStatus_contextWindow, hstate]
      refine projected compaction ?_
      rw [← hcompaction]
      refine (compactionOf_congr ?_).symm
      rw [hsame, hstate]
      rfl
  | running _ _ handled => exact handled.projected projected

end AgentPlatform.Harness.Handler

/-! ## Sessions -/

namespace AgentPlatform.Harness.Session

open Handler
open ToolExecution (planOf)

variable {agent : Agent} {s t : Session} {d : Delivery}

theorem Reachable.projected (reach : Reachable agent s) : Projected agent s.state := by
  refine reach.induct (P := fun s => Projected agent s.state) ?_ ?_
  · intro id nextId
    exact projected_of_none rfl
  · intro s d t before projected step
    obtain ⟨-, r, rfl, answered⟩ := step.answered
    rw [before.dated.fillDate] at answered
    exact answered.projected projected

/-- What a completion is read as. -/
theorem readOutcome_of_completes {event : SessionEvent} {context : HarnessContext}
    {id : OperationId} {kind : OperationKind} {outcome : OperationOutcome}
    (completes : Completes event context id kind outcome) (role noun mismatch status : String) :
    readOutcome context role noun mismatch status id kind outcome.status = .ok outcome := by
  simp [readOutcome, completes.stored]

/-- A completion that the platform may deliver to a running session is one that the turn refers
to. -/
theorem referenced_of_admitted (reach : Reachable agent s) (running : s.Running)
    {id : OperationId} {outcome : OperationOutcome} (admitted : s.admits (.completed id outcome)) :
    (id, s.kindOf id) ∈ referenced s.state ∧ allowedFor (s.kindOf id) outcome = true := by
  obtain ⟨o, ho, rfl, hends⟩ := admits_completed admitted
  have hfound := reach.kept.numbered.operation_eq (mem_outstanding.mp ho).1
  have hkind : s.kindOf o.id = o.request.kind := by
    rw [kindOf, hfound]
    rfl
  rw [hkind]
  constructor
  · exact (reach.correlated running).mem_iff.mp (List.mem_map.mpr ⟨o, ho, rfl⟩)
  · exact (Bool.and_eq_true_iff.mp hends).1

theorem invoke_running (reach : Reachable agent s) (running : s.Running) (d : Delivery) :
    s.invoke agent d =
      handleRunning agent s.state (s.event d) (s.context d.stimulus) s.nextId := by
  have hdated : fillDate s.state (s.event d).date = s.state := reach.dated.fillDate d.date
  unfold invoke
  rw [handle_running running.1 running.2, hdated]

section

variable {id : OperationId} {outcome : OperationOutcome}
  (hstimulus : d.stimulus = .completed id outcome) (admitted : s.admits d.stimulus = true)
include hstimulus admitted

/-- The completion of the operation that the turn awaits from the model. -/
theorem invoke_llm (reach : Reachable agent s) (running : s.Running) {expected : OperationId}
    {compacts : Bool} (awaits : expectedOperation s.state = .ok (expected, compacts))
    (alone : referenced s.state = [(expected, .llm)]) : succeedsAs .llm outcome = true ∧
      s.invoke agent d =
        if compacts then handleCompactionOutcome agent s.state id outcome (s.event d) s.nextId
        else handleLlmOutcome agent s.state id outcome (s.event d) s.history.length s.nextId := by
  have completes := completes_of_admitted reach.kept.numbered hstimulus admitted
  rw [hstimulus] at admitted
  obtain ⟨hmem, hallowed⟩ := referenced_of_admitted reach running admitted
  rw [alone, List.mem_singleton, Prod.mk.injEq] at hmem
  obtain ⟨hid, hkind⟩ := hmem
  rw [hkind] at completes hallowed
  refine ⟨(Bool.and_eq_true_iff.mp hallowed).1, ?_⟩
  rw [invoke_running reach running]
  unfold handleRunning
  rw [completes.delivered]
  dsimp only
  unfold handleLlmCompletion
  rw [Fallible.ok_bind awaits]
  dsimp only
  rw [if_neg (not_not_intro hid.symm), Fallible.ok_bind (readOutcome_of_completes completes ..)]
  rfl

/-- The completion of a call of the turn's plan. -/
theorem invoke_executing (reach : Reachable agent s) (running : s.Running) {active : ActiveTurn}
    {plan : ToolPlanState} (turn : s.state.activeTurn = some active)
    (phase : active.phase = .executingTools plan) : ∃ state' plan',
      planOf state' = some plan' ∧ plan'.Sound ∧ plan'.callIds = plan.callIds ∧
      s.invoke agent d = runPlan agent (.new state' s.nextId) s.history.length
        { platformSessionId := s.id, timestampMs := d.timestampMillis } := by
  have completes := completes_of_admitted reach.kept.numbered hstimulus admitted
  rw [hstimulus] at admitted
  obtain ⟨hmem, hallowed⟩ := referenced_of_admitted reach running admitted
  rw [referenced_executing turn phase] at hmem
  obtain ⟨submitted, hsubmitted, heq⟩ := List.mem_map.mp hmem
  obtain ⟨rfl, hkind⟩ := Prod.mk.inj heq
  rw [← hkind] at completes hallowed
  have hplan := ToolExecution.planOf_some.mpr ⟨active, turn, phase⟩
  have hsound := (reach.kept.plans plan hplan).1
  obtain ⟨state', happly⟩ : ∃ state',
      ToolExecution.applyCompletion agent s.state submitted outcome d.timestampMillis = .ok state' :=
    ToolExecution.applyCompletion_total hplan hsubmitted (Bool.and_eq_true_iff.mp hallowed).1
  obtain ⟨active', plan', completed⟩ :=
    ToolExecution.applyCompletion_completed hplan hsound happly
  refine ⟨state', plan', ?_, completed.sound, completed.callIds, ?_⟩
  · rw [completed.state]
    rfl
  · rw [invoke_running reach running]
    unfold handleRunning
    rw [completes.delivered]
    dsimp only
    unfold handleExecutionCompletion
    rw [Fallible.ok_bind (readOutcome_of_completes completes ..)]
    exact Fallible.ok_bind happly _

end

/-! ## Refused completions -/

/-- The entries that a completion puts into the history before the next boundary of its turn. -/
def entriesDue (lib : Foreign) (s : Session) (id : OperationId) (outcome : OperationOutcome) : Nat :=
  match planOf s.state, outcome with
  | some plan, _ => plan.callIds.length
  | none, .succeeded (.llm response) => responseEntries lib id response
  | none, _ => 0

theorem entriesDue_plan {plan : ToolPlanState} (hplan : planOf s.state = some plan) (lib : Foreign)
    (id : OperationId) (outcome : OperationOutcome) :
    s.entriesDue lib id outcome = plan.callIds.length := by
  simp only [entriesDue, hplan]

theorem entriesDue_response (hplan : planOf s.state = none) (lib : Foreign) (id : OperationId)
    (response : AssistantResponse) :
    s.entriesDue lib id (.succeeded (.llm response)) = responseEntries lib id response := by
  simp only [entriesDue, hplan]

/-- What the guards refuse a completion with: the history or the conversation has no successor. -/
inductive GuardRefuses (agent : Agent) (s : Session) (id : OperationId)
    (outcome : OperationOutcome) (e : HandlerError) : Prop
  | history {added : Nat} (due : added ≤ s.entriesDue agent.lib id outcome)
      (refused : advanceHistorySequence s.history.length added = .error e)
  | generation {compaction : CompactionState} (awaited : compactionOf s.state = some compaction)
      (full : 2 ^ 32 ≤ s.state.contextWindow.generation + 1)
      (refused : e = { message := "context generation overflowed" })

/-- Only the guards refuse a completion in a running session. -/
theorem completion_error (reach : Reachable agent s) (running : s.Running) {id : OperationId}
    {outcome : OperationOutcome} (hstimulus : d.stimulus = .completed id outcome)
    (admitted : s.admits d.stimulus = true) {e : HandlerError} (h : s.invoke agent d = .error e) :
    GuardRefuses agent s id outcome e := by
  have hmem : (id, s.kindOf id) ∈ referenced s.state := by
    rw [hstimulus] at admitted
    exact (referenced_of_admitted reach running admitted).1
  cases hturn : s.state.activeTurn with
  | none =>
    rw [referenced_none hturn] at hmem
    cases hmem
  | some active =>
    cases hphase : active.phase with
    | awaitingLlm awaiting =>
      have hawaits : expectedOperation s.state = .ok (awaiting.operationId, false) := by
        simp only [expectedOperation, hturn, hphase]
      obtain ⟨hallowed, hinvoke⟩ := invoke_llm hstimulus admitted reach running hawaits
        (referenced_awaiting hturn hphase)
      rw [hinvoke] at h
      obtain ⟨response, added, rfl, hadded, hadvance⟩ := llmOutcome_error hturn hallowed h
      refine .history ?_ hadvance
      have hplan : planOf s.state = none := planOf_of_phase hturn (by rw [hphase]; nofun)
      rw [entriesDue_response hplan]
      exact hadded
    | compacting compaction =>
      have hawaits : expectedOperation s.state = .ok (compaction.operationId, true) := by
        simp only [expectedOperation, hturn, hphase]
      obtain ⟨hallowed, hinvoke⟩ := invoke_llm hstimulus admitted reach running hawaits
        (referenced_compacting hturn hphase)
      rw [hinvoke] at h
      have hcompaction := compactionOf_some.mpr ⟨active, hturn, hphase⟩
      obtain ⟨hfull, rfl⟩ := compactionOutcome_error hturn hphase
        (reach.projected compaction hcompaction) hallowed h
      exact .generation hcompaction hfull rfl
    | executingTools plan =>
      obtain ⟨state', plan', hplan', hsound, hcalls, hinvoke⟩ :=
        invoke_executing hstimulus admitted reach running hturn hphase
      rw [hinvoke] at h
      have hadvance := runPlan_error (b := .new state' s.nextId) hplan' hsound h
      rw [hcalls] at hadvance
      refine .history ?_ hadvance
      rw [entriesDue_plan (ToolExecution.planOf_some.mpr ⟨active, hturn, hphase⟩)]
    | cancelling =>
      rw [referenced, hturn] at hmem
      simp only [hphase] at hmem
      cases hmem

/-! ## Correlation -/

/-- An operation whose completion was not delivered may end as its kind allows. -/
theorem admits_outstanding (numbered : s.Numbered) {o : StagedOperation} (ho : o ∈ s.outstanding)
    {outcome : OperationOutcome} (ends : s.mayEnd o outcome = true) :
    s.admits (.completed o.id outcome) = true := by
  have hdistinct : (s.outstanding.map (·.id)).Nodup :=
    numbered.distinct.sublist (List.filter_sublist.map _)
  have hlookup : Table.lookup (fun o : StagedOperation => o.id) o.id s.outstanding = some o :=
    Table.lookup_eq_some hdistinct ho
  have hfound : s.outstanding.find? (·.id == o.id) = some o := by
    simpa [Table.lookup, BEq.beq] using hlookup
  show (s.outstanding.find? (·.id == o.id)).any _ = true
  rw [hfound, Option.any_some, ends]

theorem admits_llm (numbered : s.Numbered) {id : OperationId} {outcome : OperationOutcome}
    (flies : (id, .llm) ∈ s.inFlight) (allowed : allowedFor .llm outcome = true) :
    s.admits (.completed id outcome) = true := by
  obtain ⟨o, ho, heq⟩ := List.mem_map.mp flies
  obtain ⟨rfl, hkind⟩ := Prod.mk.inj heq
  refine admits_outstanding numbered ho ?_
  rw [mayEnd, hkind, allowed]
  cases hrequest : o.request with
  | llm | execution | llmCancellation => rfl
  | withdraw target =>
    rw [hrequest] at hkind
    cases hkind

/-- The item of a compaction. -/
def compactionItem : RawJson := "\x7b\"type\":\"compaction\",\"encrypted_content\":\"x\"\x7d"

/-- A harness whose model may compact its conversation, or ask to write to process 1. -/
def compactingAgent : Agent :=
  { inputAgent with
    lib := ToolExecution.tableLib [(compactionItem, .object [("type", .string "compaction"),
        ("encrypted_content", .string "x")]),
      (inputCall, .object [("type", .string "function_call"), ("call_id", .string "a"),
        ("name", .string "write_stdin"), ("arguments", .string inputArguments)]),
      (inputArguments, .object [("session_id", .nat 1)])] }

theorem isAssistant_compaction :
    (Message.assistant .default .openai [compactionItem]).isAssistant = true := rfl

/-- A response that compacts the conversation. -/
def compactionResponse : AssistantResponse :=
  { id := "r", modelId := "gpt-5.6-sol", message := .assistant .default .openai [compactionItem],
    stopReason := .stop, usage := none, assistant := isAssistant_compaction }

/-- What the provider counts in a long conversation. -/
def longUsage : Usage :=
  { input := some 250000, output := some 10, cacheRead := none, cacheWrite := none }

/-- A running session that waits for the model, with its generation and its history. -/
structure AwaitsModel (s : Session) (generation entries : Nat) : Prop where
  reach : Reachable compactingAgent s
  running : s.Running
  awaits : ∃ active awaiting, s.state.activeTurn = some active ∧
    active.phase = .awaitingLlm awaiting
  generation : s.state.contextWindow.generation = generation
  history : s.history.length = entries

/-- A running session that waits for a compaction, with its generation and its history. -/
structure AwaitsCompaction (s : Session) (generation entries : Nat) : Prop where
  reach : Reachable compactingAgent s
  running : s.Running
  awaits : ∃ compaction, compactionOf s.state = some compaction
  generation : s.state.contextWindow.generation = generation
  history : s.history.length = entries

/-- The delivery of an answer of the model, as the event that the history counts. -/
def answers (s : Session) (id : OperationId) (response : AssistantResponse) : Delivery :=
  delivery s.history.length (.completed id (.succeeded (.llm response)))

/-- A response that is to be continued in a long conversation. -/
theorem handleLlmOutcome_pause {state : BasicCodexState} {active : ActiveTurn}
    (turn : state.activeTurn = some active) (id : OperationId) (event : SessionEvent)
    (through : HistorySequence) (nextId : Uuid) :
    handleLlmOutcome compactingAgent state id (.succeeded (.llm (pauseResponse (some longUsage))))
      event through nextId = (advanceHistorySequence through 1).map fun source =>
        compacted compactingAgent (recorded state (pauseResponse (some longUsage)) nextId) active
          source event.sessionId := by
  have hprovider : Llm.responseProvider compactingAgent (pauseResponse (some longUsage)) =
      .ok .openai := by decide +kernel
  have hplan : ToolPlan.parse compactingAgent.lib id (pauseResponse (some longUsage)).message
      (pauseResponse (some longUsage)).stopReason = .ok none := rfl
  have hlong : needsCompaction compactingAgent
      (recorded state (pauseResponse (some longUsage)) nextId).state = true := rfl
  have hturn : (recorded state (pauseResponse (some longUsage)) nextId).state.activeTurn =
      some active := turn
  unfold handleLlmOutcome
  dsimp only
  rw [hprovider]
  dsimp only
  unfold handleResponse
  rw [hplan]
  show (do
    let source ← advanceHistorySequence through 1
    stageAfterBoundary compactingAgent (recorded state (pauseResponse (some longUsage)) nextId)
      source event.sessionId) = _
  cases advanceHistorySequence through 1 with
  | error e => rfl
  | ok source =>
    rw [Fallible.ok_bind rfl, stageAfterBoundary, if_pos hlong, stageCompaction, hturn]
    rfl

/-- A compaction that is installed. -/
theorem handleCompactionOutcome_install {state : BasicCodexState} {active : ActiveTurn}
    {compaction : CompactionState} (turn : state.activeTurn = some active)
    (phase : active.phase = .compacting compaction)
    (source : compaction.sourceProjectionSha256 =
      Compaction.projectionSha256 compactingAgent.lib state.contextWindow.modelHistory)
    (id : OperationId) (event : SessionEvent) (nextId : Uuid) :
    (2 ^ 32 ≤ state.contextWindow.generation + 1 →
      handleCompactionOutcome compactingAgent state id (.succeeded (.llm compactionResponse)) event
        nextId = .error { message := "context generation overflowed" }) ∧
    (state.contextWindow.generation + 1 < 2 ^ 32 →
      ∃ validated providerItem checkpointMessage,
        handleCompactionOutcome compactingAgent state id (.succeeded (.llm compactionResponse))
          event nextId = .ok (installed compactingAgent state active compaction validated
            providerItem checkpointMessage event nextId)) := by
  obtain ⟨validated, hvalidated, hitem⟩ : ∃ validated,
      Compaction.validateResponse compactingAgent compactionResponse = .ok validated ∧
        validated.nativeItem = compactionItem :=
    ⟨⟨.openai, "r", compactionItem, none⟩, rfl, rfl⟩
  have hparses : compactingAgent.lib.parseJson compactionItem = .ok (.object
      [("type", .string "compaction"), ("encrypted_content", .string "x")]) := rfl
  have hresumes : handleCompactionOutcome compactingAgent state id
      (.succeeded (.llm compactionResponse)) event nextId =
        resumeAfterCompaction compactingAgent state active compaction validated event nextId := by
    unfold handleCompactionOutcome
    rw [turn]
    dsimp only
    rw [phase]
    dsimp only
    rw [if_neg (not_not_intro source.symm), hvalidated]
  rw [hresumes]
  unfold resumeAfterCompaction Compaction.providerMessage Compaction.checkpointMessage
  rw [hitem, hparses]
  dsimp only
  constructor
  · intro full
    rw [if_pos full]
  · intro room
    rw [if_neg (Nat.not_le.mpr room)]
    exact ⟨validated, _, _, rfl⟩

variable {generation entries : Nat}

/-- The model answers that the turn is to be continued. -/
theorem AwaitsModel.answered (waits : AwaitsModel s generation entries) : ∃ id active,
    s.admits (s.answers id (pauseResponse (some longUsage))).stimulus = true ∧
      s.invoke compactingAgent (s.answers id (pauseResponse (some longUsage))) =
        (advanceHistorySequence entries 1).map fun source => compacted compactingAgent
          (recorded s.state (pauseResponse (some longUsage)) s.nextId) active source s.id := by
  obtain ⟨active, awaiting, hturn, hphase⟩ := waits.awaits
  have hreferenced := referenced_awaiting hturn hphase
  have hflies : (awaiting.operationId, .llm) ∈ s.inFlight := by
    rw [(waits.reach.correlated waits.running).mem_iff, hreferenced]
    exact List.mem_singleton_self _
  have admitted : s.admits (s.answers awaiting.operationId
      (pauseResponse (some longUsage))).stimulus = true :=
    admits_llm waits.reach.kept.numbered hflies rfl
  have hawaits : expectedOperation s.state = .ok (awaiting.operationId, false) := by
    simp only [expectedOperation, hturn, hphase]
  have hinvoke := (invoke_llm rfl admitted waits.reach waits.running hawaits hreferenced).2
  rw [if_neg Bool.false_ne_true, handleLlmOutcome_pause hturn, waits.history] at hinvoke
  exact ⟨_, active, admitted, hinvoke⟩

/-- A conversation that is long is to be compacted. -/
theorem AwaitsModel.pause (waits : AwaitsModel s generation entries) (room : entries + 1 < 2 ^ 63) :
    ∃ t, AwaitsCompaction t generation (entries + 1) := by
  obtain ⟨id, active, admitted, hinvoke⟩ := waits.answered
  rw [advanceHistorySequence, if_neg (by decide), if_neg (Nat.not_le.mpr room)] at hinvoke
  have hstep := waits.reach.step ⟨admitted, _, hinvoke, rfl⟩
  refine ⟨_, hstep, waits.running, ⟨_, rfl⟩, waits.generation, ?_⟩
  show (s.history ++ [_]).length = _
  rw [List.length_append, waits.history]
  rfl

/-- A message that arrives meanwhile. -/
theorem AwaitsModel.steered (waits : AwaitsModel s generation entries) :
    ∃ t, AwaitsModel t generation (entries + 1) := by
  obtain ⟨active, awaiting, hturn, hphase⟩ := waits.awaits
  have hinvoke := invoke_running waits.reach waits.running
    (delivery s.history.length (.userMessage (.userText "go on")))
  have hmessage : handleUserMessage compactingAgent s.state (.userText "go on")
      (s.event (delivery s.history.length (.userMessage (.userText "go on")))) s.history.length
      s.nextId = .ok ((OutcomeBuilder.new { s.state with activeTurn := some (steer active
        (s.event (delivery s.history.length (.userMessage (.userText "go on"))))
        (.userText "go on")) } s.nextId).appendMessage (.userText "go on")) := by
    unfold handleUserMessage
    rw [hturn]
    rfl
  have hstep := waits.reach.step ⟨rfl, _, hinvoke.trans hmessage, rfl⟩
  refine ⟨_, hstep, waits.running, ⟨_, awaiting, rfl, hphase⟩, waits.generation, ?_⟩
  show (s.history ++ [_]).length = _
  rw [List.length_append, waits.history]
  rfl

/-- The model answers a compaction. -/
theorem AwaitsCompaction.answered (waits : AwaitsCompaction s generation entries) :
    ∃ id active compaction, s.state.activeTurn = some active ∧
      active.phase = .compacting compaction ∧
      s.admits (s.answers id compactionResponse).stimulus = true ∧
      s.invoke compactingAgent (s.answers id compactionResponse) =
        handleCompactionOutcome compactingAgent s.state id (.succeeded (.llm compactionResponse))
          (s.event (s.answers id compactionResponse)) s.nextId := by
  obtain ⟨compaction, hcompaction⟩ := waits.awaits
  obtain ⟨active, hturn, hphase⟩ := compactionOf_some.mp hcompaction
  have hreferenced := referenced_compacting hturn hphase
  have hflies : (compaction.operationId, .llm) ∈ s.inFlight := by
    rw [(waits.reach.correlated waits.running).mem_iff, hreferenced]
    exact List.mem_singleton_self _
  have admitted : s.admits (s.answers compaction.operationId compactionResponse).stimulus = true :=
    admits_llm waits.reach.kept.numbered hflies rfl
  have hawaits : expectedOperation s.state = .ok (compaction.operationId, true) := by
    simp only [expectedOperation, hturn, hphase]
  have hinvoke := (invoke_llm rfl admitted waits.reach waits.running hawaits hreferenced).2
  exact ⟨_, active, compaction, hturn, hphase, admitted, hinvoke⟩

/-- A compaction begins the next generation. -/
theorem AwaitsCompaction.install (waits : AwaitsCompaction s generation entries)
    (room : generation + 1 < 2 ^ 32) : ∃ t, AwaitsModel t (generation + 1) (entries + 1) := by
  obtain ⟨id, active, compaction, hturn, hphase, admitted, hinvoke⟩ := waits.answered
  have hsource := waits.reach.projected compaction (compactionOf_some.mpr ⟨active, hturn, hphase⟩)
  obtain ⟨validated, item, message, hinstall⟩ := (handleCompactionOutcome_install hturn hphase hsource
    id (s.event (s.answers id compactionResponse)) s.nextId).2 (by rw [waits.generation]; exact room)
  rw [hinstall] at hinvoke
  have hstep := waits.reach.step ⟨admitted, _, hinvoke, rfl⟩
  refine ⟨_, hstep, waits.running, ⟨_, _, rfl, rfl⟩, ?_, ?_⟩
  · show s.state.contextWindow.generation + 1 = _
    rw [waits.generation]
  · show (s.history ++ [message]).length = _
    rw [List.length_append, waits.history]
    rfl

/-- The session that waits for the answer to its first message. -/
def compactingStart : Session := next compactingAgent (start 3 9) firstDelivery

theorem inputCall_assistant :
    (Message.assistant .default .openai [inputCall]).isAssistant = true := rfl

/-- An answer with one call, of which no usage is known. -/
def writtenResponse : AssistantResponse where
  id := "r"
  modelId := "gpt-5.6-sol"
  message := .assistant .default .openai [inputCall]
  stopReason := .toolUse
  usage := none
  assistant := inputCall_assistant

/-- The session that goes on behind a call which ended while it was scheduled. -/
def writtenSession : Session :=
  next compactingAgent compactingStart
    (delivery 2 (.completed 10 (.succeeded (.llm writtenResponse))))

theorem awaitsModel_of_computed {id : OperationId} (reach : Reachable compactingAgent s)
    (running : (s.state.terminalFailure.isNone && s.state.cancellation.isNone) = true)
    (awaited : awaitedTurn s.state = some id)
    (counts : (s.state.contextWindow.generation, s.history.length) = (generation, entries)) :
    AwaitsModel s generation entries := by
  obtain ⟨hgeneration, hhistory⟩ := Prod.mk.inj counts
  obtain ⟨hlive, huncancelled⟩ := Bool.and_eq_true_iff.mp running
  refine ⟨reach, ?_, ?_, hgeneration, hhistory⟩
  · exact ⟨Option.isNone_iff_eq_none.mp hlive, Option.isNone_iff_eq_none.mp huncancelled⟩
  · cases hturn : s.state.activeTurn with
    | none =>
      rw [awaitedTurn_none hturn] at awaited
      cases awaited
    | some active =>
      rw [awaitedTurn_eq hturn] at awaited
      split at awaited
      next awaiting hphase => exact ⟨active, awaiting, rfl, hphase⟩
      next => cases awaited

theorem compactingStart_reachable : Reachable compactingAgent compactingStart :=
  (Reachable.start compactingAgent 3 9).step (step_next (by decide +kernel))

theorem writtenSession_awaits : AwaitsModel writtenSession 1 3 :=
  awaitsModel_of_computed (compactingStart_reachable.step (step_next (by decide +kernel)))
    (by decide +kernel) (show awaitedTurn writtenSession.state = some 12 by decide +kernel)
    (by decide +kernel)

/-- Every generation is reached. -/
theorem exists_generation {compactions : Nat} (bound : compactions + 1 < 2 ^ 32) :
    ∃ s, AwaitsModel s (compactions + 1) (2 * compactions + 3) := by
  induction compactions with
  | zero => exact ⟨writtenSession, writtenSession_awaits⟩
  | succ compactions ih =>
    obtain ⟨s, hs⟩ := ih (Nat.lt_of_succ_lt bound)
    obtain ⟨t, ht⟩ := hs.pause (by omega)
    obtain ⟨u, hu⟩ := ht.install bound
    exact ⟨u, hu⟩

/-- Every length of the history is reached. -/
theorem exists_history (messages : Nat) : ∃ s, AwaitsModel s 1 (3 + messages) := by
  induction messages with
  | zero => exact ⟨writtenSession, writtenSession_awaits⟩
  | succ messages ih =>
    obtain ⟨s, hs⟩ := ih
    exact hs.steered

/-- A completion that the platform may deliver and that a running session refuses. -/
def Refuses (agent : Agent) (message : String) : Prop :=
  ∃ s d id outcome, Reachable agent s ∧ s.Running ∧ d.stimulus = .completed id outcome ∧
    s.admits d.stimulus = true ∧ s.invoke agent d = .error { message }

/-- The last generation and the last sequence of the history have no successor: a completion that
needs one is refused. -/
theorem outstanding_correlated_last : Refuses compactingAgent "context generation overflowed" ∧
    Refuses compactingAgent "compaction history boundary overflowed" ∧
    ¬ (∀ (agent : Agent) (s : Session), Reachable agent s → s.Running →
      s.inFlight.Perm (referenced s.state) ∧
        (s.inFlight.filter (·.2 == .llm)).length ≤ 1 ∧
        (∀ id id', (id, .llm) ∈ s.inFlight → (id', .execution) ∉ s.inFlight) ∧
        ∀ d id outcome, d.stimulus = .completed id outcome → s.admits d.stimulus = true →
          ∃ t, Step agent s d t) := by
  have hgeneration : Refuses compactingAgent "context generation overflowed" := by
    obtain ⟨s, hs⟩ : ∃ s, AwaitsModel s (2 ^ 32 - 2 + 1) (2 * (2 ^ 32 - 2) + 3) :=
      exists_generation (by decide)
    obtain ⟨t, ht⟩ := hs.pause (by omega)
    obtain ⟨id, active, compaction, hturn, hphase, admitted, hinvoke⟩ := ht.answered
    have hsource := ht.reach.projected compaction (compactionOf_some.mpr ⟨active, hturn, hphase⟩)
    have hrefused := (handleCompactionOutcome_install hturn hphase hsource id
      (t.event (t.answers id compactionResponse)) t.nextId).1 (by rw [ht.generation]; decide)
    exact ⟨t, _, id, _, ht.reach, ht.running, rfl, admitted, hinvoke.trans hrefused⟩
  have hhistory : Refuses compactingAgent "compaction history boundary overflowed" := by
    obtain ⟨s, hs⟩ := exists_history (2 ^ 63 - 4)
    obtain ⟨id, active, admitted, hinvoke⟩ := hs.answered
    rw [advanceHistorySequence, if_neg (by decide), if_pos (by decide)] at hinvoke
    exact ⟨s, _, id, _, hs.reach, hs.running, rfl, admitted, hinvoke⟩
  refine ⟨hgeneration, hhistory, ?_⟩
  intro hall
  obtain ⟨s, d, id, outcome, reach, running, hstimulus, admitted, hrefused⟩ := hgeneration
  obtain ⟨t, -, r, hr, -⟩ :=
    (hall compactingAgent s reach running).2.2.2 d id outcome hstimulus admitted
  cases hrefused.symm.trans hr

end AgentPlatform.Harness.Session
