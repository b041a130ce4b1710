import AgentPlatform.Harness.PromptPrefix

/-!
# The operations that a turn waits for

A running session has exactly those operations in flight that its active turn refers to: the request
that it awaits, the compaction, or the submitted calls of its plan. So a completion finds what waits
for it, whatever came before it.
-/

namespace AgentPlatform.Harness

open ToolExecution (planOf)

/-! ## References -/

/-- The operations that the active turn refers to, each with its kind. -/
def referenced (state : BasicCodexState) : List (OperationId × OperationKind) :=
  match state.activeTurn with
  | none => []
  | some active =>
    match active.phase with
    | .awaitingLlm awaiting => [(awaiting.operationId, .llm)]
    | .compacting compaction => [(compaction.operationId, .llm)]
    | .executingTools plan => plan.submittedOperations.map fun id => (id, .execution)
    | .cancelling => []

theorem referenced_none {state : BasicCodexState} (turn : state.activeTurn = none) :
    referenced state = [] := by
  rw [referenced, turn]

theorem referenced_awaiting {state : BasicCodexState} {active : ActiveTurn}
    {awaiting : AwaitingLlmState} (turn : state.activeTurn = some active)
    (phase : active.phase = .awaitingLlm awaiting) :
    referenced state = [(awaiting.operationId, .llm)] := by
  simp only [referenced, turn, phase]

theorem referenced_compacting {state : BasicCodexState} {active : ActiveTurn}
    {compaction : CompactionState} (turn : state.activeTurn = some active)
    (phase : active.phase = .compacting compaction) :
    referenced state = [(compaction.operationId, .llm)] := by
  simp only [referenced, turn, phase]

theorem referenced_executing {state : BasicCodexState} {active : ActiveTurn}
    {plan : ToolPlanState} (turn : state.activeTurn = some active)
    (phase : active.phase = .executingTools plan) :
    referenced state = plan.submittedOperations.map fun id => (id, .execution) := by
  simp only [referenced, turn, phase]

/-- The operations that an outcome stages, each with its kind. -/
def stagedKeys (r : OutcomeBuilder BasicCodexState) : List (OperationId × OperationKind) :=
  r.outcome.operations.map fun o => (o.id, o.request.kind)

/-- While the session runs on, the turn refers to what was kept and to what is staged. -/
def Refers (kept : List (OperationId × OperationKind)) (r : OutcomeBuilder BasicCodexState) : Prop :=
  Live r.state → (referenced r.state).Perm (kept ++ stagedKeys r)

namespace Handler

variable {agent : Agent} {b : OutcomeBuilder BasicCodexState}

theorem requestTurn_refers (sid : SessionId) (active : ActiveTurn)
    (quiet : b.outcome.operations = []) : Refers [] (requestTurn agent b sid active) := by
  intro _
  have hkeys : stagedKeys (requestTurn agent b sid active) = [(b.nextId, .llm)] := by
    show (b.outcome.operations ++ [_]).map _ = _
    rw [quiet]
    rfl
  rw [hkeys]
  exact .refl _

theorem requestCompaction_refers (sid : SessionId) (active : ActiveTurn)
    {compaction : OperationId → CompactionState} (named : ∀ id, (compaction id).operationId = id)
    (quiet : b.outcome.operations = []) :
    Refers [] (requestCompaction agent b sid active compaction) := by
  intro _
  have hkeys : stagedKeys (requestCompaction agent b sid active compaction) = [(b.nextId, .llm)] := by
    show (b.outcome.operations ++ [_]).map _ = _
    rw [quiet]
    rfl
  have hreferenced : referenced (requestCompaction agent b sid active compaction).state =
      [((compaction b.nextId).operationId, .llm)] := rfl
  rw [hkeys, hreferenced, named]
  exact .refl _

theorem refers_status {kept : List (OperationId × OperationKind)}
    {r : OutcomeBuilder BasicCodexState} (refers : Refers kept r) (status : SessionStatus) :
    Refers kept (r.setStatus status) := refers

theorem refers_reported {kept : List (OperationId × OperationKind)}
    {r : OutcomeBuilder BasicCodexState} (refers : Refers kept r) (payload : Value)
    (status : SessionStatus) : Refers kept ((r.emitProgress payload).setStatus status) := refers

theorem Boundary.refers {r : OutcomeBuilder BasicCodexState} {active : ActiveTurn}
    {through : HistorySequence} {sid : SessionId}
    (boundary : Boundary agent b active through sid r) (quiet : b.outcome.operations = []) :
    Refers [] r := by
  cases boundary with
  | compact =>
    refine refers_reported (requestCompaction_refers sid active ?_ quiet) _ _
    exact fun _ => rfl
  | resume =>
    apply refers_status
    exact requestTurn_refers sid _ quiet

/-- An ended session refers to nothing. -/
theorem refers_of_failed {r : OutcomeBuilder BasicCodexState}
    {kept : List (OperationId × OperationKind)}
    (failed : r.state.terminalFailure.isSome = true) : Refers kept r := by
  intro live
  rw [live.1] at failed
  cases failed

/-- A complete plan waits for nothing. -/
theorem submittedOperations_complete {plan : ToolPlanState} (complete : plan.isComplete = true) :
    plan.submittedOperations = [] := by
  refine List.filterMap_eq_nil_iff.mpr fun call hcall => ?_
  have hdone := List.all_eq_true.mp complete call hcall
  unfold submittedOperation
  split
  next hstatus =>
    rw [hstatus] at hdone
    cases hdone
  · rfl

theorem PlanRan.refers {invocation : Invocation} {r : OutcomeBuilder BasicCodexState}
    {plan : ToolPlanState} (ran : PlanRan agent b invocation r)
    (hplan : planOf b.state = some plan) (sound : plan.Sound)
    (quiet : b.outcome.operations = []) :
    Refers (plan.submittedOperations.map fun id => (id, .execution)) r := by
  -- what is scheduled joins what is submitted
  have joins {scheduled : OutcomeBuilder BasicCodexState} {active : ActiveTurn}
      {staged : List StagedOperation} {plan' : ToolPlanState}
      (schedules : ToolExecution.Schedules b active plan staged plan' scheduled) :
      stagedKeys scheduled = staged.map fun o => (o.id, .execution) := by
    unfold stagedKeys
    rw [schedules.stages.operations, quiet, List.nil_append]
    refine List.map_congr_left fun o ho => ?_
    rw [schedules.executions o ho]
  cases ran with
  | @waits scheduled plan' schedule executes incomplete =>
    obtain ⟨active, staged, plan'', schedules⟩ :=
      ToolExecution.scheduleReady_schedules hplan sound schedule
    intro _
    have hkeys : stagedKeys scheduled = staged.map fun o => (o.id, .execution) := joins schedules
    show (referenced scheduled.state).Perm (_ ++ stagedKeys scheduled)
    have hreferenced : referenced scheduled.state =
        plan''.submittedOperations.map fun id => (id, .execution) := by
      rw [schedules.state]
      rfl
    rw [hkeys, hreferenced]
    have hperm := schedules.submitted.map fun id => (id, OperationKind.execution)
    rw [List.map_append, List.map_map] at hperm
    exact hperm.trans List.perm_append_comm
  | @finished scheduled r plan' messages active' through schedule executes complete results turn' boundary =>
    obtain ⟨active, staged, plan'', schedules⟩ :=
      ToolExecution.scheduleReady_schedules hplan sound schedule
    rw [schedules.state] at executes
    cases executes
    have hsubmitted := schedules.submitted
    rw [submittedOperations_complete complete] at hsubmitted
    obtain ⟨hstaged, hbefore⟩ := List.append_eq_nil_iff.mp hsubmitted.nil_eq.symm
    have hoperations : scheduled.outcome.operations = [] := by
      rw [schedules.stages.operations, quiet, List.map_eq_nil_iff.mp hstaged]
      rfl
    rw [hbefore]
    refine boundary.refers ?_
    unfold appendResults
    rw [appendMessages_operations]
    exact hoperations

/-- An accepted plan has submitted nothing yet. -/
theorem submittedOperations_parsed {operationId : OperationId} {message : Message}
    {stopReason : StopReason} {plan : ToolPlanState}
    (planned : ToolPlan.parse agent.lib operationId message stopReason = .ok (some plan)) :
    plan.submittedOperations = [] := by
  refine List.filterMap_eq_nil_iff.mpr fun call hcall => ?_
  obtain ⟨i, hi⟩ := List.mem_iff_getElem?.mp hcall
  have hfresh := ToolPlan.parse_fresh planned hi
  unfold submittedOperation
  split
  next hstatus =>
    rw [hstatus] at hfresh
    rcases hfresh with h | h <;> cases h
  · rfl

/-- A branch ends the operation that it is told of, and stages what the turn refers to next. -/
theorem Handled.refers {state : BasicCodexState} {event : SessionEvent} {context : HarnessContext}
    {nextId : Uuid} {r : OutcomeBuilder BasicCodexState}
    (handled : Handled agent state event context nextId r) (sound : PlanSound state) :
    (∃ id kind outcome rest, Completes event context id kind outcome ∧
        (referenced state).Perm ((id, kind) :: rest) ∧ Refers rest r) ∨
      ((∀ id kind status, event.kind ≠ .operationCompleted id kind status) ∧
        Refers (referenced state) r) := by
  have other {kind : EventKind} (delivered : event.kind = kind)
      (apart : ∀ id k status, kind ≠ .operationCompleted id k status) :
      ∀ id k status, event.kind ≠ .operationCompleted id k status := by
    rw [delivered]
    exact apart
  cases handled with
  | @steered message active kind user turn =>
    refine .inr ⟨other kind nofun, fun _ => ?_⟩
    show (referenced { state with activeTurn := some (steer active event message) }).Perm
      (referenced state ++ [])
    rw [List.append_nil]
    have hsame : referenced { state with activeTurn := some (steer active event message) } =
        referenced state := by
      simp only [referenced, turn, steer]
    rw [hsame]
  | compactFirst kind user turn long =>
    rw [referenced_none turn]
    refine .inr ⟨other kind nofun, refers_reported (requestCompaction_refers _ _ ?_ rfl) _ _⟩
    exact fun _ => rfl
  | start kind user turn short =>
    rw [referenced_none turn]
    exact .inr ⟨other kind nofun, refers_status (requestTurn_refers _ _ rfl) _⟩
  | failAwaiting completes turn phase awaited =>
    refine .inl ⟨_, _, _, [], completes, ?_, refers_of_failed rfl⟩
    rw [referenced_awaiting turn phase, awaited]
  | failCompacting completes turn phase awaited =>
    refine .inl ⟨_, _, _, [], completes, ?_, refers_of_failed rfl⟩
    rw [referenced_compacting turn phase, awaited]
  | idle completes turn phase awaited =>
    refine .inl ⟨_, _, _, [], completes, ?_, fun _ => .refl _⟩
    rw [referenced_awaiting turn phase, awaited]
  | respond completes turn phase awaited _ boundary =>
    refine .inl ⟨_, _, _, [], completes, ?_, boundary.refers rfl⟩
    rw [referenced_awaiting turn phase, awaited]
  | refused completes turn phase awaited _ _ _ boundary =>
    refine .inl ⟨_, _, _, [], completes, ?_, boundary.refers ?_⟩
    · rw [referenced_awaiting turn phase, awaited]
    · unfold appendResults
      rw [appendMessages_operations]
      rfl
  | plan completes turn phase awaited planned _ ran =>
    refine .inl ⟨_, _, _, [], completes, ?_, ?_⟩
    · rw [referenced_awaiting turn phase, awaited]
    · have hrefers := ran.refers rfl (ToolPlan.parse_sound planned).1 rfl
      rw [submittedOperations_parsed planned] at hrefers
      exact hrefers
  | retry completes turn phase awaited =>
    refine .inl ⟨_, _, _, [], completes, ?_, refers_reported (requestTurn_refers _ _ rfl) _ _⟩
    rw [referenced_awaiting turn phase, awaited]
  | install completes turn phase awaited =>
    refine .inl ⟨_, _, _, [], completes, ?_, refers_reported (requestTurn_refers _ _ rfl) _ _⟩
    rw [referenced_compacting turn phase, awaited]
  | compactAgain completes turn phase awaited =>
    refine .inl ⟨_, _, _, [], completes, ?_,
      refers_reported (requestCompaction_refers _ _ ?_ rfl) _ _⟩
    · rw [referenced_compacting turn phase, awaited]
    · exact fun _ => rfl
  | execution completes applied ran =>
    obtain ⟨active, plan, call, progress, status, state'', hactive, hphase, -⟩ :=
      ToolExecution.applyCompletion_ok applied
    have hplan := ToolExecution.planOf_some.mpr ⟨active, hactive, hphase⟩
    obtain ⟨active', plan', completed⟩ :=
      ToolExecution.applyCompletion_completed hplan (sound plan hplan).1 applied
    refine .inl ⟨_, _, _, plan'.submittedOperations.map fun id => (id, .execution), completes,
      ?_, ?_⟩
    · rw [referenced_executing hactive hphase]
      exact completed.submitted.map _
    · refine ran.refers ?_ completed.sound rfl
      rw [OutcomeBuilder.new_state, completed.state]
      rfl
  | cancel kind begun =>
    refine .inr ⟨other kind nofun, fun live => ?_⟩
    obtain ⟨c, targets, -, moves, rfl⟩ := begin_cleanup begun
    have hcancelled := live.2
    rw [setLifecycleStatus_cancellation] at hcancelled
    cases hcancelled

end Handler

/-! ## What is in flight -/

namespace Session

open Handler

variable {agent : Agent} {s t : Session} {d : Delivery}

/-- What was answered in a session that has failed or is being cancelled leaves it so. -/
theorem live_of_answered {state : BasicCodexState} {event : SessionEvent}
    {context : HarnessContext} {nextId : Uuid} {r : OutcomeBuilder BasicCodexState}
    (answered : Answered agent state event context nextId r) (live : Live r.state) :
    Live state ∧ Handled agent state event context nextId r := by
  cases answered with
  | failed ended silent =>
    rw [silent.state] at live
    rw [live.1] at ended
    cases ended
  | routed _ cancelled _ silent =>
    rw [silent.state] at live
    cases live.2.symm.trans cancelled
  | cleaned =>
    have hcancelled := live.2
    rw [setLifecycleStatus_cancellation] at hcancelled
    cases hcancelled
  | running alive uncancelled handled => exact ⟨⟨alive, uncancelled⟩, handled⟩

/-- A running session has in flight what its turn refers to. -/
def Correlated (s : Session) : Prop := Live s.state → s.inFlight.Perm (referenced s.state)

theorem Correlated.step (correlated : s.Correlated) (reach : Reachable agent s)
    (step : Step agent s d t) : t.Correlated := by
  obtain ⟨admitted, r, rfl, answered⟩ := step.answered
  rw [reach.dated.fillDate] at answered
  intro live
  obtain ⟨before, handled⟩ := live_of_answered answered live
  have hdraws := answered.draws reach.kept.plans
  have hbefore := correlated before
  rcases handled.refers reach.kept.plans with
    ⟨id, kind, outcome, rest, completes, hreferenced, refers⟩ | ⟨other, refers⟩
  · obtain ⟨hstimulus, -⟩ := completes_delivered reach.kept.numbered admitted completes
    have hafter : (s.after (.completed id outcome) r).inFlight.Perm (rest ++ stagedKeys r) :=
      inFlight_after_completed reach.kept.numbered hdraws (hbefore.trans hreferenced)
    rw [hstimulus]
    exact hafter.trans (refers live).symm
  · have hquiet : ∀ id outcome, d.stimulus ≠ .completed id outcome := by
      intro id outcome hstimulus
      apply other id (s.kindOf id) outcome.status
      simp only [event, hstimulus]
    have hafter : (s.after d.stimulus r).inFlight = s.inFlight ++ stagedKeys r :=
      inFlight_after_other reach.kept.numbered hdraws hquiet
    rw [hafter]
    exact (hbefore.append_right _).trans (refers live).symm

theorem Reachable.correlated (reach : Reachable agent s) : s.Correlated := by
  refine reach.induct ?_ ?_
  · intro id nextId _
    exact .refl _
  · intro s d t before correlated step
    exact correlated.step before step

end Session

end AgentPlatform.Harness
