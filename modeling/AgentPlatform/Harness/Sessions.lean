import AgentPlatform.Harness.HandlerCases
import AgentPlatform.Harness.CleanupMoves
import AgentPlatform.Lib.Table

/-!
# The steps of a session

What one step of a session is, in terms of the branches of the handler, and what every reachable
session keeps: its plan is one that the scheduler may leave, its operations have different
identifiers, and what was completed was staged.
-/

namespace AgentPlatform.Harness

open ToolExecution (planOf)

namespace Handler

variable {agent : Agent}

/-! ## The branches of an invocation -/

/-- An outcome that stages nothing and reports nothing. -/
structure Silent (state : BasicCodexState) (nextId : Uuid) (r : OutcomeBuilder BasicCodexState) :
    Prop where
  state : r.state = state
  operations : r.outcome.operations = []
  progress : r.outcome.progress = []
  supply : r.nextId = nextId

/-- An invocation that returns an outcome, over the state with its date. -/
inductive Answered (agent : Agent) (state : BasicCodexState) (event : SessionEvent)
    (context : HarnessContext) (nextId : Uuid) : OutcomeBuilder BasicCodexState → Prop
  | failed {r : OutcomeBuilder BasicCodexState} (ended : state.terminalFailure.isSome = true)
      (silent : Silent state nextId r) (status : r.outcome.status = some .failed) :
      Answered agent state event context nextId r
  | routed {r : OutcomeBuilder BasicCodexState} {cancellation : CancellationState}
      (live : state.terminalFailure = none) (cancelled : state.cancellation = some cancellation)
      (other : ∀ id kind status, event.kind ≠ .operationCompleted id kind status)
      (silent : Silent state nextId r) (status : r.outcome.status = some (routerStatus state)) :
      Answered agent state event context nextId r
  | cleaned {cancellation : CancellationState} {id : OperationId} {kind : OperationKind}
      {outcome : OperationOutcome} {c : Cleanup} (live : state.terminalFailure = none)
      (cancelled : state.cancellation = some cancellation)
      (completes : Completes event context id kind outcome)
      (applied : Cancellation.applyCompletion agent event.sessionId event.sequence
        { result := .new state nextId, cancellation } id kind outcome = .ok c) :
      Answered agent state event context nextId (Cancellation.setLifecycleStatus c true)
  | running {r : OutcomeBuilder BasicCodexState} (live : state.terminalFailure = none)
      (uncancelled : state.cancellation = none)
      (handled : Handled agent state event context nextId r) :
      Answered agent state event context nextId r

theorem handle_answered {state : BasicCodexState} {event : SessionEvent} {context : HarnessContext}
    {nextId : Uuid} {r : OutcomeBuilder BasicCodexState}
    (h : handle agent state event context nextId = .ok r) :
    Answered agent (fillDate state event.date) event context nextId r := by
  unfold handle at h
  dsimp only at h
  generalize fillDate state event.date = state at h ⊢
  split at h
  next failure hfailure =>
    have ended : state.terminalFailure.isSome = true := by rw [hfailure]; rfl
    unfold handleFailed at h
    dsimp only at h
    split at h
    · split at h <;> cases h
      exact .failed ended ⟨rfl, rfl, rfl, rfl⟩ rfl
    · cases h
      exact .failed ended ⟨rfl, rfl, rfl, rfl⟩ rfl
  next live =>
  split at h
  next cancellation hcancellation =>
    unfold handleCancelled at h
    split at h
    next id kind status hkind =>
      unfold handleCancellationCompletion at h
      obtain ⟨outcome, hread, h⟩ := Fallible.bind_ok h
      obtain ⟨hstored, hstatus⟩ := readOutcome_ok hread
      obtain ⟨c, happly, h⟩ := Fallible.bind_ok h
      cases h
      exact .cleaned live hcancellation ⟨hstatus ▸ hkind, hstored⟩ happly
    next message hkind =>
      split at h <;> cases h
      exact .routed live hcancellation (by simp [hkind]) ⟨rfl, rfl, rfl, rfl⟩ rfl
    next hkind =>
      cases h
      exact .routed live hcancellation (by simp [hkind]) ⟨rfl, rfl, rfl, rfl⟩ rfl
    next hkind =>
      cases h
      exact .routed live hcancellation (by simp [hkind]) ⟨rfl, rfl, rfl, rfl⟩ rfl
  next uncancelled => exact .running live uncancelled (handleRunning_cases h)

/-! ## The date of the turn -/

@[simp] theorem fillDate_terminalFailure (state : BasicCodexState) (date : String) :
    (fillDate state date).terminalFailure = state.terminalFailure := rfl

@[simp] theorem fillDate_cancellation (state : BasicCodexState) (date : String) :
    (fillDate state date).cancellation = state.cancellation := rfl

@[simp] theorem fillDate_contextWindow (state : BasicCodexState) (date : String) :
    (fillDate state date).contextWindow = state.contextWindow := rfl

@[simp] theorem fillDate_executions (state : BasicCodexState) (date : String) :
    (fillDate state date).executions = state.executions := rfl

/-- The turn with its date is the turn, the date apart. -/
theorem fillDate_turn {state : BasicCodexState} {date : String} {active : ActiveTurn}
    (h : (fillDate state date).activeTurn = some active) :
    ∃ before, state.activeTurn = some before ∧
      active = { before with currentDate := active.currentDate } := by
  obtain ⟨before, hbefore, rfl⟩ := Option.map_eq_some_iff.mp h
  refine ⟨before, hbefore, ?_⟩
  split <;> rfl

theorem fillDate_none {state : BasicCodexState} {date : String} :
    (fillDate state date).activeTurn = none ↔ state.activeTurn = none := Option.map_eq_none_iff

theorem planOf_fillDate (state : BasicCodexState) (date : String) :
    planOf (fillDate state date) = planOf state := by
  unfold fillDate planOf
  cases hactive : state.activeTurn with
  | none => rfl
  | some active =>
    obtain ⟨id, started, current, phase, steering, retry⟩ := active
    by_cases hdate : current.isEmpty = true
    · simp only [Option.map_some, if_pos hdate]
      cases phase <;> rfl
    · simp only [Option.map_some, if_neg hdate]

/-! ## The requests -/

variable {b : OutcomeBuilder BasicCodexState} {nextId : Uuid}

theorem requestTurn_draws (draws : Draws nextId b) (sid : SessionId) (active : ActiveTurn) :
    Draws nextId (requestTurn agent b sid active) := (draws.push _).congr rfl rfl

theorem requestCompaction_draws (draws : Draws nextId b) (sid : SessionId) (active : ActiveTurn)
    (compaction : OperationId → CompactionState) :
    Draws nextId (requestCompaction agent b sid active compaction) := (draws.push _).congr rfl rfl

theorem appendMessages_operations (b : OutcomeBuilder BasicCodexState) (messages : List Message) :
    (messages.foldl OutcomeBuilder.appendMessage b).outcome.operations = b.outcome.operations := by
  induction messages generalizing b with
  | nil => rfl
  | cons m ms ih => exact ih (b.appendMessage m)

theorem appendMessages_nextId (b : OutcomeBuilder BasicCodexState) (messages : List Message) :
    (messages.foldl OutcomeBuilder.appendMessage b).nextId = b.nextId := by
  induction messages generalizing b with
  | nil => rfl
  | cons m ms ih => exact ih (b.appendMessage m)

theorem appendResults_draws (draws : Draws nextId b) (messages : List Message) :
    Draws nextId (appendResults agent b messages) :=
  draws.congr (appendMessages_operations _ messages) (appendMessages_nextId _ messages)

theorem Boundary.draws {r : OutcomeBuilder BasicCodexState} {active : ActiveTurn}
    {through : HistorySequence} {sid : SessionId} (boundary : Boundary agent b active through sid r)
    (draws : Draws nextId b) : Draws nextId r := by
  cases boundary with
  | compact => exact (draws.push _).congr rfl rfl
  | resume => exact (draws.push _).congr rfl rfl

/-! ## Plans -/

/-- A state whose plan, where it has one, is one that the scheduler may leave. -/
def PlanSound (state : BasicCodexState) : Prop :=
  ∀ plan, planOf state = some plan → plan.Sound ∧ plan.Settled

theorem planSound_of_none {state : BasicCodexState} (h : planOf state = none) :
    PlanSound state := by
  intro plan hplan
  rw [h] at hplan
  cases hplan

@[simp] theorem planOf_requestTurn (b : OutcomeBuilder BasicCodexState) (sid : SessionId)
    (active : ActiveTurn) : planOf (requestTurn agent b sid active).state = none := rfl

@[simp] theorem planOf_requestCompaction (b : OutcomeBuilder BasicCodexState) (sid : SessionId)
    (active : ActiveTurn) (compaction : OperationId → CompactionState) :
    planOf (requestCompaction agent b sid active compaction).state = none := rfl

theorem Boundary.planOf {r : OutcomeBuilder BasicCodexState} {active : ActiveTurn}
    {through : HistorySequence} {sid : SessionId}
    (boundary : Boundary agent b active through sid r) : ToolExecution.planOf r.state = none := by
  cases boundary <;> rfl

theorem planOf_executing {state : BasicCodexState} {active : ActiveTurn} {plan : ToolPlanState} :
    ToolExecution.planOf { state with
      activeTurn := some { active with phase := .executingTools plan } } = some plan := rfl

theorem PlanRan.planSound {invocation : Invocation} {r : OutcomeBuilder BasicCodexState}
    (ran : PlanRan agent b invocation r) (sound : PlanSound b.state)
    (executes : (ToolExecution.planOf b.state).isSome = true) : PlanSound r.state := by
  obtain ⟨plan, hplan⟩ := Option.isSome_iff_exists.mp executes
  cases ran with
  | waits schedule _ _ =>
    obtain ⟨plan', hplan', scheduled⟩ :=
      ToolExecution.scheduleReady_scheduled hplan (sound plan hplan).1 (sound plan hplan).2 schedule
    intro p hp
    rw [OutcomeBuilder.setStatus_state, hplan'] at hp
    cases hp
    exact ⟨scheduled.sound, scheduled.settled⟩
  | finished _ _ _ _ _ boundary => exact planSound_of_none boundary.planOf

theorem begin_cleanup {state : BasicCodexState} {reason : Option String} {sequence : EventSequence}
    {nextId : Uuid} {r : OutcomeBuilder BasicCodexState}
    (h : Cancellation.begin agent state reason sequence nextId = .ok r) :
    ∃ c targets, Cancellation.inFlight state = .ok targets ∧
      Cleanup.Moves
        { result := .new { state with activeTurn := state.activeTurn.map Cancellation.cancelTurn }
            nextId
          cancellation := {
            reason
            requestedAtSequence := sequence
            turnId := state.activeTurn.map (·.id)
            targets := targets.map Cancellation.newTarget
            processes := []
            discovery := none
            cleanupFailures := [] } } c ∧
      r = Cancellation.setLifecycleStatus { c with result := c.result.emitProgress (.object
        [("type", .string "cancellation_started"), ("targets", .nat targets.length),
          ("processes", .nat c.cancellation.processes.length)]) } true := by
  unfold Cancellation.begin at h
  split at h
  · cases h
  next targets htargets =>
    cases h
    refine ⟨_, targets, htargets, ?_, rfl⟩
    refine (Cancellation.moves_foldl _ Cancellation.withdrawTarget_moves
      (List.range targets.length) _).trans ?_
    exact Cancellation.moves_foldl _ (fun c tracked => Cancellation.stageInterrupt_moves _ _ _ _) _ _

/-- The lifecycle status stages nothing, and leaves the turn or ends it. -/
theorem setLifecycleStatus_state (c : Cleanup) (emit : Bool) :
    (Cancellation.setLifecycleStatus c emit).outcome.operations = c.result.outcome.operations ∧
      (Cancellation.setLifecycleStatus c emit).nextId = c.result.nextId ∧
      ((Cancellation.setLifecycleStatus c emit).state.activeTurn = none ∨
        (Cancellation.setLifecycleStatus c emit).state.activeTurn = c.result.state.activeTurn) := by
  unfold Cancellation.setLifecycleStatus
  dsimp only
  split
  · split <;> exact ⟨rfl, rfl, .inl rfl⟩
  · exact ⟨rfl, rfl, .inr rfl⟩

theorem setLifecycleStatus_cancellation (c : Cleanup) (emit : Bool) :
    (Cancellation.setLifecycleStatus c emit).state.cancellation = some c.cancellation := by
  unfold Cancellation.setLifecycleStatus
  dsimp only
  split
  · split <;> rfl
  · rfl

theorem planOf_cancelling {state : BasicCodexState}
    (h : state.activeTurn = none ∨ ∃ active, state.activeTurn = some active ∧
      active.phase = .cancelling) : ToolExecution.planOf state = none := by
  cases hplan : ToolExecution.planOf state with
  | none => rfl
  | some plan =>
    obtain ⟨active, hactive, hphase⟩ := ToolExecution.planOf_some.mp hplan
    rcases h with h | ⟨active', hactive', hphase'⟩
    · rw [h] at hactive
      cases hactive
    · cases hactive.symm.trans hactive'
      cases hphase.symm.trans hphase'

theorem planOf_begin {state : BasicCodexState} {reason : Option String} {sequence : EventSequence}
    {nextId : Uuid} {r : OutcomeBuilder BasicCodexState}
    (h : Cancellation.begin agent state reason sequence nextId = .ok r) :
    ToolExecution.planOf r.state = none := by
  obtain ⟨c, targets, -, moves, rfl⟩ := begin_cleanup h
  apply planOf_cancelling
  obtain ⟨-, -, hnone | hsame⟩ := setLifecycleStatus_state
    { c with result := c.result.emitProgress (.object
        [("type", .string "cancellation_started"), ("targets", .nat targets.length),
          ("processes", .nat c.cancellation.processes.length)]) } true
  · exact .inl hnone
  · rw [hsame, OutcomeBuilder.emitProgress_state, moves.state]
    cases hactive : state.activeTurn with
    | none => exact .inl (by simp)
    | some active => exact .inr ⟨_, by simp; rfl, rfl⟩

/-- A branch leaves a plan that the scheduler may leave. -/
theorem Handled.planSound {state : BasicCodexState} {event : SessionEvent}
    {context : HarnessContext} {r : OutcomeBuilder BasicCodexState}
    (handled : Handled agent state event context nextId r) (sound : PlanSound state) :
    PlanSound r.state := by
  cases handled with
  | @steered message active kind user turn =>
    intro plan hplan
    obtain ⟨_, hactive, hphase⟩ := ToolExecution.planOf_some.mp hplan
    cases hactive
    exact sound plan (ToolExecution.planOf_some.mpr ⟨active, turn, hphase⟩)
  | compactFirst | start | failAwaiting | failCompacting | idle | retry | install | compactAgain =>
    exact planSound_of_none rfl
  | respond _ _ _ _ _ boundary => exact planSound_of_none boundary.planOf
  | refused _ _ _ _ _ _ _ boundary => exact planSound_of_none boundary.planOf
  | plan _ _ _ _ planned _ ran =>
    refine ran.planSound ?_ rfl
    intro p hp
    cases hp
    exact ToolPlan.parse_sound planned
  | execution _ applied ran =>
    obtain ⟨active, plan, call, progress, status, state'', hactive, hphase, -⟩ :=
      ToolExecution.applyCompletion_ok applied
    have hplan := ToolExecution.planOf_some.mpr ⟨active, hactive, hphase⟩
    obtain ⟨plan', hplan', hsound, hsettled⟩ :=
      ToolExecution.applyCompletion_sound hplan (sound plan hplan).1 applied
    refine ran.planSound ?_ ?_
    · intro p hp
      cases hplan'.symm.trans hp
      exact ⟨hsound, hsettled⟩
    · rw [OutcomeBuilder.new_state, hplan']
      rfl
  | cancel _ begun => exact planSound_of_none (planOf_begin begun)

/-- What an invocation that returns an outcome leaves of the plan. -/
theorem Answered.planSound {state : BasicCodexState} {event : SessionEvent}
    {context : HarnessContext} {r : OutcomeBuilder BasicCodexState}
    (answered : Answered agent state event context nextId r) (sound : PlanSound state) :
    PlanSound r.state := by
  cases answered with
  | failed _ silent | routed _ _ _ silent =>
    rw [silent.state]
    exact sound
  | @cleaned _ _ _ _ c _ _ _ applied =>
    have hstate := (Cancellation.applyCompletion_moves applied).state
    obtain ⟨-, -, hnone | hsame⟩ := setLifecycleStatus_state c true
    · exact planSound_of_none (planOf_cancelling (.inl hnone))
    · intro plan hplan
      obtain ⟨active, hactive, hphase⟩ := ToolExecution.planOf_some.mp hplan
      refine sound plan (ToolExecution.planOf_some.mpr ⟨active, ?_, hphase⟩)
      rw [hsame, hstate] at hactive
      exact hactive
  | running _ _ handled => exact handled.planSound sound

/-! ## What an invocation draws -/

theorem PlanRan.draws {invocation : Invocation} {r : OutcomeBuilder BasicCodexState}
    (ran : PlanRan agent b invocation r) (sound : PlanSound b.state)
    (executes : (ToolExecution.planOf b.state).isSome = true) (draws : Draws nextId b) :
    Draws nextId r := by
  obtain ⟨plan, hplan⟩ := Option.isSome_iff_exists.mp executes
  cases ran with
  | waits schedule _ _ =>
    obtain ⟨_, _, _, schedules⟩ :=
      ToolExecution.scheduleReady_schedules hplan (sound plan hplan).1 schedule
    exact (draws.stages schedules.stages).congr rfl rfl
  | finished schedule _ _ _ _ boundary =>
    obtain ⟨_, _, _, schedules⟩ :=
      ToolExecution.scheduleReady_schedules hplan (sound plan hplan).1 schedule
    exact boundary.draws (appendResults_draws (draws.stages schedules.stages) _)

theorem Handled.draws {state : BasicCodexState} {event : SessionEvent}
    {context : HarnessContext} {r : OutcomeBuilder BasicCodexState}
    (handled : Handled agent state event context nextId r) (sound : PlanSound state) :
    Draws nextId r := by
  have new (state : BasicCodexState) : Draws nextId (.new state nextId) := .new state nextId
  have recorded (response : AssistantResponse) : Draws nextId (recorded state response nextId) :=
    (new state).congr rfl rfl
  cases handled with
  | steered => exact (new state).congr rfl rfl
  | compactFirst =>
    have drawn : Draws nextId (OutcomeBuilder.new state nextId).draw.2 :=
      (new state).stages (.none (Nat.le_succ _))
    exact (drawn.push _).congr rfl rfl
  | start =>
    have drawn : Draws nextId (OutcomeBuilder.new state nextId).draw.2 :=
      (new state).stages (.none (Nat.le_succ _))
    exact (drawn.push _).congr rfl rfl
  | failAwaiting _ _ _ _ base =>
    rcases base with rfl | ⟨response, rfl⟩
    · exact (new state).congr rfl rfl
    · exact (recorded response).congr rfl rfl
  | failCompacting => exact (new state).congr rfl rfl
  | idle => exact (new state).congr rfl rfl
  | respond _ _ _ _ _ boundary => exact boundary.draws (recorded _)
  | refused _ _ _ _ _ _ _ boundary => exact boundary.draws (appendResults_draws (recorded _) _)
  | plan _ _ _ _ planned _ ran =>
    refine ran.draws ?_ rfl ((new state).congr rfl rfl)
    intro p hp
    cases hp
    exact ToolPlan.parse_sound planned
  | retry => exact ((new state).push _).congr rfl rfl
  | install => exact ((new state).push _).congr rfl rfl
  | compactAgain => exact ((new state).push _).congr rfl rfl
  | execution _ applied ran =>
    obtain ⟨active, plan, call, progress, status, state'', hactive, hphase, -⟩ :=
      ToolExecution.applyCompletion_ok applied
    have hplan := ToolExecution.planOf_some.mpr ⟨active, hactive, hphase⟩
    obtain ⟨plan', hplan', hsound, hsettled⟩ :=
      ToolExecution.applyCompletion_sound hplan (sound plan hplan).1 applied
    refine ran.draws ?_ ?_ (new _)
    · intro p hp
      cases hplan'.symm.trans hp
      exact ⟨hsound, hsettled⟩
    · rw [OutcomeBuilder.new_state, hplan']
      rfl
  | cancel _ begun =>
    obtain ⟨c, targets, -, moves, rfl⟩ := begin_cleanup begun
    obtain ⟨hoperations, hsupply, -⟩ := setLifecycleStatus_state
      { c with result := c.result.emitProgress (.object
        [("type", .string "cancellation_started"), ("targets", .nat targets.length),
          ("processes", .nat c.cancellation.processes.length)]) } true
    exact (moves.draws (new _)).congr hoperations hsupply

theorem Answered.draws {state : BasicCodexState} {event : SessionEvent}
    {context : HarnessContext} {r : OutcomeBuilder BasicCodexState}
    (answered : Answered agent state event context nextId r) (sound : PlanSound state) :
    Draws nextId r := by
  cases answered with
  | failed _ silent | routed _ _ _ silent =>
    exact (Draws.new state nextId).congr silent.operations silent.supply
  | @cleaned _ _ _ _ c _ _ _ applied =>
    obtain ⟨hoperations, hsupply, -⟩ := setLifecycleStatus_state c true
    exact ((Cancellation.applyCompletion_moves applied).draws (.new state nextId)).congr
      hoperations hsupply
  | running _ _ handled => exact handled.draws sound

end Handler

/-! ## Steps of a session -/

namespace Session

open Handler

variable {agent : Agent} {s t : Session} {d : Delivery}

/-- The operations in flight, each with its kind. -/
def inFlight (s : Session) : List (OperationId × OperationKind) :=
  s.outstanding.map fun operation => (operation.id, operation.request.kind)

/-- The identifiers of a session: each staged operation has its own, below the supply, and what was
completed was staged. -/
structure Numbered (s : Session) : Prop where
  below : ∀ o ∈ s.staged, o.id < s.nextId
  distinct : (s.staged.map (·.id)).Nodup
  completed : ∀ c ∈ s.completed, ∃ o ∈ s.staged, o.id = c.1

theorem Step.answered (step : Step agent s d t) :
    s.admits d.stimulus = true ∧ ∃ r, t = s.after d.stimulus r ∧
      Answered agent (fillDate s.state d.date) (s.event d) (s.context d.stimulus) s.nextId r := by
  obtain ⟨admitted, r, hinvoke, rfl⟩ := step
  exact ⟨admitted, r, rfl, handle_answered hinvoke⟩

theorem isCompleted_iff {id : OperationId} :
    s.isCompleted id = true ↔ ∃ outcome, (id, outcome) ∈ s.completed := by
  unfold isCompleted
  rw [List.any_eq_true]
  constructor
  · rintro ⟨⟨id', outcome⟩, hmem, hid⟩
    simp only [beq_iff_eq] at hid
    exact ⟨outcome, hid ▸ hmem⟩
  · rintro ⟨outcome, hmem⟩
    exact ⟨_, hmem, by simp⟩

theorem mem_outstanding {o : StagedOperation} :
    o ∈ s.outstanding ↔ o ∈ s.staged ∧ s.isCompleted o.id = false := by
  simp [outstanding]

/-- The operation whose completion is admitted. -/
theorem admits_completed {id : OperationId} {outcome : OperationOutcome}
    (h : s.admits (.completed id outcome) = true) :
    ∃ o ∈ s.outstanding, o.id = id ∧ s.mayEnd o outcome = true := by
  simp only [admits, Option.any_eq_true_iff_get] at h
  obtain ⟨hsome, hends⟩ := h
  have hfound := Option.some_get hsome
  refine ⟨_, List.mem_of_find?_eq_some hfound.symm, ?_, hends⟩
  simpa using List.find?_some hfound.symm

/-- An operation is found under its identifier. -/
theorem Numbered.operation_eq (numbered : s.Numbered) {o : StagedOperation} (ho : o ∈ s.staged) :
    s.operation o.id = some o := by
  have hfound : Table.lookup (fun o : StagedOperation => o.id) o.id s.staged = some o :=
    Table.lookup_eq_some numbered.distinct ho
  simpa [operation, Table.lookup, BEq.beq] using hfound

/-- What the event and the context have of a completion is what was delivered. -/
theorem completes_delivered (numbered : s.Numbered) (admitted : s.admits d.stimulus = true)
    {id : OperationId} {kind : OperationKind} {outcome : OperationOutcome}
    (completes : Completes (s.event d) (s.context d.stimulus) id kind outcome) :
    d.stimulus = .completed id outcome ∧ ∃ o ∈ s.outstanding, o.id = id ∧
      o.request.kind = kind ∧ s.mayEnd o outcome = true := by
  have hdelivered := completes.delivered
  have hstored := completes.stored
  cases hstimulus : d.stimulus with
  | userMessage | cancellationRequested | waitResumed =>
    simp [event, hstimulus] at hdelivered
  | completed id' outcome' =>
    simp only [event, hstimulus, EventKind.operationCompleted.injEq] at hdelivered
    obtain ⟨rfl, -, -⟩ := hdelivered
    rw [hstimulus] at admitted hstored
    obtain ⟨o, ho, hid, hends⟩ := admits_completed admitted
    obtain ⟨hstaged, hopen⟩ := mem_outstanding.mp ho
    have hfresh : s.completed.find? (·.1 == id') = none := by
      rw [List.find?_eq_none]
      intro c hc hcid
      rw [hid, ← Bool.not_eq_true, isCompleted_iff] at hopen
      exact hopen ⟨c.2, by simpa [← (beq_iff_eq.mp hcid)] using hc⟩
    subst hid
    simp only [context, numbered.operation_eq hstaged, Option.map_some, outcomes,
      List.find?_append, hfresh, Except.ok.injEq, Option.some.injEq, OperationRecord.mk.injEq]
      at hstored
    obtain ⟨hkind, houtcome⟩ := hstored
    simp at houtcome
    exact ⟨by rw [houtcome], o, ho, rfl, hkind, by rw [← houtcome]; exact hends⟩

theorem Numbered.inFlight_distinct (numbered : s.Numbered) : (s.inFlight.map (·.1)).Nodup := by
  have hids : s.inFlight.map (·.1) = s.outstanding.map (·.id) := by
    simp [inFlight]
  rw [hids]
  exact numbered.distinct.sublist (List.filter_sublist.map _)

/-- What a session had in flight stays in flight, but for the operation that completed, and what an
invocation staged joins it. -/
theorem outstanding_after (numbered : s.Numbered) {r : OutcomeBuilder BasicCodexState}
    (draws : Draws s.nextId r) {stimulus : Stimulus} (ended : OperationId → Bool)
    (completes : ∀ id, (s.after stimulus r).isCompleted id = (s.isCompleted id || ended id))
    (known : ∀ id, ended id = true → id < s.nextId) :
    (s.after stimulus r).outstanding =
      (s.outstanding.filter fun o => !ended o.id) ++ r.outcome.operations := by
  have hold : ∀ o ∈ s.staged, (!(s.after stimulus r).isCompleted o.id) =
      (!ended o.id && !s.isCompleted o.id) := by
    intro o _
    rw [completes, Bool.not_or, Bool.and_comm]
  have hnew : ∀ o ∈ r.outcome.operations, (!(s.after stimulus r).isCompleted o.id) = true := by
    intro o ho
    have hfresh := (draws.drawn o ho).1
    rw [completes, Bool.not_or]
    have hopen : s.isCompleted o.id = false := by
      rw [← Bool.not_eq_true, isCompleted_iff]
      rintro ⟨outcome, hmem⟩
      obtain ⟨o', ho', hid⟩ := numbered.completed _ hmem
      have hbelow := numbered.below o' ho'
      rw [hid] at hbelow
      exact absurd hbelow (Nat.not_lt.mpr hfresh)
    have hnot : ended o.id = false := by
      rw [← Bool.not_eq_true]
      intro hended
      exact absurd (known _ hended) (Nat.not_lt.mpr hfresh)
    rw [hopen, hnot]
    rfl
  show ((s.staged ++ r.outcome.operations).filter _) = _
  rw [List.filter_append, List.filter_congr hold, List.filter_eq_self.mpr hnew, outstanding,
    List.filter_filter]

/-- What is in flight after a completion: the rest, and what was staged. -/
theorem inFlight_after_completed (numbered : s.Numbered) {id : OperationId}
    {outcome : OperationOutcome} {r : OutcomeBuilder BasicCodexState} {kind : OperationKind}
    {rest : List (OperationId × OperationKind)} (draws : Draws s.nextId r)
    (before : s.inFlight.Perm ((id, kind) :: rest)) :
    (s.after (.completed id outcome) r).inFlight.Perm
      (rest ++ r.outcome.operations.map fun o => (o.id, o.request.kind)) := by
  have hdistinct : (((id, kind) :: rest).map (·.1)).Nodup :=
    (before.map _).nodup_iff.mp numbered.inFlight_distinct
  obtain ⟨hnot, -⟩ := List.nodup_cons.mp hdistinct
  have hmem : (id, kind) ∈ s.inFlight := before.mem_iff.mpr List.mem_cons_self
  obtain ⟨o, ho, hkey⟩ := List.mem_map.mp hmem
  have hid : o.id = id := congrArg Prod.fst hkey
  have hbelow : id < s.nextId := hid ▸ numbered.below o (mem_outstanding.mp ho).1
  unfold inFlight
  rw [outstanding_after numbered draws (· == id), List.map_append]
  · refine List.Perm.append_right _ ?_
    have hfilter := before.filter fun key => !(key.1 == id)
    have hrest : ((id, kind) :: rest).filter (fun key => !(key.1 == id)) = rest := by
      rw [List.filter_cons_of_neg (by simp), List.filter_eq_self]
      intro key hkey
      have hne : key.1 ≠ id := by
        intro heq
        exact hnot (List.mem_map.mpr ⟨key, hkey, heq⟩)
      simp [hne]
    rw [hrest, inFlight, List.filter_map] at hfilter
    exact hfilter
  · intro id'
    show (s.completed ++ [(id, outcome)]).any _ = _
    rw [List.any_append, isCompleted]
    simp [Bool.beq_comm]
  · intro id' hended
    rw [beq_iff_eq.mp hended]
    exact hbelow

/-- What is in flight after another event: what was, and what was staged. -/
theorem inFlight_after_other (numbered : s.Numbered) {r : OutcomeBuilder BasicCodexState}
    (draws : Draws s.nextId r) {stimulus : Stimulus}
    (other : ∀ id outcome, stimulus ≠ .completed id outcome) :
    (s.after stimulus r).inFlight =
      s.inFlight ++ r.outcome.operations.map fun o => (o.id, o.request.kind) := by
  have hsame : (s.after stimulus r).completed = s.completed := by
    cases stimulus with
    | completed id outcome => exact absurd rfl (other id outcome)
    | userMessage | cancellationRequested | waitResumed => rfl
  unfold inFlight
  rw [outstanding_after numbered draws fun _ => false, List.map_append]
  · simp
  · intro id
    rw [isCompleted, hsame, isCompleted, Bool.or_false]
  · intro id hended
    cases hended

/-- What every reachable session keeps. -/
structure Kept (s : Session) : Prop where
  plans : PlanSound s.state
  numbered : s.Numbered

theorem Kept.step (kept : s.Kept) (step : Step agent s d t) : t.Kept := by
  obtain ⟨admitted, r, rfl, answered⟩ := step.answered
  have hplans : PlanSound (fillDate s.state d.date) := by
    intro plan hplan
    rw [planOf_fillDate] at hplan
    exact kept.plans plan hplan
  have hdraws := answered.draws hplans
  refine ⟨answered.planSound hplans, ?_, ?_, ?_⟩
  · intro o ho
    rcases List.mem_append.mp ho with h | h
    · exact (kept.numbered.below o h).trans_le hdraws.later
    · exact (hdraws.drawn o h).2
  · show ((s.staged ++ r.outcome.operations).map _).Nodup
    rw [List.map_append, List.nodup_append]
    refine ⟨kept.numbered.distinct, hdraws.distinct, ?_⟩
    intro x hx y hy hxy
    obtain ⟨o, ho, rfl⟩ := List.mem_map.mp hx
    obtain ⟨p, hp, rfl⟩ := List.mem_map.mp hy
    have hbelow : o.id < s.nextId := kept.numbered.below o ho
    have habove : s.nextId ≤ p.id := (hdraws.drawn p hp).1
    rw [hxy] at hbelow
    exact absurd hbelow (Nat.not_lt.mpr habove)
  · have hold : ∀ c ∈ s.completed, ∃ o ∈ s.staged ++ r.outcome.operations, o.id = c.1 := by
      intro c hc
      obtain ⟨o, ho, hid⟩ := kept.numbered.completed c hc
      exact ⟨o, List.mem_append_left _ ho, hid⟩
    cases hstimulus : d.stimulus with
    | userMessage | cancellationRequested | waitResumed =>
      simpa [after, outcomes] using hold
    | completed id outcome =>
      rw [hstimulus] at admitted
      obtain ⟨o, ho, hid, -⟩ := admits_completed admitted
      intro c hc
      rcases List.mem_append.mp hc with hc | hc
      · exact hold c hc
      · rw [List.mem_singleton.mp hc]
        exact ⟨o, List.mem_append_left _ (mem_outstanding.mp ho).1, hid⟩

theorem Reachable.kept (reach : Reachable agent s) : s.Kept := by
  refine reach.induct ?_ ?_
  · intro id nextId
    refine ⟨planSound_of_none rfl, ?_, List.Pairwise.nil, ?_⟩
    · intro o ho
      cases ho
    · intro c hc
      cases hc
  · intro s d t _ kept step
    exact kept.step step

/-! ## Playing deliveries -/

/-- The session that some deliveries lead to, where the platform may make them and the handler
answers each. -/
def play (agent : Agent) (s : Session) : List Delivery → Option Session
  | [] => some s
  | d :: deliveries =>
    if s.admits d.stimulus then
      match s.invoke agent d with
      | .ok r => (s.after d.stimulus r).play agent deliveries
      | .error _ => none
    else none

theorem play_reachable {deliveries : List Delivery} (reach : Reachable agent s)
    (h : s.play agent deliveries = some t) : Reachable agent t := by
  induction deliveries generalizing s with
  | nil =>
    cases h
    exact reach
  | cons d deliveries ih =>
    unfold play at h
    split at h
    next admitted =>
      split at h
      next r hr => exact ih (reach.step ⟨admitted, r, hr, rfl⟩) h
      · cases h
    · cases h

theorem step_of_play {d : Delivery} (h : s.play agent [d] = some t) : Step agent s d t := by
  unfold play at h
  split at h
  next admitted =>
    split at h
    next r hr =>
      cases h
      exact ⟨admitted, r, hr, rfl⟩
    · cases h
  · cases h

/-- The delivery of a stimulus as the event of a number, on one day. -/
def delivery (sequence : EventSequence) (stimulus : Stimulus) : Delivery :=
  ⟨sequence, sequence, 0, "2026-09-15", stimulus, by decide⟩

/-- A played session of which something is computed to hold. -/
theorem exists_of_played {deliveries : List Delivery} {p : Session → Bool}
    (reach : Reachable agent s) (h : (s.play agent deliveries).any p = true) :
    ∃ t, s.play agent deliveries = some t ∧ Reachable agent t ∧ p t = true := by
  cases hplay : s.play agent deliveries with
  | none =>
    rw [hplay] at h
    cases h
  | some t =>
    rw [hplay] at h
    exact ⟨t, rfl, play_reachable reach hplay, h⟩

end Session

end AgentPlatform.Harness
