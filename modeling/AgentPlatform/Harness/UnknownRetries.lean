import AgentPlatform.Harness.ContextEstimate

/-!
# Unknown outcomes of the model

The handler repeats the request of a turn when its outcome is unknown. It counts this in the turn and
not in the request: the first unknown outcome of a turn is answered by the same request, and every
later one fails the session, also when it is the outcome of another request.

**The log of a run** (`Logged`). It has one entry for each ordinary request whose outcome was
unknown: the turn, the operation, and the operations staged in its place.
-/

namespace AgentPlatform.Harness

namespace Handler

variable {agent : Agent} {b r : OutcomeBuilder BasicCodexState} {sid : SessionId}
  {state : BasicCodexState} {event : SessionEvent} {context : HarnessContext} {nextId : Uuid}

/-! ## Turns that go on -/

/-- The turn that is there was there before, with its date and its count of repeated requests. -/
def SameCount (before after : BasicCodexState) : Prop :=
  ∀ active', after.activeTurn = some active' → ∃ active, before.activeTurn = some active ∧
    active'.id = active.id ∧ active'.retry = active.retry ∧
      active'.currentDate = active.currentDate

theorem SameCount.refl (state : BasicCodexState) : SameCount state state :=
  fun active h => ⟨active, h, rfl, rfl, rfl⟩

theorem SameCount.trans {s s' s'' : BasicCodexState} (first : SameCount s s')
    (rest : SameCount s' s'') : SameCount s s'' := by
  intro active'' h''
  obtain ⟨active', h', hid', hretry', hdate'⟩ := rest active'' h''
  obtain ⟨active, h, hid, hretry, hdate⟩ := first active' h'
  exact ⟨active, h, hid'.trans hid, hretry'.trans hretry, hdate'.trans hdate⟩

theorem SameCount.of_eq {s s' : BasicCodexState} {active active' : ActiveTurn}
    (before : s.activeTurn = some active) (after : s'.activeTurn = some active')
    (id : active'.id = active.id) (retry : active'.retry = active.retry)
    (date : active'.currentDate = active.currentDate) : SameCount s s' := by
  intro turn hturn
  rw [after] at hturn
  cases hturn
  exact ⟨active, before, id, retry, date⟩

theorem SameCount.of_none {s s' : BasicCodexState} (after : s'.activeTurn = none) :
    SameCount s s' := by
  intro turn hturn
  rw [after] at hturn
  cases hturn

/-- The request that the turn of a state asks. -/
def turnRequest (agent : Agent) (sid : SessionId) (state : BasicCodexState)
    (active : ActiveTurn) : OperationRequest :=
  .llm agent.harness.llmConnectionId (Llm.freshRequest agent
    { sessionId := sid, currentDate := active.currentDate } state.contextWindow.modelHistory)

/-- The request that the turn awaits was staged just now. -/
def AwaitsFresh (agent : Agent) (sid : SessionId) (nextId : Uuid)
    (r : OutcomeBuilder BasicCodexState) : Prop :=
  ∀ id, awaitedTurn r.state = some id → nextId ≤ id ∧ ∃ active, r.state.activeTurn = some active ∧
    ⟨id, turnRequest agent sid r.state active⟩ ∈ r.outcome.operations

theorem AwaitsFresh.of_none (h : awaitedTurn r.state = none) : AwaitsFresh agent sid nextId r := by
  intro id hid
  cases h.symm.trans hid

theorem requestTurn_awaits (later : nextId ≤ b.nextId) (active : ActiveTurn) :
    AwaitsFresh agent sid nextId (requestTurn agent b sid active) := by
  intro id hid
  cases hid
  exact ⟨later, _, rfl, List.mem_append_right _ List.mem_cons_self⟩

theorem awaitedTurn_of_plan {plan : ToolPlanState} (h : ToolExecution.planOf state = some plan) :
    awaitedTurn state = none := by
  obtain ⟨active, hactive, hphase⟩ := ToolExecution.planOf_some.mp h
  rw [awaitedTurn_eq hactive, hphase]

/-- A step in a turn that goes on: the count stays, and an awaited request is a new one. -/
structure Continues (agent : Agent) (sid : SessionId) (nextId : Uuid) (state : BasicCodexState)
    (r : OutcomeBuilder BasicCodexState) : Prop where
  count : SameCount state r.state
  awaits : AwaitsFresh agent sid nextId r

theorem Boundary.continues {active : ActiveTurn} {through : HistorySequence}
    (boundary : Boundary agent b active through sid r) (turn : b.state.activeTurn = some active)
    (later : nextId ≤ b.nextId) : Continues agent sid nextId b.state r := by
  cases boundary with
  | compact => exact ⟨.of_eq turn rfl rfl rfl rfl, .of_none rfl⟩
  | resume =>
    have later' : nextId ≤ (b.setState (extendProjection agent b.state
        (active.pendingSteering.map (·.message)))).nextId := later
    exact ⟨.of_eq turn rfl rfl rfl rfl, requestTurn_awaits later' _⟩

theorem PlanRan.continues {invocation : Invocation} {plan : ToolPlanState} {active : ActiveTurn}
    (ran : PlanRan agent b invocation r) (turn : b.state.activeTurn = some active)
    (phase : active.phase = .executingTools plan) (sound : plan.Sound) (later : nextId ≤ b.nextId) :
    Continues agent invocation.platformSessionId nextId b.state r := by
  have hplan := ToolExecution.planOf_some.mpr ⟨active, turn, phase⟩
  have scheduled_count : ∀ {scheduled : OutcomeBuilder BasicCodexState},
      ToolExecution.scheduleReady agent b invocation = .ok scheduled →
        SameCount b.state scheduled.state ∧ nextId ≤ scheduled.nextId := by
    intro scheduled schedule
    obtain ⟨active', staged, plan', schedules⟩ :=
      ToolExecution.scheduleReady_schedules hplan sound schedule
    cases turn.symm.trans schedules.turn
    have hturn : scheduled.state.activeTurn = some { active with phase := .executingTools plan' } := by
      rw [schedules.state]
    exact ⟨.of_eq turn hturn rfl rfl rfl, later.trans schedules.stages.later⟩
  cases ran with
  | waits schedule executes _ =>
    exact ⟨(scheduled_count schedule).1, .of_none (awaitedTurn_of_plan executes)⟩
  | @finished scheduled r plan messages active through schedule executes complete results turn'
      boundary =>
    obtain ⟨count, hlater⟩ := scheduled_count schedule
    have hsupply : nextId ≤ (appendResults agent scheduled messages).nextId := by
      rw [appendResults, appendMessages_nextId]
      exact hlater
    have continues := boundary.continues turn' hsupply
    refine ⟨count.trans (SameCount.trans ?_ continues.count), continues.awaits⟩
    intro active' hactive'
    rw [appendResults_activeTurn] at hactive'
    exact ⟨active', hactive', rfl, rfl, rfl⟩

/-! ## What an invocation does to the turn -/

/-- What an invocation that repeats no request does to the turn of a state. -/
inductive TurnMoves (agent : Agent) (sid : SessionId) (nextId : Uuid) (state : BasicCodexState)
    (r : OutcomeBuilder BasicCodexState) : Prop
  | stay (count : SameCount state r.state) (awaited : awaitedTurn r.state = awaitedTurn state)
      (window : r.state.contextWindow = state.contextWindow)
  | goOn (continues : Continues agent sid nextId state r)
  | begin {active : ActiveTurn} (turn : r.state.activeTurn = some active) (id : active.id = nextId)
      (retry : active.retry.llmAttempts = 0) (awaits : AwaitsFresh agent sid nextId r)

/-- The invocation repeats the request that the turn awaits. -/
structure Repeats (agent : Agent) (state : BasicCodexState) (event : SessionEvent)
    (context : HarnessContext) (nextId : Uuid) (r : OutcomeBuilder BasicCodexState) : Prop where
  result : ∃ id failure active awaiting, Completes event context id .llm (.unknown failure) ∧
    state.activeTurn = some active ∧ active.phase = .awaitingLlm awaiting ∧
    awaiting.operationId = id ∧ active.retry.llmAttempts = 0 ∧
    r = retried agent state active event id nextId

theorem ended_turnMoves (h : r.state.activeTurn = none) : TurnMoves agent sid nextId state r :=
  .goOn ⟨.of_none h, .of_none (awaitedTurn_none h)⟩

theorem Handled.turnMoves (handled : Handled agent state event context nextId r)
    (sound : PlanSound state) : Repeats agent state event context nextId r ∨
      TurnMoves agent event.sessionId nextId state r := by
  have recorded_turn (response : AssistantResponse) :
      (recorded state response nextId).state.activeTurn = state.activeTurn :=
    recordResponse_turn state response
  cases handled with
  | @steered message active kind user turn =>
    have steered : ((OutcomeBuilder.new { state with activeTurn := some (steer active event message) }
        nextId).appendMessage message).state.activeTurn = some (steer active event message) := rfl
    refine .inr (.stay (.of_eq turn steered rfl rfl rfl) ?_ rfl)
    rw [awaitedTurn_eq turn, awaitedTurn_eq steered]
    rfl
  | compactFirst => exact .inr (.begin rfl rfl rfl (.of_none rfl))
  | start =>
    refine .inr (.begin rfl rfl rfl (requestTurn_awaits ?_ _))
    exact Nat.le_succ nextId
  | failAwaiting => exact .inr (ended_turnMoves rfl)
  | failCompacting => exact .inr (ended_turnMoves rfl)
  | idle => exact .inr (ended_turnMoves rfl)
  | @respond id response active awaiting through r completes turn phase awaited noPlan boundary =>
    have continues := boundary.continues ((recorded_turn response).trans turn) (Nat.le_refl nextId)
    refine .inr (.goOn ⟨.trans ?_ continues.count, continues.awaits⟩)
    exact .of_eq turn ((recorded_turn response).trans turn) rfl rfl rfl
  | @refused id response active awaiting plan messages through r completes turn phase awaited planned
      complete results boundary =>
    have turn' : (appendResults agent (recorded state response nextId) messages).state.activeTurn =
        some active := by
      rw [appendResults_activeTurn]
      exact (recorded_turn response).trans turn
    have hsupply : nextId ≤ (appendResults agent (recorded state response nextId) messages).nextId := by
      rw [appendResults, appendMessages_nextId]
      exact Nat.le_refl nextId
    have continues := boundary.continues turn' hsupply
    exact .inr (.goOn ⟨.trans (.of_eq turn turn' rfl rfl rfl) continues.count, continues.awaits⟩)
  | @plan id response active awaiting plan r completes turn phase awaited planned incomplete ran =>
    have continues := ran.continues rfl rfl (ToolPlan.parse_sound planned).1 (Nat.le_refl nextId)
    refine .inr (.goOn ⟨.trans ?_ continues.count, continues.awaits⟩)
    exact .of_eq turn rfl rfl rfl rfl
  | @retry id failure active awaiting completes turn phase awaited first =>
    exact .inl ⟨id, failure, active, awaiting, completes, turn, phase, awaited, by omega, rfl⟩
  | @install id response active compaction validated providerItem message completes turn phase
      awaited accepted item checkpoint bound =>
    refine .inr (.goOn ⟨.of_eq turn rfl rfl rfl rfl, ?_⟩)
    exact requestTurn_awaits (Nat.le_refl nextId) _
  | @compactAgain id failure active compaction completes turn phase awaited first =>
    exact .inr (.goOn ⟨.of_eq turn rfl rfl rfl rfl, .of_none rfl⟩)
  | @execution id outcome state' r completes applied ran =>
    obtain ⟨active, plan, call, progress, status, state'', hactive, hphase, -⟩ :=
      ToolExecution.applyCompletion_ok applied
    have hplan := ToolExecution.planOf_some.mpr ⟨active, hactive, hphase⟩
    obtain ⟨active', plan', completed⟩ :=
      ToolExecution.applyCompletion_completed hplan (sound plan hplan).1 applied
    cases hactive.symm.trans completed.turn
    have hturn : state'.activeTurn = some { active with phase := .executingTools plan' } := by
      rw [completed.state]
    have continues := ran.continues hturn rfl completed.sound (Nat.le_refl nextId)
    exact .inr (.goOn ⟨.trans (.of_eq hactive hturn rfl rfl rfl) continues.count,
      continues.awaits⟩)
  | cancel kind begun =>
    rcases begin_turn begun with hnone | hcancelling
    · exact .inr (ended_turnMoves hnone)
    · refine .inr (.goOn ⟨?_, .of_none ?_⟩)
      · intro active' hactive'
        rw [hcancelling] at hactive'
        obtain ⟨active, hactive, rfl⟩ := Option.map_eq_some_iff.mp hactive'
        exact ⟨active, hactive, rfl, rfl, rfl⟩
      · cases hturn : state.activeTurn with
        | none =>
          rw [hturn] at hcancelling
          exact awaitedTurn_none hcancelling
        | some active =>
          rw [hturn] at hcancelling
          exact awaitedTurn_eq hcancelling

theorem Answered.turnMoves (answered : Answered agent state event context nextId r)
    (sound : PlanSound state) : (state.terminalFailure = none ∧ state.cancellation = none ∧
        Repeats agent state event context nextId r) ∨
      TurnMoves agent event.sessionId nextId state r := by
  have silent_stays (silent : Silent state nextId r) :
      TurnMoves agent event.sessionId nextId state r := by
    refine .stay ?_ (by rw [silent.state]) (by rw [silent.state])
    rw [silent.state]
    exact .refl state
  cases answered with
  | failed _ silent | routed _ _ _ silent => exact .inr (silent_stays silent)
  | @cleaned _ _ _ _ c _ _ _ applied =>
    have hstate := (Cancellation.applyCompletion_moves applied).state
    obtain ⟨-, -, hnone | hsame⟩ := setLifecycleStatus_state c true
    · exact .inr (ended_turnMoves hnone)
    · have hturn : (Cancellation.setLifecycleStatus c true).state.activeTurn = state.activeTurn := by
        rw [hsame, hstate]
        rfl
      refine .inr (.stay ?_ ?_ ?_)
      · intro active hactive
        exact ⟨active, hturn.symm.trans hactive, rfl, rfl, rfl⟩
      · cases hactive : state.activeTurn with
        | none => rw [awaitedTurn_none hactive, awaitedTurn_none (hturn.trans hactive)]
        | some active => rw [awaitedTurn_eq hactive, awaitedTurn_eq (hturn.trans hactive)]
      · rw [setLifecycleStatus_contextWindow, hstate]
        rfl
  | running live uncancelled handled =>
    rcases handled.turnMoves sound with repeats | moves
    · exact .inl ⟨live, uncancelled, repeats⟩
    · exact .inr moves

/-- What an unknown outcome of the awaited request leads to. -/
theorem unknown_handled {id : OperationId} {failure : OperationFailure} {active : ActiveTurn}
    (h : handleRunning agent state event context nextId = .ok r)
    (completes : Completes event context id .llm (.unknown failure))
    (turn : state.activeTurn = some active) (awaited : awaitedTurn state = some id) :
    (active.retry.llmAttempts = 0 ∧ r = retried agent state active event id nextId) ∨
      (0 < active.retry.llmAttempts ∧ ∃ details, r = Failure.terminal state nextId details) := by
  rw [handleRunning, completes.delivered] at h
  dsimp only at h
  unfold handleLlmCompletion at h
  obtain ⟨⟨expected, isCompaction⟩, hexpected, h⟩ := Fallible.bind_ok h
  obtain ⟨active', hactive', hphase⟩ := expectedOperation_ok hexpected
  cases turn.symm.trans hactive'
  dsimp only at h
  split at h
  · cases h
  obtain ⟨outcome, hread, h⟩ := Fallible.bind_ok h
  obtain ⟨hstored, -⟩ := readOutcome_ok hread
  have houtcome : outcome = .unknown failure := by
    have hsame := completes.stored.symm.trans hstored
    rw [Except.ok.injEq, Option.some.injEq, OperationRecord.mk.injEq, Option.some.injEq] at hsame
    exact hsame.2.symm
  rcases hphase with ⟨rfl, -⟩ | ⟨-, compaction, hphase, -⟩
  · rw [if_neg Bool.false_ne_true, houtcome, handleLlmOutcome] at h
    dsimp only at h
    rw [turn] at h
    dsimp only at h
    split at h
    next hfirst =>
      cases h
      exact .inl ⟨by omega, rfl⟩
    next hlater =>
      cases h
      exact .inr ⟨by omega, _, rfl⟩
  · rw [awaitedTurn_eq turn, hphase] at awaited
    cases awaited

end Handler

namespace Session

open Handler

variable {agent : Agent} {s t : Session} {d : Delivery}

/-! ## The log -/

/-- An ordinary request whose outcome was unknown: its turn, its operation, and what was staged. -/
structure UnknownEnd where
  turn : Option Uuid
  operation : OperationId
  staged : List OperationId

/-- The unknown outcome of the awaited request that a step delivers to a running session. -/
def unknownEnds (s : Session) (d : Delivery) (t : Session) : List UnknownEnd :=
  match d.stimulus with
  | .completed id (.unknown _) =>
    if s.state.terminalFailure.isSome || s.state.cancellation.isSome then []
    else if s.answersTurn id then
      [{ turn := s.state.activeTurn.map (·.id)
         operation := id
         staged := (t.staged.drop s.staged.length).map (·.id) }]
    else []
  | _ => []

/-- A run of a session, with the unknown outcomes of its ordinary requests so far. -/
inductive Logged (agent : Agent) : Session → List UnknownEnd → Prop
  | start (id : SessionId) (nextId : Uuid) : Logged agent (start id nextId) []
  | step {s t : Session} {d : Delivery} {log : List UnknownEnd} (before : Logged agent s log)
      (step : Step agent s d t) : Logged agent t (log ++ unknownEnds s d t)

theorem Logged.reachable {log : List UnknownEnd} (run : Logged agent s log) : Reachable agent s := by
  induction run with
  | start id nextId => exact .start agent id nextId
  | step _ step ih => exact ih.step step

/-- An operation that was staged in the place of one whose outcome was unknown. -/
def IsRetry (log : List UnknownEnd) (id : OperationId) : Prop := ∃ e ∈ log, id ∈ e.staged

/-- An ordinary request of a turn whose outcome was unknown. -/
def HadUnknown (log : List UnknownEnd) (turn : Uuid) : Prop := ∃ e ∈ log, e.turn = some turn

/-- What the log says of a session: the turn counts whether it had an unknown outcome, a repeated
request belongs to a turn that had one, and the awaited request is the one of the conversation. -/
structure Tracks (agent : Agent) (s : Session) (log : List UnknownEnd) : Prop where
  turns : ∀ e ∈ log, ∀ turn, e.turn = some turn → turn < s.nextId
  staged : ∀ e ∈ log, ∀ id ∈ e.staged, id < s.nextId
  count : ∀ active, s.state.activeTurn = some active →
    (0 < active.retry.llmAttempts ↔ HadUnknown log active.id)
  retry : ∀ active id, s.state.activeTurn = some active → awaitedTurn s.state = some id →
    IsRetry log id → HadUnknown log active.id
  request : ∀ active id, s.state.activeTurn = some active → awaitedTurn s.state = some id →
    ⟨id, turnRequest agent s.id s.state active⟩ ∈ s.staged

section

variable {log : List UnknownEnd} {r : OutcomeBuilder BasicCodexState}

/-- A step that repeats no request leaves the log as it is. -/
theorem Tracks.moves (tracks : Tracks agent s log) (draws : Draws s.nextId r)
    (moves : TurnMoves agent s.id s.nextId s.state r) : Tracks agent (s.after d.stimulus r) log := by
  have fresh {id : OperationId} (h : s.nextId ≤ id) : ¬ IsRetry log id := by
    rintro ⟨e, he, hid⟩
    exact absurd (tracks.staged e he id hid) (Nat.not_lt.mpr h)
  have unknown {turn : Uuid} (h : s.nextId ≤ turn) : ¬ HadUnknown log turn := by
    rintro ⟨e, he, hturn⟩
    exact absurd (tracks.turns e he turn hturn) (Nat.not_lt.mpr h)
  have awaits (hfresh : AwaitsFresh agent s.id s.nextId r) : ∀ active id,
      r.state.activeTurn = some active → awaitedTurn r.state = some id → ¬ IsRetry log id ∧
        ⟨id, turnRequest agent s.id r.state active⟩ ∈ s.staged ++ r.outcome.operations := by
    intro active id hactive hid
    obtain ⟨hlater, active', hactive', hstaged⟩ := hfresh id hid
    cases hactive.symm.trans hactive'
    exact ⟨fresh hlater, List.mem_append_right _ hstaged⟩
  have turns : ∀ e ∈ log, ∀ turn, e.turn = some turn → turn < r.nextId :=
    fun e he turn hturn => (tracks.turns e he turn hturn).trans_le draws.later
  have staged : ∀ e ∈ log, ∀ id ∈ e.staged, id < r.nextId :=
    fun e he id hid => (tracks.staged e he id hid).trans_le draws.later
  have counted (count : SameCount s.state r.state) : ∀ active', r.state.activeTurn = some active' →
      (0 < active'.retry.llmAttempts ↔ HadUnknown log active'.id) := by
    intro active' hactive'
    obtain ⟨active, hactive, hid, hretry, -⟩ := count active' hactive'
    rw [hid, hretry]
    exact tracks.count active hactive
  cases moves with
  | stay count awaited window =>
    refine ⟨turns, staged, counted count, ?_, ?_⟩
    · intro active' id hactive' hid hretry
      obtain ⟨active, hactive, hsame, -, -⟩ := count active' hactive'
      rw [hsame]
      exact tracks.retry active id hactive (awaited.symm.trans hid) hretry
    · intro active' id hactive' hid
      obtain ⟨active, hactive, -, -, hdate⟩ := count active' hactive'
      have hrequest : turnRequest agent s.id r.state active' =
          turnRequest agent s.id s.state active := by
        rw [turnRequest, turnRequest, hdate, window]
      have hstaged := tracks.request active id hactive (awaited.symm.trans hid)
      rw [← hrequest] at hstaged
      exact List.mem_append_left _ hstaged
  | goOn continues =>
    refine ⟨turns, staged, counted continues.count, ?_, ?_⟩
    · intro active id hactive hid hretry
      exact absurd hretry (awaits continues.awaits active id hactive hid).1
    · intro active id hactive hid
      exact (awaits continues.awaits active id hactive hid).2
  | begin turn hid hretry hawaits =>
    refine ⟨turns, staged, ?_, ?_, ?_⟩
    · intro active hactive
      cases turn.symm.trans hactive
      rw [hretry, hid]
      exact iff_of_false (Nat.lt_irrefl 0) (unknown (Nat.le_refl _))
    · intro active id hactive hid hretry
      exact absurd hretry (awaits hawaits active id hactive hid).1
    · intro active id hactive hid
      exact (awaits hawaits active id hactive hid).2

/-- A completion of the awaited request whose outcome is unknown. -/
structure EndsUnknown (s : Session) (d : Delivery) (id : OperationId) : Prop where
  live : s.state.terminalFailure = none
  uncancelled : s.state.cancellation = none
  answers : s.answersTurn id = true
  unknown : ∃ failure, d.stimulus = .completed id (.unknown failure)

theorem EndsUnknown.unknownEnds {id : OperationId} (ends : EndsUnknown s d id) :
    unknownEnds s d t = [{
      turn := s.state.activeTurn.map (·.id)
      operation := id
      staged := (t.staged.drop s.staged.length).map (·.id) }] := by
  obtain ⟨failure, hstimulus⟩ := ends.unknown
  unfold Session.unknownEnds
  simp only [hstimulus, ends.live, ends.uncancelled, ends.answers, Option.isSome_none, Bool.or_self,
    Bool.false_eq_true, if_false, if_true]

/-- A step without such a completion adds nothing to the log. -/
theorem unknownEnds_nil (h : ∀ id, ¬ EndsUnknown s d id) : unknownEnds s d t = [] := by
  unfold unknownEnds
  split
  next id failure hstimulus =>
    split
    next => rfl
    next hrunning =>
      split
      next hanswers =>
        rw [Bool.not_eq_true, Bool.or_eq_false_iff, Option.isSome_eq_false_iff,
          Option.isSome_eq_false_iff, Option.isNone_iff_eq_none, Option.isNone_iff_eq_none] at hrunning
        exact absurd ⟨hrunning.1, hrunning.2, hanswers, failure, hstimulus⟩ (h id)
      next => rfl
  next => rfl

/-- What a step makes of an unknown outcome: the same request again, or a failed session. -/
theorem EndsUnknown.step {id : OperationId} (ends : EndsUnknown s d id)
    (step : Step agent s d t) (kept : s.Kept) (dated : s.Dated) : ∃ active r,
      s.state.activeTurn = some active ∧ awaitedTurn s.state = some id ∧
        t = s.after d.stimulus r ∧
        ((active.retry.llmAttempts = 0 ∧
            r = retried agent s.state active (s.event d) id s.nextId) ∨
          (0 < active.retry.llmAttempts ∧ ∃ details, r = Failure.terminal s.state s.nextId details)) := by
  obtain ⟨admitted, r, hinvoke, rfl⟩ := step
  obtain ⟨failure, hstimulus⟩ := ends.unknown
  obtain ⟨hkind, hawaited⟩ := answersTurn_iff.mp ends.answers
  have completes := completes_of_admitted kept.numbered hstimulus admitted
  rw [hkind] at completes
  cases hactive : s.state.activeTurn with
  | none =>
    rw [awaitedTurn_none hactive] at hawaited
    cases hawaited
  | some active =>
    have hrunning : handleRunning agent s.state (s.event d) (s.context d.stimulus) s.nextId =
        .ok r := by
      have hhandle : handle agent s.state (s.event d) (s.context d.stimulus) s.nextId =
          handleRunning agent (fillDate s.state d.date) (s.event d) (s.context d.stimulus)
            s.nextId := handle_running ends.live ends.uncancelled
      rw [dated.fillDate] at hhandle
      exact hhandle.symm.trans hinvoke
    exact ⟨active, r, rfl, hawaited, rfl, unknown_handled hrunning completes hactive hawaited⟩

/-- What a session stages when it repeats the awaited request. -/
theorem staged_retried (s : Session) (d : Delivery) (id : OperationId) (active : ActiveTurn) :
    (s.after d.stimulus (retried agent s.state active (s.event d) id s.nextId)).staged =
      s.staged ++ [⟨s.nextId, turnRequest agent s.id s.state active⟩] := rfl

/-- A step that repeats the awaited request puts it into the log. -/
theorem Tracks.repeats {id : OperationId} {active : ActiveTurn} (tracks : Tracks agent s log)
    (ends : EndsUnknown s d id) (turn : s.state.activeTurn = some active)
    (below : active.id < s.nextId) : Tracks agent
      (s.after d.stimulus (retried agent s.state active (s.event d) id s.nextId))
      (log ++ Session.unknownEnds s d
        (s.after d.stimulus (retried agent s.state active (s.event d) id s.nextId))) := by
  have hsupply : (s.after d.stimulus (retried agent s.state active (s.event d) id s.nextId)).nextId =
      s.nextId + 1 := rfl
  have hlog : Session.unknownEnds s d
      (s.after d.stimulus (retried agent s.state active (s.event d) id s.nextId)) =
        [{ turn := some active.id, operation := id, staged := [s.nextId] }] := by
    rw [ends.unknownEnds, staged_retried, List.drop_left, turn]
    rfl
  rw [hlog]
  have had : HadUnknown (log ++ [{ turn := some active.id, operation := id, staged := [s.nextId] }])
      active.id := ⟨_, List.mem_append_right _ List.mem_cons_self, rfl⟩
  constructor
  · intro e he id' hid'
    rw [hsupply]
    rcases List.mem_append.mp he with he | he
    · exact Nat.lt_succ_of_lt (tracks.turns e he id' hid')
    · cases List.mem_singleton.mp he
      cases hid'
      exact Nat.lt_succ_of_lt below
  · intro e he id' hid'
    rw [hsupply]
    rcases List.mem_append.mp he with he | he
    · exact Nat.lt_succ_of_lt (tracks.staged e he id' hid')
    · cases List.mem_singleton.mp he
      cases List.mem_singleton.mp hid'
      exact Nat.lt_succ_self _
  · intro active' hactive'
    cases hactive'
    exact iff_of_true (Nat.succ_pos _) had
  · intro active' id' hactive' _ _
    cases hactive'
    exact had
  · intro active' id' hactive' hid'
    cases hactive'
    cases hid'
    exact List.mem_append_right _ List.mem_cons_self

/-- A step that fails the session leaves no turn to say something of. -/
theorem Tracks.fails {id : OperationId} {active : ActiveTurn} {details : FailureDetails}
    (tracks : Tracks agent s log) (ends : EndsUnknown s d id)
    (turn : s.state.activeTurn = some active) (below : active.id < s.nextId) : Tracks agent
      (s.after d.stimulus (Failure.terminal s.state s.nextId details))
      (log ++ Session.unknownEnds s d
        (s.after d.stimulus (Failure.terminal s.state s.nextId details))) := by
  have hstaged : (s.after d.stimulus (Failure.terminal s.state s.nextId details)).staged =
      s.staged ++ [] := rfl
  have hlog : Session.unknownEnds s d
      (s.after d.stimulus (Failure.terminal s.state s.nextId details)) =
        [{ turn := some active.id, operation := id, staged := [] }] := by
    rw [ends.unknownEnds, hstaged, List.drop_left, turn]
    rfl
  rw [hlog]
  constructor
  · intro e he id' hid'
    rcases List.mem_append.mp he with he | he
    · exact tracks.turns e he id' hid'
    · cases List.mem_singleton.mp he
      cases hid'
      exact below
  · intro e he id' hid'
    rcases List.mem_append.mp he with he | he
    · exact tracks.staged e he id' hid'
    · cases List.mem_singleton.mp he
      cases hid'
  · intro active' hactive'
    cases hactive'
  · intro active' id' hactive'
    cases hactive'
  · intro active' id' hactive'
    cases hactive'

end

theorem Tracks.step {log : List UnknownEnd} (tracks : Tracks agent s log) (reach : Reachable agent s)
    (step : Step agent s d t) : Tracks agent t (log ++ unknownEnds s d t) := by
  by_cases hends : ∃ id, EndsUnknown s d id
  · obtain ⟨id, ends⟩ := hends
    obtain ⟨active, r, turn, -, rfl, ⟨-, rfl⟩ | ⟨-, details, rfl⟩⟩ :=
      ends.step step reach.kept reach.dated
    · exact tracks.repeats ends turn (reach.dated active turn).2
    · exact tracks.fails ends turn (reach.dated active turn).2
  · have hnone : ∀ id, ¬ EndsUnknown s d id := fun id ends => hends ⟨id, ends⟩
    rw [unknownEnds_nil hnone, List.append_nil]
    obtain ⟨admitted, r, rfl, answered⟩ := step.answered
    rw [reach.dated.fillDate] at answered
    rcases answered.turnMoves reach.kept.plans with ⟨live, uncancelled, repeats⟩ | moves
    · obtain ⟨id, failure, active, awaiting, completes, turn, phase, rfl, -⟩ := repeats.result
      have hstimulus := (completes_delivered reach.kept.numbered admitted completes).1
      have hawaited : awaitedTurn s.state = some awaiting.operationId := by
        rw [awaitedTurn_eq turn, phase]
      have hanswers := answersTurn_iff.mpr ⟨kindOf_of_completes completes hstimulus, hawaited⟩
      exact absurd ⟨live, uncancelled, hanswers, failure, hstimulus⟩ (hnone _)
    · exact tracks.moves (answered.draws reach.kept.plans) moves

theorem Logged.tracks {log : List UnknownEnd} (run : Logged agent s log) : Tracks agent s log := by
  induction run with
  | start id nextId =>
    constructor
    · intro e he
      cases he
    · intro e he
      cases he
    · intro active hactive
      cases hactive
    · intro active id hactive
      cases hactive
    · intro active id hactive
      cases hactive
  | step before step ih => exact ih.step before.reachable step

/-! ## Repeated requests -/

/-- Exactly one operation takes the place of another: it asks the same, and the turn goes on with
it. -/
structure Replaced (s t : Session) (id : OperationId) : Prop where
  staged : ∃ id' request, ⟨id, request⟩ ∈ s.staged ∧ t.staged = s.staged ++ [⟨id', request⟩] ∧
    awaitedTurn t.state = some id'
  turn : t.state.activeTurn.map (·.id) = s.state.activeTurn.map (·.id)
  status : t.status = .running

/-- The session has failed and asks nothing more. -/
structure HasFailed (s t : Session) : Prop where
  failed : t.state.terminalFailure.isSome = true
  turn : t.state.activeTurn = none
  staged : t.staged = s.staged
  status : t.status = .failed

/-- An unknown outcome is answered by the same request again, unless it is the outcome of a request
that was repeated for that reason. -/
def RetriedOnce (log : List UnknownEnd) (s t : Session) (id : OperationId) : Prop :=
  (¬ IsRetry log id → Replaced s t id) ∧ (IsRetry log id → HasFailed s t)

/-- An unknown outcome is answered as it should be exactly if its request was itself repeated, or
its turn had no unknown outcome before. -/
theorem unknown_retried_once {log : List UnknownEnd} {id : OperationId} {active : ActiveTurn}
    (run : Logged agent s log) (ends : EndsUnknown s d id) (step : Step agent s d t)
    (turn : s.state.activeTurn = some active) :
    RetriedOnce log s t id ↔ (IsRetry log id ∨ ¬ HadUnknown log active.id) := by
  have tracks := run.tracks
  have reach := run.reachable
  obtain ⟨active', r, turn', hawaited, rfl, hcases⟩ := ends.step step reach.kept reach.dated
  cases turn.symm.trans turn'
  have hcount := tracks.count active turn
  have hretry := tracks.retry active id turn hawaited
  rcases hcases with ⟨hfirst, rfl⟩ | ⟨hlater, details, rfl⟩
  · have hnew : ¬ HadUnknown log active.id := by
      rw [← hcount]
      omega
    refine iff_of_true ⟨fun _ => ?_, fun h => absurd (hretry h) hnew⟩ (.inr hnew)
    refine ⟨⟨s.nextId, _, tracks.request active id turn hawaited, rfl, rfl⟩, ?_, rfl⟩
    rw [turn]
    rfl
  · have hold : HadUnknown log active.id := hcount.mp hlater
    have hfailed : HasFailed s (s.after d.stimulus (Failure.terminal s.state s.nextId details)) :=
      ⟨rfl, rfl, List.append_nil _, rfl⟩
    constructor
    · intro honce
      by_contra hother
      rw [not_or] at hother
      have hturn := (honce.1 hother.1).turn
      rw [turn] at hturn
      cases hturn
    · rintro (hisRetry | hnot)
      · exact ⟨fun h => absurd hisRetry h, fun _ => hfailed⟩
      · exact absurd hold hnot

/-! ## Two unknown outcomes in one turn -/

def lostResponse : OperationFailure :=
  { source := .gateway, code := "gateway_lost", message := "lost", executionResponse := none }

/-- The delivery of an unknown outcome. -/
def lost (sequence : EventSequence) (id : OperationId) : Delivery :=
  delivery sequence (.completed id (.unknown lostResponse))

/-- The session whose first request is repeated. -/
def repeatedSession : Session := next inputAgent promptedSession (lost 2 10)

def pausedAgain : Delivery := delivery 3 (.completed 11 (.succeeded (.llm (pauseResponse none))))

/-- The session that has asked its next request. -/
def continuedSession : Session := next inputAgent repeatedSession pausedAgain

theorem promptedSession_step : Step inputAgent (start 3 9) firstDelivery promptedSession :=
  step_next (by decide +kernel)

/-- The log of the session that has asked its next request. -/
def continuedLog : List UnknownEnd :=
  (([] ++ unknownEnds (start 3 9) firstDelivery promptedSession) ++
    unknownEnds promptedSession (lost 2 10) repeatedSession) ++
      unknownEnds repeatedSession pausedAgain continuedSession

theorem continuedSession_logged : Logged inputAgent continuedSession continuedLog :=
  .step (.step (.step (.start 3 9) promptedSession_step) (step_next (by decide +kernel)))
    (step_next (by decide +kernel))

theorem lost_endsUnknown {id : OperationId} {sequence : EventSequence}
    (running : (s.state.terminalFailure.isNone && s.state.cancellation.isNone &&
      s.answersTurn id) = true) : EndsUnknown s (lost sequence id) id := by
  rw [Bool.and_eq_true, Bool.and_eq_true, Option.isNone_iff_eq_none, Option.isNone_iff_eq_none]
    at running
  exact ⟨running.1.1, running.1.2, running.2, lostResponse, rfl⟩

/-- The first unknown outcome of a turn. -/
theorem unknown_retried_once_first :
    RetriedOnce [] promptedSession (next inputAgent promptedSession (lost 2 10)) 10 := by
  have run : Logged inputAgent promptedSession [] := .step (.start 3 9) promptedSession_step
  have hturn : promptedSession.state.activeTurn.isSome = true := by decide +kernel
  obtain ⟨active, turn⟩ := Option.isSome_iff_exists.mp hturn
  refine (unknown_retried_once run (lost_endsUnknown (by decide +kernel))
    (step_next (by decide +kernel)) turn).mpr (.inr ?_)
  rintro ⟨e, he, -⟩
  cases he

/-- The unknown outcome of another request in the same turn fails the session. -/
theorem unknown_retried_once_second : ¬ (∀ (agent : Agent) (s t : Session) (d : Delivery)
    (log : List UnknownEnd) (id : OperationId), Logged agent s log → EndsUnknown s d id →
      Step agent s d t → RetriedOnce log s t id) := by
  intro hall
  have hother : ¬ IsRetry continuedLog 12 := by
    unfold IsRetry
    decide +kernel
  have once := hall inputAgent continuedSession (next inputAgent continuedSession (lost 4 12))
    (lost 4 12) continuedLog 12 continuedSession_logged (lost_endsUnknown (by decide +kernel))
    (step_next (by decide +kernel))
  have hstatus := (once.1 hother).status
  revert hstatus
  decide +kernel

end Session

end AgentPlatform.Harness
