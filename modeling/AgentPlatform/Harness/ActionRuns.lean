import AgentPlatform.Harness.UnknownRetries
import AgentPlatform.Harness.ActionIds

/-!
# The identities of a run

A run of a session with the calls that accepted responses asked for, and with the identities that
were sent for them (`Session.Traced`). An identity says the turn and the call's identifier, and the
identifiers of one response are different. Nothing compares them with those of the responses before
it: two responses of one turn that give one identifier to calls of one tool share their identities.
-/

namespace AgentPlatform.Harness

/-! ## What is asked for -/

namespace ToolPlan

/-- The identifiers of the calls that were parsed are different. -/
theorem parseItems_callIds {lib : Foreign} {items : List RawJson} {calls result : List ToolCallState}
    (h : parseItems lib items calls = .ok result) (before : (calls.map (·.callId)).Nodup) :
    (result.map (·.callId)).Nodup := by
  induction items generalizing calls with
  | nil =>
    cases h
    exact before
  | cons item items ih =>
    unfold parseItems at h
    split at h
    · cases h
    · split at h
      · exact ih h before
      · obtain ⟨call, hcall, h⟩ := Fallible.bind_ok h
        obtain ⟨callId, name, descriptor, -, hnew, -, -, rfl⟩ := parseCall_ok hcall
        apply ih h
        rw [List.map_append, List.nodup_append]
        refine ⟨before, List.nodup_singleton _, ?_⟩
        intro x hx y hy hxy
        rw [List.map_singleton, List.mem_singleton] at hy
        obtain ⟨call', hcall', rfl⟩ := List.mem_map.mp hx
        rw [List.any_eq_false] at hnew
        exact hnew call' hcall' (beq_iff_eq.mpr (hxy.trans hy))

theorem parse_callIds {lib : Foreign} {id : OperationId} {message : Message}
    {stopReason : StopReason} {plan : ToolPlanState}
    (h : parse lib id message stopReason = .ok (some plan)) : plan.callIds.Nodup := by
  obtain ⟨_, _, content, -, hcalls, -, -⟩ := parse_ok h
  exact parseItems_callIds hcalls List.nodup_nil

theorem parse_response {lib : Foreign} {id : OperationId} {message : Message}
    {stopReason : StopReason} {plan : ToolPlanState}
    (h : parse lib id message stopReason = .ok (some plan)) : plan.assistantOperationId = id := by
  obtain ⟨_, _, content, -, -, -, hplan⟩ := parse_ok h
  rw [hplan]

/-- An accepted plan runs what it asks for. -/
theorem parse_runs {lib : Foreign} {id : OperationId} {message : Message} {stopReason : StopReason}
    {plan : ToolPlanState} (h : parse lib id message stopReason = .ok (some plan)) (turnId : Uuid) :
    PlanRuns lib turnId plan.calls plan := by
  intro i call hcall
  refine ⟨call, hcall, rfl, rfl, fun hopen => hopen, ?_⟩
  intro patch hpatch
  rcases parse_fresh h hcall with hpending | hdone
  · cases hstatus : call.status <;> simp_all [ToolCallStatus.isPending, ToolCallStatus.inProgress]
  · cases hstatus : call.status <;> simp_all [ToolCallStatus.isCompleted, ToolCallStatus.inProgress]

theorem parse_below {lib : Foreign} {id : OperationId} {message : Message} {stopReason : StopReason}
    {plan : ToolPlanState} (h : parse lib id message stopReason = .ok (some plan)) (nextId : Uuid) :
    PlanBelow plan nextId := by
  intro i call id' hcall hid
  unfold submittedOperation at hid
  split at hid
  next hstatus =>
    have hfresh := parse_fresh h hcall
    rw [hstatus] at hfresh
    rcases hfresh with hpending | hdone
    · cases hpending
    · cases hdone
  · cases hid

end ToolPlan

namespace Handler

open ToolExecution (planOf planOf_some)

variable {agent : Agent} {fl : FilesystemTools.FileLib} {state : BasicCodexState}
  {event : SessionEvent} {context : HarnessContext} {nextId : Uuid}
  {b r : OutcomeBuilder BasicCodexState}

/-! ## What an invocation does to the plan -/

/-- An invocation that leaves no plan, or one on its way for calls that were asked for. -/
def Executes (lib : Foreign) (turnId : Uuid) (asked : List ToolCallState) (response : OperationId)
    (r : OutcomeBuilder BasicCodexState) : Prop :=
  ∀ active plan, r.state.activeTurn = some active → active.phase = .executingTools plan →
    active.id = turnId ∧ CarriesPlan lib turnId asked response plan r

/-- What an invocation does to the plan of a session. -/
inductive PlanMoves (agent : Agent) (state : BasicCodexState) (event : SessionEvent)
    (context : HarnessContext) (nextId : Uuid) (r : OutcomeBuilder BasicCodexState) : Prop
  | stay (same : ∀ active plan, r.state.activeTurn = some active →
      active.phase = .executingTools plan → ∃ before, state.activeTurn = some before ∧
        before.id = active.id ∧ before.phase = .executingTools plan)
  | accept {id : OperationId} {response : AssistantResponse} {active : ActiveTurn}
      {plan : ToolPlanState}
      (completes : Completes event context id .llm (.succeeded (.llm response)))
      (turn : state.activeTurn = some active) (awaited : awaitedTurn state = some id)
      (live : state.terminalFailure = none) (uncancelled : state.cancellation = none)
      (checked : accepted agent response = true)
      (planned : ToolPlan.parse agent.lib id response.message response.stopReason =
        .ok (some plan))
      (executes : Executes agent.lib active.id plan.calls id r)
  | goOn {active : ActiveTurn} {plan : ToolPlanState} (turn : state.activeTurn = some active)
      (phase : active.phase = .executingTools plan)
      (executes : ∀ asked, PlanRuns agent.lib active.id asked plan → PlanBelow plan nextId →
        Executes agent.lib active.id asked plan.assistantOperationId r)

theorem PlanMoves.of_none (h : planOf r.state = none) :
    PlanMoves agent state event context nextId r := by
  refine .stay fun active plan turn phase => ?_
  rw [planOf_some.mpr ⟨active, turn, phase⟩] at h
  cases h

theorem PlanRan.executes {invocation : Invocation} {active : ActiveTurn} {plan : ToolPlanState}
    {asked : List ToolCallState} {response : OperationId} (ran : PlanRan agent b invocation r)
    (files : agent.files = FilesystemTools.tools agent.lib fl)
    (turn : b.state.activeTurn = some active) (phase : active.phase = .executingTools plan)
    (carries : CarriesPlan agent.lib active.id asked response plan b) :
    Executes agent.lib active.id asked response r := by
  intro active' plan' turn' phase'
  cases ran with
  | waits schedule _ _ =>
    obtain ⟨hid, hresponse, hruns, hbelow, hdrawn, hsent⟩ :=
      scheduleReady_carries files turn phase carries schedule turn' phase'
    exact ⟨hid, hresponse, hruns, hbelow, hdrawn, hsent⟩
  | finished _ _ _ _ _ boundary =>
    have hnone := boundary.planOf
    rw [planOf_some.mpr ⟨active', turn', phase'⟩] at hnone
    cases hnone

/-- A response that the provider check refuses ends the turn. -/
theorem unaccepted_ends {id : OperationId} {response : AssistantResponse}
    (h : handleRunning agent state event context nextId = .ok r)
    (completes : Completes event context id .llm (.succeeded (.llm response)))
    (awaited : awaitedTurn state = some id) (refused : accepted agent response = false) :
    r.state.activeTurn = none := by
  rw [handleRunning, completes.delivered] at h
  dsimp only at h
  unfold handleLlmCompletion at h
  obtain ⟨⟨expected, isCompaction⟩, hexpected, h⟩ := Fallible.bind_ok h
  obtain ⟨active, hactive, hphase⟩ := expectedOperation_ok hexpected
  dsimp only at h
  split at h
  · cases h
  obtain ⟨outcome, hread, h⟩ := Fallible.bind_ok h
  obtain ⟨hstored, -⟩ := readOutcome_ok hread
  have houtcome : outcome = .succeeded (.llm response) := by
    have hsame := completes.stored.symm.trans hstored
    rw [Except.ok.injEq, Option.some.injEq, OperationRecord.mk.injEq, Option.some.injEq] at hsame
    exact hsame.2.symm
  rcases hphase with ⟨rfl, -⟩ | ⟨-, compaction, hphase, -⟩
  · rw [if_neg Bool.false_ne_true, houtcome, handleLlmOutcome] at h
    split at h
    next =>
      cases h
      rfl
    next provider hprovider =>
      rw [accepted, hprovider] at refused
      cases refused
  · rw [awaitedTurn_eq hactive, hphase] at awaited
    cases awaited

theorem handleRunning_planMoves (h : handleRunning agent state event context nextId = .ok r)
    (live : state.terminalFailure = none) (uncancelled : state.cancellation = none)
    (files : agent.files = FilesystemTools.tools agent.lib fl) (sound : PlanSound state) :
    PlanMoves agent state event context nextId r := by
  cases handleRunning_cases h with
  | @steered message active kind user turn =>
    refine .stay fun active' plan turn' phase' => ?_
    cases turn'
    exact ⟨active, turn, rfl, phase'⟩
  | compactFirst | start | failAwaiting | failCompacting | idle | retry | install | compactAgain =>
    exact .of_none rfl
  | respond _ _ _ _ _ boundary => exact .of_none boundary.planOf
  | refused _ _ _ _ _ _ _ boundary => exact .of_none boundary.planOf
  | @plan id response active awaiting plan r completes turn phase awaited planned incomplete ran =>
    have hawaited : awaitedTurn state = some id := by
      rw [awaitedTurn_eq turn, phase, ← awaited]
    cases hchecked : accepted agent response with
    | false =>
      refine .stay fun active' plan' turn' phase' => ?_
      cases (unaccepted_ends h completes hawaited hchecked).symm.trans turn'
    | true =>
    refine .accept completes turn hawaited live uncancelled hchecked planned ?_
    have carries : CarriesPlan agent.lib active.id plan.calls id plan ((recorded state response
        nextId).setState { recordResponse state response with
          activeTurn := some { active with phase := .executingTools plan } }) := by
      refine ⟨ToolPlan.parse_response planned, ToolPlan.parse_runs planned _,
        ToolPlan.parse_below planned _, ?_, ?_⟩
      · intro o ho
        cases ho
      · intro o ho
        cases ho
    have turn' : ((recorded state response nextId).setState { recordResponse state response with
        activeTurn := some { active with phase := .executingTools plan } }).state.activeTurn =
          some { active with phase := .executingTools plan } := rfl
    have executes := ran.executes files turn' rfl carries
    exact executes
  | @execution id outcome state' r completes applied ran =>
    obtain ⟨active, plan, call, progress, status, state'', turn, phase, -⟩ :=
      ToolExecution.applyCompletion_ok applied
    refine .goOn turn phase fun asked runs below => ?_
    obtain ⟨plan', turn', carries⟩ := applyCompletion_runs files turn phase
      (sound plan (planOf_some.mpr ⟨active, turn, phase⟩)).1 runs below applied
    have going : (OutcomeBuilder.new state' nextId).state.activeTurn =
        some { active with phase := .executingTools plan' } := turn'
    have executes := ran.executes files going rfl carries
    exact executes
  | cancel kind begun => exact .of_none (planOf_begin begun)

theorem handle_planMoves (h : handle agent state event context nextId = .ok r)
    (files : agent.files = FilesystemTools.tools agent.lib fl)
    (sound : PlanSound (fillDate state event.date)) :
    PlanMoves agent (fillDate state event.date) event context nextId r := by
  have stays (same : r.state.activeTurn = (fillDate state event.date).activeTurn) :
      PlanMoves agent (fillDate state event.date) event context nextId r := by
    refine .stay fun active plan turn phase => ?_
    exact ⟨active, same.symm.trans turn, rfl, phase⟩
  cases handle_answered h with
  | failed _ silent | routed _ _ _ silent => exact stays (by rw [silent.state])
  | @cleaned _ _ _ _ c _ _ _ applied =>
    obtain ⟨-, -, hnone | hsame⟩ := setLifecycleStatus_state c true
    · exact .of_none (planOf_cancelling (.inl hnone))
    · apply stays
      rw [hsame, (Cancellation.applyCompletion_moves applied).state]
      rfl
  | running live uncancelled _ =>
    have hrunning := (handle_running live uncancelled).symm.trans h
    exact handleRunning_planMoves hrunning live uncancelled files sound

end Handler

namespace Session

open Handler

variable {agent : Agent} {fl : FilesystemTools.FileLib} {s t : Session} {d : Delivery}

/-! ## The log -/

/-- An accepted response with the calls that it asks for. -/
structure Asked where
  turn : Uuid
  response : OperationId
  calls : List ToolCallState

/-- The accepted response with calls that a step delivers to a running session. -/
def asks (agent : Agent) (s : Session) (d : Delivery) : List Asked :=
  match d.stimulus with
  | .completed id (.succeeded (.llm response)) =>
    if s.state.terminalFailure.isSome || s.state.cancellation.isSome then []
    else if s.answersTurn id && accepted agent response then
      match s.state.activeTurn, ToolPlan.parse agent.lib id response.message response.stopReason with
      | some active, .ok (some plan) =>
        [{ turn := active.id, response := id, calls := plan.calls }]
      | _, _ => []
    else []
  | _ => []

/-- An identity that was sent, with the call that it was sent for. -/
structure Sending where
  turn : Uuid
  response : OperationId
  ordinal : Nat
  action : Action
  id : String
deriving DecidableEq, Repr

/-- The identities that a staged operation sends for a call of a plan. -/
def sendings (turn : Uuid) (plan : ToolPlanState) (o : StagedOperation) : List Sending :=
  match ToolExecution.submittedCall plan o.id with
  | some (call, _) => (requestActions o.request).map fun x =>
      { turn, response := plan.assistantOperationId, ordinal := call.ordinal, action := x.1, id := x.2 }
  | none => []

/-- The identities that a step sends for the calls of the plan. -/
def sends (s t : Session) : List Sending :=
  match t.state.activeTurn with
  | none => []
  | some active =>
    match active.phase with
    | .executingTools plan => (t.staged.drop s.staged.length).flatMap (sendings active.id plan)
    | _ => []

/-- A run of a session, with what was asked for and what was sent so far. -/
inductive Traced (agent : Agent) : Session → List Asked → List Sending → Prop
  | start (id : SessionId) (nextId : Uuid) : Traced agent (start id nextId) [] []
  | step {s t : Session} {d : Delivery} {asked : List Asked} {sent : List Sending}
      (before : Traced agent s asked sent) (step : Step agent s d t) :
      Traced agent t (asked ++ asks agent s d) (sent ++ sends s t)

theorem Traced.reachable {asked : List Asked} {sent : List Sending}
    (run : Traced agent s asked sent) : Reachable agent s := by
  induction run with
  | start id nextId => exact .start agent id nextId
  | step _ step ih => exact ih.step step

/-! ### What was asked for -/

/-- What is known of the responses that were accepted: they were delivered, once, to turns that have
begun, and the identifiers of one response are different. -/
structure Known (s : Session) (asked : List Asked) : Prop where
  turns : ∀ q ∈ asked, q.turn < s.nextId
  delivered : ∀ q ∈ asked, s.isCompleted q.response = true
  responses : (asked.map (·.response)).Nodup
  callIds : ∀ q ∈ asked, (q.calls.map (·.callId)).Nodup

/-- A response that a step delivers to the active turn. -/
structure Accepts (agent : Agent) (s : Session) (d : Delivery) (q : Asked) : Prop where
  delivered : ∃ outcome, d.stimulus = .completed q.response outcome
  turn : ∃ active, s.state.activeTurn = some active ∧ q.turn = active.id
  alone : asks agent s d = [q]
  callIds : (q.calls.map (·.callId)).Nodup

theorem accepts_of_mem {q : Asked} (h : q ∈ asks agent s d) : Accepts agent s d q := by
  unfold asks at h
  split at h
  next id response hstimulus =>
    split at h
    · cases h
    next hrunning =>
    split at h
    next haccepted =>
      split at h
      next active plan hactive hplan =>
        cases List.mem_singleton.mp h
        refine ⟨⟨_, hstimulus⟩, ⟨active, hactive, rfl⟩, ?_, ToolPlan.parse_callIds hplan⟩
        unfold asks
        simp only [hstimulus, if_neg hrunning, if_pos haccepted, hactive, hplan]
      · cases h
    · cases h
  · cases h

theorem Known.step {asked : List Asked} (known : Known s asked) (step : Step agent s d t)
    (dated : s.Dated) (later : s.nextId ≤ t.nextId) : Known t (asked ++ asks agent s d) := by
  obtain ⟨admitted, r, -, rfl⟩ := step
  have kept {id : OperationId} (h : s.isCompleted id = true) :
      (s.after d.stimulus r).isCompleted id = true := by
    obtain ⟨outcome, hmem⟩ := isCompleted_iff.mp h
    refine isCompleted_iff.mpr ⟨outcome, ?_⟩
    show _ ∈ s.outcomes d.stimulus
    unfold outcomes
    split
    · exact List.mem_append_left _ hmem
    · exact hmem
  have new {q : Asked} (hq : q ∈ asks agent s d) : s.isCompleted q.response = false ∧
      (s.after d.stimulus r).isCompleted q.response = true := by
    obtain ⟨outcome, hstimulus⟩ := (accepts_of_mem hq).delivered
    rw [hstimulus] at admitted
    obtain ⟨o, ho, hid, -⟩ := admits_completed admitted
    refine ⟨hid ▸ (mem_outstanding.mp ho).2, isCompleted_iff.mpr ⟨outcome, ?_⟩⟩
    rw [hstimulus]
    exact List.mem_append_right _ List.mem_cons_self
  refine ⟨?_, ?_, ?_, ?_⟩
  · intro q hq
    rcases List.mem_append.mp hq with hq | hq
    · exact (known.turns q hq).trans_le later
    · obtain ⟨active, hactive, hturn⟩ := (accepts_of_mem hq).turn
      rw [hturn]
      exact (dated active hactive).2.trans_le later
  · intro q hq
    rcases List.mem_append.mp hq with hq | hq
    · exact kept (known.delivered q hq)
    · exact (new hq).2
  · rw [List.map_append, List.nodup_append]
    refine ⟨known.responses, ?_, ?_⟩
    · cases hasks : asks agent s d with
      | nil => exact List.nodup_nil
      | cons q rest =>
        have hone := (accepts_of_mem (hasks ▸ List.mem_cons_self : q ∈ asks agent s d)).alone
        rw [← hasks, hone]
        exact List.nodup_singleton _
    · intro x hx y hy hxy
      obtain ⟨q, hq, rfl⟩ := List.mem_map.mp hx
      obtain ⟨q', hq', rfl⟩ := List.mem_map.mp hy
      have hold := known.delivered q hq
      rw [hxy, (new hq').1] at hold
      cases hold
  · intro q hq
    rcases List.mem_append.mp hq with hq | hq
    · exact known.callIds q hq
    · exact (accepts_of_mem hq).callIds

/-! ### What was sent -/

/-- An identity of a call that was asked for. -/
def SentFor (lib : Foreign) (asked : List Asked) (e : Sending) : Prop :=
  ∃ q ∈ asked, q.turn = e.turn ∧ q.response = e.response ∧
    ∃ a, q.calls[e.ordinal]? = some a ∧ a.status.isCompleted = false ∧
      e.id = actionId lib q.turn a.callId e.action ∧ e.action.tool = a.name

theorem SentFor.append {lib : Foreign} {asked : List Asked} {e : Sending}
    (sent : SentFor lib asked e) (more : List Asked) : SentFor lib (asked ++ more) e := by
  obtain ⟨q, hq, rest⟩ := sent
  exact ⟨q, List.mem_append_left _ hq, rest⟩

/-- What the logs say of a session: a plan runs the calls of a response, and what was sent was sent
for calls that were asked for. -/
structure Follows (lib : Foreign) (s : Session) (asked : List Asked) (sent : List Sending) :
    Prop where
  known : Known s asked
  plan : ∀ active plan, s.state.activeTurn = some active → active.phase = .executingTools plan →
    PlanBelow plan s.nextId ∧ ∃ q ∈ asked, q.turn = active.id ∧
      q.response = plan.assistantOperationId ∧ PlanRuns lib active.id q.calls plan
  sent : ∀ e ∈ sent, SentFor lib asked e

theorem mem_sends {e : Sending} (h : e ∈ sends s t) : ∃ active plan o,
    t.state.activeTurn = some active ∧ active.phase = .executingTools plan ∧
      o ∈ t.staged.drop s.staged.length ∧ e ∈ sendings active.id plan o := by
  unfold sends at h
  split at h
  · cases h
  next active hactive =>
    split at h
    next plan hphase =>
      obtain ⟨o, ho, he⟩ := List.mem_flatMap.mp h
      exact ⟨active, plan, o, hactive, hphase, ho, he⟩
    · cases h

theorem mem_sendings {turn : Uuid} {plan : ToolPlanState} {o : StagedOperation} {e : Sending}
    (h : e ∈ sendings turn plan o) : ∃ call progress x,
      ToolExecution.submittedCall plan o.id = some (call, progress) ∧ x ∈ requestActions o.request ∧
        e = { turn, response := plan.assistantOperationId, ordinal := call.ordinal,
              action := x.1, id := x.2 } := by
  unfold sendings at h
  split at h
  next call progress hcall =>
    obtain ⟨x, hx, rfl⟩ := List.mem_map.mp h
    exact ⟨call, progress, x, hcall, hx, rfl⟩
  · cases h

/-- A call that waits for an operation stands at its ordinal. -/
theorem submittedCall_at {plan : ToolPlanState} (sound : plan.Sound) {id : OperationId}
    {call : ToolCallState} {progress : ToolCallProgress}
    (h : ToolExecution.submittedCall plan id = some (call, progress)) :
    plan.calls[call.ordinal]? = some call ∧ submittedOperation call = some id := by
  obtain ⟨hmem, hstatus⟩ := ToolExecution.submittedCall_some h
  obtain ⟨i, hi⟩ := List.mem_iff_getElem?.mp hmem
  rw [sound.ordinals i call hi]
  refine ⟨hi, ?_⟩
  rw [submittedOperation, hstatus]

section

variable {r : OutcomeBuilder BasicCodexState} {asked : List Asked} {sent : List Sending}

/-- A step that stages nothing for the plan sends nothing. -/
theorem sends_nil (draws : Draws s.nextId r) (kept : (s.after d.stimulus r).Kept)
    (below : ∀ active plan, r.state.activeTurn = some active →
      active.phase = .executingTools plan → PlanBelow plan s.nextId) :
    sends s (s.after d.stimulus r) = [] := by
  refine List.eq_nil_iff_forall_not_mem.mpr fun e he => ?_
  obtain ⟨active, plan, o, turn, phase, ho, he⟩ := mem_sends he
  obtain ⟨call, progress, x, hcall, -, -⟩ := mem_sendings he
  have hplan : ToolExecution.planOf (s.after d.stimulus r).state = some plan :=
    ToolExecution.planOf_some.mpr ⟨active, turn, phase⟩
  obtain ⟨hat, hid⟩ := submittedCall_at (kept.plans plan hplan).1 hcall
  have hdrop : (s.after d.stimulus r).staged.drop s.staged.length = r.outcome.operations :=
    List.drop_left
  rw [hdrop] at ho
  have hold := below active plan turn phase _ call o.id hat hid
  exact absurd hold (Nat.not_lt.mpr (draws.drawn o ho).1)

/-- What a step sends for calls that were asked for. -/
theorem sends_sentFor {turn : Uuid} {calls : List ToolCallState} {response : OperationId}
    (executes : Executes agent.lib turn calls response r) (kept : (s.after d.stimulus r).Kept)
    {q : Asked} (hq : q ∈ asked) (hturn : q.turn = turn) (hresponse : q.response = response)
    (hcalls : q.calls = calls) : ∀ e ∈ sends s (s.after d.stimulus r), SentFor agent.lib asked e := by
  intro e he
  obtain ⟨active, plan, o, hactive, phase, ho, he⟩ := mem_sends he
  obtain ⟨call, progress, x, hcall, hx, rfl⟩ := mem_sendings he
  have hplan : ToolExecution.planOf (s.after d.stimulus r).state = some plan :=
    ToolExecution.planOf_some.mpr ⟨active, hactive, phase⟩
  obtain ⟨hat, hid⟩ := submittedCall_at (kept.plans plan hplan).1 hcall
  have hdrop : (s.after d.stimulus r).staged.drop s.staged.length = r.outcome.operations :=
    List.drop_left
  rw [hdrop] at ho
  obtain ⟨rfl, carries⟩ := executes active plan hactive phase
  obtain ⟨a, ha, live, sends⟩ := carries.sent o ho _ call hat hid
  refine ⟨q, hq, hturn, hresponse.trans carries.response.symm, a, hcalls ▸ ha, live, ?_⟩
  rw [hturn]
  exact sends x hx

/-- The plan that a step leaves of calls that were asked for. -/
theorem Follows.executes {turn : Uuid} {calls : List ToolCallState} {response : OperationId}
    (follows : Follows agent.lib s asked sent)
    (executes : Executes agent.lib turn calls response r) (kept : (s.after d.stimulus r).Kept)
    (known : Known (s.after d.stimulus r) (asked ++ asks agent s d)) {q : Asked}
    (hq : q ∈ asked ++ asks agent s d) (hturn : q.turn = turn) (hresponse : q.response = response)
    (hcalls : q.calls = calls) : Follows agent.lib (s.after d.stimulus r)
      (asked ++ asks agent s d) (sent ++ sends s (s.after d.stimulus r)) := by
  refine ⟨known, ?_, ?_⟩
  · intro active plan hactive phase
    obtain ⟨rfl, carries⟩ := executes active plan hactive phase
    refine ⟨carries.below, q, hq, hturn, hresponse.trans carries.response.symm, ?_⟩
    rw [hcalls]
    exact carries.runs
  · intro e he
    rcases List.mem_append.mp he with he | he
    · exact (follows.sent e he).append _
    · exact sends_sentFor executes kept hq hturn hresponse hcalls e he

end

theorem Follows.step {asked : List Asked} {sent : List Sending}
    (follows : Follows agent.lib s asked sent)
    (files : agent.files = FilesystemTools.tools agent.lib fl) (reach : Reachable agent s)
    (step : Step agent s d t) :
    Follows agent.lib t (asked ++ asks agent s d) (sent ++ sends s t) := by
  have kept := (reach.step step).kept
  have hdated : fillDate s.state (s.event d).date = s.state := reach.dated.fillDate _
  have hplans : PlanSound (fillDate s.state (s.event d).date) := by
    rw [hdated]
    exact reach.kept.plans
  have hstep := step
  obtain ⟨admitted, r, hinvoke, rfl⟩ := hstep
  have draws := (handle_answered hinvoke).draws hplans
  have known := follows.known.step step reach.dated draws.later
  have moves := handle_planMoves hinvoke files hplans
  rw [hdated] at moves
  cases moves with
  | stay same =>
    have below : ∀ active plan, r.state.activeTurn = some active →
        active.phase = .executingTools plan → PlanBelow plan s.nextId := by
      intro active plan turn phase
      obtain ⟨before, hbefore, -, hphase⟩ := same active plan turn phase
      exact (follows.plan before plan hbefore hphase).1
    rw [sends_nil draws kept below, List.append_nil]
    refine ⟨known, ?_, fun e he => (follows.sent e he).append _⟩
    intro active plan turn phase
    obtain ⟨before, hbefore, hid, hphase⟩ := same active plan turn phase
    obtain ⟨hbelow, q, hq, hturn, hresponse, runs⟩ := follows.plan before plan hbefore hphase
    refine ⟨hbelow.later draws.later, q, List.mem_append_left _ hq, hturn.trans hid, hresponse, ?_⟩
    rw [← hid]
    exact runs
  | @accept id response active plan completes turn awaited live uncancelled checked planned
      executes =>
    have hstimulus := (completes_delivered reach.kept.numbered admitted completes).1
    have hanswers := answersTurn_iff.mpr ⟨kindOf_of_completes completes hstimulus, awaited⟩
    have hasks : asks agent s d = [{ turn := active.id, response := id, calls := plan.calls }] := by
      unfold asks
      simp only [hstimulus, live, uncancelled, hanswers, checked, turn, planned, Option.isSome_none,
        Bool.or_self, Bool.and_self, Bool.false_eq_true, if_false, if_true]
    have hmem : { turn := active.id, response := id, calls := plan.calls } ∈
        asked ++ asks agent s d := by
      rw [hasks]
      exact List.mem_append_right _ List.mem_cons_self
    exact follows.executes executes kept known hmem rfl rfl rfl
  | @goOn active plan turn phase executes =>
    obtain ⟨hbelow, q, hq, hturn, hresponse, runs⟩ := follows.plan active plan turn phase
    exact follows.executes (executes q.calls runs hbelow) kept known (List.mem_append_left _ hq)
      hturn hresponse rfl

theorem Traced.follows {asked : List Asked} {sent : List Sending}
    (run : Traced agent s asked sent) (files : agent.files = FilesystemTools.tools agent.lib fl) :
    Follows agent.lib s asked sent := by
  induction run with
  | start id nextId =>
    refine ⟨⟨?_, ?_, List.nodup_nil, ?_⟩, ?_, ?_⟩
    · intro q hq
      cases hq
    · intro q hq
      cases hq
    · intro q hq
      cases hq
    · intro active plan hactive
      cases hactive
    · intro e he
      cases he
  | step before step ih => exact ih.step files before.reachable step

/-! ### Nothing else is sent -/

/-- An invocation whose operations either send nothing or are those of submitted calls. -/
def Submitted (r : OutcomeBuilder BasicCodexState) : Prop :=
  ∀ o ∈ r.outcome.operations, requestActions o.request = [] ∨
    ∃ plan, ToolExecution.planOf r.state = some plan ∧ o.id ∈ plan.submittedOperations

theorem submitted_boundary {b r : OutcomeBuilder BasicCodexState} {active : ActiveTurn}
    {through : HistorySequence} {sid : SessionId} (boundary : Boundary agent b active through sid r)
    (none : ∀ o ∈ b.outcome.operations, requestActions o.request = []) : Submitted r := by
  intro o ho
  cases boundary with
  | compact | resume =>
    rcases List.mem_append.mp ho with ho | ho
    · exact .inl (none o ho)
    · rw [List.mem_singleton.mp ho]
      exact .inl rfl

theorem submitted_ran {b r : OutcomeBuilder BasicCodexState} {invocation : Invocation}
    {plan : ToolPlanState} (ran : PlanRan agent b invocation r)
    (hplan : ToolExecution.planOf b.state = some plan) (sound : plan.Sound)
    (quiet : b.outcome.operations = []) : Submitted r := by
  have schedules {scheduled : OutcomeBuilder BasicCodexState}
      (h : ToolExecution.scheduleReady agent b invocation = .ok scheduled) :
      ∀ o ∈ scheduled.outcome.operations, ∃ plan', ToolExecution.planOf scheduled.state =
        some plan' ∧ o.id ∈ plan'.submittedOperations := by
    obtain ⟨active, staged, plan', done⟩ := ToolExecution.scheduleReady_schedules hplan sound h
    intro o ho
    rw [done.stages.operations, quiet, List.nil_append] at ho
    refine ⟨plan', by rw [done.state]; rfl, ?_⟩
    rw [done.submitted.mem_iff]
    exact List.mem_append_left _ (List.mem_map_of_mem ho)
  cases ran with
  | waits schedule _ _ =>
    intro o ho
    exact .inr (schedules schedule o ho)
  | @finished scheduled r plan' messages active through schedule executes complete _ _ boundary =>
    apply submitted_boundary boundary
    intro o ho
    -- nothing was submitted, for every call of the plan is completed
    rw [appendResults, appendMessages_operations] at ho
    obtain ⟨plan'', hplan', hid⟩ := schedules schedule o ho
    cases executes.symm.trans hplan'
    obtain ⟨call, hmem, hcall⟩ := List.mem_filterMap.mp hid
    have hdone := List.all_eq_true.mp complete call hmem
    unfold submittedOperation at hcall
    split at hcall
    next hstatus =>
      rw [hstatus] at hdone
      cases hdone
    · cases hcall

theorem submitted_handled {state : BasicCodexState} {event : SessionEvent}
    {context : HarnessContext} {nextId : Uuid} {r : OutcomeBuilder BasicCodexState}
    (handled : Handled agent state event context nextId r) (sound : PlanSound state)
    (uncancelled : r.state.cancellation = none) : Submitted r := by
  have recorded_quiet (response : AssistantResponse) (messages : List Message) :
      ∀ o ∈ (appendResults agent (recorded state response nextId) messages).outcome.operations,
        requestActions o.request = [] := by
    intro o ho
    rw [appendResults, appendMessages_operations] at ho
    cases ho
  cases handled with
  | steered | idle =>
    intro o ho
    cases ho
  | failAwaiting _ _ _ _ base =>
    intro o ho
    rcases base with rfl | ⟨response, rfl⟩ <;> cases ho
  | failCompacting =>
    intro o ho
    cases ho
  | compactFirst | start | retry | install | compactAgain =>
    intro o ho
    rw [List.mem_singleton.mp ho]
    exact .inl rfl
  | respond _ _ _ _ _ boundary =>
    apply submitted_boundary boundary
    intro o ho
    cases ho
  | refused _ _ _ _ _ _ _ boundary => exact submitted_boundary boundary (recorded_quiet _ _)
  | plan _ _ _ _ planned _ ran => exact submitted_ran ran rfl (ToolPlan.parse_sound planned).1 rfl
  | execution _ applied ran =>
    obtain ⟨active, plan, call, progress, status, state'', hactive, hphase, -⟩ :=
      ToolExecution.applyCompletion_ok applied
    have hplan := ToolExecution.planOf_some.mpr ⟨active, hactive, hphase⟩
    obtain ⟨plan', hplan', hsound, -⟩ :=
      ToolExecution.applyCompletion_sound hplan (sound plan hplan).1 applied
    exact submitted_ran ran hplan' hsound rfl
  | cancel _ begun =>
    obtain ⟨c, targets, -, -, rfl⟩ := begin_cleanup begun
    rw [setLifecycleStatus_cancellation] at uncancelled
    cases uncancelled

/-- As long as the session is not being cancelled, every identity that a step sends is in the log. -/
theorem sends_all (step : Step agent s d t) (reach : Reachable agent s)
    (uncancelled : t.state.cancellation = none) {o : StagedOperation}
    (ho : o ∈ t.staged.drop s.staged.length) {x : Action × String}
    (hx : x ∈ requestActions o.request) : ∃ e ∈ sends s t, e.action = x.1 ∧ e.id = x.2 := by
  obtain ⟨admitted, r, rfl, answered⟩ := step.answered
  rw [reach.dated.fillDate] at answered
  have hdrop : (s.after d.stimulus r).staged.drop s.staged.length = r.outcome.operations :=
    List.drop_left
  have submitted : Submitted r := by
    cases answered with
    | failed _ silent | routed _ _ _ silent =>
      intro o ho
      rw [silent.operations] at ho
      cases ho
    | @cleaned _ _ _ _ c _ _ _ _ =>
      have hcancelling := setLifecycleStatus_cancellation c true
      cases hcancelling.symm.trans uncancelled
    | running _ _ handled => exact submitted_handled handled reach.kept.plans uncancelled
  have hmem := ho
  rw [hdrop] at hmem
  rcases submitted o hmem with hnone | ⟨plan, hplan, hid⟩
  · rw [hnone] at hx
    cases hx
  · obtain ⟨active, hactive, hphase⟩ := ToolExecution.planOf_some.mp hplan
    obtain ⟨⟨call, progress⟩, hcall⟩ := Option.isSome_iff_exists.mp (ToolExecution.submittedCall_isSome hid)
    refine ⟨⟨active.id, plan.assistantOperationId, call.ordinal, x.1, x.2⟩, ?_, rfl, rfl⟩
    unfold sends
    simp only [show (s.after d.stimulus r).state.activeTurn = some active from hactive, hphase]
    refine List.mem_flatMap.mpr ⟨o, ho, ?_⟩
    unfold sendings
    rw [hcall]
    exact List.mem_map_of_mem hx

/-! ## Identities of different calls -/

/-- The identities of different calls are different, and an action of a call has one identity. -/
structure Unshared (sent : List Sending) : Prop where
  apart : ∀ e ∈ sent, ∀ e' ∈ sent, e.id = e'.id →
    e.response = e'.response ∧ e.ordinal = e'.ordinal
  stable : ∀ e ∈ sent, ∀ e' ∈ sent, e.response = e'.response → e.ordinal = e'.ordinal →
    e.action = e'.action → e.id = e'.id

/-- Two responses that give no identifier to a call of one tool each. Calls that are refused at once
do not count. -/
def Differ (q q' : Asked) : Prop :=
  ∀ a ∈ q.calls, ∀ a' ∈ q'.calls, a.status.isCompleted = false → a'.status.isCompleted = false →
    a.name = a'.name → a.callId ≠ a'.callId

instance (q q' : Asked) : Decidable (Differ q q') :=
  inferInstanceAs (Decidable (∀ a ∈ q.calls, ∀ a' ∈ q'.calls, a.status.isCompleted = false →
    a'.status.isCompleted = false → a.name = a'.name → a.callId ≠ a'.callId))

/-- No two responses of one turn give one identifier to calls of one tool. -/
def Fresh (asked : List Asked) : Prop :=
  asked.Pairwise fun q q' => q.turn = q'.turn → Differ q q'

/-- The digests of the identifiers that were asked for have no collision. -/
def CollisionFree (lib : Foreign) (asked : List Asked) : Prop :=
  ∀ q ∈ asked, ∀ q' ∈ asked, ∀ a ∈ q.calls, ∀ a' ∈ q'.calls,
    lib.sha256 a.callId = lib.sha256 a'.callId → a.callId = a'.callId

theorem Differ.symm {q q' : Asked} (differ : Differ q q') : Differ q' q := by
  intro a ha a' ha' live live' name callId
  exact differ a' ha' a ha live' live name.symm callId.symm

/-- A response stands in the log once. -/
theorem Known.eq_of_response {asked : List Asked} (known : Known s asked) {q q' : Asked}
    (hq : q ∈ asked) (hq' : q' ∈ asked) (h : q.response = q'.response) : q = q' :=
  List.inj_on_of_nodup_map known.responses hq hq' h

/-- The calls of a response have different identifiers. -/
theorem Known.ordinal_eq {asked : List Asked} (known : Known s asked) {q : Asked} (hq : q ∈ asked)
    {i j : Nat} {a b : ToolCallState} (hi : q.calls[i]? = some a) (hj : q.calls[j]? = some b)
    (h : a.callId = b.callId) : i = j := by
  have hlt : i < (q.calls.map (·.callId)).length := by
    rw [List.length_map]
    exact (List.getElem?_eq_some_iff.mp hi).1
  apply (List.getElem?_inj hlt (known.callIds q hq)).mp
  rw [List.getElem?_map, List.getElem?_map, hi, hj, Option.map_some, Option.map_some, h]

/-- In a run in which no two responses of one turn give one identifier to calls of one tool, the
calls do not share their identities. -/
theorem action_ids_unshared {agent : Agent} {fl : FilesystemTools.FileLib} {s : Session}
    {asked : List Asked} {sent : List Sending}
    (run : Traced (FilesystemTools.withFiles agent fl) s asked sent) (digests : Digests agent.lib)
    (free : CollisionFree agent.lib asked) (fresh : Fresh asked) : Unshared sent := by
  have follows := run.follows rfl
  constructor
  · intro e he e' he' hid
    obtain ⟨q, hq, hturn, hresponse, a, ha, live, hsent, htool⟩ := follows.sent e he
    obtain ⟨q', hq', hturn', hresponse', a', ha', live', hsent', htool'⟩ := follows.sent e' he'
    rw [hsent, hsent'] at hid
    obtain ⟨turn, digest, text⟩ := actionId_inj digests hid
    have callId := free q hq q' hq' a (List.mem_of_getElem? ha) a' (List.mem_of_getElem? ha') digest
    have name : a.name = a'.name := by
      rw [← htool, ← htool']
      exact Action.tool_eq text
    by_cases hsame : q = q'
    · subst hsame
      exact ⟨hresponse.symm.trans hresponse', follows.known.ordinal_eq hq ha ha' callId⟩
    · have symmetric : Std.Symm fun q q' : Asked => q.turn = q'.turn → Differ q q' :=
        ⟨fun q q' differ turn => (differ turn.symm).symm⟩
      have differ := fresh.forall hq hq' hsame turn
      exact absurd callId (differ a (List.mem_of_getElem? ha) a' (List.mem_of_getElem? ha') live
        live' name)
  · intro e he e' he' hresponses hordinals hactions
    obtain ⟨q, hq, hturn, hresponse, a, ha, live, hsent, -⟩ := follows.sent e he
    obtain ⟨q', hq', hturn', hresponse', a', ha', live', hsent', -⟩ := follows.sent e' he'
    have hsame : q = q' :=
      follows.known.eq_of_response hq hq' (hresponse.trans (hresponses.trans hresponse'.symm))
    subst hsame
    rw [hordinals] at ha
    cases ha.symm.trans ha'
    rw [hsent, hsent', hactions]

/-! ### Two responses of one turn -/

def secondListCall : RawJson :=
  "\x7b\"type\":\"function_call\",\"call_id\":\"b\",\"name\":\"exec_command\"," ++
    "\"arguments\":\"\x7b\\\"cmd\\\":\\\"ls\\\"\x7d\"\x7d"

def listCallValue (callId : String) : Value :=
  .object [("type", .string "function_call"), ("call_id", .string callId),
    ("name", .string "exec_command"), ("arguments", .string ToolExecution.listArguments)]

/-- A harness whose model may ask to list the files, twice. -/
def listTwiceAgent : Agent := { ToolExecution.listAgent with
  lib := { ToolExecution.tableLib [(ToolExecution.listCall, listCallValue "a"),
      (secondListCall, listCallValue "b"),
      (ToolExecution.listArguments, .object [("cmd", .string "ls")])] with
    sha256 := fun text =>
      if text = "a" then "ca978112ca1bbdcafac231b39a23dc4da786eff8147c4e72b9807785afee48bb"
      else "3e23e8160039594a33894f6564e1b1348bbd7a0088d42c4acb73eeaed59c009d" } }

def filedAgent : Agent := FilesystemTools.withFiles listTwiceAgent FilesystemTools.lineLib

theorem listTwice_digests : Digests listTwiceAgent.lib := by
  intro text
  show ':' ∉ (ite (text = "a") _ _ : String).toList
  split <;> decide

/-- The delivery of a response that asks for one call. -/
def asking (sequence : EventSequence) (id : OperationId) (call : RawJson) : Delivery :=
  delivery sequence (.completed id (.succeeded (.llm
    { id := "r", modelId := "gpt-5.6-sol", message := .assistant .default .openai [call],
      stopReason := .toolUse, usage := none, assistant := rfl })))

/-- The delivery of an answer of the runtime that the harness does not understand. -/
def misunderstood (sequence : EventSequence) (id : OperationId) : Delivery :=
  delivery sequence (.completed id (.succeeded (.execution
    { generationId := 1, outcome := .ok (.object []) })))

def greetedSession : Session := next filedAgent (start 3 9) firstDelivery

def firstListing : Session := next filedAgent greetedSession (asking 2 10 ToolExecution.listCall)

def listedSession : Session := next filedAgent firstListing (misunderstood 3 12)

/-- The session after a second response. -/
def secondListing (call : RawJson) : Session := next filedAgent listedSession (asking 4 13 call)

def listedAsked (call : RawJson) : List Asked :=
  ((([] ++ asks filedAgent (start 3 9) firstDelivery) ++
    asks filedAgent greetedSession (asking 2 10 ToolExecution.listCall)) ++
      asks filedAgent firstListing (misunderstood 3 12)) ++
        asks filedAgent listedSession (asking 4 13 call)

def listedSent (call : RawJson) : List Sending :=
  ((([] ++ sends (start 3 9) greetedSession) ++ sends greetedSession firstListing) ++
    sends firstListing listedSession) ++ sends listedSession (secondListing call)

theorem secondListing_traced {call : RawJson}
    (answered : (listedSession.play filedAgent [asking 4 13 call]).isSome = true) :
    Traced filedAgent (secondListing call) (listedAsked call) (listedSent call) := by
  refine .step (.step (.step (.step (.start 3 9) ?_) ?_) ?_) (step_next answered)
  · exact step_next (by decide +kernel)
  · exact step_next (by decide +kernel)
  · exact step_next (by decide +kernel)

/-- Two calls of different identifiers. -/
theorem action_ids_unshared_two :
    (listedSent secondListCall).length = 2 ∧ Unshared (listedSent secondListCall) := by
  refine ⟨by decide +kernel, ?_⟩
  refine action_ids_unshared (secondListing_traced (by decide +kernel)) listTwice_digests ?_ ?_
  · unfold CollisionFree
    decide +kernel
  · unfold Fresh
    decide +kernel

/-- A second response of the turn that gives its call the identifier of the first one's has the
runtime do the same action again. -/
theorem action_ids_unshared_reused : ¬ (∀ (agent : Agent) (fl : FilesystemTools.FileLib)
    (s : Session) (asked : List Asked) (sent : List Sending),
      Traced (FilesystemTools.withFiles agent fl) s asked sent → Digests agent.lib →
        CollisionFree agent.lib asked → Unshared sent) := by
  intro hall
  have free : CollisionFree listTwiceAgent.lib (listedAsked ToolExecution.listCall) := by
    unfold CollisionFree
    decide +kernel
  have unshared := hall listTwiceAgent FilesystemTools.lineLib _ _ _
    (secondListing_traced (by decide +kernel)) listTwice_digests free
  have shared : ∃ e ∈ listedSent ToolExecution.listCall, ∃ e' ∈ listedSent ToolExecution.listCall,
      e.id = e'.id ∧ e.response ≠ e'.response := by decide +kernel
  obtain ⟨e, he, e', he', hid, hne⟩ := shared
  exact hne (unshared.apart e he e' he' hid).1

end Session

end AgentPlatform.Harness
