import AgentPlatform.Harness.Sessions

/-!
# The conversations that the model is asked to continue

A request to the model carries a conversation. In a well-formed one every message of the assistant
is followed at once by the results of the calls it makes, one for each and in their order, and there
is no other result.
-/

namespace AgentPlatform

/-- The messages of a request. -/
def LlmRequest.messages : LlmRequest → List Message
  | .fresh _ _ _ messages _ _ => messages
  | .continuation _ messages => messages

/-- Whether a message is the result of a tool call. -/
def Message.isToolResult : Message → Bool
  | .toolResult .. => true
  | _ => false

namespace Harness

open ToolExecution (planOf)

/-! ## Well-formed conversations -/

/-- The call that an assistant's item makes, where it makes one: the identifier that it gives. -/
def callOf (lib : Foreign) (item : RawJson) : Option (Option String) :=
  match lib.parseJson item with
  | .error _ => none
  | .ok value =>
    (((value.get "type").bind Value.asStr).bind ToolPlan.callKindOf).map fun _ =>
      (value.get "call_id").bind Value.asStr

/-- The calls that a message makes. -/
def toolCalls (lib : Foreign) : Message → List (Option String)
  | .assistant _ _ content => content.filterMap (callOf lib)
  | _ => []

/-- The results of some calls, one for each and in their order. -/
inductive Answers : List (Option String) → List Message → Prop
  | nil : Answers [] []
  | cons {calls : List (Option String)} {results : List Message} {base : MessageBase}
      {name id : String} {content : List ContentPart} {outcome : ToolResultOutcome}
      {details : Option RawJson} (rest : Answers calls results) :
      Answers (some id :: calls) (.toolResult base name id content outcome details :: results)

/-- A conversation in which every call is answered. -/
inductive Conversation (lib : Foreign) : List Message → Prop
  | nil : Conversation lib []
  | other {message : Message} {rest : List Message} (plain : message.isAssistant = false)
      (noResult : message.isToolResult = false) (after : Conversation lib rest) :
      Conversation lib (message :: rest)
  | answered {message : Message} {results rest : List Message}
      (assistant : message.isAssistant = true) (distinct : (toolCalls lib message).Nodup)
      (answers : Answers (toolCalls lib message) results) (after : Conversation lib rest) :
      Conversation lib (message :: (results ++ rest))

variable {lib : Foreign}

theorem Conversation.append {xs ys : List Message} (left : Conversation lib xs)
    (right : Conversation lib ys) : Conversation lib (xs ++ ys) := by
  induction left with
  | nil => exact right
  | other plain noResult _ ih => exact .other plain noResult ih
  | answered assistant distinct answers _ ih =>
    rw [List.cons_append, List.append_assoc]
    exact .answered assistant distinct answers ih

/-- The last message is one of the assistant whose calls are still to be answered. -/
def Asked (lib : Foreign) (ids : List String) (messages : List Message) : Prop :=
  ∃ earlier message, messages = earlier ++ [message] ∧ Conversation lib earlier ∧
    message.isAssistant = true ∧ toolCalls lib message = ids.map some ∧ ids.Nodup

/-- Once its calls are answered, the conversation is well-formed again. -/
theorem Asked.answer {ids : List String} {messages results : List Message}
    (asked : Asked lib ids messages) (answers : Answers (ids.map some) results) :
    Conversation lib (messages ++ results) := by
  obtain ⟨earlier, message, rfl, conversation, assistant, hcalls, distinct⟩ := asked
  rw [List.append_assoc]
  apply conversation.append
  have hanswered : Conversation lib (message :: (results ++ [])) :=
    .answered assistant (hcalls ▸ distinct.map (Option.some_injective String)) (hcalls ▸ answers)
      .nil
  simpa using hanswered

theorem Conversation.of_plain {messages : List Message}
    (plain : ∀ m ∈ messages, m.isAssistant = false ∧ m.isToolResult = false) :
    Conversation lib messages := by
  induction messages with
  | nil => exact .nil
  | cons m ms ih =>
    have hm := plain m List.mem_cons_self
    exact .other hm.1 hm.2 (ih fun m' hm' => plain m' (List.mem_cons_of_mem _ hm'))

theorem plain_of_isUser {message : Message} (h : message.isUser = true) :
    message.isAssistant = false ∧ message.isToolResult = false := by
  cases message with
  | user => exact ⟨rfl, rfl⟩
  | system | assistant | toolResult | custom => cases h

theorem Conversation.of_users {messages : List Message}
    (users : ∀ m ∈ messages, m.isUser = true) : Conversation lib messages :=
  .of_plain fun m hm => plain_of_isUser (users m hm)

/-! ## Calls and their results -/

/-- The calls of an assistant's items that parse as a plan. -/
theorem parseItems_calls {items : List RawJson} {before calls : List ToolCallState}
    (h : ToolPlan.parseItems lib items before = .ok calls)
    (distinct : (before.map (·.callId)).Nodup) :
    calls.map (fun call => some call.callId) =
        before.map (fun call => some call.callId) ++ items.filterMap (callOf lib) ∧
      (calls.map (·.callId)).Nodup := by
  induction items generalizing before with
  | nil =>
    cases h
    exact ⟨by simp, distinct⟩
  | cons item items ih =>
    unfold ToolPlan.parseItems at h
    split at h
    · cases h
    next value hvalue =>
    split at h
    next hnone =>
      have hcall : callOf lib item = none := by
        simp [callOf, hvalue, hnone]
      rw [List.filterMap_cons_none hcall]
      exact ih h distinct
    next kind hkind =>
      obtain ⟨call, hparsed, h⟩ := Fallible.bind_ok h
      obtain ⟨callId, name, descriptor, hid, hnew, -, -, rfl⟩ := ToolPlan.parseCall_ok hparsed
      have hcall : callOf lib item = some (some callId) := by
        simp only [callOf, hvalue, hkind, Option.map_some]
        unfold ToolPlan.requiredNonemptyString at hid
        split at hid
        next text htext =>
          split at hid <;> cases hid
          rw [htext]
        · cases hid
      rw [List.filterMap_cons_some hcall]
      have hfresh : callId ∉ before.map (·.callId) := by
        intro hmem
        obtain ⟨c, hc, rfl⟩ := List.mem_map.mp hmem
        have hany := List.any_eq_false.mp hnew c hc
        simp at hany
      obtain ⟨hids, hdistinct⟩ := ih h (by
        rw [List.map_append, List.nodup_append]
        refine ⟨distinct, by simp, ?_⟩
        intro a ha b hb hab
        simp only [List.map_cons, List.map_nil, List.mem_singleton] at hb
        exact hfresh (hb ▸ hab ▸ ha))
      exact ⟨by simpa using hids, hdistinct⟩

theorem parse_some {operationId : OperationId} {message : Message} {stopReason : StopReason}
    {plan : ToolPlanState}
    (h : ToolPlan.parse lib operationId message stopReason = .ok (some plan)) :
    toolCalls lib message = plan.callIds.map some ∧ plan.callIds.Nodup := by
  obtain ⟨_, _, content, rfl, hcalls, -, -⟩ := ToolPlan.parse_ok h
  obtain ⟨hids, hdistinct⟩ := parseItems_calls hcalls List.Pairwise.nil
  refine ⟨?_, hdistinct⟩
  rw [ToolPlanState.callIds, List.map_map]
  exact hids.symm

theorem parse_none {operationId : OperationId} {message : Message} {stopReason : StopReason}
    (h : ToolPlan.parse lib operationId message stopReason = .ok none) :
    toolCalls lib message = [] := by
  unfold ToolPlan.parse at h
  split at h
  next content =>
    obtain ⟨calls, hcalls, h⟩ := Fallible.bind_ok h
    have hids := (parseItems_calls hcalls List.Pairwise.nil).1
    split at h
    next hempty =>
      rw [List.isEmpty_iff.mp hempty] at hids
      exact hids.symm
    · split at h <;> cases h
  · cases h

theorem orderedResultMessages_answers {plan : ToolPlanState} {results : List Message}
    (h : plan.orderedResultMessages lib = .ok results) :
    Answers (plan.callIds.map some) results := by
  unfold ToolPlanState.orderedResultMessages at h
  rw [ToolPlanState.callIds, List.map_map]
  generalize plan.calls = calls at h
  induction calls generalizing results with
  | nil =>
    cases h
    exact .nil
  | cons call calls ih =>
    rw [List.mapM_cons] at h
    obtain ⟨result, hresult, h⟩ := Fallible.bind_ok h
    obtain ⟨rest, hrest, h⟩ := Fallible.bind_ok h
    cases h
    split at hresult
    · cases hresult
      exact .cons (ih hrest)
    · cases hresult

theorem retainLatest_users {remaining : Nat} {messages : List Message} :
    ∀ m ∈ Compaction.retainLatest lib remaining messages, m.isUser = true := by
  induction messages generalizing remaining with
  | nil => simp [Compaction.retainLatest]
  | cons message messages ih =>
    intro m hm
    unfold Compaction.retainLatest at hm
    cases message with
    | user base content =>
      dsimp only at hm
      split at hm
      · rcases List.mem_cons.mp hm with rfl | hm
        · rfl
        · exact ih m hm
      · split at hm
        · unfold Compaction.truncateUserMessage at hm
          dsimp only at hm
          split at hm
          · cases hm
          · rw [Option.toList_some, List.mem_singleton] at hm
            rw [hm]
            rfl
        · cases hm
    | system | assistant | toolResult | custom => exact ih m hm

theorem retainedUserMessages_users {messages : List Message} :
    ∀ m ∈ Compaction.retainedUserMessages lib messages, m.isUser = true := by
  intro m hm
  exact retainLatest_users m (List.mem_reverse.mp hm)

/-! ## What a running session keeps -/

/-- A state that is neither failed nor being cancelled. -/
def Live (state : BasicCodexState) : Prop :=
  state.terminalFailure = none ∧ state.cancellation = none

/-- The messages of users that wait to join the conversation. -/
def heldMessages (active : ActiveTurn) : List Message :=
  (match active.phase with
    | .compacting compaction => compaction.initialInput.toList
    | _ => []) ++ active.pendingSteering.map (·.message)

/-- The conversation of a running session. While a plan is executed its calls are unanswered. -/
structure Conversing (lib : Foreign) (state : BasicCodexState) : Prop where
  settled : planOf state = none → Conversation lib state.contextWindow.modelHistory
  asked : ∀ plan, planOf state = some plan →
    Asked lib plan.callIds state.contextWindow.modelHistory
  users : ∀ active, state.activeTurn = some active → ∀ m ∈ heldMessages active, m.isUser = true

/-- Every request to the model that was staged carries a well-formed conversation. -/
def RequestsFormed (lib : Foreign) (r : OutcomeBuilder BasicCodexState) : Prop :=
  ∀ o ∈ r.outcome.operations, ∀ connection request, o.request = .llm connection request →
    Conversation lib request.messages

/-- What an invocation in a running session has to leave. -/
def Forms (lib : Foreign) (r : OutcomeBuilder BasicCodexState) : Prop :=
  RequestsFormed lib r ∧ (Live r.state → Conversing lib r.state)

namespace Handler

variable {agent : Agent} {b : OutcomeBuilder BasicCodexState}

theorem requestsFormed_congr {r r' : OutcomeBuilder BasicCodexState} (formed : RequestsFormed lib r)
    (same : r'.outcome.operations = r.outcome.operations) : RequestsFormed lib r' := by
  intro o ho
  rw [same] at ho
  exact formed o ho

theorem requestsFormed_push {request : LlmRequest} {connection : GatewayConnectionId}
    (formed : RequestsFormed lib b) (conversation : Conversation lib request.messages) :
    RequestsFormed lib (b.pushOperation (.llm connection request)).2 := by
  intro o ho connection' request' hrequest
  rcases List.mem_append.mp ho with h | h
  · exact formed o h connection' request' hrequest
  · rw [List.mem_singleton.mp h] at hrequest
    cases hrequest
    exact conversation

theorem requestTurn_forms {sid : SessionId} {active : ActiveTurn}
    (formed : RequestsFormed agent.lib b)
    (conversation : Conversation agent.lib b.state.contextWindow.modelHistory)
    (users : ∀ m ∈ active.pendingSteering, m.message.isUser = true) :
    Forms agent.lib (requestTurn agent b sid active) := by
  have request : Conversation agent.lib (Llm.freshRequest agent
      { sessionId := sid, currentDate := active.currentDate }
      b.state.contextWindow.modelHistory).messages := .other rfl rfl conversation
  refine ⟨?_, fun _ => ⟨fun _ => conversation, ?_, ?_⟩⟩
  · exact requestsFormed_congr (requestsFormed_push formed request) rfl
  · intro plan hplan
    cases hplan
  · intro turn hturn m hm
    cases hturn
    obtain ⟨steering, hsteering, rfl⟩ := List.mem_map.mp hm
    exact users steering hsteering

theorem requestCompaction_forms {sid : SessionId} {active : ActiveTurn}
    {compaction : OperationId → CompactionState} (formed : RequestsFormed agent.lib b)
    (conversation : Conversation agent.lib b.state.contextWindow.modelHistory)
    (users : ∀ m ∈ active.pendingSteering, m.message.isUser = true)
    (held : ∀ id, ∀ m ∈ (compaction id).initialInput, m.isUser = true) :
    Forms agent.lib (requestCompaction agent b sid active compaction) := by
  have htrigger : Conversation agent.lib [Llm.compactionTrigger agent] := .other rfl rfl .nil
  have request : Conversation agent.lib (Llm.compactionRequest agent
      { sessionId := sid, currentDate := active.currentDate }
      b.state.contextWindow.modelHistory).messages :=
    .other rfl rfl (conversation.append htrigger)
  refine ⟨?_, fun _ => ⟨fun _ => conversation, ?_, ?_⟩⟩
  · exact requestsFormed_congr (requestsFormed_push formed request) rfl
  · intro plan hplan
    cases hplan
  · intro turn hturn m hm
    cases hturn
    rcases List.mem_append.mp hm with hm | hm
    · exact held _ m (Option.mem_toList.mp hm)
    · obtain ⟨steering, hsteering, rfl⟩ := List.mem_map.mp hm
      exact users steering hsteering

theorem forms_status {r : OutcomeBuilder BasicCodexState} (forms : Forms lib r)
    (status : SessionStatus) : Forms lib (r.setStatus status) := forms

theorem forms_reported {r : OutcomeBuilder BasicCodexState} (forms : Forms lib r)
    (payload : Value) (status : SessionStatus) :
    Forms lib ((r.emitProgress payload).setStatus status) := forms

theorem Boundary.forms {r : OutcomeBuilder BasicCodexState} {active : ActiveTurn}
    {through : HistorySequence} {sid : SessionId}
    (boundary : Boundary agent b active through sid r) (formed : RequestsFormed agent.lib b)
    (conversation : Conversation agent.lib b.state.contextWindow.modelHistory)
    (users : ∀ m ∈ active.pendingSteering, m.message.isUser = true) : Forms agent.lib r := by
  cases boundary with
  | compact =>
    refine forms_reported (requestCompaction_forms formed conversation users ?_) _ _
    intro id m hm
    cases hm
  | resume =>
    apply forms_status
    apply requestTurn_forms
    · exact requestsFormed_congr formed rfl
    · refine conversation.append (.of_users ?_)
      intro m hm
      obtain ⟨steering, hsteering, rfl⟩ := List.mem_map.mp hm
      exact users steering hsteering
    · intro m hm
      cases hm

/-- An ended session has nothing to keep. -/
theorem forms_of_failed {r : OutcomeBuilder BasicCodexState} (formed : RequestsFormed lib r)
    (failed : r.state.terminalFailure.isSome = true) : Forms lib r := by
  refine ⟨formed, fun live => ?_⟩
  rw [live.1] at failed
  cases failed

/-- A turn's messages wait through the steps of its plan. -/
theorem PlanRan.forms {invocation : Invocation} {r : OutcomeBuilder BasicCodexState}
    {plan : ToolPlanState} {active : ActiveTurn} (ran : PlanRan agent b invocation r)
    (turn : b.state.activeTurn = some active) (phase : active.phase = .executingTools plan)
    (sound : plan.Sound) (formed : RequestsFormed agent.lib b)
    (asked : Asked agent.lib plan.callIds b.state.contextWindow.modelHistory)
    (users : ∀ m ∈ active.pendingSteering, m.message.isUser = true) : Forms agent.lib r := by
  have hplan := ToolExecution.planOf_some.mpr ⟨active, turn, phase⟩
  have hexecutions {o : StagedOperation} {connection : GatewayConnectionId} {request : LlmRequest}
      (hkind : o.request.kind = .execution) : o.request ≠ .llm connection request := by
    intro h
    rw [h] at hkind
    cases hkind
  cases ran with
  | @waits scheduled plan' schedule executes incomplete =>
    obtain ⟨active', staged, plan'', schedules⟩ :=
      ToolExecution.scheduleReady_schedules hplan sound schedule
    cases turn.symm.trans schedules.turn
    refine ⟨?_, fun _ => ⟨?_, ?_, ?_⟩⟩
    · intro o ho connection request hrequest
      rw [OutcomeBuilder.setStatus_operations, schedules.stages.operations] at ho
      rcases List.mem_append.mp ho with h | h
      · exact formed o h connection request hrequest
      · exact absurd hrequest (hexecutions (schedules.executions o h))
    · intro hnone
      rw [OutcomeBuilder.setStatus_state, executes] at hnone
      cases hnone
    · intro p hp
      rw [OutcomeBuilder.setStatus_state, schedules.state] at hp ⊢
      cases hp
      rw [schedules.callIds]
      exact asked
    · intro turn' hturn' m hm
      rw [OutcomeBuilder.setStatus_state, schedules.state] at hturn'
      cases hturn'
      obtain ⟨steering, hsteering, rfl⟩ := List.mem_map.mp hm
      exact users steering hsteering
  | @finished scheduled r plan' messages active' through schedule executes complete results turn' boundary =>
    obtain ⟨active'', staged, plan'', schedules⟩ :=
      ToolExecution.scheduleReady_schedules hplan sound schedule
    cases turn.symm.trans schedules.turn
    rw [schedules.state] at executes
    cases executes
    refine boundary.forms ?_ ?_ ?_
    · refine requestsFormed_congr ?_ (appendMessages_operations _ messages)
      intro o ho connection request hrequest
      rw [OutcomeBuilder.setState_operations, schedules.stages.operations] at ho
      rcases List.mem_append.mp ho with h | h
      · exact formed o h connection request hrequest
      · exact absurd hrequest (hexecutions (schedules.executions o h))
    · have hanswers := orderedResultMessages_answers results
      rw [schedules.callIds] at hanswers
      unfold appendResults
      rw [appendMessages_state, OutcomeBuilder.setState_state, schedules.state]
      exact asked.answer hanswers
    · rw [appendResults_activeTurn, schedules.state] at turn'
      cases turn'
      exact users

/-! ## The branches -/

@[simp] theorem recordResponse_modelHistory (state : BasicCodexState)
    (response : AssistantResponse) : (recordResponse state response).contextWindow.modelHistory =
      state.contextWindow.modelHistory ++ [response.message] := by
  unfold recordResponse
  dsimp only
  split <;> rfl

@[simp] theorem recordResponse_activeTurn (state : BasicCodexState)
    (response : AssistantResponse) :
    (recordResponse state response).activeTurn = state.activeTurn := by
  unfold recordResponse
  dsimp only
  split <;> rfl

@[simp] theorem addLatestProjectionEstimate_modelHistory (state : BasicCodexState) :
    (addLatestProjectionEstimate agent state).contextWindow.modelHistory =
      state.contextWindow.modelHistory := by
  unfold addLatestProjectionEstimate
  dsimp only
  split
  · rfl
  · split <;> rfl

/-- The response to an ordinary request: its calls, where it makes some, are not answered yet. -/
theorem asked_of_response {state : BasicCodexState} {response : AssistantResponse}
    {id : OperationId} {plan : ToolPlanState}
    (conversation : Conversation agent.lib state.contextWindow.modelHistory)
    (planned : ToolPlan.parse agent.lib id response.message response.stopReason =
      .ok (some plan)) :
    Asked agent.lib plan.callIds (recordResponse state response).contextWindow.modelHistory := by
  obtain ⟨hcalls, hdistinct⟩ := parse_some planned
  exact ⟨_, _, recordResponse_modelHistory state response, conversation, response.assistant,
    hcalls, hdistinct⟩

theorem conversation_of_response {state : BasicCodexState} {response : AssistantResponse}
    {id : OperationId} (conversation : Conversation agent.lib state.contextWindow.modelHistory)
    (noPlan : ToolPlan.parse agent.lib id response.message response.stopReason = .ok none) :
    Conversation agent.lib (recordResponse state response).contextWindow.modelHistory := by
  rw [recordResponse_modelHistory]
  apply conversation.append
  have hcalls := parse_none noPlan
  have hanswered : Conversation agent.lib (response.message :: ([] ++ [])) :=
    .answered response.assistant (hcalls ▸ List.Pairwise.nil) (hcalls ▸ .nil) .nil
  exact hanswered

theorem planOf_of_phase {state : BasicCodexState} {active : ActiveTurn}
    (turn : state.activeTurn = some active)
    (phase : ∀ plan, active.phase ≠ .executingTools plan) : planOf state = none := by
  cases hplan : planOf state with
  | none => rfl
  | some plan =>
    obtain ⟨active', hactive', hphase'⟩ := ToolExecution.planOf_some.mp hplan
    cases turn.symm.trans hactive'
    exact absurd hphase' (phase plan)

/-- Every branch stages well-formed requests only, and leaves the conversation well-formed. -/
theorem Handled.forms {state : BasicCodexState} {event : SessionEvent} {context : HarnessContext}
    {nextId : Uuid} {r : OutcomeBuilder BasicCodexState}
    (handled : Handled agent state event context nextId r) (sound : PlanSound state)
    (conversing : Conversing agent.lib state) : Forms agent.lib r := by
  have nothing (state : BasicCodexState) : RequestsFormed agent.lib (.new state nextId) := by
    intro o ho
    cases ho
  have settled {active : ActiveTurn} (turn : state.activeTurn = some active)
      (phase : ∀ plan, active.phase ≠ .executingTools plan) :
      Conversation agent.lib state.contextWindow.modelHistory :=
    conversing.settled (planOf_of_phase turn phase)
  have steering {active : ActiveTurn} (turn : state.activeTurn = some active) :
      ∀ m ∈ active.pendingSteering, m.message.isUser = true := by
    intro m hm
    exact conversing.users active turn m.message
      (List.mem_append_right _ (List.mem_map.mpr ⟨m, hm, rfl⟩))
  cases handled with
  | @steered message active kind user turn =>
    refine ⟨requestsFormed_congr (nothing state) rfl, fun _ => ⟨?_, ?_, ?_⟩⟩
    · intro hnone
      refine settled turn fun plan hphase => ?_
      have hplan : planOf { state with activeTurn := some (steer active event message) } =
          some plan := ToolExecution.planOf_some.mpr ⟨_, rfl, hphase⟩
      cases hnone.symm.trans hplan
    · intro plan hplan
      obtain ⟨_, hactive, hphase⟩ := ToolExecution.planOf_some.mp hplan
      cases hactive
      exact conversing.asked plan (ToolExecution.planOf_some.mpr ⟨active, turn, hphase⟩)
    · intro active' hactive m hm
      cases hactive
      rcases List.mem_append.mp hm with hm | hm
      · exact conversing.users active turn m (List.mem_append_left _ hm)
      · obtain ⟨s, hs, rfl⟩ := List.mem_map.mp hm
        rcases List.mem_append.mp hs with hs | hs
        · exact steering turn s hs
        · rw [List.mem_singleton.mp hs]
          exact user
  | @compactFirst message kind user turn long =>
    have hnone : planOf state = none := planOf_cancelling (.inl turn)
    refine forms_reported (requestCompaction_forms ?_ ?_ ?_ ?_) _ _
    · exact requestsFormed_congr (nothing state) rfl
    · exact conversing.settled hnone
    · intro m hm
      cases hm
    · intro id m hm
      cases hm
      exact user
  | @start message kind user turn short =>
    have hnone : planOf state = none := planOf_cancelling (.inl turn)
    unfold started
    apply forms_status
    apply requestTurn_forms
    · exact requestsFormed_congr (nothing state) rfl
    · show Conversation _ (addLatestProjectionEstimate agent _).contextWindow.modelHistory
      rw [addLatestProjectionEstimate_modelHistory]
      refine (conversing.settled hnone).append (.of_users ?_)
      intro m hm
      rw [List.mem_singleton.mp hm]
      exact user
    · intro m hm
      cases hm
  | failAwaiting _ _ _ _ base =>
    refine forms_of_failed ?_ rfl
    rcases base with rfl | ⟨response, rfl⟩ <;> exact requestsFormed_congr (nothing state) rfl
  | failCompacting => exact forms_of_failed (requestsFormed_congr (nothing state) rfl) rfl
  | idle completes turn phase awaited noPlan quiet =>
    refine ⟨requestsFormed_congr (nothing state) rfl, fun _ => ⟨fun _ => ?_, ?_, ?_⟩⟩
    · exact conversation_of_response (settled turn (by simp [phase])) noPlan
    · intro plan hplan
      cases hplan
    · intro active' hactive
      cases hactive
  | respond completes turn phase awaited noPlan boundary =>
    refine boundary.forms (requestsFormed_congr (nothing state) rfl) ?_ (steering turn)
    exact conversation_of_response (settled turn (by simp [phase])) noPlan
  | refused completes turn phase awaited planned complete results boundary =>
    refine boundary.forms ?_ ?_ (steering turn)
    · exact requestsFormed_congr (nothing state) (appendMessages_operations _ _)
    · have hasked := asked_of_response (settled turn (by simp [phase])) planned
      unfold appendResults
      rw [appendMessages_state]
      exact hasked.answer (orderedResultMessages_answers results)
  | plan completes turn phase awaited planned incomplete ran =>
    refine ran.forms rfl rfl (ToolPlan.parse_sound planned).1
      (requestsFormed_congr (nothing state) rfl) ?_ fun m hm => steering turn m hm
    exact asked_of_response (settled turn (by simp [phase])) planned
  | retry completes turn phase awaited first =>
    unfold retried
    apply forms_reported
    apply requestTurn_forms (nothing state)
    · exact settled turn (by simp [phase])
    · exact fun m hm => steering turn m hm
  | @install id response active compaction validated providerItem _ completes turn phase awaited
      accepted item checkpoint bound =>
    refine forms_reported (requestTurn_forms ?_ ?_ ?_) _ _
    · exact requestsFormed_congr (nothing state) rfl
    · have hitem : Conversation agent.lib [providerItem] := by
        unfold Compaction.providerMessage at item
        split at item <;> cases item
        exact .other rfl rfl .nil
      have hretained : Conversation agent.lib
          (Compaction.retainedUserMessages agent.lib state.contextWindow.modelHistory) :=
        .of_users retainedUserMessages_users
      refine (hretained.append hitem).append (.of_users ?_)
      intro m hm
      refine conversing.users active turn m ?_
      unfold heldMessages
      rw [phase]
      exact hm
    · intro m hm
      cases hm
  | @compactAgain id failure active compaction completes turn phase awaited first =>
    refine forms_reported (requestCompaction_forms (nothing state) ?_ (steering turn) ?_) _ _
    · exact settled turn (by simp [phase])
    · intro _ m hm
      refine conversing.users active turn m (List.mem_append_left _ ?_)
      rw [phase]
      exact Option.mem_toList.mpr hm
  | @execution id outcome state' r completes applied ran =>
    obtain ⟨active, plan, call, progress, status, state'', hactive, hphase, -⟩ :=
      ToolExecution.applyCompletion_ok applied
    have hplan := ToolExecution.planOf_some.mpr ⟨active, hactive, hphase⟩
    obtain ⟨active', plan', completed⟩ :=
      ToolExecution.applyCompletion_completed hplan (sound plan hplan).1 applied
    cases hactive.symm.trans completed.turn
    have hturn : state'.activeTurn = some { active with phase := .executingTools plan' } := by
      rw [completed.state]
    have hwindow : state'.contextWindow = state.contextWindow := by
      rw [completed.state]
    refine ran.forms hturn rfl completed.sound (nothing state') ?_ fun m hm =>
      steering hactive m hm
    rw [OutcomeBuilder.new_state, hwindow, completed.callIds]
    exact conversing.asked plan hplan
  | cancel kind begun =>
    obtain ⟨c, targets, -, moves, rfl⟩ := begin_cleanup begun
    refine ⟨?_, fun live => ?_⟩
    · intro o ho connection request hrequest
      rw [(setLifecycleStatus_state _ true).1] at ho
      refine absurd ?_ (moves.control (fun o ho => by cases ho) o ho)
      rw [hrequest]
      rfl
    · have hcancelled := live.2
      rw [setLifecycleStatus_cancellation] at hcancelled
      cases hcancelled

theorem heldMessages_fillDate {state : BasicCodexState} {date : String} {active : ActiveTurn}
    (h : (fillDate state date).activeTurn = some active) :
    ∃ before, state.activeTurn = some before ∧ heldMessages active = heldMessages before := by
  obtain ⟨before, hbefore, hactive⟩ := fillDate_turn h
  exact ⟨before, hbefore, by rw [hactive]; rfl⟩

theorem conversing_fillDate {state : BasicCodexState} (conversing : Conversing lib state)
    (date : String) : Conversing lib (fillDate state date) where
  settled hnone := conversing.settled (planOf_fillDate state date ▸ hnone)
  asked plan hplan := conversing.asked plan (planOf_fillDate state date ▸ hplan)
  users active hactive m hm := by
    obtain ⟨before, hbefore, hheld⟩ := heldMessages_fillDate hactive
    exact conversing.users before hbefore m (hheld ▸ hm)

end Handler

namespace Session

open Handler

variable {agent : Agent} {s t : Session} {d : Delivery}

/-- Every request of a session was well-formed, and while it runs its conversation is. -/
structure Formed (lib : Foreign) (s : Session) : Prop where
  requests : ∀ o ∈ s.staged, ∀ connection request, o.request = .llm connection request →
    Conversation lib request.messages
  conversing : Live s.state → Conversing lib s.state

theorem Formed.step (formed : s.Formed agent.lib) (kept : s.Kept) (step : Step agent s d t) :
    t.Formed agent.lib := by
  obtain ⟨-, r, rfl, answered⟩ := step.answered
  have hplans : PlanSound (fillDate s.state d.date) := by
    intro plan hplan
    rw [planOf_fillDate] at hplan
    exact kept.plans plan hplan
  have joined (requests : RequestsFormed agent.lib r)
      (conversing : Live r.state → Conversing agent.lib r.state) :
      (s.after d.stimulus r).Formed agent.lib := by
    refine ⟨?_, conversing⟩
    intro o ho
    rcases List.mem_append.mp ho with h | h
    · exact formed.requests o h
    · exact requests o h
  cases answered with
  | failed ended silent =>
    refine joined (fun o ho => by rw [silent.operations] at ho; cases ho) fun live => ?_
    rw [silent.state] at live
    rw [live.1] at ended
    cases ended
  | routed _ cancelled _ silent =>
    refine joined (fun o ho => by rw [silent.operations] at ho; cases ho) fun live => ?_
    rw [silent.state] at live
    cases live.2.symm.trans cancelled
  | @cleaned _ _ _ _ c _ _ _ applied =>
    have moves := Cancellation.applyCompletion_moves applied
    refine joined ?_ fun live => ?_
    · intro o ho connection request hrequest
      rw [(setLifecycleStatus_state c true).1] at ho
      refine absurd ?_ (moves.control (fun o ho => by cases ho) o ho)
      rw [hrequest]
      rfl
    · have hcancelled := live.2
      rw [setLifecycleStatus_cancellation] at hcancelled
      cases hcancelled
  | running live uncancelled handled =>
    have hforms := handled.forms hplans
      (conversing_fillDate (formed.conversing ⟨live, uncancelled⟩) d.date)
    exact joined hforms.1 hforms.2

theorem Reachable.formed (reach : Reachable agent s) : s.Formed agent.lib := by
  refine reach.induct ?_ ?_
  · intro id nextId
    refine ⟨?_, fun _ => ⟨fun _ => .nil, ?_, ?_⟩⟩
    · intro o ho
      cases ho
    · intro plan hplan
      cases hplan
    · intro active hactive
      cases hactive
  · intro s d t before formed step
    exact formed.step before.kept step

/-- Every request to the model that a session stages, an ordinary one or one to compact, carries a
conversation in which each call of the assistant is answered at once, by one result of its own, in
the order of the calls. -/
theorem requests_well_formed (reach : Reachable agent s) :
    ∀ o ∈ s.staged, ∀ connection request, o.request = .llm connection request →
      Conversation agent.lib request.messages :=
  reach.formed.requests

open ToolExecution in
/-- A user asks, the model answers with a call, and the call is cancelled. -/
def listRun : List Delivery :=
  [delivery 1 (.userMessage (.userText "list the files")),
    delivery 2 (.completed 10 (.succeeded (.llm {
      id := "r", modelId := "gpt-5.6-sol", message := listMessage, stopReason := .toolUse,
      usage := none, assistant := rfl }))),
    delivery 3 (.completed 12 .cancelled)]

open ToolExecution in
/-- The request that follows the cancelled call is well formed. -/
theorem requests_well_formed_listing :
    ∃ s, (start 3 9).play listAgent listRun = some s ∧ s.staged.length = 3 ∧
      ∀ o ∈ s.staged, ∀ connection request, o.request = .llm connection request →
        Conversation listAgent.lib request.messages := by
  obtain ⟨s, played, reach, hlength⟩ :=
    exists_of_played (p := fun s => s.staged.length == 3) (Reachable.start listAgent 3 9)
      (show ((start 3 9).play listAgent listRun).any _ = true by decide +kernel)
  exact ⟨s, played, by simpa using hlength, requests_well_formed reach⟩

end Session

end Harness

end AgentPlatform
