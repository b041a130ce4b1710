import AgentPlatform.Harness.Conversation

/-!
# The prefix of a prompt

The requests of a turn are built from what the session saves: the date at the beginning of the turn
and a conversation that is only ever extended, until a compaction puts a checkpoint in its place.
So within a turn and under one checkpoint each request begins with the messages of the one before.

**What a step leaves** (`Carries`). It extends the conversation or installs a checkpoint, it keeps
the turn with its date or begins a new one, and the request to the model that it stages is built
from the state that it leaves.
-/

namespace AgentPlatform

/-- What a request has beside its messages: account, model, instructions, tools and options. -/
def LlmRequest.envelope : LlmRequest →
    Option (Uuid × String × Option String × List ToolDefinition × ProviderOptions)
  | .fresh accountId modelId instructions _ tools providerOptions =>
    some (accountId, modelId, instructions, tools, providerOptions)
  | .continuation _ _ => none

namespace Harness

/-- Whether a message is the trigger of a compaction. -/
def isTrigger (agent : Agent) (message : Message) : Bool :=
  match Llm.compactionTrigger agent, message with
  | .custom _ tag data, .custom _ tag' data' => tag' == tag && data' == data
  | _, _ => false

/-- The messages of a request without the trigger of a compaction at their end. -/
def withoutTrigger (agent : Agent) (messages : List Message) : List Message :=
  if messages.getLast?.any (isTrigger agent) then messages.dropLast else messages

theorem withoutTrigger_prefix {agent : Agent} {messages tail : List Message}
    (h : tail = [] ∨ tail = [Llm.compactionTrigger agent]) :
    withoutTrigger agent (messages ++ tail) <+: messages := by
  unfold withoutTrigger
  rcases h with rfl | rfl
  · rw [List.append_nil]
    split
    · exact List.dropLast_prefix messages
    · exact List.prefix_rfl
  · have htrigger : isTrigger agent (Llm.compactionTrigger agent) = true := by
      simp [isTrigger, Llm.compactionTrigger]
    rw [List.getLast?_concat, Option.any_some, if_pos htrigger]
    exact ⟨[], by rw [List.append_nil, List.dropLast_concat]⟩

/-! ## What a step leaves -/

/-- A context window that goes on: under the same checkpoint, with more messages or as many. -/
structure Grows (before after : ContextWindowState) : Prop where
  generation : after.generation = before.generation
  checkpoint : after.checkpoint = before.checkpoint
  messages : before.modelHistory <+: after.modelHistory

theorem Grows.refl (window : ContextWindowState) : Grows window window :=
  ⟨rfl, rfl, List.prefix_rfl⟩

theorem Grows.trans {w w' w'' : ContextWindowState} (first : Grows w w') (rest : Grows w' w'') :
    Grows w w'' where
  generation := rest.generation.trans first.generation
  checkpoint := rest.checkpoint.trans first.checkpoint
  messages := first.messages.trans rest.messages

/-- A conversation that begins with what its checkpoint retained and the item of the provider. -/
def StandsOn (agent : Agent) (window : ContextWindowState) : Prop :=
  ∀ checkpoint, window.checkpoint = some checkpoint →
    ∃ item, Compaction.providerMessage agent checkpoint.nativeItem = .ok item ∧
      checkpoint.retainedUserMessages ++ [item] <+: window.modelHistory

/-- A context window with a new checkpoint. -/
structure Installs (agent : Agent) (before after : ContextWindowState) : Prop where
  generation : before.generation < after.generation
  stands : StandsOn agent after

/-- The turn that is there was there before, with its date. -/
def SameTurn (before after : BasicCodexState) : Prop :=
  ∀ active', after.activeTurn = some active' → ∃ active, before.activeTurn = some active ∧
    active'.id = active.id ∧ active'.currentDate = active.currentDate

theorem SameTurn.trans {s s' s'' : BasicCodexState} (first : SameTurn s s')
    (rest : SameTurn s' s'') : SameTurn s s'' := by
  intro active'' h''
  obtain ⟨active', h', hid', hdate'⟩ := rest active'' h''
  obtain ⟨active, h, hid, hdate⟩ := first active' h'
  exact ⟨active, h, hid'.trans hid, hdate'.trans hdate⟩

theorem SameTurn.of_eq {s s' : BasicCodexState} {active active' : ActiveTurn}
    (before : s.activeTurn = some active) (after : s'.activeTurn = some active')
    (id : active'.id = active.id) (date : active'.currentDate = active.currentDate) :
    SameTurn s s' := by
  intro turn hturn
  rw [after] at hturn
  cases hturn
  exact ⟨active, before, id, date⟩

theorem SameTurn.of_none {s s' : BasicCodexState} (after : s'.activeTurn = none) : SameTurn s s' := by
  intro turn hturn
  rw [after] at hturn
  cases hturn

/-- A request that is built from a state: its turn's date, its conversation, and at most the trigger
of a compaction. -/
def BuiltFrom (agent : Agent) (sid : SessionId) (state : BasicCodexState) (request : LlmRequest) :
    Prop :=
  ∃ active tail, state.activeTurn = some active ∧
    (tail = [] ∨ tail = [Llm.compactionTrigger agent]) ∧
    request = Llm.freshRequest agent { sessionId := sid, currentDate := active.currentDate }
      (state.contextWindow.modelHistory ++ tail)

/-- No request to the model was staged. -/
def Unasked (r : OutcomeBuilder BasicCodexState) : Prop :=
  ∀ o ∈ r.outcome.operations, o.request.kind ≠ .llm

/-- The requests to the model that were staged are built from the state that is left. -/
def Built (agent : Agent) (sid : SessionId) (r : OutcomeBuilder BasicCodexState) : Prop :=
  ∀ o ∈ r.outcome.operations, ∀ connection request, o.request = .llm connection request →
    BuiltFrom agent sid r.state request

theorem Unasked.built {r : OutcomeBuilder BasicCodexState} (unasked : Unasked r) (agent : Agent)
    (sid : SessionId) : Built agent sid r := by
  intro o ho connection request hrequest
  refine absurd ?_ (unasked o ho)
  rw [hrequest]
  rfl

theorem Unasked.congr {r r' : OutcomeBuilder BasicCodexState} (unasked : Unasked r)
    (same : r'.outcome.operations = r.outcome.operations) : Unasked r' := by
  intro o ho
  rw [same] at ho
  exact unasked o ho

theorem unasked_new (state : BasicCodexState) (nextId : Uuid) : Unasked (.new state nextId) := by
  intro o ho
  cases ho

/-- What a step in a turn leaves: the turn and more of the conversation. -/
structure GoesOn (agent : Agent) (sid : SessionId) (state : BasicCodexState)
    (r : OutcomeBuilder BasicCodexState) : Prop where
  window : Grows state.contextWindow r.state.contextWindow
  turn : SameTurn state r.state
  built : Built agent sid r

namespace Handler

variable {agent : Agent} {b : OutcomeBuilder BasicCodexState} {sid : SessionId}

/-- A request that is staged last is built from the state that is left. -/
theorem built_push {r : OutcomeBuilder BasicCodexState} {o : StagedOperation} (unasked : Unasked b)
    (operations : r.outcome.operations = b.outcome.operations ++ [o])
    (built : ∀ connection request, o.request = .llm connection request →
      BuiltFrom agent sid r.state request) : Built agent sid r := by
  intro o' ho' connection request hrequest
  rw [operations] at ho'
  rcases List.mem_append.mp ho' with h | h
  · refine absurd ?_ (unasked o' h)
    rw [hrequest]
    rfl
  · rw [List.mem_singleton.mp h] at hrequest
    exact built connection request hrequest

theorem requestTurn_built (unasked : Unasked b) (active : ActiveTurn) :
    Built agent sid (requestTurn agent b sid active) := by
  refine built_push unasked rfl ?_
  intro connection request hrequest
  cases hrequest
  exact ⟨_, [], rfl, .inl rfl, by rw [List.append_nil]; rfl⟩

theorem requestCompaction_built (unasked : Unasked b) (active : ActiveTurn)
    (compaction : OperationId → CompactionState) :
    Built agent sid (requestCompaction agent b sid active compaction) := by
  refine built_push unasked rfl ?_
  intro connection request hrequest
  cases hrequest
  exact ⟨_, _, rfl, .inr rfl, rfl⟩

theorem built_status {r : OutcomeBuilder BasicCodexState} (built : Built agent sid r)
    (status : SessionStatus) : Built agent sid (r.setStatus status) := built

theorem built_reported {r : OutcomeBuilder BasicCodexState} (built : Built agent sid r)
    (payload : Value) (status : SessionStatus) :
    Built agent sid ((r.emitProgress payload).setStatus status) := built

theorem extendProjection_grows (state : BasicCodexState) (messages : List Message) :
    Grows state.contextWindow (extendProjection agent state messages).contextWindow :=
  ⟨rfl, rfl, List.prefix_append _ _⟩

theorem pushMessage_grows (state : BasicCodexState) (message : Message) :
    Grows state.contextWindow (pushMessage state message).contextWindow :=
  ⟨rfl, rfl, List.prefix_append _ _⟩

theorem recordResponse_grows (state : BasicCodexState) (response : AssistantResponse) :
    Grows state.contextWindow (recordResponse state response).contextWindow := by
  have pushed := pushMessage_grows state response.message
  unfold recordResponse
  dsimp only
  split
  · exact ⟨pushed.generation, pushed.checkpoint, pushed.messages⟩
  · exact pushed

theorem addLatestProjectionEstimate_grows (state : BasicCodexState) :
    Grows state.contextWindow (addLatestProjectionEstimate agent state).contextWindow := by
  unfold addLatestProjectionEstimate
  dsimp only
  split
  · exact ⟨rfl, rfl, List.prefix_rfl⟩
  · split
    · exact ⟨rfl, rfl, List.prefix_rfl⟩
    · exact .refl _

theorem appendResults_grows (b : OutcomeBuilder BasicCodexState) (messages : List Message) :
    Grows b.state.contextWindow (appendResults agent b messages).state.contextWindow := by
  unfold appendResults
  rw [appendMessages_state]
  exact extendProjection_grows _ _

theorem Boundary.goesOn {r : OutcomeBuilder BasicCodexState} {active : ActiveTurn}
    {through : HistorySequence} (boundary : Boundary agent b active through sid r)
    (unasked : Unasked b) (turn : b.state.activeTurn = some active) :
    GoesOn agent sid b.state r := by
  cases boundary with
  | compact =>
    refine ⟨.refl _, .of_eq turn rfl rfl rfl, ?_⟩
    exact built_reported (requestCompaction_built unasked active _) _ _
  | resume =>
    refine ⟨extendProjection_grows _ _, .of_eq turn rfl rfl rfl, ?_⟩
    refine built_status (requestTurn_built ?_ _) _
    exact unasked.congr rfl

theorem GoesOn.after {state state' : BasicCodexState} {r : OutcomeBuilder BasicCodexState}
    (goesOn : GoesOn agent sid state' r) (window : Grows state.contextWindow state'.contextWindow)
    (turn : SameTurn state state') : GoesOn agent sid state r :=
  ⟨window.trans goesOn.window, turn.trans goesOn.turn, goesOn.built⟩

theorem PlanRan.goesOn {invocation : Invocation} {r : OutcomeBuilder BasicCodexState}
    {plan : ToolPlanState} {active : ActiveTurn} (ran : PlanRan agent b invocation r)
    (turn : b.state.activeTurn = some active) (phase : active.phase = .executingTools plan)
    (sound : plan.Sound) (unasked : Unasked b) :
    GoesOn agent invocation.platformSessionId b.state r := by
  have hplan := ToolExecution.planOf_some.mpr ⟨active, turn, phase⟩
  have scheduled_goesOn : ∀ {scheduled : OutcomeBuilder BasicCodexState},
      ToolExecution.scheduleReady agent b invocation = .ok scheduled →
      Grows b.state.contextWindow scheduled.state.contextWindow ∧
        SameTurn b.state scheduled.state ∧ Unasked scheduled := by
    intro scheduled schedule
    obtain ⟨active', staged, plan', schedules⟩ :=
      ToolExecution.scheduleReady_schedules hplan sound schedule
    cases turn.symm.trans schedules.turn
    refine ⟨?_, ?_, ?_⟩
    · rw [schedules.state]
      exact .refl _
    · have hturn : scheduled.state.activeTurn =
          some { active with phase := .executingTools plan' } := by
        rw [schedules.state]
      exact .of_eq turn hturn rfl rfl
    · intro o ho
      rw [schedules.stages.operations] at ho
      rcases List.mem_append.mp ho with h | h
      · exact unasked o h
      · rw [schedules.executions o h]
        decide
  cases ran with
  | waits schedule _ _ =>
    obtain ⟨window, same, none⟩ := scheduled_goesOn schedule
    exact ⟨window, same, none.built agent _⟩
  | finished schedule executes complete results turn' boundary =>
    obtain ⟨window, same, none⟩ := scheduled_goesOn schedule
    have goesOn := boundary.goesOn (none.congr (appendMessages_operations _ _)) turn'
    refine GoesOn.after goesOn (window.trans (appendResults_grows _ _)) (same.trans ?_)
    intro active' hactive'
    rw [appendResults_activeTurn] at hactive'
    exact ⟨active', hactive', rfl, rfl⟩

/-- What any step leaves: more of the conversation or a new checkpoint, and the turn or a new one of
the event's date. -/
structure Carries (agent : Agent) (event : SessionEvent) (state : BasicCodexState) (nextId : Uuid)
    (r : OutcomeBuilder BasicCodexState) : Prop where
  window : Grows state.contextWindow r.state.contextWindow ∨
    Installs agent state.contextWindow r.state.contextWindow
  turn : SameTurn state r.state ∨ ∃ active, r.state.activeTurn = some active ∧
    active.id = nextId ∧ nextId < r.nextId ∧ active.currentDate = event.date
  built : Built agent event.sessionId r

theorem GoesOn.carries {event : SessionEvent} {state : BasicCodexState} {nextId : Uuid}
    {r : OutcomeBuilder BasicCodexState} (goesOn : GoesOn agent event.sessionId state r) :
    Carries agent event state nextId r :=
  ⟨.inl goesOn.window, .inl goesOn.turn, goesOn.built⟩

theorem setLifecycleStatus_contextWindow (c : Cleanup) (emit : Bool) :
    (Cancellation.setLifecycleStatus c emit).state.contextWindow =
      c.result.state.contextWindow := by
  unfold Cancellation.setLifecycleStatus
  dsimp only
  split
  · split <;> rfl
  · rfl

/-- A cleanup leaves the conversation, and the turn or none. -/
theorem cleanup_carries {event : SessionEvent} {state : BasicCodexState} {nextId : Uuid}
    {c : Cleanup} (unasked : Unasked c.result)
    (window : c.result.state.contextWindow = state.contextWindow)
    (turn : SameTurn state c.result.state) :
    Carries agent event state nextId (Cancellation.setLifecycleStatus c true) := by
  obtain ⟨hoperations, -, hturn⟩ := setLifecycleStatus_state c true
  refine GoesOn.carries ⟨?_, ?_, (unasked.congr hoperations).built agent _⟩
  · rw [setLifecycleStatus_contextWindow, window]
    exact .refl _
  · rcases hturn with hnone | hsame
    · exact .of_none hnone
    · intro active hactive
      rw [hsame] at hactive
      exact turn active hactive

/-- Every branch carries the prompt on. -/
theorem Handled.carries {state : BasicCodexState} {event : SessionEvent} {context : HarnessContext}
    {nextId : Uuid} {r : OutcomeBuilder BasicCodexState}
    (handled : Handled agent state event context nextId r) (sound : PlanSound state) :
    Carries agent event state nextId r := by
  have unasked := unasked_new state nextId
  cases handled with
  | @steered message active kind user turn =>
    have none : Unasked ((OutcomeBuilder.new
        { state with activeTurn := some (steer active event message) } nextId).appendMessage
          message) := unasked.congr rfl
    exact GoesOn.carries ⟨.refl _, .of_eq turn rfl rfl rfl, none.built agent _⟩
  | @compactFirst message kind user turn long =>
    refine ⟨.inl (.refl _), .inr ⟨_, rfl, rfl, ?_, rfl⟩, ?_⟩
    · exact Nat.lt_succ_of_lt (Nat.lt_succ_self nextId)
    · refine built_reported (requestCompaction_built ?_ _ _) _ _
      exact unasked.congr rfl
  | @start message kind user turn short =>
    refine ⟨.inl ?_, .inr ⟨_, rfl, rfl, ?_, rfl⟩, ?_⟩
    · exact (pushMessage_grows state message).trans (addLatestProjectionEstimate_grows _)
    · exact Nat.lt_succ_of_lt (Nat.lt_succ_self nextId)
    · refine built_status (requestTurn_built ?_ _) _
      exact unasked.congr rfl
  | @failAwaiting id outcome active awaiting b details _ _ _ _ base =>
    rcases base with rfl | ⟨response, rfl⟩
    · have none : Unasked (Failure.applyTerminal (.new state nextId) details) := unasked.congr rfl
      exact GoesOn.carries ⟨.refl _, .of_none rfl, none.built agent _⟩
    · have none : Unasked (Failure.applyTerminal (recorded state response nextId) details) :=
        unasked.congr rfl
      exact GoesOn.carries ⟨recordResponse_grows state response, .of_none rfl, none.built agent _⟩
  | @failCompacting id outcome active compaction details =>
    have none : Unasked (Failure.terminal state nextId details) := unasked.congr rfl
    exact GoesOn.carries ⟨.refl _, .of_none rfl, none.built agent _⟩
  | @idle id response active awaiting =>
    refine GoesOn.carries ⟨recordResponse_grows state response, .of_none rfl, ?_⟩
    refine Unasked.built ?_ agent _
    exact unasked.congr rfl
  | @respond id response active awaiting through r completes turn phase awaited noPlan boundary =>
    have turn' : (recorded state response nextId).state.activeTurn = some active :=
      (recordResponse_activeTurn state response).trans turn
    have goesOn := boundary.goesOn (unasked.congr rfl) turn'
    refine GoesOn.carries (GoesOn.after goesOn (recordResponse_grows state response) ?_)
    exact .of_eq turn turn' rfl rfl
  | @refused id response active awaiting plan messages through r completes turn phase awaited planned
      complete results boundary =>
    have turn' : (appendResults agent (recorded state response nextId) messages).state.activeTurn =
        some active := by
      rw [appendResults_activeTurn]
      exact (recordResponse_activeTurn state response).trans turn
    have none : Unasked (appendResults agent (recorded state response nextId) messages) :=
      unasked.congr (appendMessages_operations _ _)
    refine GoesOn.carries (GoesOn.after (boundary.goesOn none turn') ?_ ?_)
    · exact (recordResponse_grows state response).trans
        (appendResults_grows (recorded state response nextId) messages)
    · exact .of_eq turn turn' rfl rfl
  | @plan id response active awaiting plan r completes turn phase awaited planned incomplete ran =>
    have goesOn := ran.goesOn rfl rfl (ToolPlan.parse_sound planned).1 (unasked.congr rfl)
    refine GoesOn.carries (GoesOn.after goesOn (recordResponse_grows state response) ?_)
    exact .of_eq turn rfl rfl rfl
  | @retry id failure active awaiting completes turn phase awaited first =>
    refine GoesOn.carries ⟨.refl _, .of_eq turn rfl rfl rfl, ?_⟩
    exact built_reported (requestTurn_built unasked _) _ _
  | @install id response active compaction validated providerItem message completes turn phase
      awaited accepted item checkpoint bound =>
    refine ⟨.inr ⟨Nat.lt_succ_self _, ?_⟩, .inl (.of_eq turn rfl rfl rfl), ?_⟩
    · intro checkpoint' hcheckpoint
      cases hcheckpoint
      exact ⟨providerItem, item, List.prefix_append _ _⟩
    · unfold installed
      refine built_reported (requestTurn_built ?_ _) _ _
      exact unasked.congr rfl
  | @compactAgain id failure active compaction completes turn phase awaited first =>
    refine GoesOn.carries ⟨.refl _, .of_eq turn rfl rfl rfl, ?_⟩
    exact built_reported (requestCompaction_built unasked _ _) _ _
  | @execution id outcome state' r completes applied ran =>
    obtain ⟨active, plan, call, progress, status, state'', hactive, hphase, -⟩ :=
      ToolExecution.applyCompletion_ok applied
    have hplan := ToolExecution.planOf_some.mpr ⟨active, hactive, hphase⟩
    obtain ⟨active', plan', completed⟩ :=
      ToolExecution.applyCompletion_completed hplan (sound plan hplan).1 applied
    cases hactive.symm.trans completed.turn
    have hturn : state'.activeTurn = some { active with phase := .executingTools plan' } := by
      rw [completed.state]
    have goesOn := ran.goesOn hturn rfl completed.sound (unasked_new state' nextId)
    refine GoesOn.carries (GoesOn.after goesOn ?_ (.of_eq hactive hturn rfl rfl))
    rw [OutcomeBuilder.new_state, completed.state]
    exact .refl _
  | cancel kind begun =>
    obtain ⟨c, targets, -, moves, rfl⟩ := begin_cleanup begun
    have hstate := moves.state
    apply cleanup_carries
    · exact moves.control (unasked_new _ nextId)
    · rw [OutcomeBuilder.emitProgress_state, hstate]
      rfl
    · intro active' hactive'
      rw [OutcomeBuilder.emitProgress_state, hstate] at hactive'
      obtain ⟨active, hactive, rfl⟩ := Option.map_eq_some_iff.mp hactive'
      exact ⟨active, hactive, rfl, rfl⟩

/-- Every invocation that returns an outcome carries the prompt on. -/
theorem Answered.carries {state : BasicCodexState} {event : SessionEvent}
    {context : HarnessContext} {nextId : Uuid} {r : OutcomeBuilder BasicCodexState}
    (answered : Answered agent state event context nextId r) (sound : PlanSound state) :
    Carries agent event state nextId r := by
  have silent_carries (silent : Silent state nextId r) : Carries agent event state nextId r := by
    have none : Unasked r := (unasked_new state nextId).congr silent.operations
    refine GoesOn.carries ⟨?_, ?_, none.built agent _⟩
    · rw [silent.state]
      exact .refl _
    · intro active hactive
      rw [silent.state] at hactive
      exact ⟨active, hactive, rfl, rfl⟩
  cases answered with
  | failed _ silent | routed _ _ _ silent => exact silent_carries silent
  | @cleaned _ _ _ _ c _ _ _ applied =>
    have moves := Cancellation.applyCompletion_moves applied
    have hstate := moves.state
    apply cleanup_carries
    · exact moves.control (unasked_new state nextId)
    · rw [hstate]
      rfl
    · intro active hactive
      rw [hstate] at hactive
      exact ⟨active, hactive, rfl, rfl⟩
  | running _ _ handled => exact handled.carries sound

end Handler

/-! ## Runs -/

namespace Session

open Handler

variable {agent : Agent} {s t u v : Session} {d d' : Delivery}

/-- A turn has a date and an identifier that the session drew. -/
def Dated (s : Session) : Prop :=
  ∀ active, s.state.activeTurn = some active →
    active.currentDate.isEmpty = false ∧ active.id < s.nextId

/-- A turn that has a date keeps it. -/
theorem Dated.fillDate (dated : s.Dated) (date : String) : fillDate s.state date = s.state := by
  unfold Handler.fillDate
  cases hturn : s.state.activeTurn with
  | none =>
    rw [Option.map_none, ← hturn]
  | some active =>
    rw [Option.map_some, if_neg (by rw [(dated active hturn).1]; decide), ← hturn]

/-- A step of a dated session. -/
theorem Step.carries (step : Step agent s d t) (kept : s.Kept) (dated : s.Dated) :
    ∃ r, t = s.after d.stimulus r ∧ s.nextId ≤ r.nextId ∧
      Carries agent (s.event d) s.state s.nextId r := by
  obtain ⟨-, r, rfl, answered⟩ := step.answered
  rw [dated.fillDate] at answered
  exact ⟨r, rfl, (answered.draws kept.plans).later, answered.carries kept.plans⟩

theorem Dated.step (dated : s.Dated) (kept : s.Kept) (step : Step agent s d t) : t.Dated := by
  obtain ⟨r, rfl, hlater, carries⟩ := step.carries kept dated
  intro active' hactive'
  rcases carries.turn with hsame | ⟨active, hactive, hid, hbelow, hdate⟩
  · obtain ⟨active, hactive, hid, hdate⟩ := hsame active' hactive'
    obtain ⟨hdated, hbelow⟩ := dated active hactive
    exact ⟨hdate ▸ hdated, hid ▸ hbelow.trans_le hlater⟩
  · cases hactive.symm.trans hactive'
    exact ⟨hdate ▸ d.dated, hid ▸ hbelow⟩

theorem Reachable.dated (reach : Reachable agent s) : s.Dated := by
  refine reach.induct ?_ ?_
  · intro id nextId active hactive
    cases hactive
  · intro s d t before dated step
    exact dated.step before.kept step

/-- What a session has of one before it: the conversation, unless a checkpoint was installed, and
the turn with its date, unless it is a later one. -/
structure Later (s t : Session) : Prop where
  id : t.id = s.id
  supply : s.nextId ≤ t.nextId
  generation : s.state.contextWindow.generation ≤ t.state.contextWindow.generation
  messages : t.state.contextWindow.generation = s.state.contextWindow.generation →
    s.state.contextWindow.modelHistory <+: t.state.contextWindow.modelHistory
  turn : ∀ active', t.state.activeTurn = some active' → s.nextId ≤ active'.id ∨
    ∃ active, s.state.activeTurn = some active ∧ active'.id = active.id ∧
      active'.currentDate = active.currentDate

theorem Later.refl (s : Session) : Later s s where
  id := rfl
  supply := Nat.le_refl _
  generation := Nat.le_refl _
  messages _ := List.prefix_rfl
  turn active hactive := .inr ⟨active, hactive, rfl, rfl⟩

theorem Later.trans (first : Later s t) (rest : Later t u) : Later s u where
  id := rest.id.trans first.id
  supply := first.supply.trans rest.supply
  generation := first.generation.trans rest.generation
  messages heq := by
    have hfirst := first.generation
    have hrest := rest.generation
    have hmiddle : t.state.contextWindow.generation = s.state.contextWindow.generation := by omega
    exact (first.messages hmiddle).trans (rest.messages (heq.trans hmiddle.symm))
  turn active'' h'' := by
    rcases rest.turn active'' h'' with hnew | ⟨active', h', hid', hdate'⟩
    · exact .inl (first.supply.trans hnew)
    · rcases first.turn active' h' with hnew | ⟨active, h, hid, hdate⟩
      · exact .inl (hid' ▸ hnew)
      · exact .inr ⟨active, h, hid'.trans hid, hdate'.trans hdate⟩

theorem Step.later (step : Step agent s d t) (reach : Reachable agent s) : Later s t := by
  obtain ⟨r, rfl, hlater, carries⟩ := step.carries reach.kept reach.dated
  refine ⟨rfl, hlater, ?_, ?_, ?_⟩
  · rcases carries.window with grows | installs
    · exact Nat.le_of_eq grows.generation.symm
    · exact Nat.le_of_lt installs.generation
  · intro heq
    rcases carries.window with grows | installs
    · exact grows.messages
    · exact absurd heq.symm (Nat.ne_of_lt installs.generation)
  · intro active' hactive'
    rcases carries.turn with hsame | ⟨active, hactive, hid, -, -⟩
    · exact .inr (hsame active' hactive')
    · cases hactive.symm.trans hactive'
      exact .inl (Nat.le_of_eq hid.symm)

theorem later_of_path {deliveries : List Delivery} (reach : Reachable agent s)
    (path : StepPath (Step agent) s deliveries t) : Later s t ∧ Reachable agent t := by
  refine path.preserves (P := fun t => Later s t ∧ Reachable agent t) ?_ ⟨.refl s, reach⟩
  rintro x d y ⟨later, reached⟩ step
  exact ⟨later.trans (step.later reached), reached.step step⟩

/-- The request to the model that a step stages is built from the state that it leaves. -/
theorem Step.built (step : Step agent s d t) (reach : Reachable agent s) {o : StagedOperation}
    {connection : GatewayConnectionId} {request : LlmRequest} (staged : o ∈ t.staged)
    (before : o ∉ s.staged) (asks : o.request = .llm connection request) :
    BuiltFrom agent s.id t.state request := by
  obtain ⟨r, rfl, -, carries⟩ := step.carries reach.kept reach.dated
  rcases List.mem_append.mp staged with h | h
  · exact absurd h before
  · exact carries.built o h connection request asks

theorem Reachable.standsOn (reach : Reachable agent s) :
    StandsOn agent s.state.contextWindow := by
  refine reach.induct (P := fun s => StandsOn agent s.state.contextWindow) ?_ ?_
  · intro id nextId checkpoint hcheckpoint
    cases hcheckpoint
  · intro s d t before stands step
    obtain ⟨r, rfl, -, carries⟩ := step.carries before.kept before.dated
    rcases carries.window with grows | installs
    · intro checkpoint hcheckpoint
      show ∃ item, _ ∧ _ <+: r.state.contextWindow.modelHistory
      obtain ⟨item, hitem, hprefix⟩ := stands checkpoint (grows.checkpoint ▸ hcheckpoint)
      exact ⟨item, hitem, hprefix.trans grows.messages⟩
    · exact installs.stands

/-- Requests to the model that are staged in one turn, the second in the same step or in a later one
and without a new checkpoint since the first, have the same envelope, and the second begins with
the messages of the first. A conversation with a checkpoint begins with what it retained. -/
theorem prompt_prefix_stable (agent : Agent) :
    (∀ {s t u v : Session} {d d' : Delivery}, Reachable agent s → Step agent s d t →
      (u = s ∧ v = t ∨ ∃ deliveries, StepPath (Step agent) t deliveries u ∧ Step agent u d' v) →
      ∀ {o o' : StagedOperation} {connection connection' : GatewayConnectionId}
        {request request' : LlmRequest},
        o ∈ t.staged → o ∉ s.staged → o.request = .llm connection request →
        o' ∈ v.staged → o' ∉ u.staged → o'.request = .llm connection' request' →
        v.state.activeTurn.map (·.id) = t.state.activeTurn.map (·.id) →
        v.state.contextWindow.generation = t.state.contextWindow.generation →
        request'.envelope = request.envelope ∧
          withoutTrigger agent request.messages <+: request'.messages) ∧
      ∀ s, Reachable agent s → StandsOn agent s.state.contextWindow := by
  refine ⟨?_, fun s reach => reach.standsOn⟩
  intro s t u v d d' reach first order o o' connection connection' request request' staged before
    asks staged' before' asks' turn checkpoint
  have reached : Reachable agent t := reach.step first
  -- the step that stages the second request is the first one or comes after it
  obtain ⟨whole, hid, built'⟩ : Later t v ∧ u.id = s.id ∧
      BuiltFrom agent u.id v.state request' := by
    rcases order with ⟨rfl, rfl⟩ | ⟨deliveries, between, second⟩
    · exact ⟨.refl _, rfl, first.built reach staged' before' asks'⟩
    · obtain ⟨later, reached'⟩ := later_of_path reached between
      exact ⟨later.trans (second.later reached'), later.id.trans (first.later reach).id,
        second.built reached' staged' before' asks'⟩
  obtain ⟨active, tail, hactive, htail, rfl⟩ := first.built reach staged before asks
  obtain ⟨active', tail', hactive', htail', rfl⟩ := built'
  rw [hactive, hactive', Option.map_some, Option.map_some] at turn
  have hdate : active'.currentDate = active.currentDate := by
    rcases whole.turn active' hactive' with hnew | ⟨before, hbefore, -, hdate⟩
    · have hbelow := (reached.dated active hactive).2
      rw [← Option.some.inj turn] at hbelow
      exact absurd hnew (Nat.not_le.mpr hbelow)
    · cases hactive.symm.trans hbefore
      exact hdate
  constructor
  · rw [hid]
    rfl
  · have hbegins : withoutTrigger agent ((Prompt.environmentMessage agent.config active.currentDate ::
        t.state.contextWindow.modelHistory) ++ tail) <+:
          Prompt.environmentMessage agent.config active.currentDate ::
            t.state.contextWindow.modelHistory := withoutTrigger_prefix htail
    refine hbegins.trans ?_
    show _ <+: Prompt.environmentMessage agent.config active'.currentDate ::
      (v.state.contextWindow.modelHistory ++ tail')
    rw [hdate]
    exact List.cons_prefix_cons.mpr
      ⟨rfl, (whole.messages checkpoint).trans (List.prefix_append _ _)⟩

/-- The session of the listing run after some of its deliveries. -/
def listing : Nat → Session
  | 0 => start 3 9
  | n + 1 => ((listing n).play ToolExecution.listAgent (listRun[n]?).toList).getD (listing n)

theorem listing_step {n : Nat} {d : Delivery} (hd : listRun[n]? = some d)
    (h : ((listing n).play ToolExecution.listAgent [d]).isSome = true) :
    Step ToolExecution.listAgent (listing n) d (listing (n + 1)) := by
  obtain ⟨t, ht⟩ := Option.isSome_iff_exists.mp h
  have heq : listing (n + 1) = t := by
    show ((listing n).play ToolExecution.listAgent (listRun[n]?).toList).getD (listing n) = t
    rw [hd, Option.toList_some, ht, Option.getD_some]
  rw [heq]
  exact step_of_play ht

/-- The requests of a session to the model. -/
def asked (s : Session) : List (OperationId × LlmRequest) :=
  s.staged.filterMap fun o =>
    match o.request with
    | .llm _ request => some (o.id, request)
    | _ => none

theorem mem_asked {id : OperationId} {request : LlmRequest} (h : (id, request) ∈ s.asked) :
    ∃ connection, (⟨id, .llm connection request⟩ : StagedOperation) ∈ s.staged := by
  obtain ⟨o, ho, hrequest⟩ := List.mem_filterMap.mp h
  obtain ⟨oid, orequest⟩ := o
  cases orequest with
  | llm connection request =>
    cases hrequest
    exact ⟨connection, ho⟩
  | execution | llmCancellation | withdraw => cases hrequest

/-- The request after the cancelled call begins with the messages of the one before the call. -/
theorem prompt_prefix_stable_listing :
    ∃ request request', (10, request) ∈ (listing 1).asked ∧ (13, request') ∈ (listing 3).asked ∧
      request'.envelope = request.envelope ∧
      withoutTrigger ToolExecution.listAgent request.messages <+: request'.messages := by
  have first : Step ToolExecution.listAgent (listing 0) _ (listing 1) :=
    listing_step rfl (by decide +kernel)
  have second : Step ToolExecution.listAgent (listing 1) _ (listing 2) :=
    listing_step rfl (by decide +kernel)
  have third : Step ToolExecution.listAgent (listing 2) _ (listing 3) :=
    listing_step rfl (by decide +kernel)
  have hids : (listing 1).asked.map (·.1) = [10] ∧ (listing 3).asked.map (·.1) = [10, 13] := by
    decide +kernel
  obtain ⟨⟨id, request⟩, hasked, rfl⟩ := List.mem_map.mp (hids.1 ▸ List.mem_singleton_self 10)
  obtain ⟨⟨id', request'⟩, hasked', hid'⟩ :=
    List.mem_map.mp (hids.2 ▸ List.mem_cons_of_mem 10 (List.mem_singleton_self 13))
  cases hid'
  obtain ⟨connection, staged⟩ := mem_asked hasked
  obtain ⟨connection', staged'⟩ := mem_asked hasked'
  have hbefore : ∀ o ∈ (listing 2).staged, o.id ≠ 13 := by decide +kernel
  have hsame := (prompt_prefix_stable ToolExecution.listAgent).1
    (Reachable.start ToolExecution.listAgent 3 9) first
    (.inr ⟨_, .single second, third⟩) staged List.not_mem_nil rfl staged'
    (fun h => hbefore _ h rfl) rfl (by decide +kernel) (by decide +kernel)
  exact ⟨request, request', hasked, hasked', hsame⟩

end Session

end Harness

end AgentPlatform
