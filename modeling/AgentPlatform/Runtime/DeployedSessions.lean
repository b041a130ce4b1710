import AgentPlatform.Harness.Conversation
import AgentPlatform.Harness.ToolDiscipline
import AgentPlatform.Runtime.Standing

/-!
# Sessions of a deployment

Every session that a deployment stores for the basic Codex harness stands for a reachable session of
the harness. So what holds of every reachable session of the harness holds of the stored ones,
whatever else the processes of the deployment do, in any order: what workers submit for it, and what
becomes of the completions that it gets.
-/

namespace AgentPlatform.Runtime

open Json Store

section

variable {d : Deployment} {codec : Codec} {trace : List Entry} {db : Db} {s s' : Session}
  {t : Harness.Session}

/-! ## Every run -/

theorem configured_of_subject {config : Harness.BasicCodexConfig} (same : s'.subject = s.subject)
    (configured : d.configs.decode s.configuration = .ok config) :
    d.configs.decode s'.configuration = .ok config := by
  rw [show s'.configuration = s.configuration from congrArg SessionSubject.configuration same]
  exact configured

/-- One call of a deployment leaves what a session stands for, or delivers one more stimulus. -/
theorem Stands.call (h : Stands d codec s t) (documented : d.Documented)
    (runs : d.Runs codec trace db) (hs : s ∈ db.sessions) (basic : Basic s)
    {config : Harness.BasicCodexConfig} (configured : d.configs.decode s.configuration = .ok config)
    (reach : t.Reachable (d.agent config)) {call : StoreCall} {clock : Clock}
    (admissible : Admissible trace call)
    (makes : d.Makes codec trace db call (exec codec clock db call).1)
    (hs' : s' ∈ (exec codec clock db call).2.sessions)
    (after : s.After codec clock db call (exec codec clock db call).1 s') :
    ∃ t', (t' = t ∨ ∃ delivery, Harness.Session.Step (d.agent config) t delivery t') ∧
      Stands d codec s' t' := by
  have hwithin := version_within runs.run hs
  have hfinished (same : s'.id = s.id) : ∀ id outcome, Finished d.runtime.reading s id outcome →
      Finished d.runtime.reading s' id outcome :=
    fun _ _ => finished_step runs.run admissible hs hs' same
  generalize (exec codec clock db call).1 = reply at makes after
  cases after with
  | same => exact ⟨t, .inl rfl, h⟩
  | due id f due =>
    exact ⟨t, .inl rfl, h.undisturbed (undisturbed_due s id due) hwithin (hfinished rfl)⟩
  | step step =>
    have hstep := step
    cases step with
    | commitHandlerOutcome session hcommit =>
      obtain ⟨delivery, t', hdelivered, hstands⟩ :=
        h.commit documented runs hs basic configured reach hstep makes (hfinished hstep.id_eq)
      exact ⟨t', .inr ⟨delivery, hdelivered⟩, hstands⟩
    | _ =>
      exact ⟨t, .inl rfl, h.undisturbed (undisturbed_step hstep rfl rfl) hwithin
        (hfinished hstep.id_eq)⟩

/-- A session as it is created. -/
theorem stands_create (d : Deployment) (codec : Codec) (clock : Clock) {session : NewSession}
    (state : d.states.encode .initial = .ok session.state) :
    Stands d codec (Session.create clock session) (.start session.id (d.supply session.id 0)) where
  id := rfl
  state := state
  status := rfl
  supply := rfl
  history := rfl
  end_history := rfl
  staged := rfl
  requests _ hr := absurd hr List.not_mem_nil
  delivered := rfl
  outcomes _ hc := absurd hc List.not_mem_nil

/-- A session of the basic Codex harness stands for a reachable session of the harness. -/
theorem Deployment.Runs.stands (runs : d.Runs codec trace db) (documented : d.Documented)
    (hs : s ∈ db.sessions) (basic : Basic s) :
    ∃ config t, d.configs.decode s.configuration = .ok config ∧ t.Reachable (d.agent config) ∧
      Stands d codec s t := by
  induction runs generalizing s with
  | start => cases hs
  | @step trace db call clock before admissible makes ih =>
    rcases before.run.created_or_after call clock hs with ⟨session, rfl, rfl⟩ | ⟨s₀, hs₀, hafter⟩
    · obtain ⟨harness, hregistry, hstate⟩ := makes
      rw [show session.harnessId = harnessId from basic.id,
        show session.harnessVersion = harnessVersion from basic.version,
        Deployment.registry_basicCodex] at hregistry
      cases hregistry
      obtain ⟨config, typed, hconfig, htyped, hencoded⟩ := d.adapter.initialState_ok hstate
      rw [basicCodex_initialState htyped] at hencoded
      exact ⟨config, _, hconfig, .start _ _ _, stands_create d codec clock hencoded⟩
    · have hsubject := hafter.subject
      have hbasic := basic.of_subject hsubject.symm
      obtain ⟨config, t, hconfig, reach, hstands⟩ := ih hs₀ hbasic
      obtain ⟨t', hmoves, hstands'⟩ :=
        hstands.call documented before hs₀ hbasic hconfig reach admissible makes hs hafter
      refine ⟨config, t', configured_of_subject hsubject hconfig, ?_, hstands'⟩
      rcases hmoves with rfl | ⟨delivery, hstep⟩
      · exact reach
      · exact reach.step hstep

/-- Every session of the basic Codex harness, in every run of a deployment, is configured and stands
for a reachable session of the harness. -/
theorem deployed_session (documented : d.Documented) (runs : d.Runs codec trace db)
    (hs : s ∈ db.sessions) (basic : Basic s) :
    ∃ config t, d.configs.decode s.configuration = .ok config ∧ t.Reachable (d.agent config) ∧
      Stands d codec s t :=
  runs.stands documented hs basic

end

/-! ## A first turn

A user writes to a new session, the harness asks the model, and the request ends as cancelled. -/

/-- Codecs that read every uuid, the first instant and the empty map. -/
def turnCodecs : Codecs Timestamp where
  uuid := .word false Uuid.toText fun text => some (Nat.ofDigitChars 10 text.toList 0)
  time := .word false (fun _ => "1970-01-01T00:00:00Z") fun text =>
    if text = "1970-01-01T00:00:00Z" then some 0 else none
  map := emptyMap
  payload := firstCodecs.payload
  response := firstCodecs.response

theorem ofDigitChars_toText (id : Uuid) : Nat.ofDigitChars 10 id.toText.toList 0 = id := by
  show Nat.ofDigitChars 10 (Nat.repr id).toList 0 = id
  rw [Nat.toList_repr]
  exact Nat.ofDigitChars_toDigits (by decide) (by decide)

theorem turnCodecs_sound : turnCodecs.Sound where
  uuid := word_sound fun _ id _ => congrArg some (ofDigitChars_toText id)
  time := word_sound fun text time h => by
    cases (Option.ite_none_right_eq_some.mp h).2
    rfl
  map := firstCodecs_sound.map
  mapReadable := firstCodecs_sound.mapReadable
  payload := firstCodecs_sound.payload
  response := firstCodecs_sound.response

/-- The first event of a session, and what the harness makes of it. -/
def turnDelivery : Harness.Delivery :=
  ⟨0, 1, 0, "1970-01-01", .userMessage (.userText "go on"), by decide⟩

def turnAgent : Harness.Agent := Harness.ToolExecution.listAgent

def turnResult : OutcomeBuilder Harness.BasicCodexState :=
  match (Harness.Session.start 3 9).invoke turnAgent turnDelivery with
  | .ok result => result
  | .error _ => .new .initial 9

theorem turnResult_invoked :
    (Harness.Session.start 3 9).invoke turnAgent turnDelivery = .ok turnResult := by
  have hok : ((Harness.Session.start 3 9).invoke turnAgent turnDelivery).isOk = true := by
    decide +kernel
  unfold turnResult
  cases h : (Harness.Session.start 3 9).invoke turnAgent turnDelivery with
  | error error =>
    rw [h] at hok
    cases hok
  | ok result => rfl

theorem turnResult_leaves :
    turnResult.outcome.operations.map (·.id) = [10] ∧
      turnResult.outcome.operations.all (fun x => (reference x.request).1.isNone) = true ∧
      turnResult.outcome.history.length = 1 ∧ turnResult.state.activeTurn.isSome = true ∧
      turnResult.state.terminalFailure.isNone = true ∧
      turnResult.state.cancellation.isNone = true := by
  decide +kernel

open Classical in
/-- The texts of the two states. -/
noncomputable def turnStates : StoredText Harness.BasicCodexState where
  decode text :=
    if text = "idle" then .ok .initial
    else if text = "turn" then .ok turnResult.state else .error "state"
  encode state :=
    if state = .initial then .ok "idle"
    else if state = turnResult.state then .ok "turn" else .error "state"

noncomputable def turnDeployment : Deployment where
  lib := turnAgent.lib
  files := turnAgent.files
  harness := turnAgent.harness
  configs :=
    { decode := fun text => if text = "config" then .ok turnAgent.config else .error "config"
      encode := fun _ => .ok "config" }
  states := turnStates
  others _ _ := none
  scheduler :=
    { settings :=
        { leaseDuration := 45000, retryDelays := [2000], commitRetryDelays := [250]
          infrastructureRetryDelay := 3000, leases := by decide, retries := by decide
          recommits := by decide, waits := by decide }
      errorText := fun _ => "store" }
  runtime :=
    { settings := { retryDelay := 5, fallbackInterval := 30, requestRetention := 60 }
      gateways := fun connection => if connection = "llm" then some .llm else none
      reading :=
        { codecs := turnCodecs, value := fun _ => none, envelope := fun _ => none
          response := fun _ => none, version := 1 } }
  dispatcher := idleDispatcher
  valueText _ := "null"
  schemaError _ := none
  eventError _ := "event"
  readError _ := "read"
  supply _ version := if version = 0 then 9 else turnResult.nextId

theorem turnDeployment_documented : turnDeployment.Documented where
  codecs := turnCodecs_sound
  uuidText _ := rfl
  uuidRead id := by
    show (Doc.ofString id.toText).string?.bind _ = some id
    rw [string?_ofString]
    exact congrArg some (ofDigitChars_toText id)
  states state text stored hencode hdecode := by
    simp only [turnDeployment, turnStates] at hencode hdecode
    split at hencode
    · rename_i hsame
      cases hencode
      rw [if_pos rfl] at hdecode
      exact (Except.ok.inj hdecode).symm.trans hsame.symm
    · split at hencode
      · rename_i hsame
        cases hencode
        rw [if_neg (by decide), if_pos rfl] at hdecode
        exact (Except.ok.inj hdecode).symm.trans hsame.symm
      · cases hencode

def turnPreparation : OutcomePreparation Timestamp where
  codecs := turnCodecs
  valueText _ := "null"
  schemaError _ := none

def turnPayload : RawJson :=
  ((EventKind.userMessage (.userText "go on")).writePayload turnCodecs).text

/-- The outcome of the first event, as it is committed. -/
def turnCommit : OutcomeCommit where
  state := "turn"
  status := turnResult.outcome.status
  history := turnResult.outcome.history.map fun message =>
    { id := 100, message := turnPreparation.messageText message }
  operations := turnResult.outcome.operations.map turnPreparation.newOperation
  waits := []
  cancelledWaits := []
  progress := turnResult.outcome.progress

def turnSession : NewSession where
  id := 3
  projectId := "project"
  harnessId := harnessId
  harnessVersion := harnessVersion
  configuration := "config"
  state := "idle"
  name := none
  metadata := .null

/-- A user writes to a new session, and the event is handed out. -/
def messageCalls : List StoreCall :=
  [.createSession turnSession,
    .enqueueExternalEvent
      { sessionId := 3, eventType := .userMessage, payload := turnPayload, idempotencyKey := none },
    .claimNextEvent (fun _ => false) 1000]

/-- The first event as it is handed out. -/
def turnClaimed : ClaimedEvent where
  session :=
    { (Session.create stillClock turnSession).record with
      nextEventSequence := 2, currentEventId := some 0, leaseToken := some 1
      leaseExpiresAt := some 1000000 }
  event :=
    { id := 0, sessionId := 3, sequence := 1, eventType := .userMessage, payload := turnPayload
      operationId := none, waitId := none, status := .processing, createdAt := 0
      handledAt := none }
  attemptId := 2
  attemptNumber := 1
  leaseToken := 1
  historyThroughSequence := 0

theorem turnClaimed_handed :
    handedOut (replay plainCodec stillClock messageCalls).1 = [turnClaimed] := rfl

/-- The outcome is committed, and its request is claimed. -/
def requestCalls : List StoreCall :=
  messageCalls ++ [.commitHandlerOutcome turnClaimed.claim turnCommit,
    .claimOperation (fun _ => false) .submission 1000]

/-- The claim that shows the request. -/
def turnSubmission : ClaimedOperation :=
  (operationClaims (replay plainCodec stillClock requestCalls).1).getLast?.get (by decide +kernel)

/-- The request is accepted as job 40, and its result is read. -/
def acceptedCalls : List StoreCall :=
  requestCalls ++ [.recordOperationAccepted turnSubmission 40 0 (some 200),
    .claimOperation (fun _ => false) .resultRetrieval 1000]

def turnRetrieval : ClaimedOperation :=
  (operationClaims (replay plainCodec stillClock acceptedCalls).1).getLast?.get (by decide +kernel)

/-- The call that ends the cancelled request. -/
def turnEnd : StoreCall :=
  .completeOperation turnRetrieval .cancelled none none (some 60000) (some 200)

/-- The job was cancelled, and its completion is handed out. -/
def turnCalls : List StoreCall :=
  acceptedCalls ++ [turnEnd, .claimNextEvent (fun _ => false) 1000]

theorem turnSubmission_issued :
    turnSubmission ∈ operationClaims (replay plainCodec stillClock requestCalls).1 :=
  List.mem_of_getLast? (Option.some_get _).symm

theorem turnRetrieval_issued :
    turnRetrieval ∈ operationClaims (replay plainCodec stillClock acceptedCalls).1 :=
  List.mem_of_getLast? (Option.some_get _).symm

theorem turnRetrieval_shows : turnRetrieval.phase = .resultRetrieval ∧
    turnRetrieval.operation.kind = .llm ∧
    turnRetrieval.operation.gatewayConnectionId = some "llm" ∧
    turnRetrieval.operation.gatewayJobId = some 40 := by
  decide +kernel

theorem turnEnd_heard : ∃ heard, (turnDeployment.runtime.processResultClaim turnRetrieval).Hears
    (heard ++ [⟨.record turnEnd, ()⟩]) :=
  cancelled_heard (turnDeployment_documented.uuidRead 40) rfl turnRetrieval_shows.2.1
    turnRetrieval_shows.2.2.1 turnRetrieval_shows.2.2.2

/-- The outcome of the first event, as the adapter leaves it. -/
def turnOutcome : SerializedOutcome where
  state := "turn"
  history := turnResult.outcome.history
  operations := turnResult.outcome.operations
  waits := []
  cancelledWaits := []
  progress := turnResult.outcome.progress
  status := turnResult.outcome.status

theorem turnResult_left :
    SerializedOutcome.fromTyped turnStates turnResult.outcome = .ok turnOutcome := by
  have hother : turnResult.state ≠ .initial := by
    intro h
    obtain ⟨-, -, -, hturns, -⟩ := turnResult_leaves
    rw [h] at hturns
    cases hturns
  have hencode : turnStates.encode turnResult.state = .ok "turn" := by
    simp [turnStates, hother]
  simp [SerializedOutcome.fromTyped, hencode, Except.mapError, bind, Except.bind, pure, Except.pure,
    turnOutcome]

/-- The event of the first message. -/
def turnEvent : SessionEvent :=
  sessionEvent
    { id := 0, sessionId := 3, sequence := 1, createdAt := 0
      kind := .userMessage (.userText "go on") }

theorem turnClaimed_decoded :
    decodeEventRecord turnCodecs (fun _ => "event") turnClaimed.event = .ok turnEvent := by
  refine @decodeEventRecord_written turnCodecs _ turnClaimed.event
    (.userMessage (.userText "go on")) turnDeployment_documented.uuid_writes ?_ ?_ rfl rfl ?_
  · exact Format.word_writes (if_pos rfl)
  · exact ⟨by rfl, by rintro ⟨⟩⟩
  · rw [EventKind.eventType, EventKind.writePayload, EventKind.readPayload,
      access_record _ (by simp [Json.Distinct])]
    simp [(Message.userText_writes _ _).again]

theorem turnEvent_eq : turnEvent = (Harness.Session.start 3 9).event turnDelivery := by
  have hdate : dateText 0 = "1970-01-01" := by rfl
  simp only [turnEvent, sessionEvent, hdate]
  rfl

theorem turn_configured : turnDeployment.configs.decode "config" = .ok turnAgent.config := by
  simp [turnDeployment]

theorem turnHandled {context : Harness.HarnessContext}
    (history : context.historyThroughSequence = 0) :
    turnDeployment.adapter.handle "config" "idle" turnEvent context 9 =
      .ok (turnOutcome, turnResult.nextId) := by
  have hreads : ((Harness.Session.start 3 9).context turnDelivery.stimulus).ReadsAs turnEvent
      context := by
    refine ⟨history, fun id kind status hkind => ?_⟩
    cases hkind
  have hinvoked := turnResult_invoked
  rw [Harness.Session.invoke, ← turnEvent_eq] at hinvoked
  have hagent : turnDeployment.agent turnAgent.config = turnAgent := rfl
  have hhandled : Harness.Handler.handle (turnDeployment.agent turnAgent.config) .initial turnEvent
      context 9 = .ok turnResult := by
    rw [hagent]
    exact Harness.Handler.handle_readsAs hreads hinvoked
  have hstored : turnStates.decode "idle" = .ok .initial := by simp [turnStates]
  exact turnDeployment.adapter.handle_eq turn_configured hstored
    ((turnDeployment.adapter_handle ..).trans hhandled) turnResult_left

theorem turn_prepared : ∃ log,
    (turnDeployment.preparation.prepareOutcome 3 turnOutcome).Returns log (.ok turnCommit) := by
  obtain ⟨hids, hreferences, hmessages, -⟩ := turnResult_leaves
  have hone : turnResult.outcome.operations.length = 1 := by
    simpa using congrArg List.length hids
  obtain ⟨x, hx⟩ := List.length_eq_one_iff.mp hone
  obtain ⟨message, hmessage⟩ := List.length_eq_one_iff.mp hmessages
  have hfree : (reference x.request).1 = none := by
    rw [hx] at hreferences
    simpa using hreferences
  unfold turnOutcome turnCommit
  generalize turnResult.outcome = outcome at *
  exact ⟨_, turnPreparation.prepareOutcome_single 3 100 hx hfree hmessage rfl rfl⟩

theorem messageCalls_run : Run plainCodec (replay plainCodec stillClock messageCalls).1
    (replay plainCodec stillClock messageCalls).2 := by
  refine .replay fun n call hcall => ?_
  match n, hcall with
  | 0, rfl | 1, rfl | 2, rfl => exact .of_unclaimed rfl rfl rfl

theorem turn_commits (reply : Reply) :
    turnDeployment.Commits plainCodec (replay plainCodec stillClock messageCalls).1
      (replay plainCodec stillClock messageCalls).2 turnClaimed.claim turnCommit reply := by
  have hissued : turnClaimed ∈ handedOut (replay plainCodec stillClock messageCalls).1 := by
    rw [turnClaimed_handed]
    exact List.mem_cons_self
  have hsupply : turnDeployment.supply 3 0 = 9 := by simp [turnDeployment]
  have hused : turnDeployment.supply 3 (0 + 1) = turnResult.nextId := by simp [turnDeployment]
  have hhandled : turnDeployment.adapter.handle "config" "idle" turnEvent
      (turnDeployment.contextAt (replay plainCodec stillClock messageCalls).2 turnClaimed)
      (turnDeployment.supply 3 0) = .ok (turnOutcome, turnResult.nextId) := by
    rw [hsupply]
    exact turnHandled rfl
  exact Deployment.commits_contextAt messageCalls_run hissued ⟨rfl, rfl⟩ rfl rfl rfl rfl
    turnClaimed_decoded hhandled turn_prepared hused

theorem turnConfig_valid : validateConfig turnAgent.config = .ok () := by
  have hnul : "/workspace".contains '\x00' = false := by
    rw [String.contains_char_eq]
    decide
  have hdirectory : validateWorkingDirectory "/workspace" = .ok () := by
    rw [validateWorkingDirectory, if_neg (by decide), if_neg (by decide), hnul,
      if_neg Bool.false_ne_true, if_neg (by decide)]
  simp [validateConfig, turnAgent, Harness.ToolExecution.listAgent, hdirectory,
    validateEnvironmentLabel, supports, supportedReasoningEfforts, bind, Except.bind]

theorem turn_created : ∃ harness,
    turnDeployment.registry harnessId harnessVersion = some harness ∧
      harness.initialState "config" = .ok "idle" := by
  refine ⟨_, Deployment.registry_basicCodex, ?_⟩
  have hvalid : turnDeployment.adapter.harness.validateConfig turnAgent.config = .ok () := by
    show (validateConfig turnAgent.config).mapError (·.toText) = _
    rw [turnConfig_valid]
    rfl
  have hinitial : turnDeployment.adapter.harness.initialState turnAgent.config = .ok .initial := by
    exact basicCodex_starts turnConfig_valid
  have hstored : turnDeployment.adapter.states.encode .initial = .ok "idle" := by
    show turnStates.encode .initial = _
    simp [turnStates]
  have hconfig : turnDeployment.adapter.configs.decode "config" = .ok turnAgent.config :=
    turn_configured
  show turnDeployment.adapter.initialState "config" = _
  simp [Adapter.initialState, hconfig, hvalid, hinitial, hstored, Except.mapError, bind,
    Except.bind]

theorem turn_admissible (n : Nat) (call : StoreCall) (h : turnCalls[n]? = some call) :
    Admissible (replay plainCodec stillClock (turnCalls.take n)).1 call := by
  match n, h with
  | 0, rfl | 1, rfl | 2, rfl | 4, rfl | 6, rfl | 8, rfl => exact .of_unclaimed rfl rfl rfl
  | 3, rfl =>
    have hclaims : handlerClaims (replay plainCodec stillClock messageCalls).1 =
        [turnClaimed.claim] := rfl
    exact .of_handler rfl (hclaims ▸ List.mem_cons_self) rfl rfl
  | 5, rfl => exact .of_operation rfl turnSubmission_issued
  | 7, rfl => exact .of_operation rfl turnRetrieval_issued

theorem turn_makes (n : Nat) (call : StoreCall) (h : turnCalls[n]? = some call) (reply : Reply) :
    turnDeployment.Makes plainCodec (replay plainCodec stillClock (turnCalls.take n)).1
      (replay plainCodec stillClock (turnCalls.take n)).2 call reply := by
  match n, h with
  | 0, rfl => exact turn_created
  | 1, rfl | 2, rfl | 4, rfl | 5, rfl | 6, rfl | 8, rfl => trivial
  | 3, rfl => exact turn_commits reply
  | 7, rfl =>
    show turnDeployment.Completes turnRetrieval turnEnd
    rw [Deployment.Completes, if_pos turnRetrieval_shows.1]
    exact turnEnd_heard

theorem turn_run : turnDeployment.Runs plainCodec (replay plainCodec stillClock turnCalls).1
    (replay plainCodec stillClock turnCalls).2 :=
  .replay turn_admissible fun n call h => turn_makes n call h _

theorem exists_of_any {α : Type} {p : α → Prop} [DecidablePred p] {l : List α}
    (h : l.any (p ·) = true) : ∃ a ∈ l, p a := by
  obtain ⟨a, ha, h⟩ := List.any_eq_true.mp h
  exact ⟨a, ha, of_decide_eq_true h⟩

theorem turn_session : ∃ s ∈ (replay plainCodec stillClock turnCalls).2.sessions,
    s.id = 3 ∧ s.stateVersion = 1 ∧ s.harnessId = harnessId ∧ s.harnessVersion = harnessVersion ∧
      s.configuration = "config" ∧ s.state = "turn" ∧
      s.operations.any (fun o => o.id = 10 ∧ o.status = .cancelled) = true :=
  exists_of_any (by decide +kernel)

theorem deployed_session_turn : ∃ s ∈ (replay plainCodec stillClock turnCalls).2.sessions,
    s.stateVersion = 1 ∧ ∃ config t, turnDeployment.configs.decode s.configuration = .ok config ∧
      t.Reachable (turnDeployment.agent config) ∧ Stands turnDeployment plainCodec s t := by
  obtain ⟨s, hs, -, hversion, hid, hharness, -⟩ := turn_session
  exact ⟨s, hs, hversion, deployed_session turnDeployment_documented turn_run hs ⟨hid, hharness⟩⟩

/-! ## Requests -/

section

variable {d : Deployment} {codec : Codec} {trace : List Entry} {db : Db} {s : Session}

/-- What a worker is shown of a request is the request that the session's harness staged, and the
messages of a request of the model are a conversation. -/
theorem deployed_request (documented : d.Documented) (runs : d.Runs codec trace db)
    {claim : ClaimedOperation} (issued : claim ∈ operationClaims trace) (hs : s ∈ db.sessions)
    (own : claim.operation.sessionId = s.id) (basic : Basic s) {text : RawJson}
    (shown : claim.request = some text) :
    ∃ config, d.configs.decode s.configuration = .ok config ∧
      ∃ t : Harness.Session, t.Reachable (d.agent config) ∧ ∃ x ∈ t.staged,
        x.id = claim.operation.id ∧
        text = (OperationRequest.format d.codecs).encode x.request ∧
        ∀ connection request, x.request = .llm connection request →
          Harness.Conversation d.lib request.messages := by
  induction runs generalizing s with
  | start => cases issued
  | @step trace db call clock before admissible makes ih =>
    have run := before.run
    have hunique := (Run.step call clock run admissible).registered.unique
    rw [operationClaims_concat] at issued
    rcases List.mem_append.mp issued with hold | hnew
    · obtain ⟨s₀, hs₀, hid₀⟩ := List.mem_map.mp (run.registered.claims claim hold)
      obtain ⟨s₁, hs₁, hid₁, hafter⟩ := run.session_after call clock hs₀
      obtain rfl : s₁ = s :=
        Table.eq_of_key hunique hs₁ hs (hid₁.trans (hid₀.trans own))
      obtain ⟨config, hconfig, hrest⟩ :=
        ih hold hs₀ hid₀.symm (basic.of_subject hafter.subject.symm)
      exact ⟨config, configured_of_subject hafter.subject hconfig, hrest⟩
    · have hreply := issuedOperationClaim_reply.mp (Option.mem_toList.mp hnew)
      have hstep := exec_cases codec clock run.registered.unique call
      generalize (exec codec clock db call).1 = reply at hstep hreply
      generalize (exec codec clock db call).2 = db' at hstep hs hunique
      subst hreply
      cases hstep with
      | quiet sessions uuids quiet => cases quiet.operationClaim
      | @session _ s₀ s₁ found step =>
        have hown : s.id = s₀.id := by
          by_contra hother
          exact (step.foreign hother).operationClaim claim rfl own
        obtain rfl : s₁ = s := by
          have hput := Db.mem_put.mpr (.inl ⟨rfl, s₀, found, step.id_eq.symm⟩)
          exact Table.eq_of_key hunique hput hs (step.id_eq.trans hown.symm)
        have hsubject := step.goesOn.subject
        obtain ⟨config, t, hconfig, reach, hstands⟩ :=
          before.stands documented found (basic.of_subject hsubject.symm)
        obtain ⟨x, hx, hrequest⟩ := hstands.requests _ ((step.shows rfl).2 text shown)
        obtain ⟨hid, htext⟩ := Prod.mk.inj hrequest
        refine ⟨config, configured_of_subject hsubject hconfig, t, reach, x, hx, hid.symm, htext,
          fun connection request hllm => ?_⟩
        exact reach.formed.requests x hx connection request hllm

end

theorem turn_submission : ∃ claim ∈ operationClaims (replay plainCodec stillClock turnCalls).1,
    claim.operation.sessionId = 3 ∧ claim.request.isSome = true :=
  exists_of_any (by decide +kernel)

theorem deployed_request_turn :
    ∃ claim ∈ operationClaims (replay plainCodec stillClock turnCalls).1, ∃ text,
      claim.request = some text ∧ ∃ config, ∃ t : Harness.Session,
      t.Reachable (turnDeployment.agent config) ∧ ∃ x ∈ t.staged, x.id = claim.operation.id ∧
        text = (OperationRequest.format turnCodecs).encode x.request := by
  obtain ⟨s, hs, hsession, -, hid, hharness, -⟩ := turn_session
  obtain ⟨claim, hclaim, hown, hshown⟩ := turn_submission
  obtain ⟨text, htext⟩ := Option.isSome_iff_exists.mp hshown
  obtain ⟨config, -, t, hreach, x, hx, hsame, hencoded, -⟩ := deployed_request
    turnDeployment_documented turn_run hclaim hs (hown.trans hsession.symm) ⟨hid, hharness⟩ htext
  exact ⟨claim, hclaim, text, htext, config, t, hreach, x, hx, hsame, hencoded⟩

/-! ## Completions -/

section

variable {d : Deployment} {codec : Codec} {trace : List Entry} {db : Db} {s : Session}

/-- A running session takes in every completion that a worker handles for it, whatever happened
before and beside it, unless the conversation's generation or the history has no successor. -/
theorem deployed_completion (documented : d.Documented) (runs : d.Runs codec trace db)
    (hs : s ∈ db.sessions) (basic : Basic s) {config : Harness.BasicCodexConfig}
    (configured : d.configs.decode s.configuration = .ok config)
    {state : Harness.BasicCodexState} (stored : d.states.decode s.state = .ok state)
    (running : state.terminalFailure = none ∧ state.cancellation = none)
    {claimed : ClaimedEvent} (issued : claimed ∈ handedOut trace) (own : claimed.session.id = s.id)
    (current : claimed.session.stateVersion = s.stateVersion) {event : SessionEvent}
    (decoded : decodeEventRecord d.codecs d.eventError claimed.event = .ok event)
    {context : Harness.HarnessContext} (answers : d.Context codec trace db claimed context)
    {id : OperationId} {kind : OperationKind} {status : OperationOutcomeStatus}
    (completes : event.kind = .operationCompleted id kind status)
    {record : Option Harness.OperationRecord} (read : context.operation id = .ok record) :
    ∃ t, t.Reachable (d.agent config) ∧ Stands d codec s t ∧
      ((∃ result, Harness.Handler.handle (d.agent config) state event context
          (d.supply s.id s.stateVersion) = .ok result) ∨
        ∃ outcome error, Harness.Session.GuardRefuses (d.agent config) t id outcome error) := by
  obtain ⟨config', t, hconfig, reach, hstands⟩ := runs.stands documented hs basic
  obtain rfl : config' = config := Except.ok.inj (hconfig.symm.trans configured)
  obtain rfl : state = t.state := documented.states _ _ _ hstands.state stored
  refine ⟨t, reach, hstands, ?_⟩
  have handed := runs.run.handedOut_session issued hs own
  obtain ⟨stimulus, brings⟩ :=
    hstands.brings documented runs hs reach.kept.numbered handed current answers decoded
  obtain ⟨hsession, hdated, -⟩ := decodeEventRecord_ok (documented.uuid_writes _) decoded
  obtain ⟨delivery, rfl, hevent⟩ :=
    brings.delivery (hstands.id.trans (handed.event.symm.trans hsession.symm)) hdated
  cases hinvoke : t.invoke (d.agent config') delivery with
  | ok result =>
    have hreads : (t.context delivery.stimulus).ReadsAs event context := by
      refine ⟨brings.reads.history.symm, fun id' kind' status' hkind record' hrecord => ?_⟩
      obtain ⟨rfl, -, -⟩ := EventKind.operationCompleted.inj (completes.symm.trans hkind)
      have hsame := brings.reads.operation _ _ _ completes record read
      rw [read, ← hsame, hrecord]
    rw [Harness.Session.invoke, hevent] at hinvoke
    rw [← hstands.supply]
    exact .inl ⟨result, Harness.Handler.handle_readsAs hreads hinvoke⟩
  | error error =>
    have hkind : (t.event delivery).kind = .operationCompleted id kind status := by
      rw [hevent, completes]
    cases hstimulus : delivery.stimulus with
    | userMessage | cancellationRequested | waitResumed =>
      rw [Harness.Session.event, hstimulus] at hkind
      cases hkind
    | completed id' outcome =>
      rw [Harness.Session.event, hstimulus] at hkind
      obtain ⟨rfl, -, -⟩ := EventKind.operationCompleted.inj hkind
      exact .inr ⟨outcome, error,
        Harness.Session.completion_error reach running hstimulus brings.admitted hinvoke⟩

end

theorem turn_completion : ∃ claimed ∈ handedOut (replay plainCodec stillClock turnCalls).1,
    claimed.session.id = 3 ∧ claimed.session.stateVersion = 1 ∧
      claimed.event.eventType = .operationCompleted ∧ claimed.event.createdAt = 0 ∧
      claimed.event.sequence = 2 ∧
      claimed.event.payload = operationPayload 10 .llm .cancelled :=
  exists_of_any (by decide +kernel)

theorem turn_stored : turnDeployment.states.decode "turn" = .ok turnResult.state := by
  show turnStates.decode "turn" = _
  simp [turnStates]

theorem turnCompletion_decoded {event : EventRecord} (time : event.createdAt = 0)
    (sequence : event.sequence = 2) (type : event.eventType = .operationCompleted)
    (payload : event.payload = operationPayload 10 .llm .cancelled) :
    ∃ decoded, decodeEventRecord turnCodecs (fun _ => "event") event = .ok decoded ∧
      decoded.kind = .operationCompleted 10 .llm .cancelled := by
  have huuid : turnCodecs.uuid.read (.ofString (Uuid.toText 10)) = some 10 :=
    turnDeployment_documented.uuidRead 10
  refine ⟨_, @decodeEventRecord_written turnCodecs _ event (.operationCompleted 10 .llm .cancelled)
    turnDeployment_documented.uuid_writes ?_ ?_ ?_ ?_ ?_, rfl⟩
  · rw [time]
    exact Format.word_writes (if_pos rfl)
  · rw [sequence]
    exact ⟨by rfl, by rintro ⟨⟩⟩
  · rw [type]
    rfl
  · rw [payload, operationPayload_text]
    rfl
  · rw [EventKind.eventType, EventKind.writePayload, EventKind.readPayload,
      access_record _ (by simp [Json.Distinct])]
    have hwritten : turnCodecs.uuid.write 10 = .ofString (Uuid.toText 10) := rfl
    simp [hwritten, huuid, (OperationKind.format_writes _).again,
      (OperationOutcomeStatus.format_writes _).again]

theorem deployed_completion_turn :
    ∃ claimed ∈ handedOut (replay plainCodec stillClock turnCalls).1, ∃ event context,
      decodeEventRecord turnCodecs (fun _ => "event") claimed.event = .ok event ∧
      event.kind = .operationCompleted 10 .llm .cancelled ∧
      ∃ t : Harness.Session, t.Reachable (turnDeployment.agent turnAgent.config) ∧
        ((∃ result, Harness.Handler.handle (turnDeployment.agent turnAgent.config) turnResult.state
            event context (turnDeployment.supply 3 1) = .ok result) ∨
          ∃ outcome error, Harness.Session.GuardRefuses (turnDeployment.agent turnAgent.config) t 10
            outcome error) := by
  obtain ⟨s, hs, hsession, hversion, hid, hharness, hconfig, hstate, hoperation⟩ := turn_session
  obtain ⟨o, ho, hended⟩ := List.any_eq_true.mp hoperation
  obtain ⟨hnamed, hcancelled⟩ := of_decide_eq_true hended
  obtain ⟨claimed, hclaimed, hown, hcurrent, htype, htime, hsequence, hpayload⟩ := turn_completion
  obtain ⟨event, hdecoded, hkind⟩ := turnCompletion_decoded htime hsequence htype hpayload
  have hconfigured : turnDeployment.configs.decode s.configuration = .ok turnAgent.config := by
    rw [hconfig]
    exact turn_configured
  have hstored : turnDeployment.states.decode s.state = .ok turnResult.state := by
    rw [hstate]
    exact turn_stored
  have hfinished : Finished turnDeployment.runtime.reading s 10 .cancelled := by
    refine ⟨o, ho, hnamed, ?_, ?_⟩
    · rw [hcancelled]
      rfl
    · simp [JobReading.outcome, OperationRow.record, hcancelled]
  obtain ⟨record, hread⟩ := hfinished.contextAt turn_run.run hs (hown.trans hsession.symm)
  have hrunning : turnResult.state.terminalFailure = none ∧
      turnResult.state.cancellation = none := by
    obtain ⟨-, -, -, -, hfailure, hcancellation⟩ := turnResult_leaves
    exact ⟨Option.isNone_iff_eq_none.mp hfailure, Option.isNone_iff_eq_none.mp hcancellation⟩
  have hcontext := Deployment.contextAt_context (d := turnDeployment) turn_run.run hclaimed
  obtain ⟨t, hreach, -, hdone⟩ := deployed_completion turnDeployment_documented turn_run hs
    ⟨hid, hharness⟩ hconfigured hstored hrunning hclaimed (hown.trans hsession.symm)
    (hcurrent.trans hversion.symm) hdecoded hcontext hkind hread
  rw [hsession, hversion] at hdone
  exact ⟨claimed, hclaimed, event, _, hdecoded, hkind, t, hreach, hdone⟩

end AgentPlatform.Runtime
