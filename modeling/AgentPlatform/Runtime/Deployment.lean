import AgentPlatform.Runtime.BasicCodex
import AgentPlatform.Runtime.EndedOperations
import AgentPlatform.Runtime.World
import AgentPlatform.Store.HandedOut

/-!
# A deployment

The processes around one database: the server creates sessions in the state that their harness
starts from, scheduler workers commit what a harness makes of an event that they were handed out,
and completion and dispatch workers end operations. A run of the deployment is a run of the store in
which these calls are theirs, in any order and among any other calls.
-/

namespace AgentPlatform.Runtime

open Json Store
open Harness (BasicCodexConfig BasicCodexHarness BasicCodexState)

/-! ## Workers of the scheduler -/

abbrev HandlerNote := Asking.Note (HandlerRequest SessionEvent SerializedOutcome) HandlerRequest.Answer

/-- What the worker of an event has heard when it may commit an outcome: the event was decoded and
handled, and the outcome was prepared. -/
structure Earned (claimed : ClaimedEvent) (heard : List HandlerNote) (commit : OutcomeCommit)
    (event : SessionEvent) (outcome : SerializedOutcome) : Prop where
  decoded : ⟨.decodeEvent claimed.event, (.ok event : Except String SessionEvent)⟩ ∈ heard
  handled : ⟨.handle claimed event, (some (.outcome outcome) : Option (Handled _))⟩ ∈ heard
  prepared : ⟨.prepareOutcome claimed.session.id outcome,
    (some (.ok commit) : Option (Except OutcomePreparationError _))⟩ ∈ heard

/-- A worker commits only what it has earned, and under its own claim. -/
def CommitsEarned (claimed : ClaimedEvent) (heard : List HandlerNote) :
    HandlerRequest SessionEvent SerializedOutcome → Prop
  | .commit claim commit =>
    claim = claimed.claim ∧ ∃ event outcome, Earned claimed heard commit event outcome
  | _ => True

section

variable {scheduler : SessionScheduler} {claimed : ClaimedEvent} {heard : List HandlerNote}
  {commit : OutcomeCommit} {event : SessionEvent} {outcome : SerializedOutcome}

theorem Earned.mono {heard' : List HandlerNote} (h : Earned claimed heard commit event outcome)
    (more : heard ⊆ heard') : Earned claimed heard' commit event outcome :=
  ⟨more h.decoded, more h.handled, more h.prepared⟩

/-- The program commits only what it has earned. -/
abbrev Earns (claimed : ClaimedEvent) (heard : List HandlerNote)
    (program : HandlerWork SessionEvent SerializedOutcome Unit) : Prop :=
  program.Obeys (.history (CommitsEarned claimed)) (fun _ _ => True) heard

theorem earns_whileOwned {program : HandlerWork SessionEvent SerializedOutcome Unit}
    (owned : ∀ heard, Earns claimed heard program) {claim : HandlerClaim} :
    Earns claimed heard (SessionScheduler.whileOwned claim program) := by
  refine ⟨trivial, fun answer => ?_⟩
  cases answer with
  | false => trivial
  | true => exact owned _

theorem earns_block {claim : HandlerClaim} {code message : String} :
    Earns claimed heard (SessionScheduler.block claim code message) :=
  ⟨trivial, fun _ => trivial⟩

theorem earns_abandonInfrastructure {claim : HandlerClaim} {code message : String} :
    Earns claimed heard (SessionScheduler.abandonInfrastructure claim code message) :=
  ⟨trivial, fun _ => trivial⟩

theorem earns_retryHandler {claim : HandlerClaim} {code message : String} :
    Earns claimed heard (scheduler.retryHandler claim code message) := by
  refine ⟨trivial, fun answer => ?_⟩
  cases answer with
  | error error => trivial
  | ok count => exact ⟨trivial, fun _ => trivial⟩

/-! ### The commit -/

theorem earns_commitOnce (earned : Earned claimed heard commit event outcome)
    {retry : StoreError → HandlerWork SessionEvent SerializedOutcome Unit}
    (retries : ∀ error heard', heard ⊆ heard' → Earns claimed heard' (retry error)) :
    Earns claimed heard (scheduler.commitOnce claimed.claim commit retry) := by
  refine ⟨⟨rfl, event, outcome, earned⟩, fun answer => ?_⟩
  match answer with
  | none | some (.ok ()) | some (.error .staleClaim) => trivial
  | some (.error (.retryable error)) => exact retries error _ (List.subset_append_left _ _)
  | some (.error (.rejected error)) => exact earns_whileOwned fun _ => earns_block
  | some (.error (.uncertain error)) => exact ⟨trivial, fun _ => trivial⟩

theorem earns_commitPrepared (earned : Earned claimed heard commit event outcome)
    (delays : List Nat) :
    Earns claimed heard (scheduler.commitPrepared claimed.claim commit delays) := by
  induction delays generalizing heard with
  | nil =>
    unfold SessionScheduler.commitPrepared
    exact earns_commitOnce earned fun _ _ _ => earns_whileOwned fun _ => earns_abandonInfrastructure
  | cons delay delays ih =>
    unfold SessionScheduler.commitPrepared
    refine earns_commitOnce earned fun _ heard' more => ⟨trivial, fun lost => ?_⟩
    cases lost with
    | true => trivial
    | false =>
      refine ⟨trivial, fun lost => ?_⟩
      cases lost with
      | true => trivial
      | false =>
        refine ih (earned.mono (List.Subset.trans more ?_))
        exact List.Subset.trans (List.subset_append_left _ _) (List.subset_append_left _ _)

theorem earns_commitOutcome
    (decoded : ⟨.decodeEvent claimed.event, (.ok event : Except String SessionEvent)⟩ ∈ heard)
    (handled : ⟨.handle claimed event, (some (.outcome outcome) : Option (Handled _))⟩ ∈ heard) :
    Earns claimed heard (scheduler.commitOutcome claimed.claim outcome) := by
  refine ⟨trivial, fun prepared => ?_⟩
  cases prepared with
  | none => trivial
  | some prepared =>
    refine ⟨trivial, fun lost => ?_⟩
    cases lost with
    | true => trivial
    | false =>
      match prepared with
      | .ok commit =>
        refine earns_commitPrepared (?_ : Earned claimed _ commit event outcome) _
        refine ⟨?_, ?_, ?_⟩
        · exact List.mem_append_left _ (List.mem_append_left _ decoded)
        · exact List.mem_append_left _ (List.mem_append_left _ handled)
        · exact List.mem_append_left _ (List.mem_append_right _ List.mem_cons_self)
      | .error (.invalid error) => exact earns_whileOwned fun _ => earns_block
      | .error (.store error) => exact earns_whileOwned fun _ => earns_abandonInfrastructure

theorem earns_finishHandled
    (decoded : ⟨.decodeEvent claimed.event, (.ok event : Except String SessionEvent)⟩ ∈ heard)
    {handled : Handled SerializedOutcome} (heardIt : ⟨.handle claimed event, some handled⟩ ∈ heard) :
    Earns claimed heard (scheduler.finishHandled claimed.claim handled) := by
  cases handled with
  | outcome outcome => exact earns_commitOutcome decoded heardIt
  | panicked => exact earns_whileOwned fun _ => earns_retryHandler
  | failed error =>
    cases error with
    | handler message =>
      refine ⟨trivial, fun failure => ?_⟩
      cases failure with
      | none => exact earns_whileOwned fun _ => earns_retryHandler
      | some error => exact earns_whileOwned fun _ => earns_abandonInfrastructure
    | _ => exact earns_whileOwned fun _ => earns_block

/-- Whatever a worker of the scheduler is answered, it commits only what it has earned. -/
theorem earns_processClaim (scheduler : SessionScheduler) (claimed : ClaimedEvent) :
    Earns claimed [] (scheduler.processClaim claimed) := by
  refine ⟨trivial, fun registered => ?_⟩
  cases registered with
  | false => exact earns_block
  | true =>
    refine ⟨trivial, fun validation => ?_⟩
    cases validation with
    | invalid error => exact earns_block
    | panicked => exact earns_block
    | valid =>
      refine ⟨trivial, fun decoded => ?_⟩
      cases decoded with
      | error error => exact earns_block
      | ok event =>
        refine ⟨trivial, fun handled => ?_⟩
        cases handled with
        | none => trivial
        | some handled =>
          refine @earns_finishHandled scheduler claimed _ event ?_ _ ?_
          · exact List.mem_append_left _ (List.mem_append_right _ List.mem_cons_self)
          · exact List.mem_append_right _ List.mem_cons_self

end

/-! ### A commit at once -/

/-- What a worker hears before it commits a prepared outcome at once. -/
def commitNotes (claimed : ClaimedEvent) (event : SessionEvent) (outcome : SerializedOutcome)
    (commit : OutcomeCommit) : List HandlerNote := [
  ⟨.harness claimed.session.harnessId claimed.session.harnessVersion, true⟩,
  ⟨.validateConfiguration claimed.session, Validation.valid⟩,
  ⟨.decodeEvent claimed.event, (.ok event : Except String SessionEvent)⟩,
  ⟨.handle claimed event, (some (.outcome outcome) : Option (Handled _))⟩,
  ⟨.prepareOutcome claimed.session.id outcome,
    (some (.ok commit) : Option (Except OutcomePreparationError _))⟩,
  ⟨.ownershipLost, false⟩]

theorem processClaim_commits (scheduler : SessionScheduler) (claimed : ClaimedEvent)
    (event : SessionEvent) (outcome : SerializedOutcome) (commit : OutcomeCommit) :
    (scheduler.processClaim claimed).Hears (commitNotes claimed event outcome commit ++
      [⟨.commit claimed.claim commit,
        (some (.ok ()) : Option (Except HandlerCommitError Unit))⟩]) := by
  refine ⟨true, rfl, .valid, rfl, .ok event, rfl, some (.outcome outcome), rfl, some (.ok commit),
    rfl, false, rfl, ?_⟩
  show (scheduler.commitPrepared claimed.claim commit scheduler.settings.commitRetryDelays).Hears _
  unfold SessionScheduler.commitPrepared
  split
  · exact ⟨some (.ok ()), rfl, trivial⟩
  · exact ⟨some (.ok ()), rfl, trivial⟩

/-! ## The deployment -/

/-- The basic Codex harness, what the platform registers it with, and the workers around it. -/
structure Deployment where
  lib : Harness.Foreign
  files : Harness.FileTools
  harness : BasicCodexHarness
  configs : StoredText BasicCodexConfig
  states : StoredText BasicCodexState
  /-- The other harnesses. -/
  others : HarnessId → HarnessVersion → Option RegisteredHarness
  scheduler : SessionScheduler
  runtime : CompletionRuntime Timestamp
  dispatcher : OperationDispatcher
  valueText : Value → RawJson
  schemaError : Value → Option String
  eventError : RawJson → String
  readError : ReadError → String
  /-- The identifiers that the invocations draw in each version of a session. -/
  supply : SessionId → StateVersion → Uuid

namespace Deployment

variable (d : Deployment)

abbrev codecs : Codecs Timestamp := d.runtime.reading.codecs

def adapter : Adapter BasicCodexConfig BasicCodexState where
  harness := basicCodex d.lib d.files d.harness
  configs := d.configs
  states := d.states

def agent (config : BasicCodexConfig) : Harness.Agent :=
  { lib := d.lib, files := d.files, harness := d.harness, config }

/-- `HarnessRegistry::get`. -/
def registry (id : HarnessId) (version : HarnessVersion) : Option RegisteredHarness :=
  if id = harnessId ∧ version = harnessVersion then some d.adapter.registered
  else d.others id version

def preparation : OutcomePreparation Timestamp where
  codecs := d.codecs
  valueText := d.valueText
  schemaError := d.schemaError

/-- What a handler reads while it handles the event: the end of the history as it was handed out,
and operations as they are in some state of the database since. -/
structure Context (codec : Codec) (trace : List Entry) (db : Db) (claimed : ClaimedEvent)
    (context : Harness.HarnessContext) : Prop where
  history : context.historyThroughSequence = claimed.historyThroughSequence
  operation : ∀ id, ∃ answer, context.operation id =
      contextOperation d.runtime.reading d.scheduler.errorText d.readError answer ∧
    ∀ found, answer = .ok found → ∃ trace₀ db₀, Run codec trace₀ db₀ ∧
      Continues codec trace₀ db₀ trace db ∧ claimed ∈ handedOut trace₀ ∧
      found = readOperation db₀ claimed.session.id id

/-- What a handler reads that reads at once. -/
def contextAt (db : Db) (claimed : ClaimedEvent) : Harness.HarnessContext where
  operation id := contextOperation d.runtime.reading d.scheduler.errorText d.readError
    (.ok (readOperation db claimed.session.id id))
  historyThroughSequence := claimed.historyThroughSequence

/-- What the worker of an event is answered. An invocation with an outcome draws the identifiers up
to `next`. -/
def Answers (codec : Codec) (trace : List Entry) (db : Db) (claimed : ClaimedEvent) (next : Uuid) :
    (request : HandlerRequest SessionEvent SerializedOutcome) → request.Answer → Prop
  | .decodeEvent event, decoded => decoded = decodeEventRecord d.codecs d.eventError event
  | .handle _ event, some (.outcome outcome) => ∃ harness context,
      d.registry claimed.session.harnessId claimed.session.harnessVersion = some harness ∧
      d.Context codec trace db claimed context ∧
      harness.handle claimed.session.configuration claimed.session.state event context
        (d.supply claimed.session.id claimed.session.stateVersion) = .ok (outcome, next)
  | .prepareOutcome sessionId outcome, some prepared =>
      ∃ log, (d.preparation.prepareOutcome sessionId outcome).Returns log prepared
  | _, _ => True

/-- The commit is one of a worker of the scheduler. What its invocation drew is used up when the
commit succeeds. -/
def Commits (codec : Codec) (trace : List Entry) (db : Db) (claim : HandlerClaim)
    (commit : OutcomeCommit) (reply : Reply) : Prop :=
  ∃ claimed ∈ handedOut trace, ∃ heard answer next,
    (d.scheduler.processClaim claimed).Hears (heard ++ [⟨.commit claim commit, answer⟩]) ∧
    (∀ note ∈ heard, d.Answers codec trace db claimed next note.1 note.2) ∧
    (reply = .done → d.supply claimed.session.id (claimed.session.stateVersion + 1) = next)

/-- The end of an operation is recorded by the worker that holds its claim. -/
def Completes (claim : ClaimedOperation) (call : StoreCall) : Prop :=
  if claim.phase = .resultRetrieval then
    ∃ heard, (d.runtime.processResultClaim claim).Hears (heard ++ [⟨.record call, ()⟩])
  else ∃ heard, (d.dispatcher.processClaim claim).Hears (heard ++ [⟨.record call, ()⟩])

/-- A process of the deployment makes the call. A session is created in the state that its harness
starts from. -/
def Makes (codec : Codec) (trace : List Entry) (db : Db) (call : StoreCall) (reply : Reply) : Prop :=
  match call with
  | .createSession session =>
    ∃ harness, d.registry session.harnessId session.harnessVersion = some harness ∧
      harness.initialState session.configuration = .ok session.state
  | .commitHandlerOutcome claim commit => d.Commits codec trace db claim commit reply
  | .completeOperation claim .. => d.Completes claim call
  | _ => True

/-- A run of the deployment. -/
inductive Runs (codec : Codec) : List Entry → Db → Prop
  | start : Runs codec [] Db.empty
  | step {trace : List Entry} {db : Db} (call : StoreCall) (clock : Clock)
      (before : Runs codec trace db) (admissible : Admissible trace call)
      (makes : d.Makes codec trace db call (exec codec clock db call).1) :
      Runs codec (trace ++ [⟨call, clock, (exec codec clock db call).1⟩]) (exec codec clock db call).2

/-- What the libraries of a deployment document: the codecs read what they write, a UUID is written
as its text, and a state that was stored is read as it was. -/
structure Documented : Prop where
  codecs : d.codecs.Sound
  uuidText : ∀ id, d.codecs.uuid.write id = .ofString id.toText
  uuidRead : ∀ id, d.codecs.uuid.read (.ofString id.toText) = some id
  states : ∀ state text stored, d.states.encode state = .ok text →
    d.states.decode text = .ok stored → stored = state

variable {d} {codec : Codec} {trace : List Entry} {db : Db}

theorem Runs.run (h : d.Runs codec trace db) : Run codec trace db := by
  induction h with
  | start => exact .start
  | step call clock before admissible makes ih => exact .step call clock ih admissible

/-- The operations of a deployment are ended by its workers. -/
theorem Runs.served (h : d.Runs codec trace db) : Served d.runtime d.dispatcher trace := by
  induction h with
  | start => exact ⟨fun _ hentry => absurd hentry List.not_mem_nil,
      fun _ hentry => absurd hentry List.not_mem_nil⟩
  | @step trace db call clock before admissible makes ih =>
    refine ⟨fun entry hentry claim status result error expiresAt httpStatus hcall hphase => ?_,
      fun entry hentry claim status result error expiresAt httpStatus hcall hphase => ?_⟩
    · rcases List.mem_append.mp hentry with hold | hnew
      · exact ih.retrieved entry hold _ _ _ _ _ _ hcall hphase
      · cases List.mem_singleton.mp hnew
        cases hcall
        have hcompletes : d.Completes claim _ := makes
        rwa [Completes, if_pos hphase] at hcompletes
    · rcases List.mem_append.mp hentry with hold | hnew
      · exact ih.dispatched entry hold _ _ _ _ _ _ hcall hphase
      · cases List.mem_singleton.mp hnew
        cases hcall
        have hcompletes : d.Completes claim _ := makes
        rwa [Completes, if_neg hphase] at hcompletes

/-- Calls that processes of the deployment make one after the other are a run of it. -/
theorem Runs.replay {clock : Clock} {calls : List StoreCall}
    (admissible : ∀ n call, calls[n]? = some call →
      Admissible (Store.replay codec clock (calls.take n)).1 call)
    (makes : ∀ n call, calls[n]? = some call →
      d.Makes codec (Store.replay codec clock (calls.take n)).1
        (Store.replay codec clock (calls.take n)).2 call
        (exec codec clock (Store.replay codec clock (calls.take n)).2 call).1) :
    d.Runs codec (Store.replay codec clock calls).1 (Store.replay codec clock calls).2 := by
  induction calls using List.reverseRecOn with
  | nil => exact .start
  | append_singleton calls call ih =>
    have hearlier {n : Nat} {call' : StoreCall} (h : calls[n]? = some call') :
        (calls ++ [call])[n]? = some call' ∧ (calls ++ [call]).take n = calls.take n := by
      have hlt : n < calls.length := (List.getElem?_eq_some_iff.mp h).1
      exact ⟨(List.getElem?_append_left hlt).trans h, List.take_append_of_le_length hlt.le⟩
    have hbefore : d.Runs codec (Store.replay codec clock calls).1
        (Store.replay codec clock calls).2 := by
      refine ih (fun n call' h => ?_) fun n call' h => ?_
      · have := admissible n call' (hearlier h).1
        rwa [(hearlier h).2] at this
      · have := makes n call' (hearlier h).1
        rwa [(hearlier h).2] at this
    have hadmissible := admissible calls.length call (by simp)
    have hmakes := makes calls.length call (by simp)
    rw [List.take_left] at hadmissible hmakes
    simpa [Store.replay] using hbefore.step call clock hadmissible hmakes

theorem registry_basicCodex : d.registry harnessId harnessVersion = some d.adapter.registered :=
  if_pos ⟨rfl, rfl⟩

theorem contextAt_context (run : Run codec trace db) {claimed : ClaimedEvent}
    (issued : claimed ∈ handedOut trace) :
    d.Context codec trace db claimed (d.contextAt db claimed) where
  history := rfl
  operation id := by
    refine ⟨.ok (readOperation db claimed.session.id id), rfl, fun found hfound => ?_⟩
    exact ⟨trace, db, run, .refl, issued, (Except.ok.inj hfound).symm⟩

theorem adapter_handle (d : Deployment) (config : BasicCodexConfig) (state : BasicCodexState)
    (event : SessionEvent) (context : Harness.HarnessContext) (nextId : Uuid) :
    d.adapter.harness.handle config state event context nextId =
      Harness.Handler.handle (d.agent config) state event context nextId := rfl

/-- A worker whose handler reads at once commits what the harness makes of an event. -/
theorem commits_contextAt (run : Run codec trace db) {claimed : ClaimedEvent}
    (issued : claimed ∈ handedOut trace) {event : SessionEvent} {outcome : SerializedOutcome}
    {commit : OutcomeCommit} {next : Uuid} {reply : Reply} {sessionId : SessionId}
    {version : StateVersion} {configuration state : RawJson}
    (harness : claimed.session.harnessId = harnessId ∧
      claimed.session.harnessVersion = harnessVersion)
    (own : claimed.session.id = sessionId) (current : claimed.session.stateVersion = version)
    (configured : claimed.session.configuration = configuration)
    (stored : claimed.session.state = state)
    (decoded : decodeEventRecord d.codecs d.eventError claimed.event = .ok event)
    (handled : d.adapter.handle configuration state event (d.contextAt db claimed)
      (d.supply sessionId version) = .ok (outcome, next))
    (prepared : ∃ log, (d.preparation.prepareOutcome sessionId outcome).Returns log (.ok commit))
    (used : d.supply sessionId (version + 1) = next) :
    d.Commits codec trace db claimed.claim commit reply := by
  subst own current configured stored
  refine ⟨claimed, issued, commitNotes claimed event outcome commit, some (.ok ()), next,
    processClaim_commits .., fun note hnote => ?_, fun _ => used⟩
  simp only [commitNotes, List.mem_cons, List.not_mem_nil, or_false] at hnote
  rcases hnote with rfl | rfl | rfl | rfl | rfl | rfl
  · trivial
  · trivial
  · exact decoded.symm
  · refine ⟨d.adapter.registered, d.contextAt db claimed, ?_, contextAt_context run issued, handled⟩
    rw [harness.1, harness.2, registry_basicCodex]
  · exact prepared
  · trivial

/-- A commit of the deployment is a prepared outcome of an invocation of the session's harness. -/
theorem Commits.earned {claim : HandlerClaim} {commit : OutcomeCommit} {reply : Reply}
    (h : d.Commits codec trace db claim commit reply) :
    ∃ claimed ∈ handedOut trace, claim = claimed.claim ∧ ∃ event outcome harness context next,
      decodeEventRecord d.codecs d.eventError claimed.event = .ok event ∧
      d.registry claimed.session.harnessId claimed.session.harnessVersion = some harness ∧
      d.Context codec trace db claimed context ∧
      harness.handle claimed.session.configuration claimed.session.state event context
        (d.supply claimed.session.id claimed.session.stateVersion) = .ok (outcome, next) ∧
      d.preparation.Prepared outcome commit ∧
      (reply = .done → d.supply claimed.session.id (claimed.session.stateVersion + 1) = next) := by
  obtain ⟨claimed, hclaimed, heard, answer, next, hears, answers, used⟩ := h
  obtain ⟨hclaim, event, outcome, hearned⟩ := (earns_processClaim d.scheduler claimed).asked hears
  obtain ⟨harness, context, hregistry, hcontext, hhandle⟩ := answers _ hearned.handled
  obtain ⟨log, hprepared⟩ := answers _ hearned.prepared
  have hdecoded : (.ok event : Except String SessionEvent) =
    decodeEventRecord d.codecs d.eventError claimed.event := answers _ hearned.decoded
  exact ⟨claimed, hclaimed, hclaim, event, outcome, harness, context, next, hdecoded.symm, hregistry,
    hcontext, hhandle, OutcomePreparation.prepareOutcome_returned hprepared, used⟩

end Deployment

end AgentPlatform.Runtime
