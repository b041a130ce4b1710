import AgentPlatform.Harness.HeldSessions
import AgentPlatform.Harness.ContextEstimate

/-!
# What a shell result promises

A shell result may tell the model that its process runs, or that more of the output remains. The
text is made by `format_result`, the bookkeeping by `apply_response`. This module compares the two
in every run (`Session.Paged`): a process that runs is tracked under a number that the result names,
and so is the rest of what a `write_stdin` call reads. An `exec_command` call whose process has ended
before its output was read names no number, though its result may ask for another `write_stdin`.
-/

namespace AgentPlatform.Harness

namespace ShellTools

/-! ## The text of a result -/

def moreLine : String :=
  "Warning: more command output remains; call write_stdin again to continue reading."

def runningLine (n : Int) : String := "Process running with session ID " ++ toString n

/-- The warnings of a result. -/
def resultWarnings (progress : ShellCallState) (execution : Execution.Execution) : List String :=
  (if progress.moreOutput then [moreLine] else []) ++
    ((if execution.outputIncomplete then
        ["Warning: the execution runtime could not capture all command output."] else []) ++
      (if progress.outputGap then
        ["Warning: earlier command output was no longer retained by the execution runtime."]
        else []))

/-- What the harness itself says in a result, before the output of the process. -/
def resultNotes (progress : ShellCallState) (execution : Execution.Execution)
    (completedAtMs : Int) : List String :=
  resultHeader progress execution completedAtMs ++ resultWarnings progress execution

/-- Whether a process failed in a way that is reported as an error. -/
def fails : Option Execution.ExecutionResult → Bool
  | some (.startFailed _) | some (.lost _) => true
  | _ => false

theorem intercalate_notes {header : List String} (nonempty : header ≠ []) (notes : List String)
    (body : String) : "\n".intercalate (header ++ notes) ++ "\n" ++ body =
      "\n".intercalate header ++ "\n" ++ notes.foldr (fun note rest => note ++ "\n" ++ rest) body := by
  induction notes generalizing header with
  | nil =>
    rw [List.append_nil]
    rfl
  | cons note notes ih =>
    have hstep := @ih (header ++ [note]) (by simp)
    rw [List.append_assoc, List.singleton_append] at hstep
    rw [hstep, String.intercalate_append_of_ne_nil nonempty (by simp),
      String.intercalate_singleton, List.foldr_cons]
    simp only [String.append_assoc]

/-- The text of a result that is no error: the notes, and then the output of the process. -/
theorem formatResult_text {progress : ShellCallState} {observation : ObservationWire}
    {completedAtMs : Int} (succeeds : fails observation.execution.result = false) :
    (formatResult progress observation completedAtMs).content =
      [.text ("\n".intercalate (resultNotes progress observation.execution completedAtMs) ++ "\n" ++
        progress.output.modelText progress.maxOutputTokens) none] := by
  have hnonempty : resultHeader progress observation.execution completedAtMs ≠ [] := by
    unfold resultHeader
    simp
  unfold resultNotes
  rw [intercalate_notes hnonempty]
  unfold formatResult
  split
  next h =>
    rw [h] at succeeds
    cases succeeds
  next h =>
    rw [h] at succeeds
    cases succeeds
  · unfold resultBody resultWarnings
    cases progress.moreOutput <;> cases observation.execution.outputIncomplete <;>
      cases progress.outputGap <;> rfl

/-! ## What the notes say -/

section

variable {progress : ShellCallState} {execution : Execution.Execution} {completedAtMs : Int}

/-- The character at a place of a text. -/
def charAt (s : String) (k : Nat) : Option Char := s.toList[k]?

theorem charAt_append {a : String} {k : Nat} (c : Char) (h : charAt a k = some c) (x : String) :
    charAt (a ++ x) k = some c := by
  unfold charAt at h ⊢
  rw [String.toList_append, List.getElem?_append_left (List.getElem?_eq_some_iff.mp h).1, h]

/-- Texts that differ at a place are different. -/
theorem ne_of_charAt {s t : String} (k : Nat) {c c' : Char} (hs : charAt s k = some c)
    (ht : charAt t k = some c') (hne : c ≠ c') : s ≠ t := by
  rintro rfl
  exact hne (Option.some.inj (hs.symm.trans ht))

/-- The lines of the header. -/
theorem mem_resultHeader {line : String} (h : line ∈ resultHeader progress execution completedAtMs) :
    (∃ text, line = "Chunk ID: " ++ text) ∨ (∃ text, line = "Wall time: " ++ text) ∨
      (execution.state = .finished ∧ ∃ text, line = "Process exited " ++ text) ∨
      (execution.state ≠ .finished ∧ ∃ n, line = runningLine n) ∨
      (∃ text, line = "Original token count: " ++ text) ∨ line = "Output:" := by
  unfold resultHeader at h
  rcases List.mem_append.mp h with h | h
  · rcases List.mem_append.mp h with h | h
    · rcases List.mem_cons.mp h with rfl | h
      · exact .inl ⟨_, rfl⟩
      · rw [List.mem_singleton.mp h, String.append_assoc]
        exact .inr (.inl ⟨_, rfl⟩)
    · right; right
      split at h
      next ended =>
        refine .inl ⟨ended, ?_⟩
        split at h
        · split at h <;> rw [List.mem_singleton.mp h]
          · exact ⟨"with code " ++ toString _, by rw [← String.append_assoc]; rfl⟩
          · exact ⟨"from signal " ++ toString _, by rw [← String.append_assoc]; rfl⟩
          · exact ⟨"without an exit code", rfl⟩
        · split at h <;> rw [List.mem_singleton.mp h]
          · exact ⟨"with code " ++ toString _, by rw [← String.append_assoc]; rfl⟩
          · exact ⟨"from signal " ++ toString _, by rw [← String.append_assoc]; rfl⟩
          · exact ⟨"without an exit code", rfl⟩
        · cases h
      next word active =>
        have unfinished : execution.state ≠ .finished := by
          rw [active]
          intro h
          cases h
        refine .inr (.inl ⟨unfinished, ?_⟩)
        split at h
        · exact ⟨_, List.mem_singleton.mp h⟩
        · cases h
  · rcases List.mem_cons.mp h with rfl | h
    · exact .inr (.inr (.inr (.inr (.inl ⟨_, rfl⟩))))
    · exact .inr (.inr (.inr (.inr (.inr (List.mem_singleton.mp h)))))

theorem moreLine_mem : moreLine ∈ resultNotes progress execution completedAtMs ↔
    progress.moreOutput = true := by
  have hW : charAt moreLine 0 = some 'W' := by decide
  have hr : charAt moreLine 2 = some 'r' := by decide
  have hO : charAt "Output:" 0 = some 'O' := by decide
  have hheader : moreLine ∉ resultHeader progress execution completedAtMs := by
    intro h
    rcases mem_resultHeader h with ⟨text, h⟩ | ⟨text, h⟩ | ⟨-, text, h⟩ | ⟨-, n, h⟩ | ⟨text, h⟩ | h
    · exact ne_of_charAt 0 hW (charAt_append 'C' (by decide) _) (by decide) h
    · exact ne_of_charAt 2 hr (charAt_append 'l' (by decide) _) (by decide) h
    · exact ne_of_charAt 0 hW (charAt_append 'P' (by decide) _) (by decide) h
    · exact ne_of_charAt 0 hW (charAt_append 'P' (by decide) _) (by decide) h
    · exact ne_of_charAt 0 hW (charAt_append 'O' (by decide) _) (by decide) h
    · exact ne_of_charAt 0 hW hO (by decide) h
  unfold resultNotes
  rw [List.mem_append, or_iff_right hheader]
  unfold resultWarnings
  cases progress.moreOutput <;> cases execution.outputIncomplete <;> cases progress.outputGap <;>
    decide

theorem charAt_runningLine (n : Int) {k : Nat} {c : Char}
    (h : charAt "Process running with session ID " k = some c) : charAt (runningLine n) k = some c :=
  charAt_append c h _

/-- A result of a process that has ended does not say that it runs. -/
theorem runningLine_ended (ended : execution.state = .finished) (n : Int) :
    runningLine n ∉ resultNotes progress execution completedAtMs := by
  have hP : charAt (runningLine n) 0 = some 'P' := charAt_runningLine n (by decide)
  have hr : charAt (runningLine n) 8 = some 'r' := charAt_runningLine n (by decide)
  have hO : charAt "Output:" 0 = some 'O' := by decide
  have warning {line : String} (h : charAt line 0 = some 'W') : runningLine n ∉ [line] :=
    fun hmem => ne_of_charAt 0 hP h (by decide) (List.mem_singleton.mp hmem)
  intro h
  rcases List.mem_append.mp h with h | h
  · rcases mem_resultHeader h with ⟨text, h⟩ | ⟨text, h⟩ | ⟨-, text, h⟩ | ⟨active, -⟩ | ⟨text, h⟩ | h
    · exact ne_of_charAt 0 hP (charAt_append 'C' (by decide) _) (by decide) h
    · exact ne_of_charAt 0 hP (charAt_append 'W' (by decide) _) (by decide) h
    · exact ne_of_charAt 8 hr (charAt_append 'e' (by decide) _) (by decide) h
    · exact active ended
    · exact ne_of_charAt 0 hP (charAt_append 'O' (by decide) _) (by decide) h
    · exact ne_of_charAt 0 hP hO (by decide) h
  · unfold resultWarnings at h
    rcases List.mem_append.mp h with h | h
    · split at h
      · exact warning (by decide) h
      · cases h
    · rcases List.mem_append.mp h with h | h
      · split at h
        · exact warning (by decide) h
        · cases h
      · split at h
        · exact warning (by decide) h
        · cases h

theorem runningLine_mem {n : Int} (active : execution.state ≠ .finished)
    (session : progress.sessionId = some n) :
    runningLine n ∈ resultNotes progress execution completedAtMs := by
  unfold resultNotes resultHeader
  apply List.mem_append_left
  apply List.mem_append_left
  apply List.mem_append_right
  split
  next ended => exact absurd ended active
  next =>
    rw [session]
    exact List.mem_singleton.mpr rfl

end

/-- A session whose process has ended with output that is not read goes on where the reading
stopped. -/
theorem trackFinished_unread {state : BasicCodexState} {observation : ObservationWire} {n : Int}
    {progress : ShellCallState} (session : progress.sessionId = some n)
    (more : observation.hasMore = true) : (trackFinished state progress observation).executions =
      setCursor n observation.nextCursor state.executions := by
  unfold trackFinished
  rw [session]
  dsimp only
  rw [if_pos more]

/-! ## The last observation of a call -/

/-- What `apply_response` formats, where a response ends its call. -/
def lastObservation (lib : Foreign) (progress : ShellCallState) (response : Execution.Response)
    (state : BasicCodexState) (turnId : Uuid) : Option (ShellCallState × ObservationWire) :=
  match decodeObservation lib response progress.phase with
  | .error _ => none
  | .ok observation =>
    match appendChunks lib observation.output progress.output with
    | .error _ => none
    | .ok output =>
      if observation.execution.handle.generationId ≠ response.generationId then none
      else
        match track state (observed progress output observation) observation turnId with
        | .error _ => none
        | .ok (progress, _) =>
          if observation.hasMore ∧ progress.pagesRead < maxOutputPagesPerCall then none
          else some (progress, observation)

section

variable {lib : Foreign} {progress progress' : ShellCallState} {response : Execution.Response}
  {state state' : BasicCodexState} {turnId : Uuid} {observation : ObservationWire}

theorem lastObservation_some
    (h : lastObservation lib progress response state turnId = some (progress', observation)) :
    ∃ output state', decodeObservation lib response progress.phase = .ok observation ∧
      track state (observed progress output observation) observation turnId =
        .ok (progress', state') ∧
      ∀ at_, applyResponse lib progress response state turnId at_ =
        .ok (.completed (formatResult progress' observation at_), state') := by
  unfold lastObservation at h
  split at h
  · cases h
  next observation' decoded =>
  split at h
  · cases h
  next output appended =>
  split at h
  · cases h
  next generation =>
  split at h
  · cases h
  next tracked state' htrack =>
  split at h
  · cases h
  next hlast =>
    cases h
    refine ⟨output, state', decoded, htrack, fun at_ => ?_⟩
    unfold applyResponse
    rw [Fallible.ok_bind decoded, Fallible.ok_bind appended]
    dsimp only
    rw [if_neg generation, Fallible.ok_bind htrack]
    dsimp only
    rw [if_neg hlast]
    rfl

/-- Every result that `apply_response` formats is one of these. -/
theorem lastObservation_of_completed {snapshot : ToolResultSnapshot} {at_ : Int}
    (h : applyResponse lib progress response state turnId at_ = .ok (.completed snapshot, state')) :
    ∃ progress' observation,
      lastObservation lib progress response state turnId = some (progress', observation) ∧
      snapshot = formatResult progress' observation at_ := by
  obtain ⟨observation, output, tracked, decoded, appended, generation, htrack, hresult⟩ :=
    applyResponse_ok h
  split at hresult
  · cases hresult
  next hlast =>
    cases hresult
    refine ⟨tracked, observation, ?_, rfl⟩
    unfold lastObservation
    rw [decoded]
    dsimp only
    rw [appended]
    dsimp only
    rw [if_neg (not_not.mpr generation), htrack]
    dsimp only
    rw [if_neg hlast]

end

end ShellTools

/-! ## What a session reads -/

/-- A shell call that a response ended: the call, its progress with the last observation in it, that
observation, the moment, and the processes that were tracked before and after. -/
structure Reading where
  call : ToolCallState
  progress : ShellCallState
  observation : ObservationWire
  completedAtMs : Int
  before : List TrackedExecution
  after : List TrackedExecution

namespace Reading

open ShellTools (moreLine runningLine trackedAs)

variable (x : Reading)

def snapshot : ToolResultSnapshot :=
  ShellTools.formatResult x.progress x.observation x.completedAtMs

/-- What the harness itself says in the result; nothing where it reports an error. -/
def notes : List String :=
  if ShellTools.fails x.observation.execution.result then []
  else ShellTools.resultNotes x.progress x.observation.execution x.completedAtMs

/-- The result says that more output remains, or that the process runs. -/
def Promises : Prop := moreLine ∈ x.notes ∨ ∃ n, runningLine n ∈ x.notes

/-- The model has a session number from the result, or gave it in the call. -/
def Names (n : Int) : Prop :=
  runningLine n ∈ x.notes ∨
    x.call.name = "write_stdin" ∧ ToolExecution.inputSessionId x.call.input = some n

/-- What the result promises can be reached: the process is tracked, where reading must continue,
under a number that the model has. -/
def Reaches : Prop :=
  x.Promises → ∃ n tracked, x.Names n ∧ trackedAs n x.after = some tracked ∧
    tracked.handle = x.observation.execution.handle ∧ tracked.cursor = x.observation.nextCursor

/-- The process has not ended with output that is not read yet, or the call is a `write_stdin` call
and the runtime reported on the process that is tracked for it. -/
def ReadsToEnd : Prop :=
  x.observation.execution.state = .finished → x.observation.hasMore = true →
    ShellTools.fails x.observation.execution.result = false →
      x.call.name = "write_stdin" ∧ ∀ n tracked,
        ToolExecution.inputSessionId x.call.input = some n →
          trackedAs n x.before = some tracked →
            tracked.handle = x.observation.execution.handle

/-- An error promises nothing. -/
theorem succeeds_of_promises (promises : x.Promises) :
    ShellTools.fails x.observation.execution.result = false := by
  cases hfails : ShellTools.fails x.observation.execution.result with
  | false => rfl
  | true =>
    unfold Promises notes at promises
    rw [hfails, if_pos rfl] at promises
    rcases promises with h | ⟨n, h⟩ <;> cases h

/-- What a process that has ended promises: that output remains. -/
theorem promises_ended (ended : x.observation.execution.state = .finished)
    (observed : x.progress.moreOutput = x.observation.hasMore) : x.Promises ↔
      ShellTools.fails x.observation.execution.result = false ∧ x.observation.hasMore = true := by
  unfold Promises notes
  cases hfails : ShellTools.fails x.observation.execution.result with
  | true => simp
  | false =>
    have hrunning (n : Int) : runningLine n ∉
        ShellTools.resultNotes x.progress x.observation.execution x.completedAtMs :=
      ShellTools.runningLine_ended ended n
    simp only [Bool.false_eq_true, if_false, ShellTools.moreLine_mem, observed, hrunning,
      exists_false, or_false, true_and]

/-- A result of a process that has ended names no number. -/
theorem names_ended (ended : x.observation.execution.state = .finished) {n : Int} : x.Names n ↔
    x.call.name = "write_stdin" ∧ ToolExecution.inputSessionId x.call.input = some n := by
  have hrunning : runningLine n ∉ x.notes := by
    unfold notes
    split
    · exact List.not_mem_nil
    · exact ShellTools.runningLine_ended ended n
  unfold Names
  rw [or_iff_right hrunning]

end Reading

namespace Session

variable {agent : Agent} {s t : Session} {d : Delivery}

/-- The response of the runtime that an outcome carries to a call. -/
def responseTo : OperationOutcome → Option Execution.Response
  | .succeeded (.execution response) => some response
  | .failed failure => failure.executionResponse
  | _ => none

def shellProgress : ToolCallProgress → Option ShellCallState
  | .shell progress => some progress
  | .filesystem _ => none

/-- The completion that a delivery brings to a running session. -/
def completion (s : Session) (d : Delivery) : Option (OperationId × OperationOutcome) :=
  match d.stimulus with
  | .completed id outcome =>
    if s.kindOf id = .execution ∧ s.state.terminalFailure.isNone ∧ s.state.cancellation.isNone then
      some (id, outcome)
    else none
  | _ => none

/-- The shell call that a step ends with a result of `format_result`. -/
def reading (agent : Agent) (s : Session) (d : Delivery) (t : Session) : Option Reading := do
  let (id, outcome) ← completion s d
  let response ← responseTo outcome
  let active ← s.state.activeTurn
  let plan ← ToolExecution.planOf s.state
  let (call, progress) ← ToolExecution.submittedCall plan id
  let shell ← shellProgress progress
  let (progress, observation) ←
    ShellTools.lastObservation agent.lib shell response s.state active.id
  return { call, progress, observation, completedAtMs := d.timestampMillis,
           before := s.state.executions, after := t.state.executions }

/-- The session numbers that a step assigns. -/
def assigned (s t : Session) : List Int :=
  (ShellTools.sessionIds t.state.executions).filter fun n =>
    n ∉ ShellTools.sessionIds s.state.executions

/-- A run with the results of its shell calls and the session numbers that it assigned. -/
inductive Paged (agent : Agent) : Session → List Reading → List Int → Prop
  | start (id : SessionId) (nextId : Uuid) : Paged agent (start id nextId) [] []
  | step {s t : Session} {d : Delivery} {readings : List Reading} {numbers : List Int}
      (before : Paged agent s readings numbers) (step : Step agent s d t) :
      Paged agent t (readings ++ (reading agent s d t).toList) (numbers ++ assigned s t)

theorem Paged.reachable {readings : List Reading} {numbers : List Int}
    (run : Paged agent s readings numbers) : Reachable agent s := by
  induction run with
  | start id nextId => exact Reachable.start agent id nextId
  | step _ step ih => exact ih.step step

/-! ### What is read -/

/-- What a reading was made of. -/
structure Reads (agent : Agent) (s : Session) (d : Delivery) (t : Session) (x : Reading)
    (active : ActiveTurn) (plan : ToolPlanState) (id : OperationId) (outcome : OperationOutcome)
    (shell : ShellCallState) (output : OutputAccumulator) (state' : BasicCodexState) : Prop where
  stimulus : d.stimulus = .completed id outcome
  kind : s.kindOf id = .execution
  live : s.state.terminalFailure = none
  uncancelled : s.state.cancellation = none
  turn : s.state.activeTurn = some active
  executes : ToolExecution.planOf s.state = some plan
  call : ToolExecution.submittedCall plan id = some (x.call, .shell shell)
  track : ShellTools.track s.state (ShellTools.observed shell output x.observation) x.observation
    active.id = .ok (x.progress, state')
  applied : ∃ response, responseTo outcome = some response ∧
    ShellTools.applyResponse agent.lib shell response s.state active.id d.timestampMillis =
      .ok (.completed x.snapshot, state')
  before : x.before = s.state.executions
  after : x.after = t.state.executions

theorem reading_some {x : Reading} (h : reading agent s d t = some x) :
    ∃ active plan id outcome shell output state',
      Reads agent s d t x active plan id outcome shell output state' := by
  unfold reading at h
  simp only [Option.bind_eq_bind, Option.bind_eq_some_iff, Option.pure_def] at h
  obtain ⟨⟨id, outcome⟩, hcompletion, response, hresponse, active, hactive, plan, hplan,
    ⟨call, progress⟩, hcall, shell, hshell, ⟨tracked, observation⟩, hlast, h⟩ := h
  cases h
  unfold completion at hcompletion
  split at hcompletion
  next hstimulus =>
    split at hcompletion
    next hguard =>
      cases hcompletion
      obtain ⟨output, state', -, htrack, happlied⟩ := ShellTools.lastObservation_some hlast
      cases progress with
      | shell p =>
        cases hshell
        exact ⟨active, plan, id, outcome, shell, output, state', hstimulus, hguard.1,
          Option.isNone_iff_eq_none.mp hguard.2.1, Option.isNone_iff_eq_none.mp hguard.2.2, hactive,
          hplan, hcall, htrack, ⟨response, hresponse, happlied _⟩, rfl, rfl⟩
      | filesystem p => cases hshell
    · cases hcompletion
  · cases hcompletion

/-- Every result that a response ends a shell call with is read. -/
theorem reading_of_completed {active : ActiveTurn} {plan : ToolPlanState} {id : OperationId}
    {outcome : OperationOutcome} {call : ToolCallState} {shell : ShellCallState}
    {response : Execution.Response} {snapshot : ToolResultSnapshot} {state' : BasicCodexState}
    (stimulus : d.stimulus = .completed id outcome) (kind : s.kindOf id = .execution)
    (live : s.state.terminalFailure = none) (uncancelled : s.state.cancellation = none)
    (turn : s.state.activeTurn = some active) (phase : active.phase = .executingTools plan)
    (found : ToolExecution.submittedCall plan id = some (call, .shell shell))
    (carried : responseTo outcome = some response)
    (applied : ShellTools.applyResponse agent.lib shell response s.state active.id
      d.timestampMillis = .ok (.completed snapshot, state')) :
    ∃ x, reading agent s d t = some x ∧ x.call = call ∧ x.snapshot = snapshot := by
  obtain ⟨progress, observation, hlast, rfl⟩ := ShellTools.lastObservation_of_completed applied
  have hplan := ToolExecution.planOf_some.mpr ⟨active, turn, phase⟩
  have hcompletion : completion s d = some (id, outcome) := by
    unfold completion
    rw [stimulus]
    dsimp only
    rw [if_pos ⟨kind, by rw [live]; rfl, by rw [uncancelled]; rfl⟩]
  refine ⟨⟨call, progress, observation, d.timestampMillis, s.state.executions,
    t.state.executions⟩, ?_, rfl, rfl⟩
  simp [reading, hcompletion, carried, turn, hplan, found, shellProgress, hlast]

/-- The branch of the handler that takes in the end of an execution. -/
theorem execution_handled {state : BasicCodexState} {event : SessionEvent}
    {context : HarnessContext} {nextId : Uuid} {r : OutcomeBuilder BasicCodexState}
    {id : OperationId} {status : OperationOutcomeStatus}
    (handled : Handler.Handled agent state event context nextId r)
    (kind : event.kind = .operationCompleted id .execution status) :
    ∃ outcome state', Handler.Completes event context id .execution outcome ∧
      ToolExecution.applyCompletion agent state id outcome event.timestampMillis = .ok state' ∧
      Handler.PlanRan agent (.new state' nextId)
        { platformSessionId := event.sessionId, timestampMs := event.timestampMillis } r := by
  have other {id' : OperationId} {outcome : OperationOutcome}
      (completes : Handler.Completes event context id' .llm outcome) : False := by
    cases kind.symm.trans completes.delivered
  cases handled with
  | steered kind' | compactFirst kind' | start kind' | cancel kind' => cases kind.symm.trans kind'
  | failAwaiting completes | failCompacting completes | idle completes | respond completes
  | refused completes | plan completes | retry completes | install completes
  | compactAgain completes => exact (other completes).elim
  | @execution id' outcome state' _ completes applied ran =>
    cases kind.symm.trans completes.delivered
    exact ⟨outcome, state', completes, applied, ran⟩

theorem applyOutcome_response {progress : ToolCallProgress} {outcome : OperationOutcome}
    {response : Execution.Response} (h : responseTo outcome = some response)
    {state : BasicCodexState} {turnId : Uuid} {callId : String} {at_ : Int} :
    ToolExecution.applyOutcome agent progress outcome state turnId callId at_ =
      .ok (ToolExecution.applyResponse agent progress response state turnId callId at_) := by
  unfold responseTo at h
  split at h
  next =>
    cases h
    rfl
  next failure =>
    unfold ToolExecution.applyOutcome
    simp only [h]
  next => cases h

/-- The processes that are tracked after a step that read a result are those that the response
left. -/
theorem Reads.executions {x : Reading} {active : ActiveTurn} {plan : ToolPlanState}
    {id : OperationId} {outcome : OperationOutcome} {shell : ShellCallState}
    {output : OutputAccumulator} {state' : BasicCodexState}
    (reads : Reads agent s d t x active plan id outcome shell output state')
    (reach : Reachable agent s) (step : Step agent s d t) : x.after = state'.executions := by
  obtain ⟨admitted, r, rfl, answered⟩ := step.answered
  rw [reach.dated.fillDate] at answered
  rw [reads.after]
  cases answered with
  | failed ended =>
    rw [reads.live] at ended
    cases ended
  | routed _ cancelled | cleaned _ cancelled => cases cancelled.symm.trans reads.uncancelled
  | running _ _ handled =>
    have hkind : (s.event d).kind = .operationCompleted id .execution outcome.status := by
      unfold event
      rw [reads.stimulus]
      dsimp only
      rw [reads.kind]
    obtain ⟨outcome', after, completes, applied, ran⟩ := execution_handled handled hkind
    have hdelivered := (completes_delivered reach.kept.numbered admitted completes).1
    cases reads.stimulus.symm.trans hdelivered
    have tracked := reach.holdsTracked
    have holds := tracked.holds reads.uncancelled
    have sound := (reach.kept.plans plan reads.executes).1
    obtain ⟨hassigns, hholds⟩ :=
      ToolExecution.applyCompletion_holds reads.executes sound tracked.counted holds applied
    obtain ⟨plan', hplan', hsound, -⟩ :=
      ToolExecution.applyCompletion_sound reads.executes sound applied
    obtain ⟨-, hran⟩ := ran.holds hplan' hsound (tracked.counted.step hassigns) hholds
    refine hran.executions.trans ?_
    obtain ⟨active', p, call, progress, status, state'', hactive, hphase, hcall, happly, rfl⟩ :=
      ToolExecution.applyCompletion_ok applied
    cases reads.turn.symm.trans hactive
    cases reads.executes.symm.trans (ToolExecution.planOf_some.mpr ⟨active, hactive, hphase⟩)
    cases reads.call.symm.trans hcall
    obtain ⟨response, hresponse, happlied⟩ := reads.applied
    rw [applyOutcome_response hresponse, ToolExecution.applyResponse] at happly
    simp only [show (s.event d).timestampMillis = d.timestampMillis from rfl, happlied,
      Except.ok.injEq, Prod.mk.injEq] at happly
    rw [← happly.2]
    rfl

/-- The session of a `write_stdin` call in progress is the one that its arguments name, and it is
tracked. -/
theorem Reads.written {x : Reading} {active : ActiveTurn} {plan : ToolPlanState}
    {id : OperationId} {outcome : OperationOutcome} {shell : ShellCallState}
    {output : OutputAccumulator} {state' : BasicCodexState}
    (reads : Reads agent s d t x active plan id outcome shell output state')
    (reach : Reachable agent s) (hname : x.call.name = "write_stdin") :
    ∃ n tracked, shell.sessionId = some n ∧ ToolExecution.inputSessionId x.call.input = some n ∧
      ShellTools.trackedAs n s.state.executions = some tracked := by
  obtain ⟨hmem, hstatus⟩ := ToolExecution.submittedCall_some reads.call
  obtain ⟨i, hi⟩ := List.mem_iff_getElem?.mp hmem
  have hprogress : x.call.status.inProgress = some (.shell shell) := by
    rw [hstatus]
    rfl
  obtain ⟨hsome, hinput⟩ :=
    (reach.kept.plans plan reads.executes).1.writing i x.call _ hi hname hprogress
  obtain ⟨n, hn⟩ := Option.isSome_iff_exists.mp hsome
  have hids := (reach.holdsTracked.holds reads.uncancelled plan reads.executes).tracked i x.call n hi
    (ToolExecution.heldSession_some.mpr ⟨_, hprogress, hn⟩)
  obtain ⟨tracked, htracked⟩ := Option.isSome_iff_exists.mp (ShellTools.trackedAs_isSome.mpr hids)
  exact ⟨n, tracked, hn, hinput.symm.trans hn, htracked⟩

/-- What a result promises can be reached if and only if the call could read to the end. -/
theorem Reads.reaches {x : Reading} {active : ActiveTurn} {plan : ToolPlanState}
    {id : OperationId} {outcome : OperationOutcome} {shell : ShellCallState}
    {output : OutputAccumulator} {state' : BasicCodexState}
    (reads : Reads agent s d t x active plan id outcome shell output state')
    (reach : Reachable agent s) (step : Step agent s d t) : x.Reaches ↔ x.ReadsToEnd := by
  have hafter := reads.executions reach step
  by_cases ended : x.observation.execution.state = .finished
  · -- the progress is what was observed, and the session is that of the call
    have htrack := reads.track
    unfold ShellTools.track at htrack
    rw [if_neg (not_not.mpr ended)] at htrack
    simp only [Except.ok.injEq, Prod.mk.injEq] at htrack
    obtain ⟨hprogress, rfl⟩ := htrack
    have hobserved : x.progress.moreOutput = x.observation.hasMore := by rw [← hprogress]; rfl
    have hread {n : Int} (hsession : shell.sessionId = some n)
        (more : x.observation.hasMore = true) :
        ShellTools.trackedAs n (ShellTools.trackFinished s.state
          (ShellTools.observed shell output x.observation) x.observation).executions =
        (ShellTools.trackedAs n s.state.executions).map
          fun e => { e with cursor := x.observation.nextCursor } := by
      have hown : (ShellTools.observed shell output x.observation).sessionId = some n := hsession
      rw [ShellTools.trackFinished_unread hown more]
      exact ShellTools.trackedAs_setCursor n _ _
    unfold Reading.Reaches Reading.ReadsToEnd
    rw [x.promises_ended ended hobserved]
    constructor
    · intro reaches _ more succeeds
      obtain ⟨n, tracked, named, htracked, hhandle, -⟩ := reaches ⟨succeeds, more⟩
      obtain ⟨hname, hinput⟩ := (x.names_ended ended).mp named
      refine ⟨hname, fun m e hm he => ?_⟩
      cases hinput.symm.trans hm
      obtain ⟨n', e', hsession, hinput', -⟩ := reads.written reach hname
      cases hinput.symm.trans hinput'
      rw [hafter, hread hsession more, ← reads.before, he] at htracked
      cases htracked
      exact hhandle
    · rintro toEnd ⟨succeeds, more⟩
      obtain ⟨hname, hsame⟩ := toEnd ended more succeeds
      obtain ⟨n, e, hsession, hinput, he⟩ := reads.written reach hname
      refine ⟨n, { e with cursor := x.observation.nextCursor },
        (x.names_ended ended).mpr ⟨hname, hinput⟩, ?_, ?_, rfl⟩
      · rw [hafter, hread hsession more, he]
        rfl
      · exact hsame n e hinput (reads.before ▸ he)
  · have tracks := ShellTools.track_ok reads.track
    refine ⟨fun _ hended => absurd hended ended, fun _ promises => ?_⟩
    generalize hprogress : x.progress = progress at tracks
    cases tracks with
    | @running n next _ session =>
      have hn : x.progress.sessionId = some n := by rw [hprogress]
      have succeeds := x.succeeds_of_promises promises
      refine ⟨n, ShellTools.asTracked n (ShellTools.observed shell output x.observation)
        x.observation active.id, .inl ?_, ?_, rfl, rfl⟩
      · unfold Reading.notes
        rw [succeeds]
        exact ShellTools.runningLine_mem ended hn
      · rw [hafter]
        exact ShellTools.trackedAs_upsertExecution
          (ShellTools.asTracked n (ShellTools.observed shell output x.observation) x.observation
            active.id) _
    | untracked hended | unread hended | read hended => exact absurd hended ended

/-! ## Runs -/

/-- What a run has read and assigned so far. -/
structure PagedTo (s : Session) (readings : List Reading) (numbers : List Int) : Prop where
  readings : ∀ x ∈ readings, x.Reaches ↔ x.ReadsToEnd
  below : ∀ n ∈ numbers, n < s.state.nextExecutionSessionId
  distinct : numbers.Nodup

theorem PagedTo.step {readings : List Reading} {numbers : List Int}
    (paged : PagedTo s readings numbers) (reach : Reachable agent s) (step : Step agent s d t) :
    PagedTo t (readings ++ (reading agent s d t).toList) (numbers ++ assigned s t) := by
  obtain ⟨assigns, after⟩ := reach.holdsTracked.step reach step
  have drawn : ∀ n ∈ assigned s t, s.state.nextExecutionSessionId ≤ n ∧
      n < t.state.nextExecutionSessionId := by
    intro n hn
    obtain ⟨hmem, hnew⟩ := List.mem_filter.mp hn
    rcases assigns.drawn n hmem with hold | hdrawn
    · simp [hold] at hnew
    · exact hdrawn
  refine ⟨?_, ?_, ?_⟩
  · intro x hx
    rcases List.mem_append.mp hx with hx | hx
    · exact paged.readings x hx
    · obtain ⟨active, plan, id, outcome, shell, output, state', reads⟩ :=
        reading_some (Option.mem_toList.mp hx)
      exact reads.reaches reach step
  · intro n hn
    rcases List.mem_append.mp hn with hn | hn
    · exact lt_of_lt_of_le (paged.below n hn) assigns.later
    · exact (drawn n hn).2
  · refine paged.distinct.append (after.counted.distinct.filter _) ?_
    intro n hold hnew
    have hbelow := paged.below n hold
    have habove := (drawn n hnew).1
    omega

theorem Paged.to {readings : List Reading} {numbers : List Int}
    (run : Paged agent s readings numbers) : PagedTo s readings numbers := by
  induction run with
  | start id nextId =>
    refine ⟨?_, ?_, List.nodup_nil⟩
    · intro x hx
      cases hx
    · intro n hn
      cases hn
  | step before step ih => exact ih.step before.reachable step

/-- In every run no session number is assigned twice, and what a shell result promises can be reached
if and only if the process had not ended with output left, or the call is a `write_stdin` call that
was told of its own process. -/
theorem output_reachable {agent : Agent} {s : Session} {readings : List Reading}
    {numbers : List Int} (run : Paged agent s readings numbers) :
    numbers.Nodup ∧ ∀ x ∈ readings, x.Reaches ↔ x.ReadsToEnd :=
  ⟨run.to.distinct, run.to.readings⟩

/-! ## A process that runs and one that has ended -/

/-- An observation without output, as the runtime writes it. -/
def page (state cursor : String) (more : Bool) : Value :=
  .object [("execution", .object [
      ("handle", .object [("id", .uuid 5), ("generation_id", .uuid 6)]),
      ("state", .string state), ("output_incomplete", .bool false)]),
    ("output", .array []), ("next_cursor", .string cursor), ("has_more", .bool more),
    ("output_gap", .bool false), ("return_reason", .string "output_limit")]

/-- The observations of one process. -/
def decodePage (value : Value) : Except String ObservationWire :=
  match (value.get "execution").bind fun execution => (execution.get "state").bind Value.asStr,
    (value.get "next_cursor").bind Value.asStr, value.get "has_more" with
  | some state, some cursor, some (.bool more) =>
    .ok {
      execution := {
        handle := ⟨5, 6⟩
        state := if state = "finished" then .finished else .unfinished state
        result := if state = "finished" then some (.exited (some 0) none) else none
        outputIncomplete := false }
      executionJson := (value.get "execution").getD .null
      output := []
      nextCursor := cursor
      hasMore := more
      outputGap := false
      returnReason := .string "output_limit" }
  | _, _, _ => .error "missing field"

def pagingAgent : Agent := { ToolExecution.listAgent with
  lib := { ToolExecution.listAgent.lib with decodeObservation := decodePage } }

/-- The delivery of a response that asks to list the files. -/
def asksToList (sequence : EventSequence) (id : OperationId) : Delivery :=
  delivery sequence (.completed id (.succeeded (.llm
    { id := "r", modelId := "gpt-5.6-sol",
      message := .assistant .default .openai [ToolExecution.listCall],
      stopReason := .toolUse, usage := none, assistant := rfl })))

/-- The delivery of an observation. -/
def paging (sequence : EventSequence) (id : OperationId) (state cursor : String) (more : Bool) :
    Delivery :=
  delivery sequence (.completed id (.succeeded (.execution
    { generationId := 6, outcome := .ok (page state cursor more) })))

def pagingStarted : Session := next pagingAgent (start 3 9) firstDelivery

def pagingAsked : Session := next pagingAgent pagingStarted (asksToList 2 10)

/-- The process runs on. -/
def pagingRuns : Session := next pagingAgent pagingAsked (paging 3 12 "running" "c1" false)

def askedReadings : List Reading :=
  ([] ++ (reading pagingAgent (start 3 9) firstDelivery pagingStarted).toList) ++
    (reading pagingAgent pagingStarted (asksToList 2 10) pagingAsked).toList

def askedNumbers : List Int :=
  ([] ++ assigned (start 3 9) pagingStarted) ++ assigned pagingStarted pagingAsked

theorem pagingAsked_paged : Paged pagingAgent pagingAsked askedReadings askedNumbers := by
  refine .step (.step (.start 3 9) ?_) ?_
  · exact step_next (by decide +kernel)
  · exact step_next (by decide +kernel)

def runningReadings : List Reading := askedReadings ++
  (reading pagingAgent pagingAsked (paging 3 12 "running" "c1" false) pagingRuns).toList

def runningNumbers : List Int := askedNumbers ++ assigned pagingAsked pagingRuns

/-- A command that still runs is tracked under the number in its result. -/
theorem output_reachable_running : runningNumbers = [1000] ∧ runningReadings.length = 1 ∧
    runningNumbers.Nodup ∧ ∀ x ∈ runningReadings, x.Reaches ↔ x.ReadsToEnd := by
  refine ⟨by decide +kernel, by decide +kernel, ?_⟩
  exact output_reachable (pagingAsked_paged.step (step_next (by decide +kernel)))

theorem Paged.played {deliveries : List Delivery} {readings : List Reading} {numbers : List Int}
    (run : Paged agent s readings numbers) (h : s.play agent deliveries = some t) :
    ∃ readings' numbers', Paged agent t readings' numbers' := by
  induction deliveries generalizing s readings numbers with
  | nil =>
    cases h
    exact ⟨readings, numbers, run⟩
  | cons d deliveries ih =>
    unfold play at h
    split at h
    next admitted =>
      split at h
      next r hr => exact ih (run.step ⟨admitted, r, hr, rfl⟩) h
      · cases h
    · cases h

/-- The process has ended, and every page says that more remains. -/
def lastPage : Delivery := paging 18 42 "finished" "c" true

def pagesBefore : List Delivery :=
  (List.range 15).map fun k => paging (3 + k) (12 + 2 * k) "finished" "c" true

/-- Whether the last page ends an `exec_command` call that has more output. -/
def leavesUnread (s : Session) : Bool :=
  (s.play pagingAgent [lastPage]).isSome &&
    (reading pagingAgent s lastPage (next pagingAgent s lastPage)).any fun x =>
      x.call.name == "exec_command" && x.observation.execution.state == .finished &&
        x.observation.hasMore && x.progress.moreOutput &&
        !ShellTools.fails x.observation.execution.result

/-- A command that has ended with more output than its result shows is told to be read on, and
nothing is tracked to read it from. -/
theorem output_reachable_ended : ¬ (∀ (agent : Agent) (s : Session) (readings : List Reading)
    (numbers : List Int), Paged agent s readings numbers →
      numbers.Nodup ∧ ∀ x ∈ readings, x.Reaches) := by
  intro hall
  have hunread : (pagingAsked.play pagingAgent pagesBefore).any leavesUnread = true := by
    decide +kernel
  obtain ⟨t, hplay, -, ht⟩ := exists_of_played pagingAsked_paged.reachable hunread
  obtain ⟨readings, numbers, run⟩ := pagingAsked_paged.played hplay
  unfold leavesUnread at ht
  rw [Bool.and_eq_true] at ht
  obtain ⟨hanswered, hread⟩ := ht
  obtain ⟨x, hx, hfacts⟩ := (Option.any_eq_true _ _).mp hread
  simp only [Bool.and_eq_true, beq_iff_eq, Bool.not_eq_true'] at hfacts
  obtain ⟨⟨⟨⟨hname, ended⟩, more⟩, hmore⟩, succeeds⟩ := hfacts
  have reaches := (hall _ _ _ _ (run.step (step_next hanswered))).2 x (by rw [hx]; simp)
  have promises := (x.promises_ended ended (hmore.trans more.symm)).mpr ⟨succeeds, more⟩
  obtain ⟨n, tracked, named, -⟩ := reaches promises
  have hwrite := ((x.names_ended ended).mp named).1
  rw [hname] at hwrite
  revert hwrite
  decide

end Session

end AgentPlatform.Harness
