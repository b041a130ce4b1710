import AgentPlatform.Harness.ToolPlan
import Mathlib.Data.List.DropRight

/-!
# The shell tools

`shell_tools.rs`: `exec_command` and `write_stdin`. A call becomes one execution operation, then
further reads while the runtime has more output, and in the end a tool result. A process that is
still running is tracked under a session number that later calls name.
-/

namespace AgentPlatform.Harness

open Execution (ExecutionHandle)

/-- `PreparedShellOperation`. -/
structure PreparedShellOperation where
  request : Execution.Payload
  expectedGenerationId : Option Uuid
  progress : ShellCallState

/-- `AppliedShellResult`. -/
inductive AppliedShellResult where
  | ready (progress : ShellCallState)
  | completed (snapshot : ToolResultSnapshot)

/-- `ShellToolError`. -/
structure ShellToolError where
  message : String

namespace ShellTools

def toolError (name message : String) : ToolResultSnapshot where
  content := [.text message none]
  outcome := .error { message, name := some name }
  details := none

def toolErrorWithDetails (name message : String) (details : Value) : ToolResultSnapshot :=
  { toolError name message with details := some details }

/-! ## Arguments -/

/-- The fields of a struct that denies unknown ones: those of an object, or the items of an array
in the order of the declaration. -/
def structFields (names : List String) : Value → Option JsonObject
  | .object fields => if fields.all fun field => names.contains field.1 then some fields else none
  | .array items => if items.length ≤ names.length then some (names.zip items) else none
  | _ => none

/-- A field that must be there. -/
def field {α : Type} (fields : JsonObject) (name : String) (decode : Value → Option α) :
    Option α :=
  (Value.get (.object fields) name).bind decode

/-- A field with a default. -/
def fieldOr {α : Type} (fields : JsonObject) (name : String) (default : α)
    (decode : Value → Option α) : Option α :=
  match Value.get (.object fields) name with
  | some v => decode v
  | none => some default

/-- `Option<T>`. -/
def decodeOption {α : Type} (decode : Value → Option α) : Value → Option (Option α)
  | .null => some none
  | v => (decode v).map some

def decodeBool : Value → Option Bool
  | .bool b => some b
  | _ => none

/-- `u64` and `usize`. -/
def decodeU64 : Value → Option Nat
  | .number (.posInt n) => some n.toNat
  | _ => none

/-- `i32`. -/
def decodeI32 (v : Value) : Option Int :=
  match v.asI64 with
  | some n => if -2 ^ 31 ≤ n ∧ n < 2 ^ 31 then some n else none
  | none => none

/-- `Vec<String>`. -/
def decodeStrings : Value → Option (List String)
  | .array items => items.mapM Value.asStr
  | _ => none

structure ExecCommandArgs where
  cmd : String
  workdir : Option String
  tty : Bool
  yieldTimeMs : Nat
  maxOutputTokens : Option Nat
  shell : Option String
  login : Bool
  sandboxPermissions : Option String
  justification : Option String
  prefixRule : Option (List String)

def decodeExecCommandArgs (v : Value) : Option ExecCommandArgs := do
  let fields ← structFields ["cmd", "workdir", "tty", "yield_time_ms", "max_output_tokens",
    "shell", "login", "sandbox_permissions", "justification", "prefix_rule"] v
  return {
    cmd := ← field fields "cmd" Value.asStr
    workdir := ← fieldOr fields "workdir" none (decodeOption Value.asStr)
    tty := ← fieldOr fields "tty" false decodeBool
    yieldTimeMs := ← fieldOr fields "yield_time_ms" 10000 decodeU64
    maxOutputTokens := ← fieldOr fields "max_output_tokens" none (decodeOption decodeU64)
    shell := ← fieldOr fields "shell" none (decodeOption Value.asStr)
    login := ← fieldOr fields "login" true decodeBool
    sandboxPermissions := ← fieldOr fields "sandbox_permissions" none (decodeOption Value.asStr)
    justification := ← fieldOr fields "justification" none (decodeOption Value.asStr)
    prefixRule := ← fieldOr fields "prefix_rule" none (decodeOption decodeStrings) }

structure WriteStdinArgs where
  sessionId : Int
  chars : String
  yieldTimeMs : Nat
  maxOutputTokens : Option Nat

def decodeWriteStdinArgs (v : Value) : Option WriteStdinArgs := do
  let fields ← structFields ["session_id", "chars", "yield_time_ms", "max_output_tokens"] v
  return {
    sessionId := ← field fields "session_id" decodeI32
    chars := ← fieldOr fields "chars" "" Value.asStr
    yieldTimeMs := ← fieldOr fields "yield_time_ms" 250 decodeU64
    maxOutputTokens := ← fieldOr fields "max_output_tokens" none (decodeOption decodeU64) }

def jsonInput (call : ToolCallState) : Except ShellToolError Value :=
  match call.input with
  | .json value => .ok value
  | .text _ => .error { message := "shell tool requires JSON arguments" }

/-! ## Preparing an operation -/

/-- `OUTPUT_PAGE_BYTES`. -/
def outputPageBytes : Nat := 64 * 1024

/-- `MAX_OUTPUT_PAGES_PER_CALL`. -/
def maxOutputPagesPerCall : Nat := 16

/-- `u64::clamp`. -/
def clamp (low high n : Nat) : Nat := max low (min high n)

/-- `output_token_budget`, with its default and its cap. -/
def outputTokenBudget (requested : Option Nat) : Nat := min (requested.getD 10000) 10000

def isSlash (c : Char) : Bool := c == '/' || c == '\\'

def isAbsolute (path : String) : Bool :=
  match path.toList with
  | '/' :: _ => true
  | '\\' :: '\\' :: _ => true
  | drive :: ':' :: slash :: _ => drive.isAlpha && isSlash slash
  | _ => false

def resolveWorkdir (base : String) (requested : Option String) : Except ShellToolError String :=
  match requested.filter (!·.isEmpty) with
  | none => .ok base
  | some requested =>
    if requested.contains '\x00' then .error { message := "workdir contains a NUL byte" }
    else if isAbsolute requested then .ok requested
    else
      let separator := if base.contains '\\' && !base.contains '/' then "\\" else "/"
      .ok (String.ofList (base.toList.rdropWhile isSlash) ++ separator ++ requested)

def parseShell (value : String) : Except ShellToolError Execution.Shell :=
  let filename := (String.ofList (value.toList.rtakeWhile (!isSlash ·))).toLower
  match filename with
  | "sh" => .ok { kind := .sh, path := value }
  | "bash" => .ok { kind := .bash, path := value }
  | "zsh" => .ok { kind := .zsh, path := value }
  | "pwsh" | "pwsh.exe" | "powershell" | "powershell.exe" =>
    .ok { kind := .powerShell, path := value }
  | "cmd" | "cmd.exe" => .ok { kind := .cmd, path := value }
  | _ => .error { message := "unsupported shell " ++ value }

/-- `stable_action_id`: the identity of an action of a tool call. -/
def stableActionId (lib : Foreign) (turnId : Uuid) (callId action : String) : String :=
  "basic-codex:" ++ turnId.toText ++ ":" ++ lib.sha256 callId ++ ":" ++ action

/-- `chunk_id`: the first characters of a drawn uuid. -/
def chunkId (draw : Uuid) : String := String.ofList (draw.toText.toList.take 6)

def prepareExec (lib : Foreign) (call : ToolCallState) (config : BasicCodexConfig)
    (platformSessionId : SessionId) (turnId : Uuid) (startedAtMs : Int) (draw : Uuid) :
    Except ShellToolError PreparedShellOperation := do
  let input ← jsonInput call
  match decodeExecCommandArgs input with
  | none =>
    throw { message := "invalid exec_command arguments: " ++ lib.argumentsError input }
  | some args =>
    if args.cmd.isEmpty then throw { message := "cmd must not be empty" }
    else
      let cwd ← resolveWorkdir config.cwd args.workdir
      let shell ← args.shell.mapM parseShell
      let labels := [("agent_session_id", platformSessionId.toText),
        ("agent_turn_id", turnId.toText)]
      let request := .single (.start {
        startId := stableActionId lib turnId call.callId "start"
        script := args.cmd
        shell
        login := args.login
        cwd
        snapshotScope := platformSessionId.toText
        io := if args.tty then .pty 24 80 else .pipes false
        waitMs := clamp 250 30000 args.yieldTimeMs
        maxOutputBytes := outputPageBytes
        labels })
      return {
        request
        expectedGenerationId := none
        progress := {
          phase := .start
          startedAtMs
          chunkId := chunkId draw
          output := .empty
          handle := none
          cursor := none
          sessionId := none
          tty := args.tty
          maxOutputTokens := outputTokenBudget args.maxOutputTokens
          lastExecution := none
          outputGap := false
          pagesRead := 0
          moreOutput := false } }

/-- `CTRL_C`. -/
def ctrlC : String := "\x03"

/-- The request of a `write_stdin` call on a tracked execution. -/
def writeRequest (lib : Foreign) (callId : String) (turnId : Uuid) (tracked : TrackedExecution)
    (args : WriteStdinArgs) : Execution.Payload :=
  let observe : Execution.Operation := .observe {
    handle := tracked.handle
    afterCursor := some tracked.cursor
    waitMs := if args.chars.isEmpty then clamp 5000 300000 args.yieldTimeMs
      else clamp 250 30000 args.yieldTimeMs
    maxOutputBytes := outputPageBytes }
  if args.chars.isEmpty then .single observe
  else
    let interaction : Execution.Operation :=
      if args.chars = ctrlC ∧ !tracked.tty then
        .interrupt tracked.handle (stableActionId lib turnId callId "interrupt")
      else
        .writeInput tracked.handle (stableActionId lib turnId callId "input")
          (lib.base64Encode args.chars)
    .batch .sequential [] [{ requestId := "interaction", operation := interaction },
      { requestId := "observe", operation := observe }]

def prepareWrite (lib : Foreign) (call : ToolCallState) (executions : List TrackedExecution)
    (turnId : Uuid) (startedAtMs : Int) (draw : Uuid) :
    Except ShellToolError PreparedShellOperation := do
  let input ← jsonInput call
  match decodeWriteStdinArgs input with
  | none =>
    throw { message := "invalid write_stdin arguments: " ++ lib.argumentsError input }
  | some args =>
    match executions.find? (·.sessionId == args.sessionId) with
    | none => throw { message := "unknown session ID " ++ toString args.sessionId }
    | some tracked =>
      return {
        request := writeRequest lib call.callId turnId tracked args
        expectedGenerationId := some tracked.handle.generationId
        progress := {
          phase := .interact
          startedAtMs
          chunkId := chunkId draw
          output := .empty
          handle := some tracked.handle
          cursor := some tracked.cursor
          sessionId := some tracked.sessionId
          tty := tracked.tty
          maxOutputTokens := outputTokenBudget args.maxOutputTokens
          lastExecution := none
          outputGap := false
          pagesRead := 0
          moreOutput := false } }

/-- `prepare_new`: the first operation of a call, nothing for another tool's call. -/
def prepareNew (lib : Foreign) (call : ToolCallState) (config : BasicCodexConfig)
    (executions : List TrackedExecution) (platformSessionId : SessionId) (turnId : Uuid)
    (startedAtMs : Int) (draw : Uuid) :
    Except ToolResultSnapshot (Option PreparedShellOperation) :=
  let answer (result : Except ShellToolError PreparedShellOperation) :
      Except ToolResultSnapshot (Option PreparedShellOperation) :=
    match result with
    | .ok operation => .ok (some operation)
    | .error failure => .error (toolError "invalid_tool_arguments" failure.message)
  if call.name = "exec_command" then
    answer (prepareExec lib call config platformSessionId turnId startedAtMs draw)
  else if call.name = "write_stdin" then
    answer (prepareWrite lib call executions turnId startedAtMs draw)
  else .ok none

/-- `prepare_ready`: a further read of a call's output. -/
def prepareReady (progress : ShellCallState) : Except ToolResultSnapshot PreparedShellOperation :=
  match progress.handle with
  | none =>
    .error (toolError "invalid_execution_state" "shell output draining has no execution handle")
  | some handle =>
    .ok {
      request := .single (.observe {
        handle
        afterCursor := progress.cursor
        waitMs := 0
        maxOutputBytes := outputPageBytes })
      expectedGenerationId := some handle.generationId
      progress }

/-! ## Applying a response -/

/-- The error that a runtime answers with. -/
def executionError (code message : String) : ToolResultSnapshot :=
  toolError ("execution_" ++ code).toLower message

/-- What went wrong in a batch's interaction, as far as the batch reports it. -/
def interactionError (results : List BatchItem) : Option String :=
  results.findSome? fun item =>
    match item.outcome with
    | .error _ message => some message
    | .skipped reason => if item.requestId = "observe" then none else some reason
    | .ok _ => none

def decodeObservation (lib : Foreign) (response : Execution.Response) (phase : ShellCallPhase) :
    Except ToolResultSnapshot ObservationWire := do
  let result ← match response.outcome with
    | .ok result => pure result
    | .error code message => throw (executionError code message)
  let value ←
    if phase = .interact ∧ (result.get "results").isSome then
      match lib.decodeBatch result with
      | .error failure =>
        throw (toolError "invalid_execution_response"
          ("invalid execution batch response: " ++ failure))
      | .ok results =>
        match results.find? (·.requestId == "observe") with
        | none =>
          throw (toolError "invalid_execution_response"
            "execution batch has no observe result")
        | some observe =>
          match observe.outcome with
          | .ok result => pure result
          | .error code message => throw (executionError code message)
          | .skipped reason =>
            throw (toolError "execution_interaction_failed"
              ((interactionError results).getD reason))
    else pure result
  match lib.decodeObservation value with
  | .ok observation => return observation
  | .error failure =>
    throw (toolError "invalid_execution_response"
      ("invalid execution observation: " ++ failure))

/-- The chunks of an observation, decoded and appended. -/
def appendChunks (lib : Foreign) :
    List String → OutputAccumulator → Except ToolResultSnapshot OutputAccumulator
  | [], output => .ok output
  | chunk :: chunks, output =>
    match lib.base64Decode chunk with
    | .error failure =>
      .error (toolError "invalid_execution_response"
        ("execution output is not valid base64: " ++ failure))
    | .ok bytes => appendChunks lib chunks (output.append bytes)

/-- A number with at least three digits. -/
def threeDigits (n : Nat) : String :=
  (if n < 10 then "00" else if n < 100 then "0" else "") ++ toString n

/-- `{:.4}` of a number of milliseconds over 1000. -/
def secondsText (milliseconds : Nat) : String :=
  toString (milliseconds / 1000) ++ "." ++ threeDigits (milliseconds % 1000) ++ "0"

/-- The lines of a tool result before the output. -/
def resultHeader (progress : ShellCallState) (execution : Execution.Execution)
    (completedAtMs : Int) : List String :=
  let ending :=
    match execution.state with
    | .finished =>
      match execution.result with
      | some (.exited exitCode signal) | some (.terminated exitCode signal) =>
        match exitCode, signal with
        | some exitCode, _ => ["Process exited with code " ++ toString exitCode]
        | none, some signal => ["Process exited from signal " ++ toString signal]
        | none, none => ["Process exited without an exit code"]
      | _ => []
    | .unfinished _ =>
      match progress.sessionId with
      | some sessionId => ["Process running with session ID " ++ toString sessionId]
      | none => []
  ["Chunk ID: " ++ progress.chunkId,
    "Wall time: " ++ secondsText (completedAtMs - progress.startedAtMs).toNat ++ " seconds"] ++
    ending ++
    ["Original token count: " ++ toString ((progress.output.totalBytes + 3) / 4), "Output:"]

/-- The output of a tool result, with its warnings. -/
def resultBody (progress : ShellCallState) (execution : Execution.Execution) : String :=
  let body := progress.output.modelText progress.maxOutputTokens
  let body := if progress.outputGap then
    "Warning: earlier command output was no longer retained by the execution runtime.\n" ++ body
    else body
  let body := if execution.outputIncomplete then
    "Warning: the execution runtime could not capture all command output.\n" ++ body
    else body
  if progress.moreOutput then
    "Warning: more command output remains; call write_stdin again to continue reading.\n" ++ body
  else body

def formatResult (progress : ShellCallState) (observation : ObservationWire)
    (completedAtMs : Int) : ToolResultSnapshot :=
  match observation.execution.result with
  | some (.startFailed message) => toolError "execution_start_failed" message
  | some (.lost message) => toolError "execution_lost" message
  | _ =>
    let header := resultHeader progress observation.execution completedAtMs
    { content := [.text ("\n".intercalate header ++ "\n" ++
        resultBody progress observation.execution) none]
      outcome := .success
      details := some (.object [("execution", observation.executionJson),
        ("next_cursor", .string observation.nextCursor),
        ("return_reason", observation.returnReason), ("output_gap", .bool progress.outputGap),
        ("has_more", .bool observation.hasMore), ("pages_read", .nat progress.pagesRead)]) }

/-- `allocate_session_id`: the next number and the number after it. -/
def allocateSessionId (next : Int) : Except ShellToolError (Int × Int) :=
  if next + 1 < 2 ^ 31 then .ok (next, next + 1)
  else .error { message := "execution session ID space exhausted" }

/-- `upsert_execution`: in the place of the first execution of that session, or at the end. -/
def upsertExecution (tracked : TrackedExecution) : List TrackedExecution → List TrackedExecution
  | [] => [tracked]
  | existing :: rest =>
    if existing.sessionId = tracked.sessionId then tracked :: rest
    else existing :: upsertExecution tracked rest

/-- The first execution of a session, with a new cursor. -/
def setCursor (sessionId : Int) (cursor : String) : List TrackedExecution → List TrackedExecution
  | [] => []
  | existing :: rest =>
    if existing.sessionId = sessionId then { existing with cursor } :: rest
    else existing :: setCursor sessionId cursor rest

/-- What an observation leaves in the progress of its call. -/
def observed (progress : ShellCallState) (output : OutputAccumulator)
    (observation : ObservationWire) : ShellCallState :=
  { progress with
    output
    outputGap := progress.outputGap || observation.outputGap
    handle := some observation.execution.handle
    cursor := some observation.nextCursor
    lastExecution := some observation.execution
    pagesRead := min (progress.pagesRead + 1) (2 ^ 16 - 1)
    moreOutput := observation.hasMore }

/-- The session of a running process: the call's own or a new one, and the executions with it. -/
def trackActive (state : BasicCodexState) (progress : ShellCallState)
    (observation : ObservationWire) (turnId : Uuid) :
    Except ToolResultSnapshot (ShellCallState × BasicCodexState) := do
  let (sessionId, next) ← match progress.sessionId with
    | some sessionId => pure (sessionId, state.nextExecutionSessionId)
    | none =>
      match allocateSessionId state.nextExecutionSessionId with
      | .ok allocated => pure allocated
      | .error failure => throw (toolError "execution_session_limit" failure.message)
  let tracked : TrackedExecution := {
    sessionId
    handle := observation.execution.handle
    cursor := observation.nextCursor
    ownerTurnId := turnId
    tty := progress.tty }
  return ({ progress with sessionId := some sessionId },
    { state with
      executions := upsertExecution tracked state.executions
      nextExecutionSessionId := next })

/-- The executions after a process finished: gone, or read on while there is output. -/
def trackFinished (state : BasicCodexState) (progress : ShellCallState)
    (observation : ObservationWire) : BasicCodexState :=
  match progress.sessionId with
  | none => state
  | some sessionId =>
    if observation.hasMore then
      { state with executions := setCursor sessionId observation.nextCursor state.executions }
    else
      { state with executions := state.executions.filter (·.sessionId != sessionId) }

/-- The executions after an observation. -/
def track (state : BasicCodexState) (progress : ShellCallState) (observation : ObservationWire)
    (turnId : Uuid) : Except ToolResultSnapshot (ShellCallState × BasicCodexState) :=
  if observation.execution.state ≠ .finished then trackActive state progress observation turnId
  else .ok (progress, trackFinished state progress observation)

/-- `apply_response`. A response that is refused leaves the state alone. -/
def applyResponse (lib : Foreign) (progress : ShellCallState) (response : Execution.Response)
    (state : BasicCodexState) (turnId : Uuid) (completedAtMs : Int) :
    Except ToolResultSnapshot (AppliedShellResult × BasicCodexState) := do
  let observation ← decodeObservation lib response progress.phase
  let output ← appendChunks lib observation.output progress.output
  let progress := observed progress output observation
  if observation.execution.handle.generationId ≠ response.generationId then
    throw (toolError "invalid_execution_response"
      "execution handle contains an inconsistent runtime generation")
  else
    let (progress, state) ← track state progress observation turnId
    if observation.hasMore ∧ progress.pagesRead < maxOutputPagesPerCall then
      return (.ready { progress with phase := .drain }, state)
    else
      return (.completed (formatResult progress observation completedAtMs), state)

end ShellTools

end AgentPlatform.Harness
