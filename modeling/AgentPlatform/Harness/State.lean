import AgentPlatform.Harness.Config

/-!
# The saved state of a session

`basic-codex-harness/src/state`: what the harness keeps between two events.
-/

namespace AgentPlatform.Harness

open Execution (ExecutionHandle)

/-! ## Tool calls -/

inductive ToolCallKind where
  | function
  | custom
deriving DecidableEq, Repr, Inhabited

inductive ToolInput where
  | json (value : Value)
  | text (text : String)
deriving Repr, Inhabited

inductive ToolScheduling where
  | parallelSafe
  | exclusive
deriving DecidableEq, Repr, Inhabited

inductive ImageDetailChoice where
  | high
  | original
deriving DecidableEq, Repr, Inhabited

structure ViewImageState where
  path : String
  detail : ImageDetailChoice
deriving Repr, Inhabited

inductive ApplyPatchPhase where
  | reading
  | mutating
  | reconciling
deriving DecidableEq, Repr, Inhabited

structure PatchChunk where
  context : Option String
  oldLines : List String
  newLines : List String
  endOfFile : Bool
deriving DecidableEq, Repr, Inhabited

inductive PatchHunk where
  | add (path content : String)
  | delete (path : String)
  | update (path : String) (movePath : Option String) (chunks : List PatchChunk)
deriving Repr, Inhabited

structure ParsedPatch where
  hunks : List PatchHunk
deriving Repr, Inhabited

inductive PatchMutation where
  | write (mutationId path dataBase64 desiredSha256 : String) (expectedSha256 : Option String)
  | remove (mutationId path expectedSha256 : String)
deriving DecidableEq, Repr, Inhabited

structure PatchSummary where
  action : String
  path : String
deriving DecidableEq, Repr, Inhabited

structure ApplyPatchState where
  phase : ApplyPatchPhase
  patch : ParsedPatch
  generationId : Option Uuid
  mutations : List PatchMutation
  summary : List PatchSummary
deriving Repr, Inhabited

inductive FileToolState where
  | viewImage (state : ViewImageState)
  | applyPatch (state : ApplyPatchState)
deriving Repr, Inhabited

inductive ShellCallPhase where
  | start
  | interact
  | drain
deriving DecidableEq, Repr, Inhabited

structure OutputAccumulator where
  head : String
  tail : String
  totalBytes : Nat
  omittedBytes : Nat
deriving DecidableEq, Repr, Inhabited

/-- `OutputAccumulator::default()`. -/
def OutputAccumulator.empty : OutputAccumulator :=
  { head := "", tail := "", totalBytes := 0, omittedBytes := 0 }

structure ShellCallState where
  phase : ShellCallPhase
  startedAtMs : Int
  chunkId : String
  output : OutputAccumulator
  handle : Option ExecutionHandle
  cursor : Option String
  sessionId : Option Int
  tty : Bool
  maxOutputTokens : Nat
  lastExecution : Option Execution.Execution
  outputGap : Bool
  pagesRead : Nat
  moreOutput : Bool
deriving Repr, Inhabited

inductive ToolCallProgress where
  | shell (progress : ShellCallState)
  | filesystem (progress : FileToolState)
deriving Repr, Inhabited

/-- The execution session that a call in progress works on. -/
def ToolCallProgress.sessionId : ToolCallProgress → Option Int
  | .shell progress => progress.sessionId
  | .filesystem _ => none

structure ToolResultSnapshot where
  content : List ContentPart
  outcome : ToolResultOutcome
  details : Option Value
deriving Repr, Inhabited

inductive ToolCallStatus where
  | pending
  | ready (progress : ToolCallProgress)
  | submitted (operationId : OperationId) (progress : ToolCallProgress)
  | completed (snapshot : ToolResultSnapshot)
deriving Repr, Inhabited

namespace ToolCallStatus

def isPending : ToolCallStatus → Bool
  | pending => true
  | _ => false

def isCompleted : ToolCallStatus → Bool
  | completed _ => true
  | _ => false

end ToolCallStatus

structure ToolCallState where
  callId : String
  name : String
  ordinal : Nat
  kind : ToolCallKind
  input : ToolInput
  scheduling : ToolScheduling
  status : ToolCallStatus
deriving Repr, Inhabited

structure ToolSegment where
  scheduling : ToolScheduling
  callOrdinals : List Nat
deriving DecidableEq, Repr, Inhabited

structure ToolPlanState where
  assistantOperationId : OperationId
  calls : List ToolCallState
  segments : List ToolSegment
  activeSegment : Nat
deriving Repr, Inhabited

structure TrackedExecution where
  sessionId : Int
  handle : ExecutionHandle
  cursor : String
  ownerTurnId : Uuid
  tty : Bool
deriving DecidableEq, Repr, Inhabited

/-! ## Turns -/

structure SteeringMessage where
  eventId : EventId
  eventSequence : EventSequence
  message : Message
deriving Repr, Inhabited

inductive LlmPurpose where
  | turn
deriving DecidableEq, Repr, Inhabited

structure AwaitingLlmState where
  operationId : OperationId
  purpose : LlmPurpose
deriving DecidableEq, Repr, Inhabited

inductive CompactionTrigger where
  | preTurn
  | midTurn
deriving DecidableEq, Repr, Inhabited

/-- The wire word of a trigger. -/
def CompactionTrigger.asStr : CompactionTrigger → String
  | preTurn => "pre_turn"
  | midTurn => "mid_turn"

structure CompactionState where
  operationId : OperationId
  sourceThroughSequence : HistorySequence
  sourceProjectionSha256 : String
  attempt : Nat
  trigger : CompactionTrigger
  initialInput : Option Message
deriving Repr, Inhabited

inductive TurnPhase where
  | awaitingLlm (awaiting : AwaitingLlmState)
  | executingTools (plan : ToolPlanState)
  | compacting (compaction : CompactionState)
  | cancelling
deriving Repr, Inhabited

structure RetryState where
  llmAttempts : Nat
deriving DecidableEq, Repr, Inhabited

/-- `RetryState::default()`. -/
def RetryState.default : RetryState := { llmAttempts := 0 }

structure ActiveTurn where
  id : Uuid
  startedAtSequence : EventSequence
  currentDate : String
  phase : TurnPhase
  pendingSteering : List SteeringMessage
  retry : RetryState
deriving Repr, Inhabited

/-! ## Cancellation and failure -/

inductive CancellationTargetKind where
  | llm
  | execution
deriving DecidableEq, Repr, Inhabited

inductive CancellationControl where
  | withdrawalRequested (operationId : OperationId)
  | llmCancellationRequested (operationId : OperationId) (attempt : Nat)
  | awaitingCompletion
  | awaitingDiscovery
  | settled
deriving DecidableEq, Repr, Inhabited

structure CancellationTarget where
  operationId : OperationId
  kind : CancellationTargetKind
  originalCompleted : Bool
  control : CancellationControl
deriving DecidableEq, Repr, Inhabited

inductive ProcessCleanupControl where
  | interruptRequested (operationId : OperationId)
  | terminateRequested (operationId : OperationId) (attempt : Nat)
  | settled
deriving DecidableEq, Repr, Inhabited

structure ProcessCleanup where
  sessionId : Option Int
  handle : ExecutionHandle
  control : ProcessCleanupControl
deriving DecidableEq, Repr, Inhabited

structure ProcessDiscovery where
  operationId : OperationId
  attempt : Nat
deriving DecidableEq, Repr, Inhabited

structure CleanupFailure where
  operationId : OperationId
  code : String
  message : String
deriving DecidableEq, Repr, Inhabited

structure CancellationState where
  reason : Option String
  requestedAtSequence : EventSequence
  turnId : Option Uuid
  targets : List CancellationTarget
  processes : List ProcessCleanup
  discovery : Option ProcessDiscovery
  cleanupFailures : List CleanupFailure
deriving DecidableEq, Repr, Inhabited

inductive FailurePhase where
  | llm
  | compaction
  | toolPlanning
  | stopReason
deriving DecidableEq, Repr, Inhabited

/-- The wire word of a failure phase. -/
def FailurePhase.asStr : FailurePhase → String
  | llm => "llm"
  | compaction => "compaction"
  | toolPlanning => "tool_planning"
  | stopReason => "stop_reason"

structure FailureState where
  phase : FailurePhase
  operationId : Option OperationId
  source : Option FailureSource
  code : String
  message : String
  attempts : Nat
  occurredAtSequence : EventSequence
deriving DecidableEq, Repr, Inhabited

/-! ## The context window and the whole state -/

structure CompactionCheckpoint where
  provider : Provider
  responseId : String
  nativeItem : RawJson
  sourceThroughSequence : HistorySequence
  sourceProjectionSha256 : String
  retainedUserMessages : List Message
  generation : Nat
  usage : Option Usage
deriving Repr, Inhabited

/-- `ContextWindowState`. The model history is the conversation as the provider sees it; it differs
from the platform's history when steering arrives while a request is in flight. -/
structure ContextWindowState where
  generation : Nat
  estimatedTokens : Option Nat
  modelHistory : List Message
  checkpoint : Option CompactionCheckpoint
deriving Repr, Inhabited

def ContextWindowState.initial : ContextWindowState :=
  { generation := 1, estimatedTokens := none, modelHistory := [], checkpoint := none }

structure BasicCodexState where
  schemaVersion : Nat
  activeTurn : Option ActiveTurn
  contextWindow : ContextWindowState
  executions : List TrackedExecution
  nextExecutionSessionId : Int
  cancellation : Option CancellationState
  terminalFailure : Option FailureState
deriving Repr, Inhabited

def BasicCodexState.initial : BasicCodexState where
  schemaVersion := 1
  activeTurn := none
  contextWindow := .initial
  executions := []
  nextExecutionSessionId := 1000
  cancellation := none
  terminalFailure := none

end AgentPlatform.Harness
