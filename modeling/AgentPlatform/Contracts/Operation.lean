import AgentPlatform.Contracts.Execution

/-!
# Operations

`agent-contracts/src/operation.rs`: what a harness asks a gateway for, and how an operation ends.
-/

namespace AgentPlatform

abbrev ProviderOptions := List (String × Value)

inductive GrammarSyntax where
  | lark
deriving DecidableEq, Repr, Inhabited

structure CustomToolFormat where
  grammar : GrammarSyntax
  definition : String
deriving DecidableEq, Repr, Inhabited

inductive ToolDefinition where
  | function (name description : String) (parameters : List (String × Value))
      (outputSchema : Option (List (String × Value))) (strict : Option Bool)
  | custom (name description : String) (format : CustomToolFormat)
deriving Repr, Inhabited

/-! ## Requests -/

inductive LlmRequest where
  | fresh (accountId : Uuid) (modelId : String) (instructions : Option String)
      (messages : List Message) (tools : List ToolDefinition) (providerOptions : ProviderOptions)
  | continuation (previousOperationId : OperationId) (messages : List Message)
deriving Repr, Inhabited

inductive OperationRequest where
  | llm (connection : GatewayConnectionId) (request : LlmRequest)
  | execution (connection : GatewayConnectionId) (machineId : Uuid)
      (expectedGenerationId : Option Uuid) (request : Execution.Payload)
  | llmCancellation (target : OperationId)
  | withdraw (target : OperationId)
deriving Repr, Inhabited

/-- `OperationRequest::kind`. -/
def OperationRequest.kind : OperationRequest → OperationKind
  | .llm .. => .llm
  | .execution .. => .execution
  | .llmCancellation _ => .llmCancellation
  | .withdraw _ => .withdraw

/-! ## Outcomes -/

inductive FailureSource where
  | admission
  | gateway
  | protocol
  | platform
deriving DecidableEq, Repr, Inhabited

/-- The wire word of a failure source. -/
def FailureSource.asStr : FailureSource → String
  | .admission => "admission"
  | .gateway => "gateway"
  | .protocol => "protocol"
  | .platform => "platform"

structure OperationFailure where
  source : FailureSource
  code : String
  message : String
  executionResponse : Option Execution.Response
deriving Repr, Inhabited

inductive StopReason where
  | stop
  | length
  | toolUse
  | refusal
  | contentFilter
  | pauseTurn
deriving DecidableEq, Repr, Inhabited

/-- `UsageCost`. A floating-point number is kept as its digits. -/
structure UsageCost where
  input : Option String
  output : Option String
  cacheRead : Option String
  cacheWrite : Option String
  total : String
deriving DecidableEq, Repr, Inhabited

structure Usage where
  input : Option UInt64
  output : Option UInt64
  cacheRead : Option UInt64
  cacheWrite : Option UInt64
  cost : Option UsageCost := none
deriving DecidableEq, Repr, Inhabited

/-- `AssistantResponse`. Decoding one checks that its message is an assistant's. -/
structure AssistantResponse where
  id : String
  modelId : String
  resolvedModelId : Option String := none
  message : Message
  stopReason : StopReason
  usage : Option Usage
  durationMs : UInt64 := 0
  timestamp : Int := 0
  assistant : message.isAssistant = true

inductive OperationResult where
  | llm (response : AssistantResponse)
  | execution (response : Execution.Response)
  | llmCancellation (accepted : Bool)
  | withdraw (withdrawn : Bool)

/-- The kind of operation that ends in a result. -/
def OperationResult.kind : OperationResult → OperationKind
  | .llm _ => .llm
  | .execution _ => .execution
  | .llmCancellation _ => .llmCancellation
  | .withdraw _ => .withdraw

inductive OperationOutcome where
  | succeeded (result : OperationResult)
  | failed (failure : OperationFailure)
  | cancelled
  | unknown (failure : OperationFailure)

/-- `OperationOutcome::status`. -/
def OperationOutcome.status : OperationOutcome → OperationOutcomeStatus
  | .succeeded _ => .succeeded
  | .failed _ => .failed
  | .cancelled => .cancelled
  | .unknown _ => .unknown

end AgentPlatform
