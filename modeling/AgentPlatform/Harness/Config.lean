import AgentPlatform.Contracts.Outcome

/-!
# The basic Codex harness: configuration

`model.rs`, `config.rs` and `harness.rs` of `basic-codex-harness`, as far as the handler reads
them, and the library functions that the harness calls.
-/

namespace AgentPlatform.Harness

/-! ## Models and providers -/

inductive BasicCodexProvider where
  | openai
  | chatgpt
deriving DecidableEq, Repr, Inhabited

namespace BasicCodexProvider

def asStr : BasicCodexProvider → String
  | openai => "openai"
  | chatgpt => "chatgpt"

def contractProvider : BasicCodexProvider → Provider
  | openai => .openai
  | chatgpt => .chatgpt

end BasicCodexProvider

inductive BasicCodexModel where
  | sol
  | terra
  | luna
deriving DecidableEq, Repr, Inhabited

def BasicCodexModel.asStr : BasicCodexModel → String
  | sol => "gpt-5.6-sol"
  | terra => "gpt-5.6-terra"
  | luna => "gpt-5.6-luna"

/-- `AUTO_COMPACT_LIMIT`, the `auto_compact_limit` of every model's profile. -/
def autoCompactLimit : Nat := 244800

inductive ReasoningEffort where
  | low
  | medium
  | high
  | xhigh
  | max
deriving DecidableEq, Repr, Inhabited

def ReasoningEffort.asStr : ReasoningEffort → String
  | low => "low"
  | medium => "medium"
  | high => "high"
  | xhigh => "xhigh"
  | max => "max"

/-! ## Configuration -/

structure BasicCodexConfig where
  accountId : Uuid
  provider : BasicCodexProvider
  model : BasicCodexModel
  reasoningEffort : ReasoningEffort
  machineId : Uuid
  cwd : String
  shell : Option String
  platform : Option String
  additionalInstructions : Option String
deriving Repr, Inhabited

/-- `BasicCodexHarness`. -/
structure BasicCodexHarness where
  llmConnectionId : GatewayConnectionId
  executionConnectionId : GatewayConnectionId
deriving Repr, Inhabited

/-! ## Library functions -/

/-- What an execution reports of itself, as `ObservationWire` decodes it. The fields that only go
into the details of a tool result are kept as the JSON that goes there. -/
structure ObservationWire where
  execution : Execution.Execution
  executionJson : Value
  output : List String
  nextCursor : String
  hasMore : Bool
  outputGap : Bool
  returnReason : Value

/-- `execution::OperationOutcome`. -/
inductive BatchItemOutcome where
  | ok (result : Value)
  | error (code message : String)
  | skipped (reason : String)

/-- `execution::OperationResponse`. -/
structure BatchItem where
  requestId : String
  outcome : BatchItemOutcome

/-- The functions of other crates that the harness calls, and the two texts it includes. A decoder
that fails answers the text of its error. -/
structure Foreign where
  /-- `serde_json::from_str::<Value>`. -/
  parseJson : RawJson → Except String Value
  /-- `serde_json::value::to_raw_value`. -/
  toRawValue : Value → RawJson
  /-- `serde_json::to_vec` of a message. -/
  messageJson : Message → RawJson
  /-- `serde_json::to_vec` of the tool definitions. -/
  definitionsJson : List ToolDefinition → RawJson
  /-- `serde_json::to_value` of an operation's failure. -/
  failureValue : OperationFailure → Value
  /-- `serde_json::from_value::<Execution>`. -/
  decodeExecution : Value → Option Execution.Execution
  /-- `serde_json::from_value::<Vec<Execution>>`. -/
  decodeExecutions : Value → Option (List Execution.Execution)
  /-- `serde_json::from_value::<ObservationWire>`. -/
  decodeObservation : Value → Except String ObservationWire
  /-- `serde_json::from_value::<BatchResultWire>`. -/
  decodeBatch : Value → Except String (List BatchItem)
  /-- What serde says of arguments that do not decode. -/
  argumentsError : Value → String
  /-- The first error of a JSON-schema validator that refuses a value. -/
  schemaError : List (String × Value) → Value → String
  /-- `STANDARD.decode`. -/
  base64Decode : String → Except String (List UInt8)
  /-- `STANDARD.encode` of a text's bytes. -/
  base64Encode : String → String
  /-- The hexadecimal digits of the SHA-256 of a text's bytes. -/
  sha256 : String → String
  /-- `BASE_INSTRUCTIONS`. -/
  baseInstructions : String
  /-- `APPLY_PATCH_LARK_GRAMMAR`. -/
  applyPatchGrammar : String

end AgentPlatform.Harness
