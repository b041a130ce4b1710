import AgentPlatform.Harness.ToolCatalog
import AgentPlatform.Lib.Fallible

/-!
# Tool plans

`tool_plan.rs`: the plan that an assistant's response asks for. Consecutive parallel-safe calls form
one segment, an exclusive call forms its own; a call whose arguments do not fit is completed at once
with an error and stands in no segment.
-/

namespace AgentPlatform.Harness

/-- `ToolPlanError`. -/
structure ToolPlanError where
  message : String
deriving DecidableEq, Repr, Inhabited

namespace ToolPlan

/-- `Debug` of a call kind. -/
def kindText : ToolCallKind → String
  | .function => "Function"
  | .custom => "Custom"

/-- `Debug` of a stop reason. -/
def stopReasonText : StopReason → String
  | .stop => "Stop"
  | .length => "Length"
  | .toolUse => "ToolUse"
  | .refusal => "Refusal"
  | .contentFilter => "ContentFilter"
  | .pauseTurn => "PauseTurn"

def errorSnapshot (message : String) : ToolResultSnapshot where
  content := [.text message none]
  outcome := .error { message, name := some "invalid_tool_arguments" }
  details := none

def invalidFunctionInput (input : Value) (message : String) : ToolInput × ToolCallStatus :=
  (.json input, .completed (errorSnapshot message))

def parseFunctionInput (lib : Foreign) (value : Value) (descriptor : ToolDescriptor) :
    ToolInput × ToolCallStatus :=
  match (value.get "arguments").bind Value.asStr with
  | none => invalidFunctionInput .null "function arguments must be a JSON string"
  | some arguments =>
    match lib.parseJson arguments with
    | .error failure =>
      invalidFunctionInput (.string arguments) ("function arguments are invalid JSON: " ++ failure)
    | .ok parsed =>
      -- a custom tool has no schema, and its calls are not parsed here
      let schema := descriptor.parameters.getD []
      if satisfies (.object schema) parsed then (.json parsed, .pending)
      else
        invalidFunctionInput parsed
          ("function arguments do not match the tool schema: " ++ lib.schemaError schema parsed)

def parseCustomInput (value : Value) : ToolInput × ToolCallStatus :=
  match (value.get "input").bind Value.asStr with
  | some input =>
    if input.isEmpty then
      (.text "", .completed (errorSnapshot "custom tool input must not be empty"))
    else (.text input, .pending)
  | none => (.text "", .completed (errorSnapshot "custom tool input must be a string"))

def requiredNonemptyString (value : Value) (field : String) : Except ToolPlanError String :=
  match (value.get field).bind Value.asStr with
  | some text =>
    if isBlank text then .error { message := "tool call requires a nonempty " ++ field }
    else .ok text
  | none => .error { message := "tool call requires a nonempty " ++ field }

/-- The kind of call that an item's type names. -/
def callKindOf : String → Option ToolCallKind
  | "function_call" => some .function
  | "custom_tool_call" => some .custom
  | _ => none

/-- The input and the first status of a call of a kind. -/
def parseInput (lib : Foreign) (value : Value) (descriptor : ToolDescriptor) :
    ToolCallKind → ToolInput × ToolCallStatus
  | .function => parseFunctionInput lib value descriptor
  | .custom => parseCustomInput value

/-- The body of the loop in `parse` for a callable item; `calls` are the calls before it. -/
def parseCall (lib : Foreign) (calls : List ToolCallState) (value : Value)
    (callKind : ToolCallKind) : Except ToolPlanError ToolCallState := do
  let callId ← requiredNonemptyString value "call_id"
  if calls.any (·.callId == callId) then
    throw { message := "duplicate tool call ID " ++ callId }
  else
    let name ← requiredNonemptyString value "name"
    match ToolCatalog.descriptor lib name with
    | none => throw { message := "model requested unknown tool " ++ name }
    | some descriptor =>
      if descriptor.callKind ≠ callKind then
        throw { message := "tool " ++ name ++ " was called as " ++ kindText callKind ++
          ", but its definition is " ++ kindText descriptor.callKind }
      else if 2 ^ 32 ≤ calls.length then
        throw { message := "assistant returned too many tool calls" }
      else
        let parsed := parseInput lib value descriptor callKind
        return { callId, name, ordinal := calls.length, kind := callKind, input := parsed.1,
                 scheduling := descriptor.scheduling, status := parsed.2 }

/-- The loop of `parse` over the assistant's items. -/
def parseItems (lib : Foreign) :
    List RawJson → List ToolCallState → Except ToolPlanError (List ToolCallState)
  | [], calls => .ok calls
  | item :: items, calls =>
    match lib.parseJson item with
    | .error failure => .error { message := "assistant item is invalid JSON: " ++ failure }
    | .ok value =>
      match ((value.get "type").bind Value.asStr).bind callKindOf with
      | none => parseItems lib items calls
      | some callKind => do
        let call ← parseCall lib calls value callKind
        parseItems lib items (calls ++ [call])

/-- `build_segments`, after the segments that are built already. -/
def extendSegments (segments : List ToolSegment) (call : ToolCallState) : List ToolSegment :=
  match call.scheduling, segments.getLast? with
  | .parallelSafe, some ⟨.parallelSafe, ordinals⟩ =>
    segments.dropLast ++ [⟨.parallelSafe, ordinals ++ [call.ordinal]⟩]
  | scheduling, _ => segments ++ [⟨scheduling, [call.ordinal]⟩]

def buildSegments (calls : List ToolCallState) : List ToolSegment :=
  (calls.filter (·.status.isPending)).foldl extendSegments []

def parse (lib : Foreign) (assistantOperationId : OperationId) (message : Message)
    (stopReason : StopReason) : Except ToolPlanError (Option ToolPlanState) :=
  match message with
  | .assistant _ _ content => do
    let calls ← parseItems lib content []
    if calls.isEmpty then
      if stopReason = .toolUse then
        throw { message := "tool_use response contains no callable items" }
      else return none
    else if stopReason ≠ .toolUse then
      throw { message := "assistant response contains tool calls with stop reason " ++
        stopReasonText stopReason }
    else
      return some { assistantOperationId, calls, segments := buildSegments calls,
                    activeSegment := 0 }
  | _ => .error { message := "tool-call parsing requires an assistant message" }

end ToolPlan

/-! ## The plan -/

namespace ToolPlanState

variable (plan : ToolPlanState)

def currentSegment : Option ToolSegment := plan.segments[plan.activeSegment]?

/-- Whether the call of an ordinal is completed. -/
def callCompleted (ordinal : Nat) : Bool :=
  plan.calls[ordinal]?.any (·.status.isCompleted)

/-- Whether every call of a segment is completed. -/
def segmentCompleted (segment : ToolSegment) : Bool :=
  segment.callOrdinals.all plan.callCompleted

/-- `advance_completed_segments`: past the active segments that are completed. -/
def advanceCompletedSegments : ToolPlanState :=
  { plan with activeSegment := plan.activeSegment +
      ((plan.segments.drop plan.activeSegment).takeWhile plan.segmentCompleted).length }

def isComplete : Bool := plan.calls.all (·.status.isCompleted)

/-- The tool result of one call. -/
def resultMessage (lib : Foreign) (call : ToolCallState) (snapshot : ToolResultSnapshot) :
    Message :=
  .toolResult .default call.name call.callId snapshot.content snapshot.outcome
    (snapshot.details.map lib.toRawValue)

/-- `ordered_result_messages`: the results in the order of the calls. -/
def orderedResultMessages (lib : Foreign) : Except ToolPlanError (List Message) :=
  plan.calls.mapM fun call =>
    match call.status with
    | .completed snapshot => .ok (resultMessage lib call snapshot)
    | _ => .error { message := "tool results requested before the plan completed" }

/-- The plan with a call changed. -/
def setStatus (ordinal : Nat) (status : ToolCallStatus) : ToolPlanState :=
  { plan with calls := plan.calls.modify ordinal fun call => { call with status } }

end ToolPlanState

end AgentPlatform.Harness
