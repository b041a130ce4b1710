import AgentPlatform.Harness.ToolExecution

/-!
# Requests to the model and compaction

`prompt.rs`, `llm.rs` and `compaction.rs`: what a request carries, what a response must carry, how
many tokens a conversation is taken to need, and what a compaction keeps of it.
-/

namespace AgentPlatform.Harness

/-- `PromptContext`. -/
structure PromptContext where
  sessionId : SessionId
  currentDate : String

/-- `Debug` of a provider. -/
def providerDebug : Provider → String
  | .openai => "Openai"
  | .chatgpt => "Chatgpt"
  | .fireworks => "Fireworks"

/-- The wire word of a provider. -/
def providerWord : Provider → String
  | .openai => "openai"
  | .chatgpt => "chatgpt"
  | .fireworks => "fireworks"

namespace Prompt

/-- `instructions`. -/
def instructions (lib : Foreign) (config : BasicCodexConfig) : String :=
  let base := String.ofList (lib.baseInstructions.toList.rdropWhile isWhitespace)
  match config.additionalInstructions with
  | some additional => base ++ "\n\n# Session instructions\n\n" ++ additional
  | none => base

/-- `escape_xml` of one character. -/
def escapeXmlChar : Char → List Char
  | '&' => "&amp;".toList
  | '<' => "&lt;".toList
  | '>' => "&gt;".toList
  | '\x22' => "&quot;".toList
  | '\x27' => "&apos;".toList
  | c => [c]

/-- `escape_xml`. The ampersand is replaced first, so each character is replaced once. -/
def escapeXml (value : String) : String := String.ofList (value.toList.flatMap escapeXmlChar)

/-- The lines of the environment context. -/
def environmentLines (config : BasicCodexConfig) (currentDate : String) : List String :=
  ["<environment_context>",
    "  <cwd>" ++ escapeXml config.cwd ++ "</cwd>",
    "  <current_date>" ++ escapeXml currentDate ++ "</current_date>"] ++
    (config.shell.map fun shell => "  <shell>" ++ escapeXml shell ++ "</shell>").toList ++
    (config.platform.map fun platform =>
      "  <platform>" ++ escapeXml platform ++ "</platform>").toList ++
    ["</environment_context>"]

def environmentMessage (config : BasicCodexConfig) (currentDate : String) : Message :=
  .userText ("\n".intercalate (environmentLines config currentDate))

/-- `project_messages`: the conversation behind one environment message. -/
def projectMessages (config : BasicCodexConfig) (currentDate : String)
    (messages : List Message) : List Message :=
  environmentMessage config currentDate :: messages

def promptCacheKey (sessionId : SessionId) : String := sessionId.toText

end Prompt

namespace Llm

def providerOptions (config : BasicCodexConfig) (sessionId : SessionId) : ProviderOptions :=
  [("reasoning", .object [("effort", .string config.reasoningEffort.asStr)]),
    ("parallel_tool_calls", .bool true), ("store", .bool false),
    ("include", .array [.string "reasoning.encrypted_content"]),
    ("codex_remote_compaction_v2", .bool true),
    ("prompt_cache_key", .string (Prompt.promptCacheKey sessionId))]

def freshRequest (agent : Agent) (context : PromptContext) (messages : List Message) :
    LlmRequest :=
  .fresh agent.config.accountId agent.config.model.asStr
    (some (Prompt.instructions agent.lib agent.config))
    (Prompt.projectMessages agent.config context.currentDate messages)
    (ToolCatalog.definitions agent.lib) (providerOptions agent.config context.sessionId)

/-- The tag of a provider's own items. -/
def customItemTag : BasicCodexProvider → String
  | .openai => "openai_custom_item"
  | .chatgpt => "chatgpt_custom_item"

/-- The item that asks the provider to compact. -/
def compactionTrigger (agent : Agent) : Message :=
  .custom .default (customItemTag agent.config.provider)
    (agent.lib.toRawValue
      (.object [("content", .array [.object [("type", .string "compaction_trigger")]])]))

def compactionRequest (agent : Agent) (context : PromptContext) (messages : List Message) :
    LlmRequest :=
  freshRequest agent context (messages ++ [compactionTrigger agent])

/-- The check of `response_provider` on one item. -/
def checkItem (lib : Foreign) (index : Nat) (item : RawJson) : Except String Unit :=
  match lib.parseJson item with
  | .error failure =>
    .error ("assistant item " ++ toString index ++ " is invalid JSON: " ++ failure)
  | .ok (.object fields) =>
    match (Value.get (.object fields) "type").bind Value.asStr with
    | some kind =>
      if isBlank kind then
        .error ("assistant item " ++ toString index ++ " requires a nonempty type")
      else .ok ()
    | none => .error ("assistant item " ++ toString index ++ " requires a nonempty type")
  | .ok _ => .error ("assistant item " ++ toString index ++ " must be an object")

/-- The loop of `response_provider`. -/
def checkItems (lib : Foreign) : Nat → List RawJson → Except String Unit
  | _, [] => .ok ()
  | index, item :: items =>
    match checkItem lib index item with
    | .error failure => .error failure
    | .ok () => checkItems lib (index + 1) items

/-- `response_provider`. -/
def responseProvider (agent : Agent) (response : AssistantResponse) : Except String Provider :=
  if isBlank response.id then .error "LLM response ID must not be empty"
  else if response.modelId ≠ agent.config.model.asStr then
    .error ("LLM response model " ++ response.modelId ++
      " does not match configured model " ++ agent.config.model.asStr)
  else
    match response.message with
    | .assistant _ provider content =>
      match checkItems agent.lib 0 content with
      | .error failure => .error failure
      | .ok () =>
        if provider ≠ agent.config.provider.contractProvider then
          .error ("LLM response provider " ++ providerDebug provider ++
            " does not match configured provider " ++ agent.config.provider.asStr)
        else .ok provider
    | _ => .error "LLM response does not contain an assistant message"

/-- `estimated_context_tokens`: what the provider counted, if it counted both directions. -/
def estimatedContextTokens (usage : Option Usage) : Option Nat := do
  let usage ← usage
  let input ← usage.input
  let output ← usage.output
  return saturatingAdd (saturatingAdd (saturatingAdd input.toNat
    ((usage.cacheRead.map UInt64.toNat).getD 0)) ((usage.cacheWrite.map UInt64.toNat).getD 0))
    output.toNat

end Llm

namespace Compaction

/-- `RETAINED_USER_TOKEN_BUDGET`. -/
def retainedUserTokenBudget : Nat := 64000

/-- `CHECKPOINT_TAG`. -/
def checkpointTag : String := "basic_codex_compaction_checkpoint"

/-! ## Estimates -/

/-- `estimate_bytes`. -/
def estimateBytes (bytes : Nat) : Nat := saturatingAdd bytes 3 / 4

/-- `estimate_serialized_tokens`, of what serializes to this text. -/
def estimateSerialized (text : RawJson) : Nat := estimateBytes text.utf8ByteSize

def estimateContentTokens : ContentPart → Nat
  | .text text _ => estimateBytes text.utf8ByteSize
  | .image _ detail _ =>
    match detail.getD .auto with
    | .low => 85
    | .auto | .high => 1844
    | .original => 10000

/-- `estimate_native_compaction_tokens`. -/
def estimateNativeCompactionTokens (lib : Foreign) (data : RawJson) : Option Nat :=
  match lib.parseJson data with
  | .error _ => none
  | .ok value =>
    match value.get "content" with
    | some (.array items) =>
      (items.findSome? fun item => (item.get "encrypted_content").bind Value.asStr).map
        fun encrypted =>
          let visibleBytes := min (encrypted.utf8ByteSize * 3) (2 ^ 64 - 1) / 4
          estimateBytes (visibleBytes - 650)
    | _ => none

def estimateMessageTokens (lib : Foreign) (message : Message) : Nat :=
  match message with
  | .user _ content => saturatingAdd 4 (content.map estimateContentTokens).sum
  | .custom _ tag data =>
    if tag = "openai_custom_item" ∨ tag = "chatgpt_custom_item" then
      (estimateNativeCompactionTokens lib data).getD (estimateBytes data.utf8ByteSize)
    else estimateSerialized (lib.messageJson message)
  | _ => estimateSerialized (lib.messageJson message)

/-- The tokens of several messages. -/
def estimateMessages (lib : Foreign) (messages : List Message) : Nat :=
  (messages.map (estimateMessageTokens lib)).sum

def estimateRequestTokens (agent : Agent) (messages : List Message) : Nat :=
  saturatingAdd
    (saturatingAdd
      (saturatingAdd (estimateBytes (Prompt.instructions agent.lib agent.config).utf8ByteSize)
        (estimateSerialized (agent.lib.definitionsJson (ToolCatalog.definitions agent.lib))))
      (estimateMessageTokens agent.lib (Prompt.environmentMessage agent.config "0000-00-00")))
    (estimateMessages agent.lib messages)

/-! ## What a compaction keeps -/

/-- The loop of `truncate_user_message` over the parts from the last, and what it selects. -/
def truncateParts : Nat → List ContentPart → List ContentPart
  | _, [] => []
  | remaining, part :: parts =>
    if estimateContentTokens part ≤ remaining then
      part :: truncateParts (remaining - estimateContentTokens part) parts
    else
      match part with
      | .text text metadata =>
        let byteBudget := min (remaining * 4) (2 ^ 64 - 1)
        let kept := ceilSuffix (text.utf8ByteSize - byteBudget) text.toList
        if 0 < remaining ∧ kept ≠ [] then [.text (String.ofList kept) metadata] else []
      | .image .. => []

/-- `truncate_user_message`: the end of a message that fits a budget. -/
def truncateUserMessage (base : MessageBase) (content : List ContentPart) (budget : Nat) :
    Option Message :=
  let selected := (truncateParts (budget - 4) content.reverse).reverse
  if selected.isEmpty then none else some (.user base selected)

/-- The loop of `retained_user_messages` over the messages from the last, and what it retains. -/
def retainLatest (lib : Foreign) : Nat → List Message → List Message
  | _, [] => []
  | remaining, .user base content :: messages =>
    let tokens := estimateMessageTokens lib (.user base content)
    if tokens ≤ remaining then
      .user base content :: retainLatest lib (remaining - tokens) messages
    else if 0 < remaining then (truncateUserMessage base content remaining).toList
    else []
  | remaining, _ :: messages => retainLatest lib remaining messages

/-- `retained_user_messages`: the latest user messages within the budget, in their order. -/
def retainedUserMessages (lib : Foreign) (messages : List Message) : List Message :=
  (retainLatest lib retainedUserTokenBudget messages.reverse).reverse

/-! ## Responses and checkpoints -/

/-- `ValidatedCompaction`. -/
structure ValidatedCompaction where
  provider : Provider
  responseId : String
  nativeItem : RawJson
  usage : Option Usage

/-- The loop of `validate_response`, after the item found so far. -/
def findNativeItem (lib : Foreign) :
    List RawJson → Option RawJson → Except String (Option RawJson)
  | [], found => .ok found
  | item :: items, found =>
    match lib.parseJson item with
    | .error failure => .error ("compaction output contains invalid JSON: " ++ failure)
    | .ok value =>
      let kind := (value.get "type").bind Value.asStr
      if kind ≠ some "compaction" ∧ kind ≠ some "compaction_summary" then
        findNativeItem lib items found
      else if found.isSome then
        .error "compaction response contains more than one compaction item"
      else
        match (value.get "encrypted_content").bind Value.asStr with
        | none => .error "compaction item requires encrypted_content"
        | some encrypted =>
          if isBlank encrypted then .error "compaction item encrypted_content must not be empty"
          else findNativeItem lib items (some item)

/-- `validate_response`. -/
def validateResponse (agent : Agent) (response : AssistantResponse) :
    Except String ValidatedCompaction :=
  match Llm.responseProvider agent response with
  | .error failure => .error failure
  | .ok provider =>
    if response.stopReason ≠ .stop then
      .error ("compaction response must stop normally, received " ++
        ToolPlan.stopReasonText response.stopReason)
    else
      match response.message with
      | .assistant _ _ content =>
        match findNativeItem agent.lib content none with
        | .error failure => .error failure
        | .ok none => .error "compaction response does not contain a compaction item"
        | .ok (some nativeItem) =>
          .ok { provider, responseId := response.id, nativeItem, usage := response.usage }
      | _ => .error "compaction response does not contain an assistant message"

/-- `provider_message`: the compaction item as the provider reads it back. -/
def providerMessage (agent : Agent) (nativeItem : RawJson) : Except String Message :=
  match agent.lib.parseJson nativeItem with
  | .error failure => .error ("saved compaction item is invalid JSON: " ++ failure)
  | .ok value =>
    .ok (.custom .default (Llm.customItemTag agent.config.provider)
      (agent.lib.toRawValue (.object [("content", .array [value])])))

/-- `checkpoint_message`: the record of a compaction in the platform's history. -/
def checkpointMessage (lib : Foreign) (validated : ValidatedCompaction)
    (sourceThroughSequence : HistorySequence) (sourceProjectionSha256 : String)
    (retainedUserMessages generation : Nat) (trigger : CompactionTrigger) :
    Except String Message :=
  match lib.parseJson validated.nativeItem with
  | .error failure => .error ("saved compaction item is invalid JSON: " ++ failure)
  | .ok nativeItem =>
    .ok (.custom .default checkpointTag (lib.toRawValue (.object
      [("version", .nat 1), ("provider", .string (providerWord validated.provider)),
        ("response_id", .string validated.responseId), ("native_item", nativeItem),
        ("source_through_sequence", .nat sourceThroughSequence),
        ("source_projection_sha256", .string sourceProjectionSha256),
        ("retained_user_messages", .nat retainedUserMessages), ("generation", .nat generation),
        ("trigger", .string trigger.asStr)])))

/-- `serde_json::to_vec` of several messages. -/
def messagesJson (lib : Foreign) (messages : List Message) : RawJson :=
  "[" ++ ",".intercalate (messages.map lib.messageJson) ++ "]"

/-- `projection_sha256`. -/
def projectionSha256 (lib : Foreign) (messages : List Message) : String :=
  lib.sha256 (messagesJson lib messages)

end Compaction

end AgentPlatform.Harness
