import AgentPlatform.Contracts.MessageWire
import AgentPlatform.Contracts.Operation

/-!
# Operations on the wire

How `agent-contracts/src/operation.rs` reads and writes requests, results and outcomes. Every union
here has a derived encoder and a decoder through a wire record, which keeps the variant's value as
raw text until the tag is known.
-/

namespace AgentPlatform

open Json

/-- How other crates read and write their types: uuids, times, `serde_json`'s maps and the types of
the execution protocol. -/
structure Codecs (Time : Type) where
  uuid : Format Uuid
  time : Format Time
  map : Format Metadata
  payload : Format Execution.Payload
  response : Format Execution.Response

/-- Each of them reads again what it wrote of anything it read, and writes a value for it. What is
written of a map has no string that spells no characters. -/
structure Codecs.Sound {Time : Type} (c : Codecs Time) : Prop where
  uuid : c.uuid.Sound
  time : c.time.Sound
  map : c.map.Sound
  mapReadable : c.map.Readable
  payload : c.payload.Sound
  response : c.response.Sound

/-! ## Words -/

def OperationKind.ofStr : String → Option OperationKind
  | "llm" => some .llm
  | "execution" => some .execution
  | "llm_cancellation" => some .llmCancellation
  | "withdraw" => some .withdraw
  | _ => none

def OperationKind.format : Format OperationKind := .word false asStr ofStr

def OperationOutcomeStatus.asStr : OperationOutcomeStatus → String
  | .succeeded => "succeeded"
  | .failed => "failed"
  | .cancelled => "cancelled"
  | .unknown => "unknown"

def OperationOutcomeStatus.ofStr : String → Option OperationOutcomeStatus
  | "succeeded" => some .succeeded
  | "failed" => some .failed
  | "cancelled" => some .cancelled
  | "unknown" => some .unknown
  | _ => none

def OperationOutcomeStatus.format : Format OperationOutcomeStatus := .word false asStr ofStr

inductive LlmRequestMode where
  | fresh
  | continuation
deriving DecidableEq, Repr, Inhabited

def LlmRequestMode.asStr : LlmRequestMode → String
  | .fresh => "fresh"
  | .continuation => "continuation"

def LlmRequestMode.ofStr : String → Option LlmRequestMode
  | "fresh" => some .fresh
  | "continuation" => some .continuation
  | _ => none

def LlmRequestMode.format : Format LlmRequestMode := .word false asStr ofStr

def GrammarSyntax.asStr : GrammarSyntax → String
  | .lark => "lark"

def GrammarSyntax.ofStr : String → Option GrammarSyntax
  | "lark" => some .lark
  | _ => none

/-- Read among the values kept for a tagged union. -/
def GrammarSyntax.format : Format GrammarSyntax := .word true asStr ofStr

def FailureSource.ofStr : String → Option FailureSource
  | "admission" => some .admission
  | "gateway" => some .gateway
  | "protocol" => some .protocol
  | "platform" => some .platform
  | _ => none

def FailureSource.format : Format FailureSource := .word false asStr ofStr

def StopReason.asStr : StopReason → String
  | .stop => "stop"
  | .length => "length"
  | .toolUse => "tool_use"
  | .refusal => "refusal"
  | .contentFilter => "content_filter"
  | .pauseTurn => "pause_turn"

def StopReason.ofStr : String → Option StopReason
  | "stop" => some .stop
  | "length" => some .length
  | "tool_use" => some .toolUse
  | "refusal" => some .refusal
  | "content_filter" => some .contentFilter
  | "pause_turn" => some .pauseTurn
  | _ => none

def StopReason.format : Format StopReason := .word false asStr ofStr

theorem OperationKind.format_writes (kind : OperationKind) : format.Writes kind :=
  Format.word_writes (by cases kind <;> rfl)

theorem OperationOutcomeStatus.format_writes (status : OperationOutcomeStatus) :
    format.Writes status :=
  Format.word_writes (by cases status <;> rfl)

theorem LlmRequestMode.format_writes (mode : LlmRequestMode) : format.Writes mode :=
  Format.word_writes (by cases mode <;> rfl)

theorem GrammarSyntax.format_writes (grammar : GrammarSyntax) : format.Writes grammar :=
  Format.word_writes (by cases grammar; rfl)

theorem FailureSource.format_writes (source : FailureSource) : format.Writes source :=
  Format.word_writes (by cases source <;> rfl)

theorem StopReason.format_writes (reason : StopReason) : format.Writes reason :=
  Format.word_writes (by cases reason <;> rfl)

section

variable {Time : Type} (c : Codecs Time)

/-! ## Tool definitions -/

def CustomToolFormat.deserialize (d : Doc) : Option CustomToolFormat := do
  let a ← d.access [{ key := "syntax" }, { key := "definition" }]
  let grammar ← (a "syntax").bind GrammarSyntax.format.read
  let definition ← (a "definition").bind Format.string.read
  return { grammar, definition }

def CustomToolFormat.serialize (tool : CustomToolFormat) : Doc :=
  .record [
    ("syntax", some (GrammarSyntax.format.write tool.grammar)),
    ("definition", some (Format.string.write tool.definition))]

theorem CustomToolFormat.again (tool : CustomToolFormat) :
    deserialize tool.serialize = some tool := by
  rw [serialize, deserialize, access_record _ (by simp [Distinct])]
  simp [(GrammarSyntax.format_writes tool.grammar).again,
    (Format.string_writes tool.definition).again]

theorem CustomToolFormat.readable (tool : CustomToolFormat) :
    tool.serialize.readable = true := by
  refine readable_record ?_
  simp [Format.string, GrammarSyntax.format, Format.word]

def ToolDefinition.deserialize (d : Doc) : Option ToolDefinition := do
  let (tag, body) ← d.body?.bind (·.untag "type")
  if tag = "function" then
    let a ← body.access [
      { key := "name" }, { key := "description" }, { key := "parameters" },
      { key := "outputSchema" }, { key := "strict" }]
    let name ← (a "name").bind Format.string.read
    let description ← (a "description").bind Format.string.read
    let parameters ← (a "parameters").bind c.map.read
    let outputSchema ← optional c.map.read (a "outputSchema")
    let strict ← optional Format.bool.read (a "strict")
    return .function name description parameters outputSchema strict
  else if tag = "custom" then
    let a ← body.access [{ key := "name" }, { key := "description" }, { key := "format" }]
    let name ← (a "name").bind Format.string.read
    let description ← (a "description").bind Format.string.read
    let tool ← (a "format").bind CustomToolFormat.deserialize
    return .custom name description tool
  else none

def ToolDefinition.serialize : ToolDefinition → Doc
  | .function name description parameters outputSchema strict => .record [
      ("type", some (.ofString "function")),
      ("name", some (Format.string.write name)),
      ("description", some (Format.string.write description)),
      ("parameters", some (c.map.write parameters)),
      ("outputSchema", outputSchema.map c.map.write),
      ("strict", strict.map Format.bool.write)]
  | .custom name description tool => .record [
      ("type", some (.ofString "custom")),
      ("name", some (Format.string.write name)),
      ("description", some (Format.string.write description)),
      ("format", some tool.serialize)]

def ToolDefinition.format : Format ToolDefinition where
  read := deserialize c
  write := serialize c

variable {c}

@[simp] theorem readable_bool (b : Bool) : (Format.bool.write b).readable = true := rfl

theorem ToolDefinition.format_sound (sound : c.Sound) : (format c).Sound := by
  intro d tool h
  obtain ⟨⟨tag, body⟩, -, h⟩ := Option.bind_eq_some_iff.mp h
  dsimp only at h
  split at h
  · obtain ⟨a, -, h⟩ := Option.bind_eq_some_iff.mp h
    obtain ⟨name, -, h⟩ := Option.bind_eq_some_iff.mp h
    obtain ⟨description, -, h⟩ := Option.bind_eq_some_iff.mp h
    obtain ⟨parameters, hparameters, h⟩ := Option.bind_eq_some_iff.mp h
    obtain ⟨outputSchema, hschema, h⟩ := Option.bind_eq_some_iff.mp h
    obtain ⟨strict, -, h⟩ := Option.bind_eq_some_iff.mp h
    cases h
    obtain ⟨doc, -, hparameters⟩ := Option.bind_eq_some_iff.mp hparameters
    have hwrites := sound.map doc parameters hparameters
    have hreads := sound.mapReadable doc parameters hparameters
    have hschemas := Format.forall_of_optional sound.mapReadable hschema
    have hbool : ∀ b ∈ strict, Format.bool.Writes b := fun b _ => Format.bool_writes b
    have hreadable : ReadableFields [
        ("name", some (Format.string.write name)),
        ("description", some (Format.string.write description)),
        ("parameters", some (c.map.write parameters)),
        ("outputSchema", outputSchema.map c.map.write),
        ("strict", strict.map Format.bool.write)] := by
      cases strict <;> simpa [Format.string, hreads] using hschemas
    refine ⟨?_, ?_⟩
    · dsimp only [format]
      rw [serialize, deserialize, untag_record (by simp [Distinct]) hreadable]
      simp only [Option.bind_eq_bind, Option.bind_some, if_pos]
      rw [access_present _ (by simp [Distinct])]
      simp [(Format.string_writes name).again, (Format.string_writes description).again,
        hwrites.again, Format.optional_map (Format.forall_of_optional sound.map hschema),
        Format.optional_map hbool]
    · dsimp only [format]
      exact record_ne_null _
  · split at h
    · obtain ⟨a, -, h⟩ := Option.bind_eq_some_iff.mp h
      obtain ⟨name, -, h⟩ := Option.bind_eq_some_iff.mp h
      obtain ⟨description, -, h⟩ := Option.bind_eq_some_iff.mp h
      obtain ⟨tool, -, h⟩ := Option.bind_eq_some_iff.mp h
      cases h
      have hreadable : ReadableFields [
          ("name", some (Format.string.write name)),
          ("description", some (Format.string.write description)),
          ("format", some tool.serialize)] := by
        simp [Format.string, tool.readable]
      refine ⟨?_, ?_⟩
      · dsimp only [format]
        rw [serialize, deserialize, untag_record (by simp [Distinct]) hreadable]
        simp only [Option.bind_eq_bind, Option.bind_some]
        rw [if_neg (by decide), if_pos trivial, access_present _ (by simp [Distinct])]
        simp [(Format.string_writes name).again, (Format.string_writes description).again, tool.again]
      · dsimp only [format]
        exact record_ne_null _
    · cases h

variable (c)

/-! ## Requests -/

structure LlmRequestWire where
  mode : LlmRequestMode
  accountId : Option Uuid
  modelId : Option String
  instructions : Option String
  messages : RawJson
  tools : Option (List ToolDefinition)
  providerOptions : Option ProviderOptions
  previousOperationId : Option OperationId

def LlmRequestWire.slots : List Slot := [
  { key := "mode" }, { key := "account_id" }, { key := "model_id" }, { key := "instructions" },
  { key := "messages" }, { key := "tools" }, { key := "provider_options" },
  { key := "previous_operation_id" }]

def LlmRequestWire.deserialize (d : Doc) : Option LlmRequestWire := do
  let a ← d.access slots
  let mode ← (a "mode").bind LlmRequestMode.format.read
  let accountId ← optional c.uuid.read (a "account_id")
  let modelId ← optional Format.string.read (a "model_id")
  let instructions ← optional Format.string.read (a "instructions")
  let messages ← (a "messages").bind Format.raw.read
  let tools ← optional (ToolDefinition.format c).list.read (a "tools")
  let providerOptions ← optional c.map.read (a "provider_options")
  let previousOperationId ← optional c.uuid.read (a "previous_operation_id")
  return { mode, accountId, modelId, instructions, messages, tools, providerOptions,
           previousOperationId }

def LlmRequest.ofWire (wire : LlmRequestWire) : Option LlmRequest := do
  let messages ← parseContent (Message.format c.map) wire.messages
  match wire.mode with
  | .fresh => do
    let accountId ← wire.accountId
    let modelId ← wire.modelId
    let tools ← wire.tools
    let providerOptions ← wire.providerOptions
    return .fresh accountId modelId wire.instructions messages tools providerOptions
  | .continuation => do
    let previousOperationId ← wire.previousOperationId
    return .continuation previousOperationId messages

/-- The request is kept as raw text, and its wire record is read from that. -/
def LlmRequest.deserialize (d : Doc) : Option LlmRequest :=
  (fromStr (LlmRequestWire.deserialize c) d.text).bind (ofWire c)

def LlmRequest.serialize : LlmRequest → Doc
  | .fresh accountId modelId instructions messages tools providerOptions => .record [
      ("mode", some (LlmRequestMode.format.write .fresh)),
      ("account_id", some (c.uuid.write accountId)),
      ("model_id", some (Format.string.write modelId)),
      ("instructions", some (instructions.elim .null Format.string.write)),
      ("messages", some ((Message.format c.map).list.write messages)),
      ("tools", some ((ToolDefinition.format c).list.write tools)),
      ("provider_options", some (c.map.write providerOptions))]
  | .continuation previousOperationId messages => .record [
      ("mode", some (LlmRequestMode.format.write .continuation)),
      ("previous_operation_id", some (c.uuid.write previousOperationId)),
      ("messages", some ((Message.format c.map).list.write messages))]

def LlmRequest.format : Format LlmRequest where
  read := deserialize c
  write := serialize c

structure OperationRequestWire where
  kind : OperationKind
  connection : Option GatewayConnectionId
  machineId : Option Uuid
  expectedGenerationId : Option Uuid
  request : Option RawJson
  target : Option OperationId

def OperationRequestWire.slots : List Slot := [
  { key := "kind" }, { key := "connection" }, { key := "machine_id" },
  { key := "expected_generation_id" }, { key := "request" }, { key := "target" }]

def OperationRequestWire.deserialize (d : Doc) : Option OperationRequestWire := do
  let a ← d.access slots
  let kind ← (a "kind").bind OperationKind.format.read
  let connection ← optional Format.string.read (a "connection")
  let machineId ← optional c.uuid.read (a "machine_id")
  let expectedGenerationId ← optional c.uuid.read (a "expected_generation_id")
  let request ← optional Format.raw.read (a "request")
  let target ← optional c.uuid.read (a "target")
  return { kind, connection, machineId, expectedGenerationId, request, target }

def OperationRequest.ofWire (wire : OperationRequestWire) : Option OperationRequest :=
  match wire.kind with
  | .llm => do
    let connection ← wire.connection
    let request ← wire.request.bind (fromStr (LlmRequest.format c).read)
    return .llm connection request
  | .execution => do
    let connection ← wire.connection
    let machineId ← wire.machineId
    let request ← wire.request.bind (fromStr c.payload.read)
    return .execution connection machineId wire.expectedGenerationId request
  | .llmCancellation => do
    let target ← wire.target
    return .llmCancellation target
  | .withdraw => do
    let target ← wire.target
    return .withdraw target

def OperationRequest.deserialize (d : Doc) : Option OperationRequest :=
  (fromStr (OperationRequestWire.deserialize c) d.text).bind (ofWire c)

def OperationRequest.serialize : OperationRequest → Doc
  | .llm connection request => .record [
      ("kind", some (OperationKind.format.write .llm)),
      ("connection", some (Format.string.write connection)),
      ("request", some ((LlmRequest.format c).write request))]
  | .execution connection machineId expectedGenerationId request => .record [
      ("kind", some (OperationKind.format.write .execution)),
      ("connection", some (Format.string.write connection)),
      ("machine_id", some (c.uuid.write machineId)),
      ("expected_generation_id", expectedGenerationId.map c.uuid.write),
      ("request", some (c.payload.write request))]
  | .llmCancellation target => .record [
      ("kind", some (OperationKind.format.write .llmCancellation)),
      ("target", some (c.uuid.write target))]
  | .withdraw target => .record [
      ("kind", some (OperationKind.format.write .withdraw)),
      ("target", some (c.uuid.write target))]

def OperationRequest.format : Format OperationRequest where
  read := deserialize c
  write := serialize c

variable {c}

theorem LlmRequest.format_sound (sound : c.Sound) : (format c).Sound := by
  intro d request h
  rw [format] at h
  have hmessages := Message.format_sound sound.map sound.mapReadable
  obtain ⟨wire, hwire, h⟩ := Option.bind_eq_some_iff.mp h
  rw [fromStr_text] at hwire
  obtain ⟨a, -, hwire⟩ := Option.bind_eq_some_iff.mp hwire
  obtain ⟨mode, -, hwire⟩ := Option.bind_eq_some_iff.mp hwire
  obtain ⟨accountId, haccount, hwire⟩ := Option.bind_eq_some_iff.mp hwire
  obtain ⟨modelId, -, hwire⟩ := Option.bind_eq_some_iff.mp hwire
  obtain ⟨instructions, -, hwire⟩ := Option.bind_eq_some_iff.mp hwire
  obtain ⟨raw, -, hwire⟩ := Option.bind_eq_some_iff.mp hwire
  obtain ⟨tools, htools, hwire⟩ := Option.bind_eq_some_iff.mp hwire
  obtain ⟨options, hoptions, hwire⟩ := Option.bind_eq_some_iff.mp hwire
  obtain ⟨previous, hprevious, hwire⟩ := Option.bind_eq_some_iff.mp hwire
  cases hwire
  obtain ⟨messages, hcontent, h⟩ := Option.bind_eq_some_iff.mp h
  have hparsed : (some raw).bind (parseContent (Message.format c.map)) = some messages := hcontent
  have hagain := forall_of_parseContent hmessages hparsed
  obtain ⟨-, hparse⟩ := optional_content fun message hmessage => (hagain message hmessage).again
  cases mode with
  | fresh =>
    obtain ⟨accountId, rfl, h⟩ := Option.bind_eq_some_iff.mp h
    obtain ⟨modelId, rfl, h⟩ := Option.bind_eq_some_iff.mp h
    obtain ⟨tools, rfl, h⟩ := Option.bind_eq_some_iff.mp h
    obtain ⟨options, rfl, h⟩ := Option.bind_eq_some_iff.mp h
    cases h
    have haccount := Format.forall_of_optional sound.uuid haccount accountId rfl
    have htools := Format.forall_of_optional (ToolDefinition.format_sound sound).list htools tools rfl
    have hoptions := Format.forall_of_optional sound.map hoptions options rfl
    have hinstructions : optional Format.string.read
        (some (instructions.elim .null Format.string.write)) = some instructions := by
      cases instructions with
      | none => rfl
      | some text => exact Format.optional_written (Format.string_writes text)
    refine ⟨?_, ?_⟩
    · dsimp only [format]
      rw [serialize, deserialize, fromStr_text, LlmRequestWire.deserialize,
        access_record _ (by simp [Distinct])]
      simp [ofWire, hparse, (LlmRequestMode.format_writes _).again, Format.optional_written haccount,
        Format.optional_written (Format.string_writes modelId), Format.optional_written htools,
        Format.optional_written hoptions, hinstructions]
    · dsimp only [format]
      exact record_ne_null _
  | continuation =>
    obtain ⟨previous, rfl, h⟩ := Option.bind_eq_some_iff.mp h
    cases h
    have hprevious := Format.forall_of_optional sound.uuid hprevious previous rfl
    refine ⟨?_, ?_⟩
    · dsimp only [format]
      rw [serialize, deserialize, fromStr_text, LlmRequestWire.deserialize,
        access_record _ (by simp [Distinct])]
      simp [ofWire, hparse, (LlmRequestMode.format_writes _).again,
        Format.optional_written hprevious]
    · dsimp only [format]
      exact record_ne_null _

/-- A value that was kept as raw text is read again from what is written for it. -/
theorem writes_of_raw {α : Type} {f : Format α} (sound : f.Sound) {raw : Option RawJson} {a : α}
    (h : raw.bind (fromStr f.read) = some a) : f.Writes a := by
  obtain ⟨text, -, h⟩ := Option.bind_eq_some_iff.mp h
  obtain ⟨d, -, h⟩ := Option.bind_eq_some_iff.mp h
  exact sound d a h

theorem OperationRequest.format_sound (sound : c.Sound) : (format c).Sound := by
  intro d request h
  rw [format] at h
  obtain ⟨wire, hwire, h⟩ := Option.bind_eq_some_iff.mp h
  rw [fromStr_text] at hwire
  obtain ⟨a, -, hwire⟩ := Option.bind_eq_some_iff.mp hwire
  obtain ⟨kind, -, hwire⟩ := Option.bind_eq_some_iff.mp hwire
  obtain ⟨connection, -, hwire⟩ := Option.bind_eq_some_iff.mp hwire
  obtain ⟨machineId, hmachine, hwire⟩ := Option.bind_eq_some_iff.mp hwire
  obtain ⟨generationId, hgeneration, hwire⟩ := Option.bind_eq_some_iff.mp hwire
  obtain ⟨raw, -, hwire⟩ := Option.bind_eq_some_iff.mp hwire
  obtain ⟨target, htarget, hwire⟩ := Option.bind_eq_some_iff.mp hwire
  cases hwire
  cases kind with
  | llm =>
    obtain ⟨connection, rfl, h⟩ := Option.bind_eq_some_iff.mp h
    obtain ⟨request, hrequest, h⟩ := Option.bind_eq_some_iff.mp h
    cases h
    have hwrites := writes_of_raw (LlmRequest.format_sound sound) hrequest
    refine ⟨?_, ?_⟩
    · dsimp only [format]
      rw [serialize, deserialize, fromStr_text, OperationRequestWire.deserialize,
        access_record _ (by simp [Distinct])]
      simp [ofWire, (OperationKind.format_writes _).again,
        Format.optional_written (Format.string_writes connection),
        optional_some Format.raw.read hwrites.value, hwrites.again]
    · dsimp only [format]
      exact record_ne_null _
  | execution =>
    obtain ⟨connection, rfl, h⟩ := Option.bind_eq_some_iff.mp h
    obtain ⟨machineId, rfl, h⟩ := Option.bind_eq_some_iff.mp h
    obtain ⟨request, hrequest, h⟩ := Option.bind_eq_some_iff.mp h
    cases h
    have hmachine := Format.forall_of_optional sound.uuid hmachine machineId rfl
    have hgeneration := Format.optional_map (Format.forall_of_optional sound.uuid hgeneration)
    have hwrites := writes_of_raw sound.payload hrequest
    refine ⟨?_, ?_⟩
    · dsimp only [format]
      rw [serialize, deserialize, fromStr_text, OperationRequestWire.deserialize,
        access_record _ (by simp [Distinct])]
      simp [ofWire, (OperationKind.format_writes _).again,
        Format.optional_written (Format.string_writes connection),
        Format.optional_written hmachine, hgeneration,
        optional_some Format.raw.read hwrites.value, hwrites.again]
    · dsimp only [format]
      exact record_ne_null _
  | llmCancellation =>
    obtain ⟨target, rfl, h⟩ := Option.bind_eq_some_iff.mp h
    cases h
    have htarget := Format.forall_of_optional sound.uuid htarget target rfl
    refine ⟨?_, ?_⟩
    · dsimp only [format]
      rw [serialize, deserialize, fromStr_text, OperationRequestWire.deserialize,
        access_record _ (by simp [Distinct])]
      simp [ofWire, (OperationKind.format_writes _).again, Format.optional_written htarget]
    · dsimp only [format]
      exact record_ne_null _
  | withdraw =>
    obtain ⟨target, rfl, h⟩ := Option.bind_eq_some_iff.mp h
    cases h
    have htarget := Format.forall_of_optional sound.uuid htarget target rfl
    refine ⟨?_, ?_⟩
    · dsimp only [format]
      rw [serialize, deserialize, fromStr_text, OperationRequestWire.deserialize,
        access_record _ (by simp [Distinct])]
      simp [ofWire, (OperationKind.format_writes _).again, Format.optional_written htarget]
    · dsimp only [format]
      exact record_ne_null _

variable (c)

/-! ## Responses of a model -/

def UsageCost.deserialize (d : Doc) : Option UsageCost := do
  let a ← d.access [
    { key := "input" }, { key := "output" }, { key := "cacheRead" }, { key := "cacheWrite" },
    { key := "total" }]
  let input ← optional Format.digits.read (a "input")
  let output ← optional Format.digits.read (a "output")
  let cacheRead ← optional Format.digits.read (a "cacheRead")
  let cacheWrite ← optional Format.digits.read (a "cacheWrite")
  let total ← (a "total").bind Format.digits.read
  return { input, output, cacheRead, cacheWrite, total }

def UsageCost.serialize (cost : UsageCost) : Doc :=
  .record [
    ("input", cost.input.map Format.digits.write),
    ("output", cost.output.map Format.digits.write),
    ("cacheRead", cost.cacheRead.map Format.digits.write),
    ("cacheWrite", cost.cacheWrite.map Format.digits.write),
    ("total", some (Format.digits.write cost.total))]

def UsageCost.format : Format UsageCost where
  read := deserialize
  write := serialize

theorem UsageCost.format_sound : format.Sound := by
  intro d cost h
  rw [format] at h
  obtain ⟨a, -, h⟩ := Option.bind_eq_some_iff.mp h
  obtain ⟨input, hinput, h⟩ := Option.bind_eq_some_iff.mp h
  obtain ⟨output, houtput, h⟩ := Option.bind_eq_some_iff.mp h
  obtain ⟨cacheRead, hread, h⟩ := Option.bind_eq_some_iff.mp h
  obtain ⟨cacheWrite, hwrite, h⟩ := Option.bind_eq_some_iff.mp h
  obtain ⟨total, htotal, h⟩ := Option.bind_eq_some_iff.mp h
  cases h
  obtain ⟨doc, -, htotal⟩ := Option.bind_eq_some_iff.mp htotal
  have hdigits : ∀ {r : Option Doc} {x : Option String}, optional Format.digits.read r = some x →
      optional Format.digits.read (x.map Format.digits.write) = some x := fun hx =>
    Format.optional_map (Format.forall_of_optional Format.digits_sound hx)
  refine ⟨?_, ?_⟩
  · dsimp only [format]
    rw [serialize, deserialize, access_record _ (by simp [Distinct])]
    simp [hdigits hinput, hdigits houtput, hdigits hread, hdigits hwrite,
      (Format.digits_sound doc total htotal).again]
  · dsimp only [format]
    exact record_ne_null _

def Usage.deserialize (d : Doc) : Option Usage := do
  let a ← d.access [
    { key := "input" }, { key := "output" }, { key := "cacheRead" }, { key := "cacheWrite" },
    { key := "cost" }]
  let input ← optional Format.u64.read (a "input")
  let output ← optional Format.u64.read (a "output")
  let cacheRead ← optional Format.u64.read (a "cacheRead")
  let cacheWrite ← optional Format.u64.read (a "cacheWrite")
  let cost ← optional UsageCost.format.read (a "cost")
  return { input, output, cacheRead, cacheWrite, cost }

def Usage.serialize (usage : Usage) : Doc :=
  .record [
    ("input", usage.input.map Format.u64.write),
    ("output", usage.output.map Format.u64.write),
    ("cacheRead", usage.cacheRead.map Format.u64.write),
    ("cacheWrite", usage.cacheWrite.map Format.u64.write),
    ("cost", usage.cost.map UsageCost.format.write)]

def Usage.format : Format Usage where
  read := deserialize
  write := serialize

theorem Usage.format_sound : format.Sound := by
  intro d usage h
  rw [format] at h
  obtain ⟨a, -, h⟩ := Option.bind_eq_some_iff.mp h
  obtain ⟨input, -, h⟩ := Option.bind_eq_some_iff.mp h
  obtain ⟨output, -, h⟩ := Option.bind_eq_some_iff.mp h
  obtain ⟨cacheRead, -, h⟩ := Option.bind_eq_some_iff.mp h
  obtain ⟨cacheWrite, -, h⟩ := Option.bind_eq_some_iff.mp h
  obtain ⟨cost, hcost, h⟩ := Option.bind_eq_some_iff.mp h
  cases h
  have hcost := Format.optional_map (Format.forall_of_optional UsageCost.format_sound hcost)
  have hcount : ∀ x : Option UInt64, optional Format.u64.read (x.map Format.u64.write) = some x :=
    fun x => Format.optional_map fun n _ => Format.u64_writes n
  refine ⟨?_, ?_⟩
  · dsimp only [format]
    rw [serialize, deserialize, access_record _ (by simp [Distinct])]
    simp [hcount, hcost]
  · dsimp only [format]
    exact record_ne_null _

def AssistantResponse.deserialize (d : Doc) : Option AssistantResponse := do
  let a ← d.access [
    { key := "id" }, { key := "modelId" }, { key := "resolvedModelId" }, { key := "message" },
    { key := "stopReason" }, { key := "usage" }, { key := "durationMs" }, { key := "timestamp" }]
  let id ← (a "id").bind Format.string.read
  let modelId ← (a "modelId").bind Format.string.read
  let resolvedModelId ← optional Format.string.read (a "resolvedModelId")
  let message ← (a "message").bind (Message.format c.map).read
  let stopReason ← (a "stopReason").bind StopReason.format.read
  let usage ← optional Usage.format.read (a "usage")
  let durationMs ← (a "durationMs").bind Format.u64.read
  let timestamp ← (a "timestamp").bind Format.i64.read
  if assistant : message.isAssistant = true then
    return { id, modelId, resolvedModelId, message, stopReason, usage, durationMs, timestamp,
             assistant }
  else none

def AssistantResponse.serialize (response : AssistantResponse) : Doc :=
  .record [
    ("id", some (Format.string.write response.id)),
    ("modelId", some (Format.string.write response.modelId)),
    ("resolvedModelId", response.resolvedModelId.map Format.string.write),
    ("message", some ((Message.format c.map).write response.message)),
    ("stopReason", some (StopReason.format.write response.stopReason)),
    ("usage", response.usage.map Usage.format.write),
    ("durationMs", some (Format.u64.write response.durationMs)),
    ("timestamp", some (Format.i64.write response.timestamp))]

def AssistantResponse.format : Format AssistantResponse where
  read := deserialize c
  write := serialize c

variable {c}

theorem AssistantResponse.format_sound (sound : c.Sound) : (format c).Sound := by
  intro d response h
  rw [format] at h
  obtain ⟨a, -, h⟩ := Option.bind_eq_some_iff.mp h
  obtain ⟨id, -, h⟩ := Option.bind_eq_some_iff.mp h
  obtain ⟨modelId, -, h⟩ := Option.bind_eq_some_iff.mp h
  obtain ⟨resolvedModelId, -, h⟩ := Option.bind_eq_some_iff.mp h
  obtain ⟨message, hmessage, h⟩ := Option.bind_eq_some_iff.mp h
  obtain ⟨stopReason, -, h⟩ := Option.bind_eq_some_iff.mp h
  obtain ⟨usage, husage, h⟩ := Option.bind_eq_some_iff.mp h
  obtain ⟨durationMs, -, h⟩ := Option.bind_eq_some_iff.mp h
  obtain ⟨timestamp, htimestamp, h⟩ := Option.bind_eq_some_iff.mp h
  split at h
  · rename_i assistant
    cases h
    obtain ⟨doc, -, hmessage⟩ := Option.bind_eq_some_iff.mp hmessage
    obtain ⟨time, -, htimestamp⟩ := Option.bind_eq_some_iff.mp htimestamp
    have hmessage := Message.format_sound sound.map sound.mapReadable doc message hmessage
    have htimestamp := Format.i64_sound time timestamp htimestamp
    have husage := Format.optional_map (Format.forall_of_optional Usage.format_sound husage)
    have hresolved : ∀ s ∈ resolvedModelId, Format.string.Writes s := fun s _ =>
      Format.string_writes s
    refine ⟨?_, ?_⟩
    · dsimp only [format]
      rw [serialize, deserialize, access_record _ (by simp [Distinct])]
      simp [(Format.string_writes _).again, Format.optional_map hresolved, hmessage.again,
        (StopReason.format_writes _).again, husage, (Format.u64_writes _).again, htimestamp.again,
        assistant]
    · dsimp only [format]
      exact record_ne_null _
  · cases h

variable (c)

/-! ## Results and outcomes -/

def OperationFailure.deserialize (d : Doc) : Option OperationFailure := do
  let a ← d.access [
    { key := "source" }, { key := "code" }, { key := "message" },
    { key := "execution_response", defaulted := true }]
  let source ← (a "source").bind FailureSource.format.read
  let code ← (a "code").bind Format.string.read
  let message ← (a "message").bind Format.string.read
  let executionResponse ← optional c.response.read (a "execution_response")
  return { source, code, message, executionResponse }

def OperationFailure.serialize (failure : OperationFailure) : Doc :=
  .record [
    ("source", some (FailureSource.format.write failure.source)),
    ("code", some (Format.string.write failure.code)),
    ("message", some (Format.string.write failure.message)),
    ("execution_response", failure.executionResponse.map c.response.write)]

def OperationFailure.format : Format OperationFailure where
  read := deserialize c
  write := serialize c

/-- A value with one flag. -/
def readFlag (key : String) (d : Doc) : Option Bool := do
  let a ← d.access [{ key }]
  (a key).bind Format.bool.read

def OperationResult.deserialize (d : Doc) : Option OperationResult := do
  let a ← d.access [{ key := "kind" }, { key := "value" }]
  let kind ← (a "kind").bind OperationKind.format.read
  let value ← (a "value").bind Format.raw.read
  match kind with
  | .llm => (fromStr (AssistantResponse.format c).read value).map .llm
  | .execution => (fromStr c.response.read value).map .execution
  | .llmCancellation => (fromStr (readFlag "accepted") value).map .llmCancellation
  | .withdraw => (fromStr (readFlag "withdrawn") value).map .withdraw

def OperationResult.serialize : OperationResult → Doc
  | .llm response => .record [
      ("kind", some (OperationKind.format.write .llm)),
      ("value", some ((AssistantResponse.format c).write response))]
  | .execution response => .record [
      ("kind", some (OperationKind.format.write .execution)),
      ("value", some (c.response.write response))]
  | .llmCancellation accepted => .record [
      ("kind", some (OperationKind.format.write .llmCancellation)),
      ("value", some (.record [("accepted", some (Format.bool.write accepted))]))]
  | .withdraw withdrawn => .record [
      ("kind", some (OperationKind.format.write .withdraw)),
      ("value", some (.record [("withdrawn", some (Format.bool.write withdrawn))]))]

def OperationResult.format : Format OperationResult where
  read := deserialize c
  write := serialize c

def OperationOutcome.deserialize (d : Doc) : Option OperationOutcome := do
  let a ← d.access [{ key := "status" }, { key := "value" }]
  let status ← (a "status").bind OperationOutcomeStatus.format.read
  let value ← optional Format.raw.read (a "value")
  match status with
  | .succeeded => (value.bind (fromStr (OperationResult.format c).read)).map .succeeded
  | .failed => (value.bind (fromStr (OperationFailure.format c).read)).map .failed
  | .cancelled => some .cancelled
  | .unknown => (value.bind (fromStr (OperationFailure.format c).read)).map .unknown

def OperationOutcome.serialize : OperationOutcome → Doc
  | .succeeded result => .record [
      ("status", some (OperationOutcomeStatus.format.write .succeeded)),
      ("value", some ((OperationResult.format c).write result))]
  | .failed failure => .record [
      ("status", some (OperationOutcomeStatus.format.write .failed)),
      ("value", some ((OperationFailure.format c).write failure))]
  | .cancelled => .record [
      ("status", some (OperationOutcomeStatus.format.write .cancelled))]
  | .unknown failure => .record [
      ("status", some (OperationOutcomeStatus.format.write .unknown)),
      ("value", some ((OperationFailure.format c).write failure))]

def OperationOutcome.format : Format OperationOutcome where
  read := deserialize c
  write := serialize c

variable {c}

theorem OperationFailure.format_sound (sound : c.Sound) : (format c).Sound := by
  intro d failure h
  rw [format] at h
  obtain ⟨a, -, h⟩ := Option.bind_eq_some_iff.mp h
  obtain ⟨source, -, h⟩ := Option.bind_eq_some_iff.mp h
  obtain ⟨code, -, h⟩ := Option.bind_eq_some_iff.mp h
  obtain ⟨message, -, h⟩ := Option.bind_eq_some_iff.mp h
  obtain ⟨response, hresponse, h⟩ := Option.bind_eq_some_iff.mp h
  cases h
  have hresponse := Format.optional_map (Format.forall_of_optional sound.response hresponse)
  refine ⟨?_, ?_⟩
  · dsimp only [format]
    rw [serialize, deserialize, access_record _ (by simp [Distinct])]
    simp [(FailureSource.format_writes _).again, (Format.string_writes _).again, hresponse]
  · dsimp only [format]
    exact record_ne_null _

theorem readFlag_again (key : String) (b : Bool) :
    readFlag key (.record [(key, some (Format.bool.write b))]) = some b := by
  rw [readFlag, access_record _ (by simp [Distinct])]
  simp [(Format.bool_writes b).again]

theorem OperationResult.format_sound (sound : c.Sound) : (format c).Sound := by
  intro d result h
  rw [format] at h
  obtain ⟨a, -, h⟩ := Option.bind_eq_some_iff.mp h
  obtain ⟨kind, -, h⟩ := Option.bind_eq_some_iff.mp h
  obtain ⟨value, -, h⟩ := Option.bind_eq_some_iff.mp h
  refine ⟨?_, ?_⟩
  · dsimp only [format]
    cases kind with
    | llm =>
      obtain ⟨response, hresponse, rfl⟩ := Option.map_eq_some_iff.mp h
      have hread : (some value).bind (fromStr (AssistantResponse.format c).read) = some response :=
        hresponse
      have hwrites := writes_of_raw (AssistantResponse.format_sound sound) hread
      rw [serialize, deserialize, access_record _ (by simp [Distinct])]
      simp [(OperationKind.format_writes _).again, hwrites.again]
    | execution =>
      obtain ⟨response, hresponse, rfl⟩ := Option.map_eq_some_iff.mp h
      have hread : (some value).bind (fromStr c.response.read) = some response := hresponse
      have hwrites := writes_of_raw sound.response hread
      rw [serialize, deserialize, access_record _ (by simp [Distinct])]
      simp [(OperationKind.format_writes _).again, hwrites.again]
    | llmCancellation =>
      obtain ⟨accepted, -, rfl⟩ := Option.map_eq_some_iff.mp h
      rw [serialize, deserialize, access_record _ (by simp [Distinct])]
      simp [(OperationKind.format_writes _).again, readFlag_again]
    | withdraw =>
      obtain ⟨withdrawn, -, rfl⟩ := Option.map_eq_some_iff.mp h
      rw [serialize, deserialize, access_record _ (by simp [Distinct])]
      simp [(OperationKind.format_writes _).again, readFlag_again]
  · dsimp only [format]
    cases result <;> exact record_ne_null _

theorem OperationOutcome.format_sound (sound : c.Sound) : (format c).Sound := by
  intro d outcome h
  rw [format] at h
  obtain ⟨a, -, h⟩ := Option.bind_eq_some_iff.mp h
  obtain ⟨status, -, h⟩ := Option.bind_eq_some_iff.mp h
  obtain ⟨value, -, h⟩ := Option.bind_eq_some_iff.mp h
  refine ⟨?_, ?_⟩
  · dsimp only [format]
    cases status with
    | succeeded =>
      obtain ⟨result, hresult, rfl⟩ := Option.map_eq_some_iff.mp h
      have hwrites := writes_of_raw (OperationResult.format_sound sound) hresult
      rw [serialize, deserialize, access_record _ (by simp [Distinct])]
      simp [(OperationOutcomeStatus.format_writes _).again,
        optional_some Format.raw.read hwrites.value, hwrites.again]
    | failed =>
      obtain ⟨failure, hfailure, rfl⟩ := Option.map_eq_some_iff.mp h
      have hwrites := writes_of_raw (OperationFailure.format_sound sound) hfailure
      rw [serialize, deserialize, access_record _ (by simp [Distinct])]
      simp [(OperationOutcomeStatus.format_writes _).again,
        optional_some Format.raw.read hwrites.value, hwrites.again]
    | cancelled =>
      cases h
      rw [serialize, deserialize, access_record _ (by simp [Distinct])]
      simp [(OperationOutcomeStatus.format_writes _).again]
    | unknown =>
      obtain ⟨failure, hfailure, rfl⟩ := Option.map_eq_some_iff.mp h
      have hwrites := writes_of_raw (OperationFailure.format_sound sound) hfailure
      rw [serialize, deserialize, access_record _ (by simp [Distinct])]
      simp [(OperationOutcomeStatus.format_writes _).again,
        optional_some Format.raw.read hwrites.value, hwrites.again]
  · dsimp only [format]
    cases outcome <;> exact record_ne_null _

end

end AgentPlatform
