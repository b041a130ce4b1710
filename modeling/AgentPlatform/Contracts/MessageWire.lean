import AgentPlatform.Contracts.Message
import AgentPlatform.Lib.Serde

/-!
# Messages on the wire

How `agent-contracts/src/message.rs` reads and writes a message. The encoders are derived: a tag
beside the fields, absent fields left out, the base of a message among its fields. Decoding a
message goes through `MessageWire`, whose fields are all optional but the role. How serde_json reads
and writes a `Map<String, Value>` is a parameter.
-/

namespace AgentPlatform

open Json

/-! ## Words -/

def ImageDetail.asStr : ImageDetail → String
  | .auto => "auto"
  | .low => "low"
  | .high => "high"
  | .original => "original"

def ImageDetail.ofStr : String → Option ImageDetail
  | "auto" => some .auto
  | "low" => some .low
  | "high" => some .high
  | "original" => some .original
  | _ => none

/-- Read among the values kept for a tagged union. -/
def ImageDetail.format : Format ImageDetail := .word true asStr ofStr

def Provider.asStr : Provider → String
  | .openai => "openai"
  | .chatgpt => "chatgpt"
  | .fireworks => "fireworks"

def Provider.ofStr : String → Option Provider
  | "openai" => some .openai
  | "chatgpt" => some .chatgpt
  | "fireworks" => some .fireworks
  | _ => none

def Provider.format : Format Provider := .word false asStr ofStr

inductive TextContentKind where
  | text
deriving DecidableEq, Repr, Inhabited

def TextContentKind.asStr : TextContentKind → String
  | .text => "text"

def TextContentKind.ofStr : String → Option TextContentKind
  | "text" => some .text
  | _ => none

def TextContentKind.format : Format TextContentKind := .word false asStr ofStr

inductive MessageRole where
  | user
  | system
  | assistant
  | toolResult
  | custom
deriving DecidableEq, Repr, Inhabited

def MessageRole.asStr : MessageRole → String
  | .user => "user"
  | .system => "system"
  | .assistant => "assistant"
  | .toolResult => "tool_result"
  | .custom => "custom"

def MessageRole.ofStr : String → Option MessageRole
  | "user" => some .user
  | "system" => some .system
  | "assistant" => some .assistant
  | "tool_result" => some .toolResult
  | "custom" => some .custom
  | _ => none

def MessageRole.format : Format MessageRole := .word false asStr ofStr

theorem ImageDetail.format_writes (detail : ImageDetail) : format.Writes detail :=
  Format.word_writes (by cases detail <;> rfl)

theorem Provider.format_writes (provider : Provider) : format.Writes provider :=
  Format.word_writes (by cases provider <;> rfl)

theorem TextContentKind.format_writes (kind : TextContentKind) : format.Writes kind :=
  Format.word_writes (by cases kind; rfl)

theorem MessageRole.format_writes (role : MessageRole) : format.Writes role :=
  Format.word_writes (by cases role <;> rfl)

section

variable (map : Format Metadata)

/-! ## Content -/

def ContentPart.deserialize (d : Doc) : Option ContentPart := do
  let (tag, body) ← d.body?.bind (·.untag "type")
  if tag = "text" then
    let a ← body.access [{ key := "text" }, { key := "metadata" }]
    let words ← (a "text").bind Format.string.read
    let metadata ← optional map.read (a "metadata")
    return .text words metadata
  else if tag = "image" then
    let a ← body.access [{ key := "url" }, { key := "detail" }, { key := "metadata" }]
    let url ← (a "url").bind Format.string.read
    let detail ← optional ImageDetail.format.read (a "detail")
    let metadata ← optional map.read (a "metadata")
    return .image url detail metadata
  else none

def ContentPart.serialize : ContentPart → Doc
  | .text words metadata => .record [
      ("type", some (.ofString "text")),
      ("text", some (Format.string.write words)),
      ("metadata", metadata.map map.write)]
  | .image url detail metadata => .record [
      ("type", some (.ofString "image")),
      ("url", some (Format.string.write url)),
      ("detail", detail.map ImageDetail.format.write),
      ("metadata", metadata.map map.write)]

def ContentPart.format : Format ContentPart where
  read := deserialize map
  write := serialize map

theorem ContentPart.text_writes (words : String) {metadata : Option Metadata}
    (writes : ∀ m ∈ metadata, map.Writes m)
    (readable : ∀ m ∈ metadata, (map.write m).readable = true) :
    (format map).Writes (.text words metadata) := by
  have hreadable : ReadableFields [
      ("text", some (Format.string.write words)), ("metadata", metadata.map map.write)] := by
    simpa [Format.string] using readable
  refine ⟨?_, ?_⟩
  · show deserialize map (serialize map (.text words metadata)) = _
    rw [serialize, deserialize, untag_record (by simp [Distinct]) hreadable]
    simp only [Option.bind_eq_bind, Option.bind_some, if_pos]
    rw [access_present _ (by simp [Distinct])]
    simp [(Format.string_writes words).again, Format.optional_map writes]
  · show serialize map (.text words metadata) ≠ .null
    exact record_ne_null _

theorem ContentPart.image_writes (url : String) (detail : Option ImageDetail)
    {metadata : Option Metadata} (writes : ∀ m ∈ metadata, map.Writes m)
    (readable : ∀ m ∈ metadata, (map.write m).readable = true) :
    (format map).Writes (.image url detail metadata) := by
  have hdetail : ∀ word ∈ detail, ImageDetail.format.Writes word := fun word _ =>
    ImageDetail.format_writes word
  have hreadable : ReadableFields [
      ("url", some (Format.string.write url)),
      ("detail", detail.map ImageDetail.format.write),
      ("metadata", metadata.map map.write)] := by
    simpa [Format.string, ImageDetail.format, Format.word] using readable
  refine ⟨?_, ?_⟩
  · show deserialize map (serialize map (.image url detail metadata)) = _
    rw [serialize, deserialize, untag_record (by simp [Distinct]) hreadable]
    simp only [Option.bind_eq_bind, Option.bind_some]
    rw [if_neg (by decide), if_pos trivial, access_present _ (by simp [Distinct])]
    simp [(Format.string_writes url).again, Format.optional_map hdetail,
      Format.optional_map writes]
  · show serialize map (.image url detail metadata) ≠ .null
    exact record_ne_null _

variable {map}

theorem ContentPart.format_sound (hmap : map.Sound) (hreadable : map.Readable) :
    (format map).Sound := by
  intro d part h
  obtain ⟨⟨tag, body⟩, -, h⟩ := Option.bind_eq_some_iff.mp h
  dsimp only at h
  split at h
  · obtain ⟨a, -, h⟩ := Option.bind_eq_some_iff.mp h
    obtain ⟨words, -, h⟩ := Option.bind_eq_some_iff.mp h
    obtain ⟨metadata, hmetadata, h⟩ := Option.bind_eq_some_iff.mp h
    cases h
    exact text_writes map words (Format.forall_of_optional hmap hmetadata)
      (Format.forall_of_optional hreadable hmetadata)
  · split at h
    · obtain ⟨a, -, h⟩ := Option.bind_eq_some_iff.mp h
      obtain ⟨url, -, h⟩ := Option.bind_eq_some_iff.mp h
      obtain ⟨detail, -, h⟩ := Option.bind_eq_some_iff.mp h
      obtain ⟨metadata, hmetadata, h⟩ := Option.bind_eq_some_iff.mp h
      cases h
      exact image_writes map url detail (Format.forall_of_optional hmap hmetadata)
        (Format.forall_of_optional hreadable hmetadata)
    · cases h

variable (map)

def TextContent.deserialize (d : Doc) : Option TextContent := do
  let a ← d.access [{ key := "type" }, { key := "text" }, { key := "metadata" }]
  let _ ← (a "type").bind TextContentKind.format.read
  let text ← (a "text").bind Format.string.read
  let metadata ← optional map.read (a "metadata")
  return { text, metadata }

def TextContent.serialize (part : TextContent) : Doc :=
  .record [
    ("type", some (TextContentKind.format.write .text)),
    ("text", some (Format.string.write part.text)),
    ("metadata", part.metadata.map map.write)]

def TextContent.format : Format TextContent where
  read := deserialize map
  write := serialize map

theorem TextContent.format_sound {map : Format Metadata} (hmap : map.Sound) :
    (format map).Sound := by
  intro d part h
  obtain ⟨a, -, h⟩ := Option.bind_eq_some_iff.mp h
  obtain ⟨kind, -, h⟩ := Option.bind_eq_some_iff.mp h
  obtain ⟨text, -, h⟩ := Option.bind_eq_some_iff.mp h
  obtain ⟨metadata, hmetadata, h⟩ := Option.bind_eq_some_iff.mp h
  cases h
  refine ⟨?_, ?_⟩
  · show deserialize map (serialize map _) = _
    rw [serialize, deserialize, access_record _ (by simp [Distinct])]
    simp [(TextContentKind.format_writes .text).again, (Format.string_writes text).again,
      Format.optional_map (Format.forall_of_optional hmap hmetadata)]
  · show serialize map _ ≠ .null
    exact record_ne_null _

/-! ## Tool results -/

def ToolResultError.deserialize (d : Doc) : Option ToolResultError := do
  let a ← d.access [{ key := "message" }, { key := "name" }]
  let message ← (a "message").bind Format.string.read
  let name ← optional Format.string.read (a "name")
  return { message, name }

def ToolResultError.serialize (error : ToolResultError) : Doc :=
  .record [
    ("message", some (Format.string.write error.message)),
    ("name", error.name.map Format.string.write)]

theorem ToolResultError.again (error : ToolResultError) :
    deserialize error.serialize = some error := by
  have hname : ∀ name ∈ error.name, Format.string.Writes name := fun name _ =>
    Format.string_writes name
  rw [serialize, deserialize, access_record _ (by simp [Distinct])]
  simp [(Format.string_writes error.message).again, Format.optional_map hname]

theorem ToolResultError.readable (error : ToolResultError) :
    error.serialize.readable = true := by
  refine readable_record ?_
  simp [Format.string]

def ToolResultOutcome.deserialize (d : Doc) : Option ToolResultOutcome := do
  let (tag, body) ← d.body?.bind (·.untag "status")
  if tag = "success" then
    if body.isUnit then return .success else none
  else if tag = "error" then
    let a ← body.access [{ key := "error" }]
    let error ← (a "error").bind ToolResultError.deserialize
    return .error error
  else none

def ToolResultOutcome.serialize : ToolResultOutcome → Doc
  | .success => .record [("status", some (.ofString "success"))]
  | .error failure => .record [
      ("status", some (.ofString "error")),
      ("error", some failure.serialize)]

def ToolResultOutcome.format : Format ToolResultOutcome where
  read := deserialize
  write := serialize

theorem ToolResultOutcome.format_writes (outcome : ToolResultOutcome) :
    format.Writes outcome := by
  refine ⟨?_, ?_⟩
  · show deserialize outcome.serialize = _
    cases outcome with
    | success =>
      rw [serialize, deserialize, untag_record (by simp [Distinct]) (by simp)]
      rfl
    | error failure =>
      have hreadable : ReadableFields [("error", some failure.serialize)] := by
        simp [failure.readable]
      rw [serialize, deserialize, untag_record (by simp [Distinct]) hreadable]
      simp only [Option.bind_eq_bind, Option.bind_some]
      rw [if_neg (by decide), if_pos trivial, access_present _ (by simp [Distinct])]
      simp [failure.again]
  · show outcome.serialize ≠ .null
    cases outcome <;> exact record_ne_null _

/-! ## Messages -/

/-- What a message is read from. -/
structure MessageWire where
  role : MessageRole
  id : Option String
  timestamp : Option Int
  metadata : Option Metadata
  content : Option RawJson
  provider : Option Provider
  toolName : Option String
  toolCallId : Option String
  outcome : Option ToolResultOutcome
  details : Option RawJson
  tag : Option String
  data : Option RawJson

def MessageWire.slots : List Slot := [
  { key := "role" }, { key := "id" }, { key := "timestamp" }, { key := "metadata" },
  { key := "content" }, { key := "provider" }, { key := "toolName" }, { key := "toolCallId" },
  { key := "outcome" }, { key := "details", defaulted := true }, { key := "tag" },
  { key := "data", defaulted := true }]

def MessageWire.ofAccess (a : Access) : Option MessageWire := do
  let role ← (a "role").bind MessageRole.format.read
  let id ← optional Format.string.read (a "id")
  let timestamp ← optional Format.i64.read (a "timestamp")
  let metadata ← optional map.read (a "metadata")
  let content ← optional Format.raw.read (a "content")
  let provider ← optional Provider.format.read (a "provider")
  let toolName ← optional Format.string.read (a "toolName")
  let toolCallId ← optional Format.string.read (a "toolCallId")
  let outcome ← optional ToolResultOutcome.format.read (a "outcome")
  let details ← presentRaw (a "details")
  let tag ← optional Format.string.read (a "tag")
  let data ← presentRaw (a "data")
  return { role, id, timestamp, metadata, content, provider, toolName, toolCallId, outcome, details,
           tag, data }

def MessageWire.deserialize (d : Doc) : Option MessageWire := (d.access slots).bind (ofAccess map)

def MessageWire.base (wire : MessageWire) : MessageBase where
  id := wire.id
  timestamp := wire.timestamp
  metadata := wire.metadata

/-- `parse_content`. -/
def parseContent {α : Type} (f : Format α) (raw : RawJson) : Option (List α) :=
  fromStr f.list.read raw

def Message.ofWire (wire : MessageWire) : Option Message :=
  match wire.role with
  | .user => do
    let content ← wire.content.bind (parseContent (ContentPart.format map))
    return .user wire.base content
  | .system => do
    let content ← wire.content.bind (parseContent (TextContent.format map))
    return .system wire.base content
  | .assistant => do
    let provider ← wire.provider
    let content ← wire.content.bind (parseContent Format.raw)
    return .assistant wire.base provider content
  | .toolResult => do
    let toolName ← wire.toolName
    let toolCallId ← wire.toolCallId
    let content ← wire.content.bind (parseContent (ContentPart.format map))
    let outcome ← wire.outcome
    return .toolResult wire.base toolName toolCallId content outcome wire.details
  | .custom => do
    let tag ← wire.tag
    let data ← wire.data
    return .custom wire.base tag data

def Message.deserialize (d : Doc) : Option Message := (MessageWire.deserialize map d).bind (ofWire map)

/-- The fields of a message's base, which stand among those of the message. -/
def MessageBase.fields (base : MessageBase) : List (String × Option Doc) := [
  ("id", base.id.map Format.string.write),
  ("timestamp", base.timestamp.map Format.i64.write),
  ("metadata", base.metadata.map map.write)]

def Message.fields : Message → List (String × Option Doc)
  | .user base content =>
    ("role", some (MessageRole.format.write .user)) :: (base.fields map ++ [
      ("content", some ((ContentPart.format map).list.write content))])
  | .system base content =>
    ("role", some (MessageRole.format.write .system)) :: (base.fields map ++ [
      ("content", some ((TextContent.format map).list.write content))])
  | .assistant base provider content =>
    ("role", some (MessageRole.format.write .assistant)) :: (base.fields map ++ [
      ("provider", some (Provider.format.write provider)),
      ("content", some (Format.raw.list.write content))])
  | .toolResult base toolName toolCallId content outcome details =>
    ("role", some (MessageRole.format.write .toolResult)) :: (base.fields map ++ [
      ("toolName", some (Format.string.write toolName)),
      ("toolCallId", some (Format.string.write toolCallId)),
      ("content", some ((ContentPart.format map).list.write content)),
      ("outcome", some (ToolResultOutcome.format.write outcome)),
      ("details", details.map Format.raw.write)])
  | .custom base tag data =>
    ("role", some (MessageRole.format.write .custom)) :: (base.fields map ++ [
      ("tag", some (Format.string.write tag)),
      ("data", some (Format.raw.write data))])

def Message.serialize (message : Message) : Doc := .record (message.fields map)

def Message.format : Format Message where
  read := deserialize map
  write := serialize map

/-! ## Reading what was written -/

variable {map}

/-- What a message was read from is read again from what is written for it. -/
structure MessageWire.Kept (map : Format Metadata) (wire : MessageWire) : Prop where
  timestamp : ∀ n ∈ wire.timestamp, Format.i64.Writes n
  metadata : ∀ m ∈ wire.metadata, map.Writes m
  details : ∀ text ∈ wire.details, Format.raw.read (Format.raw.write text) = some text
  data : ∀ text ∈ wire.data, Format.raw.read (Format.raw.write text) = some text

/-- The fields that a message was read from. -/
structure MessageWire.ReadFrom (map : Format Metadata) (a : Access) (wire : MessageWire) : Prop where
  timestamp : optional Format.i64.read (a "timestamp") = some wire.timestamp
  metadata : optional map.read (a "metadata") = some wire.metadata
  content : optional Format.raw.read (a "content") = some wire.content
  details : presentRaw (a "details") = some wire.details
  data : presentRaw (a "data") = some wire.data

theorem MessageWire.readFrom {a : Access} {wire : MessageWire} (h : ofAccess map a = some wire) :
    wire.ReadFrom map a := by
  obtain ⟨role, -, h⟩ := Option.bind_eq_some_iff.mp h
  obtain ⟨id, -, h⟩ := Option.bind_eq_some_iff.mp h
  obtain ⟨timestamp, htimestamp, h⟩ := Option.bind_eq_some_iff.mp h
  obtain ⟨metadata, hmetadata, h⟩ := Option.bind_eq_some_iff.mp h
  obtain ⟨content, hcontent, h⟩ := Option.bind_eq_some_iff.mp h
  obtain ⟨provider, -, h⟩ := Option.bind_eq_some_iff.mp h
  obtain ⟨toolName, -, h⟩ := Option.bind_eq_some_iff.mp h
  obtain ⟨toolCallId, -, h⟩ := Option.bind_eq_some_iff.mp h
  obtain ⟨outcome, -, h⟩ := Option.bind_eq_some_iff.mp h
  obtain ⟨details, hdetails, h⟩ := Option.bind_eq_some_iff.mp h
  obtain ⟨tag, -, h⟩ := Option.bind_eq_some_iff.mp h
  obtain ⟨data, hdata, h⟩ := Option.bind_eq_some_iff.mp h
  cases h
  exact ⟨htimestamp, hmetadata, hcontent, hdetails, hdata⟩

theorem MessageWire.ReadFrom.kept {a : Access} {wire : MessageWire} (hmap : map.Sound)
    (h : wire.ReadFrom map a) : wire.Kept map where
  timestamp := Format.forall_of_optional Format.i64_sound h.timestamp
  metadata := Format.forall_of_optional hmap h.metadata
  details := Format.presentRaw_again h.details
  data := Format.presentRaw_again h.data

/-- What holds of every part read holds of the parts of the content. -/
theorem forall_of_parseContent {α : Type} {f : Format α} {P : α → Prop}
    (all : ∀ d a, f.read d = some a → P a) {content : Option RawJson} {parts : List α}
    (h : content.bind (parseContent f) = some parts) : ∀ part ∈ parts, P part := by
  obtain ⟨raw, -, h⟩ := Option.bind_eq_some_iff.mp h
  obtain ⟨d, -, h⟩ := Option.bind_eq_some_iff.mp h
  exact Format.forall_of_list all h

/-- The content that is written is the text of its list, which is parsed to its parts. -/
theorem optional_content {α : Type} {f : Format α} {parts : List α}
    (again : ∀ part ∈ parts, f.read (f.write part) = some part) :
    optional Format.raw.read (some (f.list.write parts)) = some (some (f.list.write parts).text) ∧
      parseContent f (f.list.write parts).text = some parts := by
  have hwrites := Format.list_writes again
  refine ⟨?_, ?_⟩
  · rw [optional_some _ hwrites.value]
    rfl
  · rw [parseContent, fromStr_text]
    exact hwrites.again

theorem Message.distinct_fields (message : Message) : Distinct (message.fields map) := by
  cases message <;> simp [Distinct, fields, MessageBase.fields]

theorem Message.format_sound (hmap : map.Sound) (hreadable : map.Readable) :
    (format map).Sound := by
  intro d message h
  have hparts := ContentPart.format_sound hmap hreadable
  refine ⟨?_, record_ne_null _⟩
  show (MessageWire.deserialize map (serialize map message)).bind (ofWire map) = some message
  rw [MessageWire.deserialize, serialize, access_record _ message.distinct_fields, Option.bind_some]
  obtain ⟨wire, hwire, h⟩ := Option.bind_eq_some_iff.mp h
  obtain ⟨a, -, hwire⟩ := Option.bind_eq_some_iff.mp hwire
  have hkept := (MessageWire.readFrom hwire).kept hmap
  have hstring : ∀ (x : Option String), ∀ s ∈ x, Format.string.Writes s := fun x s _ =>
    Format.string_writes s
  cases hrole : wire.role with
  | user =>
    simp only [ofWire, hrole] at h
    obtain ⟨content, hcontent, h⟩ := Option.bind_eq_some_iff.mp h
    cases h
    have hagain := forall_of_parseContent hparts hcontent
    obtain ⟨hraw, hparse⟩ := optional_content fun part hpart => (hagain part hpart).again
    simp [MessageWire.ofAccess, fields, MessageBase.fields, MessageWire.base, ofWire, hraw, hparse,
      (MessageRole.format_writes _).again, Format.optional_map (hstring wire.id),
      Format.optional_map hkept.timestamp, Format.optional_map hkept.metadata]
  | system =>
    simp only [ofWire, hrole] at h
    obtain ⟨content, hcontent, h⟩ := Option.bind_eq_some_iff.mp h
    cases h
    have hagain := forall_of_parseContent (TextContent.format_sound hmap) hcontent
    obtain ⟨hraw, hparse⟩ := optional_content fun part hpart => (hagain part hpart).again
    simp [MessageWire.ofAccess, fields, MessageBase.fields, MessageWire.base, ofWire, hraw, hparse,
      (MessageRole.format_writes _).again, Format.optional_map (hstring wire.id),
      Format.optional_map hkept.timestamp, Format.optional_map hkept.metadata]
  | assistant =>
    simp only [ofWire, hrole] at h
    obtain ⟨provider, hprovider, h⟩ := Option.bind_eq_some_iff.mp h
    obtain ⟨content, hcontent, h⟩ := Option.bind_eq_some_iff.mp h
    cases h
    have hagain := forall_of_parseContent (fun _ _ => Format.raw_again) hcontent
    obtain ⟨hraw, hparse⟩ := optional_content hagain
    have hwritten := Format.optional_written (Provider.format_writes provider)
    simp [MessageWire.ofAccess, fields, MessageBase.fields, MessageWire.base, ofWire, hraw, hparse,
      (MessageRole.format_writes _).again, Format.optional_map (hstring wire.id),
      Format.optional_map hkept.timestamp, Format.optional_map hkept.metadata, hwritten]
  | toolResult =>
    simp only [ofWire, hrole] at h
    obtain ⟨toolName, htoolName, h⟩ := Option.bind_eq_some_iff.mp h
    obtain ⟨toolCallId, htoolCallId, h⟩ := Option.bind_eq_some_iff.mp h
    obtain ⟨content, hcontent, h⟩ := Option.bind_eq_some_iff.mp h
    obtain ⟨outcome, houtcome, h⟩ := Option.bind_eq_some_iff.mp h
    cases h
    have hagain := forall_of_parseContent hparts hcontent
    obtain ⟨hraw, hparse⟩ := optional_content fun part hpart => (hagain part hpart).again
    have hname := Format.optional_written (Format.string_writes toolName)
    have hcall := Format.optional_written (Format.string_writes toolCallId)
    have hwritten := Format.optional_written (ToolResultOutcome.format_writes outcome)
    simp [MessageWire.ofAccess, fields, MessageBase.fields, MessageWire.base, ofWire, hraw, hparse,
      (MessageRole.format_writes _).again, Format.optional_map (hstring wire.id),
      Format.optional_map hkept.timestamp, Format.optional_map hkept.metadata, hname, hcall,
      hwritten, Format.presentRaw_map hkept.details]
  | custom =>
    simp only [ofWire, hrole] at h
    obtain ⟨tag, htag, h⟩ := Option.bind_eq_some_iff.mp h
    obtain ⟨data, hdata, h⟩ := Option.bind_eq_some_iff.mp h
    cases h
    have hwritten := Format.optional_written (Format.string_writes tag)
    have hraw := hkept.data data hdata
    rw [Format.raw_read] at hraw
    simp [MessageWire.ofAccess, fields, MessageBase.fields, MessageWire.base, ofWire, hraw,
      (MessageRole.format_writes _).again, Format.optional_map (hstring wire.id),
      Format.optional_map hkept.timestamp, Format.optional_map hkept.metadata, hwritten]

/-- What a user's text is written as is read as the text. -/
theorem Message.userText_writes (map : Format Metadata) (text : String) :
    (format map).Writes (.userText text) := by
  have hpart : ∀ part ∈ [ContentPart.text text none],
      (ContentPart.format map).read ((ContentPart.format map).write part) = some part := by
    intro part hpart
    cases List.mem_singleton.mp hpart
    refine (ContentPart.text_writes map text ?_ ?_).again <;> intro m hm <;> cases hm
  obtain ⟨hraw, hparse⟩ := optional_content hpart
  refine ⟨?_, ?_⟩
  · show (MessageWire.deserialize map (serialize map (.userText text))).bind (ofWire map) = some _
    rw [MessageWire.deserialize, serialize, access_record _ (distinct_fields _), Option.bind_some]
    simp only [userText, MessageWire.ofAccess, fields, MessageBase.fields, MessageBase.default]
    generalize (ContentPart.format map).list.write [.text text none] = doc at hraw hparse ⊢
    simp [MessageWire.base, ofWire, hraw, hparse, (MessageRole.format_writes _).again]
  · show serialize map (.userText text) ≠ .null
    exact record_ne_null _

/-! ## Raw text -/

/-- The raw text of a message is the text that its fields have: an item of the content is an item
of the list, the details and the data are those of the field, and a null of theirs is text. -/
def Message.Verbatim (a : Access) : Message → Prop
  | .assistant _ _ items =>
    ∃ content ds, a "content" = some content ∧ content.list? = some ds ∧ items = ds.map Doc.text
  | .toolResult _ _ _ _ _ details => details = (a "details").map Doc.text
  | .custom _ _ data => a "data" ≠ none ∧ some data = (a "data").map Doc.text
  | _ => True

theorem mapM_raw (ds : List Doc) : ds.mapM Format.raw.read = some (ds.map Doc.text) := by
  induction ds with
  | nil => rfl
  | cons d ds ih =>
    rw [List.mapM_cons, ih]
    rfl

theorem presentRaw_eq (r : Option Doc) : presentRaw r = some (r.map Doc.text) := by
  cases r <;> rfl

theorem Message.verbatim {d : Doc} {message : Message} (h : deserialize map d = some message) :
    ∃ a, d.access MessageWire.slots = some a ∧ message.Verbatim a := by
  obtain ⟨wire, hwire, h⟩ := Option.bind_eq_some_iff.mp h
  obtain ⟨a, haccess, hwire⟩ := Option.bind_eq_some_iff.mp hwire
  refine ⟨a, haccess, ?_⟩
  have hread := MessageWire.readFrom hwire
  have hcontent := hread.content
  have hdetails := hread.details
  have hdata := hread.data
  rw [presentRaw_eq] at hdetails hdata
  cases hrole : wire.role with
  | user =>
    simp only [ofWire, hrole] at h
    obtain ⟨parts, -, h⟩ := Option.bind_eq_some_iff.mp h
    cases h
    trivial
  | system =>
    simp only [ofWire, hrole] at h
    obtain ⟨parts, -, h⟩ := Option.bind_eq_some_iff.mp h
    cases h
    trivial
  | assistant =>
    simp only [ofWire, hrole] at h
    obtain ⟨provider, -, h⟩ := Option.bind_eq_some_iff.mp h
    obtain ⟨items, hitems, h⟩ := Option.bind_eq_some_iff.mp h
    cases h
    obtain ⟨raw, hraw, hitems⟩ := Option.bind_eq_some_iff.mp hitems
    rw [hraw] at hcontent
    cases hfield : a "content" with
    | none =>
      rw [hfield] at hcontent
      cases hcontent
    | some doc =>
      rw [hfield] at hcontent
      by_cases hnull : doc = .null
      · rw [hnull] at hcontent
        cases hcontent
      · rw [optional_some _ hnull] at hcontent
        cases hcontent
        have hlist : Format.raw.list.read doc = some items := by
          rw [← fromStr_text Format.raw.list.read doc]
          exact hitems
        obtain ⟨ds, hds, hitems⟩ := Option.bind_eq_some_iff.mp hlist
        rw [mapM_raw] at hitems
        cases hitems
        exact ⟨doc, ds, hfield, hds, rfl⟩
  | toolResult =>
    simp only [ofWire, hrole] at h
    obtain ⟨toolName, -, h⟩ := Option.bind_eq_some_iff.mp h
    obtain ⟨toolCallId, -, h⟩ := Option.bind_eq_some_iff.mp h
    obtain ⟨parts, -, h⟩ := Option.bind_eq_some_iff.mp h
    obtain ⟨outcome, -, h⟩ := Option.bind_eq_some_iff.mp h
    cases h
    exact (Option.some.inj hdetails).symm
  | custom =>
    simp only [ofWire, hrole] at h
    obtain ⟨tag, -, h⟩ := Option.bind_eq_some_iff.mp h
    obtain ⟨text, htext, h⟩ := Option.bind_eq_some_iff.mp h
    cases h
    have hfield : (a "data").map Doc.text = some text := (Option.some.inj hdata).trans htext
    refine ⟨?_, hfield.symm⟩
    intro hnone
    rw [hnone] at hfield
    cases hfield

end

end AgentPlatform
