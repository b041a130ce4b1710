import AgentPlatform.Contracts.OperationWire
import AgentPlatform.Contracts.Outcome

/-!
# Events on the wire

How `agent-contracts/src/event.rs` reads and writes an event. The encoder is derived: the kind is
flattened into the event as a tag and a payload. The decoder goes through `EventWire`, which keeps
the payload as raw text until the tag is known.
-/

namespace AgentPlatform

open Json

/-- `SessionEvent` as it is sent: its number is any `i64`, its creation time a whole one. -/
structure SentEvent (Time : Type) where
  id : EventId
  sessionId : SessionId
  sequence : Int
  createdAt : Time
  kind : EventKind

/-! ## Words -/

def WaitResumeReason.ofStr : String → Option WaitResumeReason
  | "resolved" => some .resolved
  | "expired" => some .expired
  | "cancelled" => some .cancelled
  | _ => none

def WaitResumeReason.format : Format WaitResumeReason := .word false asStr ofStr

inductive EventWire.EventType where
  | userMessage
  | operationCompleted
  | cancellationRequested
  | waitResumed
deriving DecidableEq, Repr, Inhabited

def EventWire.EventType.asStr : EventType → String
  | .userMessage => "user_message"
  | .operationCompleted => "operation_completed"
  | .cancellationRequested => "cancellation_requested"
  | .waitResumed => "wait_resumed"

def EventWire.EventType.ofStr : String → Option EventType
  | "user_message" => some .userMessage
  | "operation_completed" => some .operationCompleted
  | "cancellation_requested" => some .cancellationRequested
  | "wait_resumed" => some .waitResumed
  | _ => none

def EventWire.EventType.format : Format EventType := .word false asStr ofStr

theorem WaitResumeReason.format_writes (reason : WaitResumeReason) : format.Writes reason :=
  Format.word_writes (by cases reason <;> rfl)

theorem EventWire.EventType.format_writes (eventType : EventType) : format.Writes eventType :=
  Format.word_writes (by cases eventType <;> rfl)

section

variable {Time : Type} (c : Codecs Time)

/-! ## Payloads -/

/-- The `Payload` of each type of event. -/
def EventKind.readPayload : EventWire.EventType → Doc → Option EventKind
  | .userMessage, d => do
    let a ← d.access [{ key := "message" }]
    let message ← (a "message").bind (Message.format c.map).read
    return .userMessage message
  | .operationCompleted, d => do
    let a ← d.access [{ key := "operation_id" }, { key := "operation_kind" }, { key := "outcome_status" }]
    let operationId ← (a "operation_id").bind c.uuid.read
    let operationKind ← (a "operation_kind").bind OperationKind.format.read
    let outcomeStatus ← (a "outcome_status").bind OperationOutcomeStatus.format.read
    return .operationCompleted operationId operationKind outcomeStatus
  | .cancellationRequested, d => do
    let a ← d.access [{ key := "reason" }]
    let reason ← optional Format.string.read (a "reason")
    return .cancellationRequested reason
  | .waitResumed, d => do
    let a ← d.access [{ key := "wait_id" }, { key := "reason" }]
    let waitId ← (a "wait_id").bind c.uuid.read
    let reason ← (a "reason").bind WaitResumeReason.format.read
    return .waitResumed waitId reason

/-- The tag that the derived encoder writes. -/
def EventKind.eventType : EventKind → EventWire.EventType
  | .userMessage _ => .userMessage
  | .operationCompleted _ _ _ => .operationCompleted
  | .cancellationRequested _ => .cancellationRequested
  | .waitResumed _ _ => .waitResumed

/-- The payload that the derived encoder writes. An absent reason is a null. -/
def EventKind.writePayload : EventKind → Doc
  | .userMessage message => .record [("message", some ((Message.format c.map).write message))]
  | .operationCompleted operationId operationKind outcomeStatus => .record [
      ("operation_id", some (c.uuid.write operationId)),
      ("operation_kind", some (OperationKind.format.write operationKind)),
      ("outcome_status", some (OperationOutcomeStatus.format.write outcomeStatus))]
  | .cancellationRequested reason => .record [
      ("reason", some (reason.elim .null Format.string.write))]
  | .waitResumed waitId reason => .record [
      ("wait_id", some (c.uuid.write waitId)),
      ("reason", some (WaitResumeReason.format.write reason))]

/-! ## Events -/

structure EventWire (Time : Type) where
  id : Option EventId
  sessionId : Option SessionId
  sequence : Option Int
  createdAt : Option Time
  eventType : EventWire.EventType
  payload : RawJson

def EventWire.slots : List Slot := [
  { key := "id" }, { key := "session_id" }, { key := "sequence" }, { key := "created_at" },
  { key := "type" }, { key := "payload" }]

def EventWire.deserialize (d : Doc) : Option (EventWire Time) := do
  let a ← d.access slots
  let id ← optional c.uuid.read (a "id")
  let sessionId ← optional c.uuid.read (a "session_id")
  let sequence ← optional Format.i64.read (a "sequence")
  let createdAt ← optional c.time.read (a "created_at")
  let eventType ← (a "type").bind EventType.format.read
  let payload ← (a "payload").bind Format.raw.read
  return { id, sessionId, sequence, createdAt, eventType, payload }

/-- `EventKind::from_wire`. -/
def EventKind.fromWire (wire : EventWire Time) : Option EventKind :=
  fromStr (readPayload c wire.eventType) wire.payload

def SentEvent.deserialize (d : Doc) : Option (SentEvent Time) := do
  let wire ← EventWire.deserialize c d
  let kind ← EventKind.fromWire c wire
  let id ← wire.id
  let sessionId ← wire.sessionId
  let sequence ← wire.sequence
  let createdAt ← wire.createdAt
  return { id, sessionId, sequence, createdAt, kind }

def SentEvent.serialize (event : SentEvent Time) : Doc :=
  .record [
    ("id", some (c.uuid.write event.id)),
    ("session_id", some (c.uuid.write event.sessionId)),
    ("sequence", some (Format.i64.write event.sequence)),
    ("created_at", some (c.time.write event.createdAt)),
    ("type", some (EventWire.EventType.format.write event.kind.eventType)),
    ("payload", some (event.kind.writePayload c))]

def SentEvent.format : Format (SentEvent Time) where
  read := deserialize c
  write := serialize c

variable {c}

/-- A payload that was read is read again from what is written for it. -/
theorem EventKind.payload_again (sound : c.Sound) {eventType : EventWire.EventType} {d : Doc}
    {kind : EventKind} (h : readPayload c eventType d = some kind) :
    readPayload c kind.eventType (kind.writePayload c) = some kind := by
  cases eventType with
  | userMessage =>
    obtain ⟨a, -, h⟩ := Option.bind_eq_some_iff.mp h
    obtain ⟨message, hmessage, h⟩ := Option.bind_eq_some_iff.mp h
    cases h
    obtain ⟨doc, -, hmessage⟩ := Option.bind_eq_some_iff.mp hmessage
    have hmessage := Message.format_sound sound.map sound.mapReadable doc message hmessage
    rw [eventType, writePayload, readPayload, access_record _ (by simp [Distinct])]
    simp [hmessage.again]
  | operationCompleted =>
    obtain ⟨a, -, h⟩ := Option.bind_eq_some_iff.mp h
    obtain ⟨operationId, hid, h⟩ := Option.bind_eq_some_iff.mp h
    obtain ⟨operationKind, -, h⟩ := Option.bind_eq_some_iff.mp h
    obtain ⟨outcomeStatus, -, h⟩ := Option.bind_eq_some_iff.mp h
    cases h
    obtain ⟨doc, -, hid⟩ := Option.bind_eq_some_iff.mp hid
    rw [eventType, writePayload, readPayload, access_record _ (by simp [Distinct])]
    simp [(sound.uuid doc operationId hid).again, (OperationKind.format_writes _).again,
      (OperationOutcomeStatus.format_writes _).again]
  | cancellationRequested =>
    obtain ⟨a, -, h⟩ := Option.bind_eq_some_iff.mp h
    obtain ⟨reason, -, h⟩ := Option.bind_eq_some_iff.mp h
    cases h
    have hreason : optional Format.string.read (some (reason.elim .null Format.string.write)) =
        some reason := by
      cases reason with
      | none => rfl
      | some text => exact Format.optional_written (Format.string_writes text)
    rw [eventType, writePayload, readPayload, access_record _ (by simp [Distinct])]
    simp [hreason]
  | waitResumed =>
    obtain ⟨a, -, h⟩ := Option.bind_eq_some_iff.mp h
    obtain ⟨waitId, hid, h⟩ := Option.bind_eq_some_iff.mp h
    obtain ⟨reason, -, h⟩ := Option.bind_eq_some_iff.mp h
    cases h
    obtain ⟨doc, -, hid⟩ := Option.bind_eq_some_iff.mp hid
    rw [eventType, writePayload, readPayload, access_record _ (by simp [Distinct])]
    simp [(sound.uuid doc waitId hid).again, (WaitResumeReason.format_writes _).again]

theorem SentEvent.format_sound (sound : c.Sound) : (format c).Sound := by
  intro d event h
  rw [format] at h
  obtain ⟨wire, hwire, h⟩ := Option.bind_eq_some_iff.mp h
  obtain ⟨a, -, hwire⟩ := Option.bind_eq_some_iff.mp hwire
  obtain ⟨id, hid, hwire⟩ := Option.bind_eq_some_iff.mp hwire
  obtain ⟨sessionId, hsession, hwire⟩ := Option.bind_eq_some_iff.mp hwire
  obtain ⟨sequence, hsequence, hwire⟩ := Option.bind_eq_some_iff.mp hwire
  obtain ⟨createdAt, hcreated, hwire⟩ := Option.bind_eq_some_iff.mp hwire
  obtain ⟨eventType, -, hwire⟩ := Option.bind_eq_some_iff.mp hwire
  obtain ⟨payload, -, hwire⟩ := Option.bind_eq_some_iff.mp hwire
  cases hwire
  obtain ⟨kind, hkind, h⟩ := Option.bind_eq_some_iff.mp h
  obtain ⟨id, rfl, h⟩ := Option.bind_eq_some_iff.mp h
  obtain ⟨sessionId, rfl, h⟩ := Option.bind_eq_some_iff.mp h
  obtain ⟨sequence, rfl, h⟩ := Option.bind_eq_some_iff.mp h
  obtain ⟨createdAt, rfl, h⟩ := Option.bind_eq_some_iff.mp h
  cases h
  have hid := Format.forall_of_optional sound.uuid hid id rfl
  have hsession := Format.forall_of_optional sound.uuid hsession sessionId rfl
  have hsequence := Format.forall_of_optional Format.i64_sound hsequence sequence rfl
  have hcreated := Format.forall_of_optional sound.time hcreated createdAt rfl
  obtain ⟨doc, -, hkind⟩ := Option.bind_eq_some_iff.mp hkind
  have hpayload := EventKind.payload_again sound hkind
  refine ⟨?_, ?_⟩
  · dsimp only [format]
    rw [serialize, deserialize, EventWire.deserialize, access_record _ (by simp [Distinct])]
    simp [EventKind.fromWire, Format.optional_written hid, Format.optional_written hsession,
      Format.optional_written hsequence, Format.optional_written hcreated,
      (EventWire.EventType.format_writes _).again, hpayload]
  · dsimp only [format]
    exact record_ne_null _

end

/-! ## Round trips -/

/-- What a text decodes as, the encoding of it decodes as. -/
def RoundTrips {α : Type} (f : Format α) : Prop :=
  ∀ text a, f.decode text = some a → f.decode (f.encode a) = some a

/-- A message that was read has the raw text of its document, and so has what is written for it. -/
def KeepsRaw {α : Type} (f : Format α) (slots : List Slot) (verbatim : Access → α → Prop) : Prop :=
  ∀ d a, f.read d = some a → ∃ fields written, d.access slots = some fields ∧
    (f.write a).access slots = some written ∧ verbatim fields a ∧ verbatim written a

variable {Time : Type} {c : Codecs Time}

theorem Message.keepsRaw (sound : c.Sound) :
    KeepsRaw (format c.map) MessageWire.slots Verbatim := by
  intro d message h
  have hagain := (format_sound sound.map sound.mapReadable d message h).again
  obtain ⟨fields, hfields, hread⟩ := Message.verbatim h
  obtain ⟨written, hwritten, hwrite⟩ := Message.verbatim hagain
  exact ⟨fields, written, hfields, hwritten, hread, hwrite⟩

/-- The types of the contract round trip, and wherever a message stands in them, it keeps its raw
text. -/
theorem contracts_round_trip (sound : c.Sound) :
    RoundTrips (Message.format c.map) ∧ RoundTrips (OperationRequest.format c) ∧
      RoundTrips (OperationOutcome.format c) ∧ RoundTrips (OperationResult.format c) ∧
      RoundTrips (SentEvent.format c) ∧
      KeepsRaw (Message.format c.map) MessageWire.slots Message.Verbatim := by
  refine ⟨?_, ?_, ?_, ?_, ?_, Message.keepsRaw sound⟩
  · exact fun text message h =>
      (Message.format_sound sound.map sound.mapReadable).roundTrip h
  · exact fun text request h => (OperationRequest.format_sound sound).roundTrip h
  · exact fun text outcome h => (OperationOutcome.format_sound sound).roundTrip h
  · exact fun text result h => (OperationResult.format_sound sound).roundTrip h
  · exact fun text event h => (SentEvent.format_sound sound).roundTrip h

/-- Reads and writes the empty map. -/
def emptyMap : Format Metadata where
  read d := if d.text = "{}" then some [] else none
  write _ := .record []

theorem emptyMap_writes : emptyMap.Writes [] := by
  refine ⟨?_, record_ne_null []⟩
  show (if (Doc.record []).text = "{}" then some [] else none) = some []
  exact if_pos (by decide)

/-- Codecs that read the first uuid, the first instant and the empty map. -/
def firstCodecs : Codecs Unit where
  uuid := .word false Uuid.toText fun text => if text = "1" then some 1 else none
  time := .word false (fun _ => "1970-01-01T00:00:00Z") fun text =>
    if text = "1970-01-01T00:00:00Z" then some () else none
  map := emptyMap
  payload := ⟨fun _ => none, fun _ => .record []⟩
  response := ⟨fun _ => none, fun _ => .record []⟩

theorem word_sound {α : Type} {kept : Bool} {asStr : α → String} {ofStr : String → Option α}
    (again : ∀ text a, ofStr text = some a → ofStr (asStr a) = some a) :
    (Format.word kept asStr ofStr).Sound := by
  intro d a h
  cases d with
  | string pieces =>
    obtain ⟨text, -, hread⟩ := Option.bind_eq_some_iff.mp h
    exact Format.word_writes (again text a hread)
  | object fields =>
    cases fields with
    | last before key after beforeValue value afterValue =>
      obtain ⟨-, hread⟩ := Option.ite_none_right_eq_some.mp h
      obtain ⟨text, -, hread⟩ := Option.bind_eq_some_iff.mp hread
      exact Format.word_writes (again text a hread)
    | _ => cases h
  | _ => cases h

theorem firstCodecs_sound : firstCodecs.Sound where
  uuid := word_sound fun text id h => by
    cases (Option.ite_none_right_eq_some.mp h).2
    rfl
  time := word_sound fun _ _ _ => rfl
  map d map h := by
    have hread : d.text = "{}" ∧ some [] = some map := Option.ite_none_right_eq_some.mp h
    cases hread.2
    exact emptyMap_writes
  mapReadable d map h := rfl
  payload d payload h := nomatch h
  response d response h := nomatch h

/-- A message with a field that no message has and a null as its data. -/
def noteDoc : Doc := .record [
  ("tag", some (.ofString "note")), ("weight", some (.ofString "heavy")), ("data", some .null),
  ("metadata", some (.record [])), ("role", some (.ofString "custom"))]

def note : Message := .custom { MessageBase.default with metadata := some [] } "note" "null"

theorem noteDoc_read : (Message.format firstCodecs.map).read noteDoc = some note := by
  dsimp only [Message.format]
  have hrole : MessageRole.format.read (.ofString "custom") = some .custom :=
    (MessageRole.format_writes .custom).again
  have htag : optional Format.string.read (some (.ofString "note")) = some (some "note") :=
    Format.optional_written (Format.string_writes "note")
  have hmap : optional emptyMap.read (some (.record [])) = some (some []) :=
    Format.optional_written emptyMap_writes
  rw [Message.deserialize, MessageWire.deserialize, noteDoc, access_record _ (by simp [Distinct])]
  simp [MessageWire.ofAccess, MessageWire.base, Message.ofWire, hrole, htag, firstCodecs, hmap, note,
    MessageBase.default]
  rfl

/-- The message is written without the field that is not its own, and the null stays. -/
theorem contracts_round_trip_note :
    (Message.format firstCodecs.map).decode noteDoc.text = some note ∧
      (Message.format firstCodecs.map).decode ((Message.format firstCodecs.map).encode note) =
        some note := by
  have hread : (Message.format firstCodecs.map).decode noteDoc.text = some note :=
    (fromStr_text _ noteDoc).trans noteDoc_read
  exact ⟨hread, (contracts_round_trip firstCodecs_sound).1 noteDoc.text note hread⟩

end AgentPlatform
