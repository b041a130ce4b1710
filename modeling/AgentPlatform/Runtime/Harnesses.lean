import AgentPlatform.Contracts.EventWire
import AgentPlatform.Harness.Handler
import AgentPlatform.Lib.Rfc3339
import AgentPlatform.Runtime.Outcomes
import AgentPlatform.Runtime.Preparation

/-!
# Harnesses behind the scheduler

`agent-runtime/src/lib.rs` wraps a harness so that it reads its configuration and its state from the
stored texts and leaves its new state as one; `decode_event` of `scheduler.rs` makes the stored event
into the one that a harness gets, and `StoreContext` lets the harness read the store. An invocation
draws its identifiers from a supply, which stands where it stopped afterwards.
-/

namespace AgentPlatform.Runtime

open Json Store

/-! ## The adapter -/

/-- The text of a type in the database, as serde reads and writes it. -/
structure StoredText (α : Type) where
  decode : RawJson → Except String α
  encode : α → Except String RawJson

/-- `Harness` of the contracts, with the texts of its errors. -/
structure TypedHarness (Config State : Type) where
  validateConfig : Config → Except String Unit
  initialState : Config → Except String State
  handle : Config → State → SessionEvent → Harness.HarnessContext → Uuid →
    Except HandlerError (OutcomeBuilder State)

/-- `RegisteredHarness`. An invocation also answers where its supply of identifiers stands. -/
structure RegisteredHarness where
  validateConfiguration : RawJson → Except RuntimeError Unit
  initialState : RawJson → Except RuntimeError RawJson
  handle : RawJson → RawJson → SessionEvent → Harness.HarnessContext → Uuid →
    Except RuntimeError (SerializedOutcome × Uuid)

section

variable {Config State : Type}

/-- `SerializedOutcome::from_typed`. No modelled handler creates or cancels a wait. -/
def SerializedOutcome.fromTyped (states : StoredText State) (outcome : HandlerOutcome State) :
    Except RuntimeError SerializedOutcome := do
  let state ← (states.encode outcome.state).mapError .serialization
  return {
    state
    history := outcome.history
    operations := outcome.operations
    waits := []
    cancelledWaits := []
    progress := outcome.progress
    status := outcome.status }

/-- `Adapter`: a harness with the texts of its types. -/
structure Adapter (Config State : Type) where
  harness : TypedHarness Config State
  configs : StoredText Config
  states : StoredText State

namespace Adapter

variable (adapter : Adapter Config State)

/-- `Adapter::validate_configuration`. -/
def validateConfiguration (configuration : RawJson) : Except RuntimeError Unit := do
  let config ← (adapter.configs.decode configuration).mapError .invalidConfiguration
  (adapter.harness.validateConfig config).mapError .invalidConfiguration

/-- `Adapter::initialize`. -/
def initialState (configuration : RawJson) : Except RuntimeError RawJson := do
  let config ← (adapter.configs.decode configuration).mapError .invalidConfiguration
  (adapter.harness.validateConfig config).mapError .invalidConfiguration
  let state ← (adapter.harness.initialState config).mapError .initialization
  (adapter.states.encode state).mapError .serialization

/-- `Adapter::handle`. -/
def handle (configuration state : RawJson) (event : SessionEvent)
    (context : Harness.HarnessContext) (nextId : Uuid) :
    Except RuntimeError (SerializedOutcome × Uuid) := do
  let config ← (adapter.configs.decode configuration).mapError .invalidConfiguration
  let state ← (adapter.states.decode state).mapError .invalidState
  let result ← (adapter.harness.handle config state event context nextId).mapError fun error =>
    .handler error.message
  let outcome ← SerializedOutcome.fromTyped adapter.states result.outcome
  return (outcome, result.nextId)

/-- The adapter behind the trait that the registry holds. -/
def registered : RegisteredHarness where
  validateConfiguration := adapter.validateConfiguration
  initialState := adapter.initialState
  handle := adapter.handle

/-- A session that starts is configured, and its state is what its harness starts from. -/
theorem initialState_ok {configuration state : RawJson}
    (h : adapter.initialState configuration = .ok state) :
    ∃ config typed, adapter.configs.decode configuration = .ok config ∧
      adapter.harness.initialState config = .ok typed ∧ adapter.states.encode typed = .ok state := by
  unfold initialState at h
  cases hconfig : adapter.configs.decode configuration with
  | error error => simp [hconfig, Except.mapError, bind, Except.bind] at h
  | ok config =>
    cases hvalid : adapter.harness.validateConfig config with
    | error error => simp [hconfig, hvalid, Except.mapError, bind, Except.bind] at h
    | ok _ =>
      cases htyped : adapter.harness.initialState config with
      | error error => simp [hconfig, hvalid, htyped, Except.mapError, bind, Except.bind] at h
      | ok typed =>
        cases hstate : adapter.states.encode typed with
        | error error =>
          simp [hconfig, hvalid, htyped, hstate, Except.mapError, bind, Except.bind] at h
        | ok text =>
          simp only [hconfig, hvalid, htyped, hstate, Except.mapError, bind, Except.bind,
            Except.ok.injEq] at h
          subst h
          exact ⟨config, typed, rfl, htyped, hstate⟩

/-- An invocation that answers has read what was stored, and stores what its harness left. -/
theorem handle_ok {configuration state : RawJson} {event : SessionEvent}
    {context : Harness.HarnessContext} {nextId next : Uuid} {outcome : SerializedOutcome}
    (h : adapter.handle configuration state event context nextId = .ok (outcome, next)) :
    ∃ config typed result, adapter.configs.decode configuration = .ok config ∧
      adapter.states.decode state = .ok typed ∧
      adapter.harness.handle config typed event context nextId = .ok result ∧
      SerializedOutcome.fromTyped adapter.states result.outcome = .ok outcome ∧
      result.nextId = next := by
  unfold handle at h
  cases hconfig : adapter.configs.decode configuration with
  | error error => simp [hconfig, Except.mapError, bind, Except.bind] at h
  | ok config =>
    cases hstate : adapter.states.decode state with
    | error error => simp [hconfig, hstate, Except.mapError, bind, Except.bind] at h
    | ok typed =>
      cases hresult : adapter.harness.handle config typed event context nextId with
      | error error => simp [hconfig, hstate, hresult, Except.mapError, bind, Except.bind] at h
      | ok result =>
        cases houtcome : SerializedOutcome.fromTyped adapter.states result.outcome with
        | error error =>
          simp [hconfig, hstate, hresult, houtcome, Except.mapError, bind, Except.bind] at h
        | ok left =>
          simp only [hconfig, hstate, hresult, houtcome, Except.mapError, bind, Except.bind, pure,
            Except.pure, Except.ok.injEq, Prod.mk.injEq] at h
          obtain ⟨rfl, rfl⟩ := h
          exact ⟨config, typed, result, rfl, rfl, hresult, houtcome, rfl⟩

theorem handle_eq {configuration state : RawJson} {event : SessionEvent}
    {context : Harness.HarnessContext} {nextId : Uuid} {config : Config} {typed : State}
    {result : OutcomeBuilder State} {outcome : SerializedOutcome}
    (configured : adapter.configs.decode configuration = .ok config)
    (stored : adapter.states.decode state = .ok typed)
    (handled : adapter.harness.handle config typed event context nextId = .ok result)
    (left : SerializedOutcome.fromTyped adapter.states result.outcome = .ok outcome) :
    adapter.handle configuration state event context nextId = .ok (outcome, result.nextId) := by
  simp [handle, configured, stored, handled, left, Except.mapError, bind, Except.bind, pure,
    Except.pure]

end Adapter

/-- What an outcome keeps of its harness's. -/
theorem SerializedOutcome.fromTyped_ok {states : StoredText State} {typed : HandlerOutcome State}
    {outcome : SerializedOutcome} (h : fromTyped states typed = .ok outcome) :
    states.encode typed.state = .ok outcome.state ∧ outcome.history = typed.history ∧
      outcome.operations = typed.operations ∧ outcome.waits = [] ∧ outcome.cancelledWaits = [] ∧
      outcome.progress = typed.progress ∧ outcome.status = typed.status := by
  unfold fromTyped at h
  cases hstate : states.encode typed.state with
  | error error => simp [hstate, Except.mapError, bind, Except.bind] at h
  | ok state =>
    simp only [hstate, Except.mapError, bind, Except.bind, pure, Except.pure, Except.ok.injEq] at h
    subst h
    exact ⟨rfl, rfl, rfl, rfl, rfl, rfl, rfl⟩

end

/-! ## The event -/

/-- `EventType::as_str` of the store. -/
def eventTypeStr : EventType → String
  | .userMessage => "user_message"
  | .operationCompleted => "operation_completed"
  | .cancellationRequested => "cancellation_requested"
  | .waitResumed => "wait_resumed"

/-- `EventEnvelope`. -/
def eventEnvelope (codecs : Codecs Timestamp) (event : EventRecord) : Doc :=
  .record [
    ("id", some (codecs.uuid.write event.id)),
    ("session_id", some (codecs.uuid.write event.sessionId)),
    ("sequence", some (Format.i64.write event.sequence)),
    ("created_at", some (codecs.time.write event.createdAt)),
    ("type", some (Format.string.write (eventTypeStr event.eventType))),
    ("payload", some (Format.raw.write event.payload))]

/-- `Display` of a `NaiveDate`. -/
def dateText (time : Timestamp) : String :=
  let date := Rfc3339.Date.ofDayNumber (time / 86400000000)
  String.ofList (Rfc3339.yearText date.year ++ '-' :: (Rfc3339.pad 2 date.month ++
    '-' :: Rfc3339.pad 2 date.day))

/-- What a handler reads of a decoded event. -/
def sessionEvent (sent : SentEvent Timestamp) : SessionEvent where
  id := sent.id
  sessionId := sent.sessionId
  sequence := sent.sequence.toNat
  timestampMillis := sent.createdAt / 1000
  date := dateText sent.createdAt
  kind := sent.kind

/-- `decode_event`, with what serde says of a text that it cannot decode. -/
def decodeEventRecord (codecs : Codecs Timestamp) (errorText : RawJson → String)
    (event : EventRecord) : Except String SessionEvent :=
  let json := (eventEnvelope codecs event).text
  match (SentEvent.format codecs).decode json with
  | none => .error (errorText json)
  | some sent => .ok (sessionEvent sent)

theorem dateText_nonempty (time : Timestamp) : (dateText time).isEmpty = false := by
  rw [dateText, String.isEmpty_eq_false_iff]
  intro h
  have hchars := congrArg String.toList h
  simp at hchars

/-- What is decoded of an envelope is of the type and has the payload that were stored. -/
theorem read_eventEnvelope {codecs : Codecs Timestamp} {event : EventRecord}
    {sent : SentEvent Timestamp} (uuids : codecs.uuid.Writes event.sessionId)
    (h : (SentEvent.format codecs).read (eventEnvelope codecs event) = some sent) :
    sent.sessionId = event.sessionId ∧
      ∃ eventType, EventWire.EventType.ofStr (eventTypeStr event.eventType) = some eventType ∧
        fromStr (EventKind.readPayload codecs eventType) (Doc.ofRaw event.payload).text =
          some sent.kind := by
  obtain ⟨wire, hwire, h⟩ := Option.bind_eq_some_iff.mp h
  obtain ⟨kind, hkind, h⟩ := Option.bind_eq_some_iff.mp h
  obtain ⟨id, -, h⟩ := Option.bind_eq_some_iff.mp h
  obtain ⟨sessionId, hsession, h⟩ := Option.bind_eq_some_iff.mp h
  obtain ⟨sequence, -, h⟩ := Option.bind_eq_some_iff.mp h
  obtain ⟨createdAt, -, h⟩ := Option.bind_eq_some_iff.mp h
  cases h
  rw [EventWire.deserialize, eventEnvelope, access_record _ (by simp [Json.Distinct])] at hwire
  obtain ⟨a, ha, hwire⟩ := Option.bind_eq_some_iff.mp hwire
  cases ha
  obtain ⟨wireId, -, hwire⟩ := Option.bind_eq_some_iff.mp hwire
  obtain ⟨wireSession, hread, hwire⟩ := Option.bind_eq_some_iff.mp hwire
  obtain ⟨wireSequence, -, hwire⟩ := Option.bind_eq_some_iff.mp hwire
  obtain ⟨wireCreated, -, hwire⟩ := Option.bind_eq_some_iff.mp hwire
  obtain ⟨eventType, htype, hwire⟩ := Option.bind_eq_some_iff.mp hwire
  obtain ⟨payload, hpayload, hwire⟩ := Option.bind_eq_some_iff.mp hwire
  cases hwire
  refine ⟨?_, eventType, ?_, ?_⟩
  · have hwritten : some wireSession = some (some event.sessionId) :=
      hread.symm.trans (Format.optional_written uuids)
    exact Option.some.inj (hsession.symm.trans (Option.some.inj hwritten))
  · have hword : (Doc.ofString (eventTypeStr event.eventType)).string?.bind
        EventWire.EventType.ofStr = some eventType := htype
    rwa [string?_ofString] at hword
  · cases hpayload
    exact hkind

/-- A decoded event is of the type and with the payload that were stored. -/
theorem decodeEventRecord_ok {codecs : Codecs Timestamp} {errorText : RawJson → String}
    {event : EventRecord} {decoded : SessionEvent} (uuids : codecs.uuid.Writes event.sessionId)
    (h : decodeEventRecord codecs errorText event = .ok decoded) :
    decoded.sessionId = event.sessionId ∧ decoded.date.isEmpty = false ∧
      ∃ eventType, EventWire.EventType.ofStr (eventTypeStr event.eventType) = some eventType ∧
        fromStr (EventKind.readPayload codecs eventType) (Doc.ofRaw event.payload).text =
          some decoded.kind := by
  unfold decodeEventRecord at h
  dsimp only at h
  split at h
  · cases h
  · rename_i sent hdecode
    cases h
    rw [Format.decode, fromStr_text] at hdecode
    obtain ⟨hsession, hkind⟩ := read_eventEnvelope uuids hdecode
    exact ⟨hsession, dateText_nonempty _, hkind⟩

/-- An event that is stored as the contracts write it is decoded as it was. -/
theorem decodeEventRecord_written {codecs : Codecs Timestamp} {errorText : RawJson → String}
    {event : EventRecord} {kind : EventKind} (uuids : ∀ id, codecs.uuid.Writes id)
    (time : codecs.time.Writes event.createdAt) (sequence : Format.i64.Writes event.sequence)
    (type : eventTypeStr event.eventType = kind.eventType.asStr)
    (payload : event.payload = (kind.writePayload codecs).text)
    (again : EventKind.readPayload codecs kind.eventType (kind.writePayload codecs) = some kind) :
    decodeEventRecord codecs errorText event = .ok (sessionEvent
      { id := event.id, sessionId := event.sessionId, sequence := event.sequence,
        createdAt := event.createdAt, kind }) := by
  have henvelope : eventEnvelope codecs event = SentEvent.serialize codecs
      { id := event.id, sessionId := event.sessionId, sequence := event.sequence,
        createdAt := event.createdAt, kind } := by
    have hraw : Format.raw.write event.payload = kind.writePayload codecs := by
      rw [payload]
      exact Doc.ofRaw_text _
    rw [eventEnvelope, hraw, type]
    rfl
  have hread : (SentEvent.format codecs).decode (eventEnvelope codecs event).text = some
      { id := event.id, sessionId := event.sessionId, sequence := event.sequence,
        createdAt := event.createdAt, kind } := by
    rw [Format.decode, fromStr_text, henvelope]
    dsimp only [SentEvent.format]
    rw [SentEvent.serialize, SentEvent.deserialize, EventWire.deserialize,
      access_record _ (by simp [Json.Distinct])]
    simp [EventKind.fromWire, Format.optional_written (uuids _), Format.optional_written sequence,
      Format.optional_written time, (EventWire.EventType.format_writes _).again, again]
  rw [decodeEventRecord]
  rw [hread]

/-- What is decoded is of the type that it is decoded by. -/
theorem readPayload_eventType {codecs : Codecs Timestamp} {eventType : EventWire.EventType} {d : Doc}
    {kind : EventKind} (h : EventKind.readPayload codecs eventType d = some kind) :
    kind.eventType = eventType := by
  cases eventType with
  | userMessage =>
    obtain ⟨a, -, h⟩ := Option.bind_eq_some_iff.mp h
    obtain ⟨message, -, h⟩ := Option.bind_eq_some_iff.mp h
    cases h
    rfl
  | operationCompleted =>
    obtain ⟨a, -, h⟩ := Option.bind_eq_some_iff.mp h
    obtain ⟨operationId, -, h⟩ := Option.bind_eq_some_iff.mp h
    obtain ⟨operationKind, -, h⟩ := Option.bind_eq_some_iff.mp h
    obtain ⟨outcomeStatus, -, h⟩ := Option.bind_eq_some_iff.mp h
    cases h
    rfl
  | cancellationRequested =>
    obtain ⟨a, -, h⟩ := Option.bind_eq_some_iff.mp h
    obtain ⟨reason, -, h⟩ := Option.bind_eq_some_iff.mp h
    cases h
    rfl
  | waitResumed =>
    obtain ⟨a, -, h⟩ := Option.bind_eq_some_iff.mp h
    obtain ⟨waitId, -, h⟩ := Option.bind_eq_some_iff.mp h
    obtain ⟨reason, -, h⟩ := Option.bind_eq_some_iff.mp h
    cases h
    rfl

/-! ### Completions -/

theorem isPlain_toText (id : Uuid) : ∀ c ∈ id.toText.toList, isPlain c = true := by
  intro c hc
  have hdigit : c.isDigit = true := by
    apply Nat.isDigit_of_mem_toDigits (by decide : 0 < 10) (Nat.le_refl 10)
    rw [← Nat.toList_repr]
    exact hc
  have hrange : 48 ≤ c.val ∧ c.val ≤ 57 := by simpa [Char.isDigit] using hdigit
  have hquote : c ≠ '"' := by
    rintro rfl
    exact absurd hrange.1 (by decide)
  have hslash : c ≠ '\\' := by
    rintro rfl
    exact absurd hrange.2 (by decide)
  have hspace : ' ' ≤ c := Char.le_trans (by decide : ' ' ≤ '0') hrange.1
  simp [isPlain, hquote, hslash, hspace]

/-- The payload that the store writes for a completion, as a document. -/
def completionDoc (id : OperationId) (kind : OperationKind) (status : OperationStatus) : Doc :=
  .record [("operation_id", some (.ofString id.toText)),
    ("operation_kind", some (.ofString kind.asStr)),
    ("outcome_status", some (.ofString status.asStr))]

theorem operationPayload_text (id : OperationId) (kind : OperationKind) (status : OperationStatus) :
    operationPayload id kind status = (completionDoc id kind status).text := by
  have hkind : ∀ c ∈ kind.asStr.toList, isPlain c = true :=
    List.all_eq_true.mp (by cases kind <;> decide)
  have hstatus : ∀ c ∈ status.asStr.toList, isPlain c = true :=
    List.all_eq_true.mp (by cases status <;> decide)
  have hid := print_ofString (isPlain_toText id)
  have hkind := print_ofString hkind
  have hstatus := print_ofString hstatus
  refine String.toList_injective ?_
  rw [Doc.text, String.toList_ofList]
  show _ = '{' :: (noSpace.1 ++ printKey ("operation_id".toList.map quote) noSpace noSpace ++
    (Doc.ofString id.toText).print ++ noSpace.1 ++ ',' ::
    (noSpace.1 ++ printKey ("operation_kind".toList.map quote) noSpace noSpace ++
      (Doc.ofString kind.asStr).print ++ noSpace.1 ++ ',' ::
    (noSpace.1 ++ printKey ("outcome_status".toList.map quote) noSpace noSpace ++
      (Doc.ofString status.asStr).print ++ noSpace.1))) ++ ['}']
  rw [@printKey_quote "operation_id" (List.all_eq_true.mp (by decide)),
    @printKey_quote "operation_kind" (List.all_eq_true.mp (by decide)),
    @printKey_quote "outcome_status" (List.all_eq_true.mp (by decide)), hid, hkind, hstatus]
  unfold operationPayload
  generalize id.toText = id
  generalize kind.asStr = kind
  generalize status.asStr = status
  simp [noSpace]

/-- A completion is decoded as what the store wrote of the operation. -/
theorem readPayload_operationPayload {codecs : Codecs Timestamp} {id : OperationId}
    {kind : OperationKind} {status : OperationStatus} {decoded : EventKind}
    (uuid : codecs.uuid.read (.ofString id.toText) = some id)
    (h : fromStr (EventKind.readPayload codecs .operationCompleted)
      (Doc.ofRaw (operationPayload id kind status)).text = some decoded) :
    ∃ outcomeStatus, OperationOutcomeStatus.ofStr status.asStr = some outcomeStatus ∧
      decoded = .operationCompleted id kind outcomeStatus := by
  have hkind : OperationKind.format.read (.ofString kind.asStr) = some kind :=
    (OperationKind.format_writes kind).again
  rw [operationPayload_text, Doc.ofRaw_text, fromStr_text, completionDoc, EventKind.readPayload,
    access_record _ (by simp [Json.Distinct])] at h
  obtain ⟨a, ha, h⟩ := Option.bind_eq_some_iff.mp h
  cases ha
  obtain ⟨operationId, hid, h⟩ := Option.bind_eq_some_iff.mp h
  obtain ⟨operationKind, hread, h⟩ := Option.bind_eq_some_iff.mp h
  obtain ⟨outcomeStatus, hstatus, h⟩ := Option.bind_eq_some_iff.mp h
  cases h
  have hid' : some id = some operationId := uuid.symm.trans hid
  have hkind' : some kind = some operationKind := hkind.symm.trans hread
  cases hid'
  cases hkind'
  have hword : (Doc.ofString status.asStr).string?.bind OperationOutcomeStatus.ofStr =
    some outcomeStatus := hstatus
  rw [string?_ofString] at hword
  exact ⟨outcomeStatus, hword, rfl⟩

/-! ## The context -/

/-- `StoreContext::operation`, of what the store answered. -/
def contextOperation (reading : JobReading Timestamp) (storeText : StoreError → String)
    (readText : ReadError → String) (answer : Result (Option Store.OperationRecord)) :
    Except String (Option Harness.OperationRecord) :=
  match answer with
  | .error error => .error (storeText error)
  | .ok none => .ok none
  | .ok (some record) =>
    match reading.operation record with
    | .error error => .error (readText error)
    | .ok operation => .ok (some { kind := operation.kind, outcome := operation.outcome })

end AgentPlatform.Runtime
