import AgentPlatform.Contracts.OperationWire
import AgentPlatform.Contracts.Outcome
import AgentPlatform.Lib.Asking
import AgentPlatform.Runtime.Scheduler
import AgentPlatform.Store.Listings

/-!
# The preparation of an outcome

`prepare_outcome` of `agent-runtime/src/outcome.rs`: what becomes of a handler's outcome before it is
committed. The ids that it draws have to be new, the operations that it refers to have to be there,
and its waits have to be possible. Each question to the store is one request.
-/

namespace AgentPlatform.Runtime

open Json Store

/-! ## What a handler leaves -/

/-- `WaitSpec` of the contracts. -/
structure WaitSpec where
  mode : WaitMode
  payload : Value
  responseSchema : Option Value
  expiresAt : Option Timestamp

inductive WaitSpecError where
  | missingExpiration
  | unexpectedExpiration
  | unexpectedResponseSchema

/-- `Display for WaitSpecError`. -/
def WaitSpecError.toText : WaitSpecError → String
  | .missingExpiration => "wait mode requires expires_at"
  | .unexpectedExpiration => "external-only wait cannot expire"
  | .unexpectedResponseSchema => "expiration-only wait cannot have a response schema"

/-- `WaitSpec::validate`. -/
def WaitSpec.validate (spec : WaitSpec) : Except WaitSpecError Unit :=
  match spec.mode, spec.expiresAt, spec.responseSchema with
  | .external, some _, _ => .error .unexpectedExpiration
  | .expiration, none, _ | .either, none, _ => .error .missingExpiration
  | .expiration, some _, some _ => .error .unexpectedResponseSchema
  | _, _, _ => .ok ()

structure StagedWait where
  id : WaitId
  spec : WaitSpec

/-- `SerializedOutcome`. -/
structure SerializedOutcome where
  state : RawJson
  history : List Message
  operations : List StagedOperation
  waits : List StagedWait
  cancelledWaits : List WaitId
  progress : List Value
  status : Option SessionStatus

/-! ## Requests -/

inductive PreparationRequest where
  | operation (id : OperationId)
  | operationForSession (sessionId : SessionId) (id : OperationId)
  | wait (id : WaitId)
  | newEntryId

def PreparationRequest.Answer : PreparationRequest → Type
  | .operation _ => Result OperationRecord
  | .operationForSession .. => Result (Option OperationRecord)
  | .wait _ => Result WaitRecord
  | .newEntryId => HistoryEntryId

abbrev Prepares := Asking PreparationRequest PreparationRequest.Answer

/-- A preparation that may refuse the outcome. -/
abbrev Preparation (α : Type) := Prepares (Except OutcomePreparationError α)

/-- The outcome is refused with a message. -/
def refuse {α : Type} (message : String) : Preparation α := .done (.error (.invalid message))

/-- What a preparation takes from `serde_json` and `jsonschema`: the formats of the contracts, the
text of a value, and what a validator finds wrong with a schema. -/
structure OutcomePreparation (Time : Type) where
  codecs : Codecs Time
  valueText : Value → RawJson
  schemaError : Value → Option String

/-! ## Operations -/

/-- The operation that a request refers to, and the kind that it has to be of. -/
def reference : OperationRequest → Option OperationId × Option OperationKind
  | .llm _ (.continuation previousOperationId _) => (some previousOperationId, some .llm)
  | .llmCancellation target => (some target, some .llm)
  | .withdraw target => (some target, none)
  | _ => (none, none)

/-- The end of `validate_references`, for a reference that was found. -/
def checkKind (reference : OperationId) (required : Option OperationKind) (kind : OperationKind) :
    Preparation Unit :=
  if required.any (· ≠ kind) then
    refuse ("referenced operation " ++ reference.toText ++ " is not an LLM operation")
  else .done (.ok ())

/-- `validate_references`. -/
def validateReferences (sessionId : SessionId) (staged : StagedOperation)
    (stagedKinds : List (OperationId × OperationKind)) : Preparation Unit :=
  match reference staged.request with
  | (none, _) => .done (.ok ())
  | (some reference, required) =>
    if reference = staged.id then
      refuse ("operation " ++ staged.id.toText ++ " cannot reference itself")
    else
      match stagedKinds.find? (·.1 = reference) with
      | some (_, kind) => checkKind reference required kind
      | none =>
        .ask (.operationForSession sessionId reference) fun
          | .error error => .done (.error (.store error))
          | .ok none =>
            refuse ("referenced operation " ++ reference.toText ++
              " does not exist in the session")
          | .ok (some operation) => checkKind reference required operation.kind

variable {Time : Type} (preparation : OutcomePreparation Time)

namespace OutcomePreparation

/-- `new_operation`. -/
def newOperation (staged : StagedOperation) : NewOperation where
  id := staged.id
  kind := staged.request.kind
  gatewayConnectionId :=
    match staged.request with
    | .llm connection _ | .execution connection _ _ _ => some connection
    | .llmCancellation _ | .withdraw _ => none
  targetOperationId :=
    match staged.request with
    | .llmCancellation target | .withdraw target => some target
    | .llm .. | .execution .. => none
  previousOperationId :=
    match staged.request with
    | .llm _ (.continuation previousOperationId _) => some previousOperationId
    | _ => none
  request := (OperationRequest.format preparation.codecs).encode staged.request

/-- The first loop of `prepare_outcome`, behind the operations that it passed.
`validate_execution_request` refuses a shutdown of the runtime, which no modelled payload holds. -/
def operations (sessionId : SessionId) (stagedKinds : List (OperationId × OperationKind)) :
    List StagedOperation → Preparation (List NewOperation)
  | [] => .done (.ok [])
  | staged :: rest =>
    if stagedKinds.any (·.1 = staged.id) then
      refuse ("duplicate operation ID " ++ staged.id.toText)
    else
      .ask (.operation staged.id) fun
        | .ok _ => refuse ("operation ID " ++ staged.id.toText ++ " already exists")
        | .error (.operationNotFound _) => do
          match ← validateReferences sessionId staged stagedKinds with
          | .error error => return .error error
          | .ok () =>
            let operation := preparation.newOperation staged
            let rest ← operations sessionId ((operation.id, operation.kind) :: stagedKinds) rest
            return rest.map (operation :: ·)
        | .error error => .done (.error (.store error))

/-! ## Waits -/

def newWait (staged : StagedWait) : NewWait where
  id := staged.id
  mode := staged.spec.mode
  payload := preparation.valueText staged.spec.payload
  responseSchema := staged.spec.responseSchema.map preparation.valueText
  expiresAt := staged.spec.expiresAt

/-- The second loop of `prepare_outcome`, behind the waits that it passed. -/
def waits (seen : List WaitId) : List StagedWait → Preparation (List NewWait)
  | [] => .done (.ok [])
  | staged :: rest =>
    if seen.contains staged.id then refuse ("duplicate wait ID " ++ staged.id.toText)
    else
      .ask (.wait staged.id) fun
        | .ok _ => refuse ("wait ID " ++ staged.id.toText ++ " already exists")
        | .error (.waitNotFound _) =>
          match staged.spec.validate with
          | .error error => refuse error.toText
          | .ok () =>
            match staged.spec.responseSchema.bind preparation.schemaError with
            | some error => refuse ("invalid wait response schema: " ++ error)
            | none => do
              let rest ← waits (staged.id :: seen) rest
              return rest.map (preparation.newWait staged :: ·)
        | .error error => .done (.error (.store error))

/-! ## The outcome -/

/-- The entries of an outcome's messages. -/
def history : List Message → Prepares (List NewHistoryEntry)
  | [] => .done []
  | message :: rest =>
    .ask .newEntryId fun id => do
      let rest ← history rest
      return { id, message := (Message.format preparation.codecs.map).encode message } :: rest

/-- The first id that an earlier one repeats. -/
def repeated : List WaitId → List WaitId → Option WaitId
  | _, [] => none
  | seen, id :: rest => if seen.contains id then some id else repeated (id :: seen) rest

/-- `prepare_outcome`. -/
def prepareOutcome (sessionId : SessionId) (outcome : SerializedOutcome) :
    Prepares (Except OutcomePreparationError OutcomeCommit) := do
  match ← preparation.operations sessionId [] outcome.operations with
  | .error error => return .error error
  | .ok operations =>
    match ← preparation.waits [] outcome.waits with
    | .error error => return .error error
    | .ok waits =>
      let history ← preparation.history outcome.history
      match repeated [] outcome.cancelledWaits with
      | some waitId => refuse ("duplicate cancelled wait ID " ++ waitId.toText)
      | none =>
        return .ok {
          state := outcome.state
          status := outcome.status
          history
          operations
          waits
          cancelledWaits := outcome.cancelledWaits
          progress := outcome.progress }

/-! ## What a prepared outcome holds -/

variable {preparation} {sessionId : SessionId} {log : List (Asking.Note _ PreparationRequest.Answer)}

theorem operations_returned {stagedKinds : List (OperationId × OperationKind)}
    {staged : List StagedOperation} {operations : List NewOperation}
    (h : (preparation.operations sessionId stagedKinds staged).Returns log (.ok operations)) :
    operations = staged.map preparation.newOperation := by
  induction staged generalizing stagedKinds log operations with
  | nil =>
    obtain ⟨-, hdone⟩ := h
    cases hdone
    rfl
  | cons first rest ih =>
    unfold OutcomePreparation.operations at h
    split at h
    · obtain ⟨-, hdone⟩ := h
      cases hdone
    · obtain ⟨answer, _, -, h⟩ := h
      dsimp only at h
      split at h
      · obtain ⟨-, hdone⟩ := h
        cases hdone
      · obtain ⟨_, _, checked, -, -, h⟩ := h.bind_inv
        cases checked with
        | error error =>
          obtain ⟨-, hdone⟩ := h
          cases hdone
        | ok _ =>
          obtain ⟨_, _, others, -, hothers, -, hdone⟩ := h.bind_inv
          cases others with
          | error error => cases hdone
          | ok others =>
            cases hdone
            rw [ih hothers, List.map_cons]
      · obtain ⟨-, hdone⟩ := h
        cases hdone

theorem waits_returned {seen : List WaitId} {staged : List StagedWait} {waits : List NewWait}
    (h : (preparation.waits seen staged).Returns log (.ok waits)) :
    waits = staged.map preparation.newWait := by
  induction staged generalizing seen log waits with
  | nil =>
    obtain ⟨-, hdone⟩ := h
    cases hdone
    rfl
  | cons first rest ih =>
    unfold OutcomePreparation.waits at h
    split at h
    · obtain ⟨-, hdone⟩ := h
      cases hdone
    · obtain ⟨answer, _, -, h⟩ := h
      dsimp only at h
      split at h
      · obtain ⟨-, hdone⟩ := h
        cases hdone
      · split at h
        · obtain ⟨-, hdone⟩ := h
          cases hdone
        · split at h
          · obtain ⟨-, hdone⟩ := h
            cases hdone
          · obtain ⟨_, _, others, -, hothers, -, hdone⟩ := h.bind_inv
            cases others with
            | error error => cases hdone
            | ok others =>
              cases hdone
              rw [ih hothers, List.map_cons]
      · obtain ⟨-, hdone⟩ := h
        cases hdone

/-- The text of a message in the history. -/
def messageText (preparation : OutcomePreparation Time) (message : Message) : RawJson :=
  (Message.format preparation.codecs.map).encode message

theorem history_returned {messages : List Message} {entries : List NewHistoryEntry}
    (h : (preparation.history messages).Returns log entries) :
    entries.map (·.message) = messages.map preparation.messageText := by
  induction messages generalizing log entries with
  | nil =>
    obtain ⟨-, hdone⟩ := h
    cases hdone
    rfl
  | cons message messages ih =>
    obtain ⟨id, _, -, h⟩ := h
    obtain ⟨_, _, others, -, hothers, -, hdone⟩ := h.bind_inv
    cases hdone
    rw [List.map_cons, List.map_cons, ih hothers]
    rfl

/-- A prepared outcome is the handler's, with its operations, its waits and its messages as they are
stored. -/
structure Prepared (preparation : OutcomePreparation Time) (outcome : SerializedOutcome)
    (commit : OutcomeCommit) : Prop where
  state : commit.state = outcome.state
  status : commit.status = outcome.status
  history : commit.history.map (·.message) = outcome.history.map preparation.messageText
  operations : commit.operations = outcome.operations.map preparation.newOperation
  waits : commit.waits = outcome.waits.map preparation.newWait
  cancelledWaits : commit.cancelledWaits = outcome.cancelledWaits
  progress : commit.progress = outcome.progress

theorem prepareOutcome_returned {outcome : SerializedOutcome} {commit : OutcomeCommit}
    (h : (preparation.prepareOutcome sessionId outcome).Returns log (.ok commit)) :
    preparation.Prepared outcome commit := by
  obtain ⟨_, _, operations, -, hoperations, h⟩ := h.bind_inv
  cases operations with
  | error error =>
    obtain ⟨-, hdone⟩ := h
    cases hdone
  | ok operations =>
    obtain ⟨_, _, waits, -, hwaits, h⟩ := h.bind_inv
    cases waits with
    | error error =>
      obtain ⟨-, hdone⟩ := h
      cases hdone
    | ok waits =>
      obtain ⟨_, _, history, -, hhistory, h⟩ := h.bind_inv
      split at h
      · obtain ⟨-, hdone⟩ := h
        cases hdone
      · obtain ⟨-, hdone⟩ := h
        cases hdone
        exact ⟨rfl, rfl, history_returned hhistory, operations_returned hoperations,
          waits_returned hwaits, rfl, rfl⟩

/-- An outcome of one message and one operation that refers to no other is prepared. -/
theorem prepareOutcome_single (preparation : OutcomePreparation Time) (sessionId : SessionId)
    (id : HistoryEntryId) {outcome : SerializedOutcome} {x : StagedOperation} {message : Message}
    (operations : outcome.operations = [x]) (free : (reference x.request).1 = none)
    (history : outcome.history = [message]) (waits : outcome.waits = [])
    (cancelled : outcome.cancelledWaits = []) :
    (preparation.prepareOutcome sessionId outcome).Returns
      [⟨.operation x.id, (.error (.operationNotFound x.id) : Result OperationRecord)⟩,
        ⟨.newEntryId, id⟩]
      (.ok {
        state := outcome.state
        status := outcome.status
        history := outcome.history.map fun message =>
          { id, message := preparation.messageText message }
        operations := outcome.operations.map preparation.newOperation
        waits := []
        cancelledWaits := []
        progress := outcome.progress }) := by
  have hfree : validateReferences sessionId x [] = .done (.ok ()) := by
    unfold validateReferences
    split
    · rfl
    · next hsome =>
      rw [hsome] at free
      cases free
  rw [prepareOutcome, operations, history, waits, cancelled]
  refine ⟨_, _, rfl, ?_⟩
  dsimp only
  rw [hfree]
  exact ⟨_, _, rfl, rfl, rfl⟩

end OutcomePreparation

end AgentPlatform.Runtime
