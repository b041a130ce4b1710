import AgentPlatform.Lib.Base64Url
import AgentPlatform.Lib.Rfc3339
import AgentPlatform.Lib.Serde
import AgentPlatform.Store.Listings

/-!
# Errors and cursors of the API

What `agent-server/src/error.rs` makes of an error of the store, and the text of a cursor: the JSON of
the columns of a row in base64 for URLs. A cursor is read back as the row it was written for.
-/

namespace AgentPlatform.Server

open Store

/-! ## Errors -/

/-- `ApiError`. -/
structure ApiError where
  status : Nat
  code : String
  message : String
deriving DecidableEq, Repr

/-- What a route answers. -/
abbrev Response (α : Type) := Except ApiError α

namespace ApiError

def badRequest (message : String) : ApiError := ⟨400, "invalid_request", message⟩

def notFound (code message : String) : ApiError := ⟨404, code, message⟩

def transientDatabaseCode (code : String) : Bool :=
  code.startsWith "08" || code.startsWith "53" || ["57P01", "57P02", "57P03"].contains code

def databaseIsUnavailable : DatabaseError → Bool
  | .poolTimedOut | .poolClosed | .io | .tls => true
  | .database code => transientDatabaseCode code
  | _ => false

def internal : ApiError := ⟨500, "internal_error", "an internal error occurred"⟩

/-- `From<StoreError> for ApiError`. -/
def ofStore : StoreError → ApiError
  | .sessionNotFound id =>
    notFound "session_not_found" ("session " ++ id.toText ++ " was not found")
  | .sessionAlreadyExists _ =>
    ⟨409, "session_already_exists", "a session with this ID already exists"⟩
  | .waitNotFound id =>
    notFound "wait_not_found" ("wait " ++ id.toText ++ " was not found in this session")
  | .operationNotFound id =>
    notFound "operation_not_found" ("operation " ++ id.toText ++ " was not found in this session")
  | .eventNotFound id =>
    notFound "event_not_found" ("event " ++ id.toText ++ " was not found in this session")
  | .idempotencyConflict =>
    ⟨409, "idempotency_conflict",
      "the idempotency key was already used with a different request"⟩
  | .waitNotResolvable =>
    ⟨409, "wait_not_resolvable", "the wait cannot accept an external response"⟩
  | .staleProcessingRetry =>
    ⟨409, "stale_processing_retry",
      "the session is not blocked on the expected event and processing revision"⟩
  | .updateCursorExpired =>
    ⟨410, "resnapshot_required", "the update cursor expired; load a fresh session snapshot"⟩
  | .invalidInput message => badRequest message
  | .database error =>
    if databaseIsUnavailable error then
      ⟨503, "database_unavailable", "the database is unavailable"⟩
    else internal
  | .staleClaim | .invalidStoredJson .. => internal

end ApiError

/-- An answer of the store, as the routes pass it on. -/
def respond {α : Type} : Result α → Response α
  | .ok a => .ok a
  | .error error => .error (.ofStore error)

theorem respond_ok {α : Type} {answer : Result α} {a : α} (h : respond answer = .ok a) :
    answer = .ok a := by
  cases answer with
  | error error => cases h
  | ok b => exact congrArg Except.ok (Except.ok.inj h)

/-! ## Cursors -/

/-- How `chrono` writes and reads a `DateTime<Utc>`, and how `uuid` reads a `Uuid`. -/
structure TextCodec where
  writeTime : Timestamp → String
  readTime : String → Option Timestamp
  readUuid : String → Option Uuid

/-- What is documented of them: times are written, and read, as RFC 3339, and the text of a uuid is
read as that uuid. -/
structure TextCodec.Documented (codec : TextCodec) : Prop where
  writes : ∀ time, Rfc3339.instant (codec.writeTime time) = some time
  reads : ∀ text time, Rfc3339.instant text = some time → codec.readTime text = some time
  uuids : ∀ id : Uuid, codec.readUuid id.toText = some id

section

variable (codec : TextCodec)

/-- `Cursor` and `OperationCursor`, as they are written. -/
def cursorDoc (cursor : RowCursor) : Json.Doc :=
  .record [("created_at", some (.ofString (codec.writeTime cursor.createdAt))),
    ("id", some (.ofString cursor.id.toText))]

/-- `Cursor` and `OperationCursor`, as they are read. -/
def readCursor (d : Json.Doc) : Option RowCursor := do
  let field ← d.access [{ key := "created_at" }, { key := "id" }]
  let createdAt ← (← (← field "created_at").string?) |> codec.readTime
  let id ← (← (← field "id").string?) |> codec.readUuid
  some { createdAt, id }

/-- `encode_cursor`. Writing these columns does not fail. -/
def encodeCursor (cursor : RowCursor) : String :=
  Base64Url.encode (cursorDoc codec cursor).text.toUTF8.data.toList

/-- `decode_cursor`; the routes differ in the message. Bytes that are not UTF-8 are refused. -/
def decodeCursor (message : String) (value : String) : Response RowCursor :=
  match Base64Url.decode value with
  | none => .error (.badRequest message)
  | some bytes =>
    match (String.fromUTF8? ⟨bytes.toArray⟩).bind (Json.fromStr (readCursor codec)) with
    | none => .error (.badRequest message)
    | some cursor => .ok cursor

end

section

variable {codec : TextCodec} (documented : codec.Documented) (cursor : RowCursor)

theorem fromUTF8?_toUTF8 (text : String) :
    String.fromUTF8? ⟨text.toUTF8.data.toList.toArray⟩ = some text := by
  have hvalid : text.toUTF8.IsValidUTF8 := text.isValidUTF8
  show String.fromUTF8? text.toUTF8 = some text
  rw [String.fromUTF8?, dif_pos hvalid]
  rfl

include documented in
/-- The document of a cursor is read as the cursor, to the microsecond. -/
theorem readCursor_doc : readCursor codec (cursorDoc codec cursor) = some cursor := by
  have htime := documented.reads _ _ (documented.writes cursor.createdAt)
  have hdistinct : Json.Distinct [("created_at", some (Json.Doc.ofString (codec.writeTime cursor.createdAt))),
      ("id", some (Json.Doc.ofString cursor.id.toText))] := by simp [Json.Distinct]
  rw [readCursor, cursorDoc, Json.access_record _ hdistinct]
  simp [htime, documented.uuids]

include documented in
/-- A cursor that was encoded is decoded again. -/
theorem decodeCursor_encodeCursor (message : String) :
    decodeCursor codec message (encodeCursor codec cursor) = .ok cursor := by
  rw [decodeCursor, encodeCursor, Base64Url.decode_encode]
  dsimp only
  rw [fromUTF8?_toUTF8, Option.bind_some, Json.fromStr_text, readCursor_doc documented]

end

end AgentPlatform.Server
