import AgentPlatform.Store.KeyedCalls
import Mathlib.Data.Set.Function

/-!
# Idempotent calls

External inputs and operator retries may be sent again at any later time, whatever the session did
meanwhile. A call under a known key is answered from the session's books before anything else of the
session is looked at: the same request hears what the first one heard, any other one a conflict, and
no row changes.
-/

namespace AgentPlatform.Store

/-! ## Calls of a run -/

/-- The call that enqueues an external input under a key. -/
def keyedInput (id : SessionId) (eventType : EventType) (key : String) (payload : RawJson) :
    StoreCall :=
  .enqueueExternalEvent { sessionId := id, eventType, payload, idempotencyKey := some key }

/-- The entry enqueued an input under a key and was answered. -/
structure Entry.Enqueued (entry : Entry) (id : SessionId) (eventType : EventType) (key : String)
    (payload : RawJson) (result : EnqueueResult) : Prop where
  call : entry.call = keyedInput id eventType key payload
  reply : entry.reply = .enqueued result

/-- The entry retried a session under a key and was answered. -/
structure Entry.Retried (entry : Entry) (id : SessionId) (key : String) (request : RawJson)
    (retry : ProcessingRetry) : Prop where
  call : ∃ eventId revision reason,
    entry.call = .retryBlockedEvent id eventId revision key request reason
  reply : entry.reply = .retried retry

/-- The entry inserted an event for an input under a key. -/
def Entry.inserts (entry : Entry) (id : SessionId) (eventType : EventType) (key : String) : Bool :=
  match entry.call, entry.reply with
  | .enqueueExternalEvent input, .enqueued (.inserted _) =>
    input.sessionId = id && input.eventType = eventType && input.idempotencyKey = some key
  | _, _ => false

/-- The text that a keyed call takes the fingerprint of. -/
def StoreCall.fingerprinted : StoreCall → Option RawJson
  | .enqueueExternalEvent input => some input.payload
  | .retryBlockedEvent _ _ _ _ request _ => some request
  | _ => none

/-- Databases with the same rows; ids may have been drawn in between. -/
structure Db.SameRows (db db' : Db) : Prop where
  sessions : db'.sessions = db.sessions
  receipts : db'.receipts = db.receipts

/-! ## What is promised -/

/-- After a run that led to `db`: its external inputs, and any input that comes next with a payload
among `texts`. -/
structure InputsIdempotent (codec : Codec) (texts : Set RawJson) (trace : List Entry) (db : Db) :
    Prop where
  /-- The answered calls of one type and key are one request for one event. -/
  same : ∀ entry ∈ trace, ∀ entry' ∈ trace, ∀ id eventType key payload payload' result result',
    entry.Enqueued id eventType key payload result →
    entry'.Enqueued id eventType key payload' result' →
      payload' = payload ∧ result'.event.lasting = result.event.lasting
  once : ∀ id eventType key, trace.countP (·.inserts id eventType key) ≤ 1
  /-- Inputs of different types are different events, whatever their keys. -/
  apart : ∀ entry ∈ trace, ∀ entry' ∈ trace,
    ∀ id eventType eventType' key key' payload payload' result result', eventType ≠ eventType' →
      entry.Enqueued id eventType key payload result →
      entry'.Enqueued id eventType' key' payload' result' → result.event.id ≠ result'.event.id
  repeated : ∀ entry ∈ trace, ∀ id eventType key payload result,
    entry.Enqueued id eventType key payload result → ∀ clock,
      ∃ event, event.lasting = result.event.lasting ∧
        (exec codec clock db (keyedInput id eventType key payload)).1 =
          .enqueued (.existing event) ∧
        db.SameRows (exec codec clock db (keyedInput id eventType key payload)).2
  conflicts : ∀ entry ∈ trace, ∀ id eventType key payload result,
    entry.Enqueued id eventType key payload result → ∀ clock, ∀ payload' ∈ texts,
      payload' ≠ payload →
        exec codec clock db (keyedInput id eventType key payload') =
          (.failed .idempotencyConflict, db)
  /-- A conflict is with an answered call of the same type and key. -/
  blamed : ∀ clock id eventType key payload,
    (exec codec clock db (keyedInput id eventType key payload)).1 = .failed .idempotencyConflict →
      ∃ entry ∈ trace, ∃ payload' result, payload' ≠ payload ∧
        entry.Enqueued id eventType key payload' result
  failed : ∀ clock input error, (exec codec clock db (.enqueueExternalEvent input)).1 =
    .failed error → (exec codec clock db (.enqueueExternalEvent input)).2 = db

/-- What an operator retry that is the first of its key does to a session. -/
structure Session.Reset (s s' : Session) (retry : ProcessingRetry) : Prop where
  blocked : ∃ e, s.head = some e ∧ e.id = retry.eventId ∧ e.status = .blocked
  pending : ∀ e ∈ s'.events, e.id = retry.eventId → e.status = .pending
  revision : s'.processingRevision = s.processingRevision + 1
  acknowledged : retry.processingRevision = s'.processingRevision

/-- After a run that led to `db`: its operator retries, and any retry that comes next with a request
among `texts`. -/
structure RetriesIdempotent (codec : Codec) (texts : Set RawJson) (trace : List Entry) (db : Db) :
    Prop where
  /-- The answered calls of one key are one request with one acknowledgement. -/
  same : ∀ entry ∈ trace, ∀ entry' ∈ trace, ∀ id key request request' retry retry',
    entry.Retried id key request retry → entry'.Retried id key request' retry' →
      request' = request ∧ retry' = retry
  /-- Only the first answered call of a key changes any row. -/
  repeated : ∀ entry ∈ trace, ∀ id key request retry, entry.Retried id key request retry →
    ∀ clock eventId revision reason,
      (exec codec clock db (.retryBlockedEvent id eventId revision key request reason)).1 =
          .retried retry ∧
        db.SameRows
          (exec codec clock db (.retryBlockedEvent id eventId revision key request reason)).2
  conflicts : ∀ entry ∈ trace, ∀ id key request retry, entry.Retried id key request retry →
    ∀ clock eventId revision reason, ∀ request' ∈ texts, request' ≠ request →
      exec codec clock db (.retryBlockedEvent id eventId revision key request' reason) =
        (.failed .idempotencyConflict, db)
  /-- A retry that is answered under a new key resets its event. -/
  resets : ∀ clock id eventId revision key request reason retry,
    (∀ entry ∈ trace, ∀ request retry, ¬ entry.Retried id key request retry) →
    (exec codec clock db (.retryBlockedEvent id eventId revision key request reason)).1 =
      .retried retry →
    ∃ s ∈ db.sessions, ∃ s' ∈
      (exec codec clock db (.retryBlockedEvent id eventId revision key request reason)).2.sessions,
      s.id = id ∧ s'.id = id ∧ retry.eventId = eventId ∧ s.Reset s' retry
  failed : ∀ clock id eventId revision key request reason error,
    (exec codec clock db (.retryBlockedEvent id eventId revision key request reason)).1 =
      .failed error →
    (exec codec clock db (.retryBlockedEvent id eventId revision key request reason)).2 = db

section

variable {codec : Codec} {clock : Clock} {trace : List Entry} {db : Db} {s s' : Session}
  {id : SessionId} {eventType : EventType} {key : String}

/-! ## Calls of a known key -/

/-- An input whose key is known changes nothing of the session. -/
theorem Session.enqueueExternalEvent_known {eventId : EventId} {input : NewExternalEvent}
    {result : EnqueueResult} (keyed : input.idempotencyKey = some key)
    (known : (AnswerBook.under s.inputBook (input.eventType, key)).isSome = true)
    (h : s.enqueueExternalEvent codec clock eventId input = .ok (result, s')) :
    s' = s ∧ ∃ event, result = .existing event := by
  rw [Session.inputBook_under] at known
  simp only [Session.enqueueExternalEvent, keyed, Option.bind_some] at h
  split at h
  · split at h <;> cases h
    exact ⟨rfl, _, rfl⟩
  · rename_i hfound
    simp [hfound] at known

/-- A retry whose key is known changes nothing of the session. -/
theorem Session.retryBlockedEvent_known {retryId : Uuid} {eventId : EventId} {revision : Nat}
    {request : RawJson} {reason : Option String} {retry : ProcessingRetry}
    (known : (AnswerBook.under s.retryBook key).isSome = true)
    (h : s.retryBlockedEvent codec clock retryId eventId revision key request reason =
      .ok (retry, s')) : s' = s := by
  rw [Session.retryBook_under, Option.isSome_map] at known
  rcases Session.retryBlockedEvent_ok h with ⟨-, rfl⟩ | ⟨hunknown, -⟩
  · rfl
  · simp [hunknown] at known

/-- A retry whose key is not known resets its event. -/
theorem Session.retryBlockedEvent_reset {retryId : Uuid} {eventId : EventId} {revision : Nat}
    {request : RawJson} {reason : Option String} {retry : ProcessingRetry}
    (unknown : AnswerBook.under s.retryBook key = none)
    (h : s.retryBlockedEvent codec clock retryId eventId revision key request reason =
      .ok (retry, s')) : retry.eventId = eventId ∧ s.Reset s' retry := by
  rw [Session.retryBook_under, Option.map_eq_none_iff] at unknown
  simp only [Session.retryBlockedEvent, unknown] at h
  split at h
  · cases h
  · rename_i hmatches
    simp only [Session.retryMatches, Bool.not_eq_true, Bool.not_eq_false', Bool.and_eq_true,
      Option.any_eq_true, decide_eq_true_eq] at hmatches
    obtain ⟨-, e, hhead, hid, hblocked⟩ := hmatches
    have hretry : retry.eventId = eventId ∧
        s'.events = Table.update (·.id = eventId) (fun e =>
          { e with
            status := .pending
            nextAttemptAt := clock.reading 0
            lastError := none
            retryFailureBaseline := s.erroredAttempts eventId }) s.events ∧
        s'.processingRevision = s.processingRevision + 1 ∧
        retry.processingRevision = s'.processingRevision := by
      cases h
      exact ⟨rfl, rfl, rfl, rfl⟩
    obtain ⟨rfl, hevents, hrevision, hacknowledged⟩ := hretry
    refine ⟨rfl, ⟨e, hhead, hid, hblocked⟩, fun e' he' hid' => ?_, hrevision, hacknowledged⟩
    rw [hevents] at he'
    obtain ⟨e₀, he₀, rfl⟩ := Table.mem_update.mp he'
    by_cases hid₀ : e₀.id = retry.eventId
    · simp [hid₀]
    · simp [hid₀] at hid'

theorem Db.put_self (unique : (db.sessions.map (·.id)).Nodup) (hs : s ∈ db.sessions) :
    (db.put s).sessions = db.sessions := by
  have hrows : (db.put s).sessions.map (fun t => t) = db.sessions.map fun t => t :=
    Table.map_update_of_mem fun t ht hid =>
      (Table.eq_of_key unique ht hs (of_decide_eq_true hid)).symm
  simpa using hrows

/-- A transaction whose body leaves its session alone leaves all rows alone. -/
theorem Db.transact_same {α : Type} {reply : α → Reply} {draws : Nat}
    {body : Uuid → Session → Result (α × Session)} (unique : (db.sessions.map (·.id)).Nodup)
    (same : ∀ s s' a, db.session? id = some s → body db.nextUuid s = .ok (a, s') → s' = s) :
    db.SameRows (settle db reply (db.transact id draws body)).2 := by
  cases hresult : db.transact id draws body with
  | error error => exact ⟨rfl, rfl⟩
  | ok result =>
    obtain ⟨a, db'⟩ := result
    obtain ⟨s, s', hs, rfl, hbody, rfl⟩ := Db.transact_ok hresult
    obtain rfl := same s s' a (Table.lookup_eq_some unique hs) hbody
    exact ⟨Db.put_self unique hs, rfl⟩

/-- An input whose key is known hears of the event that is stored, and changes no row. -/
theorem Db.enqueue_known {payload : RawJson} {result : EnqueueResult}
    (unique : (db.sessions.map (·.id)).Nodup)
    (known : (AnswerBook.under (db.bookOf Session.inputBook id) (eventType, key)).isSome = true)
    (h : (exec codec clock db (keyedInput id eventType key payload)).1 = .enqueued result) :
    (∃ event, result = .existing event) ∧
      db.SameRows (exec codec clock db (keyedInput id eventType key payload)).2 := by
  simp only [keyedInput, exec, Db.enqueueExternalEvent] at h ⊢
  split at h
  · rename_i hexternal
    simp only [if_pos hexternal]
    have hbody {s s' : Session} {a : EnqueueResult} (hsession : db.session? id = some s)
        (hok : s.enqueueExternalEvent codec clock db.nextUuid
          { sessionId := id, eventType, payload, idempotencyKey := some key } = .ok (a, s')) :
        s' = s ∧ ∃ event, a = .existing event := by
      rw [Db.bookOf_some hsession] at known
      exact Session.enqueueExternalEvent_known rfl known hok
    refine ⟨?_, Db.transact_same unique fun s s' a hsession hok => (hbody hsession hok).1⟩
    cases hresult : db.transact id 1 fun eventId s => s.enqueueExternalEvent codec clock eventId
        { sessionId := id, eventType, payload, idempotencyKey := some key } with
    | error error => rw [hresult] at h; cases h
    | ok out =>
      obtain ⟨a, db'⟩ := out
      obtain ⟨s, s', hs, rfl, hok, rfl⟩ := Db.transact_ok hresult
      rw [hresult] at h
      cases h
      exact (hbody (Table.lookup_eq_some unique hs) hok).2
  · cases h

/-- A retry whose key is known changes no row. -/
theorem Db.retry_known {eventId : EventId} {revision : Nat} {request : RawJson}
    {reason : Option String} (unique : (db.sessions.map (·.id)).Nodup)
    (known : (AnswerBook.under (db.bookOf Session.retryBook id) key).isSome = true) :
    db.SameRows
      (exec codec clock db (.retryBlockedEvent id eventId revision key request reason)).2 := by
  simp only [exec, Db.retryBlockedEvent]
  refine Db.transact_same unique fun s s' a hsession hok => ?_
  rw [Db.bookOf_some hsession] at known
  exact Session.retryBlockedEvent_known known hok

/-! ## The requests of a run -/

theorem mem_requests {α : Type} {request : Entry → Option α} {entry : Entry} {a : α}
    (hentry : entry ∈ trace) (h : request entry = some a) : a ∈ trace.filterMap request :=
  List.mem_filterMap.mpr ⟨entry, hentry, h⟩

/-- Every entry of a run is a call of the database that the run led to by then. -/
theorem Run.entry (run : Run codec trace db) {entry : Entry} (hentry : entry ∈ trace) :
    ∃ db₀ : Db, entry.reply = (exec codec entry.clock db₀ entry.call).1 := by
  induction run with
  | start => cases hentry
  | @step trace db call clock run admissible ih =>
    rcases List.mem_append.mp hentry with hold | hnew
    · exact ih hold
    · cases List.mem_singleton.mp hnew
      exact ⟨db, rfl⟩

/-- Only external inputs are looked up under their key. -/
theorem exec_keyedInput_external {payload : RawJson}
    (h : (exec codec clock db (keyedInput id eventType key payload)).1 ≠
      .failed (.invalidInput
        "only user messages and cancellation requests are external inputs")) :
    eventType = .userMessage ∨ eventType = .cancellationRequested := by
  by_contra hnot
  apply h
  simp only [keyedInput, exec, Db.enqueueExternalEvent, if_neg hnot, settle]

theorem Run.enqueued_external (run : Run codec trace db) {entry : Entry} (hentry : entry ∈ trace)
    {payload : RawJson} {result : EnqueueResult}
    (h : entry.Enqueued id eventType key payload result) :
    eventType = .userMessage ∨ eventType = .cancellationRequested := by
  obtain ⟨db₀, hreply⟩ := run.entry hentry
  rw [h.reply, h.call] at hreply
  exact exec_keyedInput_external fun hfailed => Reply.noConfusion (hreply.trans hfailed)

/-- What was enqueued in a run is an answered request to the inputs. -/
theorem Run.enqueued (run : Run codec trace db) {entry : Entry} (hentry : entry ∈ trace)
    {payload : RawJson} {result : EnqueueResult}
    (h : entry.Enqueued id eventType key payload result) :
    ((eventType, key), some (codec.fingerprint payload), .answered result.event.lasting) ∈
      trace.filterMap (inputRequest codec id) := by
  refine mem_requests hentry ?_
  simp only [inputRequest, h.call, keyedInput, h.reply, Option.map_some, inputReply]
  rw [if_pos ⟨trivial, run.enqueued_external hentry h⟩]

/-- An answered request to the inputs was enqueued. -/
theorem exists_enqueued {fingerprint : Option String} {record : EventRecord}
    (h : ((eventType, key), fingerprint, .answered record) ∈
      trace.filterMap (inputRequest codec id)) :
    ∃ entry ∈ trace, ∃ payload result, entry.Enqueued id eventType key payload result ∧
      fingerprint = some (codec.fingerprint payload) := by
  obtain ⟨entry, hentry, hrequest⟩ := List.mem_filterMap.mp h
  obtain ⟨call, clock, reply⟩ := entry
  cases call with
  | enqueueExternalEvent input =>
    simp only [inputRequest] at hrequest
    split at hrequest
    · rename_i hinput
      obtain ⟨key', hkey, heq⟩ := Option.map_eq_some_iff.mp hrequest
      simp only [Prod.mk.injEq] at heq
      obtain ⟨⟨rfl, rfl⟩, rfl, hreply⟩ := heq
      cases reply with
      | enqueued result =>
        obtain ⟨sessionId, type, payload, idempotencyKey⟩ := input
        obtain ⟨rfl, -⟩ := hinput
        cases hkey
        exact ⟨_, hentry, payload, result, ⟨rfl, rfl⟩, rfl⟩
      | failed error => cases error <;> cases hreply
      | _ => cases hreply
    · cases hrequest
  | _ => cases hrequest

/-- What was retried in a run is an answered request to the retries. -/
theorem retried_request (codec : Codec) {entry : Entry} (hentry : entry ∈ trace) {request : RawJson}
    {retry : ProcessingRetry} (h : entry.Retried id key request retry) :
    (key, codec.fingerprint request, .answered retry) ∈
      trace.filterMap (retryRequest codec id) := by
  obtain ⟨eventId, revision, reason, hcall⟩ := h.call
  refine mem_requests hentry ?_
  simp only [retryRequest, hcall, h.reply, if_true, retryReply]

/-- An answered request to the retries was retried. -/
theorem exists_retried {fingerprint : String} {retry : ProcessingRetry}
    (h : (key, fingerprint, .answered retry) ∈ trace.filterMap (retryRequest codec id)) :
    ∃ entry ∈ trace, ∃ request, entry.Retried id key request retry := by
  obtain ⟨entry, hentry, hrequest⟩ := List.mem_filterMap.mp h
  obtain ⟨call, clock, reply⟩ := entry
  cases call with
  | retryBlockedEvent sessionId eventId revision key' request reason =>
    simp only [retryRequest] at hrequest
    split at hrequest
    · rename_i hid
      subst hid
      simp only [Option.some.injEq, Prod.mk.injEq] at hrequest
      obtain ⟨rfl, rfl, hreply⟩ := hrequest
      cases reply with
      | retried retry' =>
        cases hreply
        exact ⟨_, hentry, request, ⟨eventId, revision, reason, rfl⟩, rfl⟩
      | failed error => cases error <;> cases hreply
      | _ => cases hreply
    · cases hrequest
  | _ => cases hrequest

/-! ## External inputs -/

theorem inputReply_eq_conflict {reply : Reply} (h : inputReply reply = .conflict) :
    reply = .failed .idempotencyConflict := by
  cases reply with
  | failed error =>
    cases error with
    | idempotencyConflict => rfl
    | _ => cases h
  | _ => cases h

theorem inputReply_eq_answered {reply : Reply} {record : EventRecord}
    (h : inputReply reply = .answered record) :
    ∃ result, reply = .enqueued result ∧ result.event.lasting = record := by
  cases reply with
  | enqueued result =>
    cases h
    exact ⟨result, rfl, rfl⟩
  | failed error => cases error <;> cases h
  | _ => cases h

/-- The next input under a key is a request to the inputs. -/
theorem Run.input_step (run : Run codec trace db) (clock : Clock) (id : SessionId) (key : String)
    (payload : RawJson)
    (external : eventType = .userMessage ∨ eventType = .cancellationRequested) :
    AnswerBook.Step (db.bookOf Session.inputBook id) (eventType, key)
      (some (codec.fingerprint payload))
      (inputReply (exec codec clock db (keyedInput id eventType key payload)).1)
      ((exec codec clock db (keyedInput id eventType key payload)).2.bookOf Session.inputBook id) := by
  let input : NewExternalEvent :=
    { sessionId := id, eventType, payload, idempotencyKey := some key }
  have hkeyed : input.idempotencyKey = some key := rfl
  exact Db.enqueue_request run.registered.unique codec clock hkeyed external

/-- An entry that inserted an event was answered with it. -/
theorem Entry.inserts_enqueued {entry : Entry} (h : entry.inserts id eventType key = true) :
    ∃ payload event, entry.Enqueued id eventType key payload (.inserted event) := by
  obtain ⟨call, clock, reply⟩ := entry
  unfold Entry.inserts at h
  split at h
  · rename_i input event hcall hreply
    simp only [Bool.and_eq_true, decide_eq_true_eq] at h
    obtain ⟨sessionId, type, payload, idempotencyKey⟩ := input
    obtain ⟨⟨rfl, rfl⟩, rfl⟩ := h
    exact ⟨payload, event, hcall, hreply⟩
  · cases h

theorem Run.inserted_once (run : Run codec trace db) (id : SessionId) (eventType : EventType)
    (key : String) : trace.countP (·.inserts id eventType key) ≤ 1 := by
  induction run with
  | start => exact Nat.zero_le 1
  | @step trace db call clock run admissible ih =>
    rw [List.countP_append, List.countP_singleton]
    split
    · rename_i hinserts
      obtain ⟨payload, event, hcall, hreply⟩ := Entry.inserts_enqueued hinserts
      have hnone : trace.countP (·.inserts id eventType key) = 0 := by
        refine List.countP_eq_zero.mpr fun entry hentry hearlier => ?_
        obtain ⟨payload', event', hbefore⟩ := Entry.inserts_enqueued hearlier
        have hknown := (run.inputs id).kept (run.enqueued hentry hbefore)
        simp only at hcall hreply
        subst hcall
        obtain ⟨⟨event'', hexisting⟩, -⟩ := Db.enqueue_known run.registered.unique
          (by rw [hknown]; rfl) hreply
        cases hexisting
      rw [hnone]
    · exact ih

/-- The events of inputs of different types are different. -/
theorem Run.inputs_apart (run : Run codec trace db) {entry entry' : Entry} (hentry : entry ∈ trace)
    (hentry' : entry' ∈ trace) {eventType' : EventType} {key' : String}
    {payload payload' : RawJson} {result result' : EnqueueResult} (types : eventType ≠ eventType')
    (h : entry.Enqueued id eventType key payload result)
    (h' : entry'.Enqueued id eventType' key' payload' result') :
    result.event.id ≠ result'.event.id := by
  have row {entry : Entry} {eventType : EventType} {key : String} {payload : RawJson}
      {result : EnqueueResult} (hentry : entry ∈ trace)
      (h : entry.Enqueued id eventType key payload result) :
      ∃ s ∈ db.sessions, s.id = id ∧ ∃ e ∈ s.events, e.id = result.event.id ∧
        e.eventType = eventType := by
    have hkept := (AnswerBook.under_mem ((run.inputs id).kept (run.enqueued hentry h))).1
    cases hsession : db.session? id with
    | none => rw [Db.bookOf_none hsession] at hkept; cases hkept
    | some s =>
      obtain ⟨hs, hid⟩ := Db.session?_some hsession
      rw [Db.bookOf_some hsession] at hkept
      obtain ⟨e, he, hrow⟩ := List.mem_filterMap.mp hkept
      obtain ⟨k, -, heq⟩ := Option.map_eq_some_iff.mp hrow
      simp only [KeptAnswer.mk.injEq, Prod.mk.injEq] at heq
      exact ⟨s, hs, hid, e, he, congrArg EventRecord.id heq.2.2, heq.1.1⟩
  obtain ⟨s, hs, rfl, e, he, hid, rfl⟩ := row hentry h
  obtain ⟨s', hs', hsame, e', he', hid', rfl⟩ := row hentry' h'
  obtain rfl := Table.eq_of_key run.registered.unique hs' hs hsame
  intro heq
  have := Table.eq_of_key (run.inboxInvariant hs).distinct he he' (hid.trans (heq.trans hid'.symm))
  exact types (congrArg EventRow.eventType this)

theorem Run.inputsIdempotent {texts : Set RawJson} (collisionFree : Set.InjOn codec.fingerprint texts)
    (run : Run codec trace db)
    (presented : ∀ entry ∈ trace, ∀ text ∈ entry.call.fingerprinted, text ∈ texts) :
    InputsIdempotent codec texts trace db where
  same entry hentry entry' hentry' id eventType key payload payload' result result' h h' := by
    obtain ⟨hhash, hevent⟩ := (run.inputs id).same (run.enqueued hentry h) (run.enqueued hentry' h')
    have htext : payload ∈ texts := presented entry hentry payload (by rw [h.call]; rfl)
    have htext' : payload' ∈ texts := presented entry' hentry' payload' (by rw [h'.call]; rfl)
    exact ⟨collisionFree htext' htext (Option.some.inj hhash), hevent⟩
  once := run.inserted_once
  apart entry hentry entry' hentry' id eventType eventType' key key' payload payload' result result'
      types h h' :=
    run.inputs_apart hentry hentry' types h h'
  repeated entry hentry id eventType key payload result h clock := by
    have hrequest := run.enqueued hentry h
    have hknown := (run.inputs id).kept hrequest
    have hstep := run.input_step clock id key payload (run.enqueued_external hentry h)
    obtain ⟨-, hsame, -⟩ := (run.inputs id).repeated hrequest hstep
    obtain ⟨result', hreply, hlasting⟩ := inputReply_eq_answered (hsame rfl)
    obtain ⟨⟨event, rfl⟩, hrows⟩ :=
      Db.enqueue_known run.registered.unique (by rw [hknown]; rfl) hreply
    exact ⟨event, hlasting, hreply, hrows⟩
  conflicts entry hentry id eventType key payload result h clock payload' htext' hdiffers := by
    have hstep := run.input_step clock id key payload' (run.enqueued_external hentry h)
    obtain ⟨-, -, hconflict⟩ := (run.inputs id).repeated (run.enqueued hentry h) hstep
    have htext : payload ∈ texts := presented entry hentry payload (by rw [h.call]; rfl)
    have hhash : some (codec.fingerprint payload') ≠ some (codec.fingerprint payload) :=
      fun heq => hdiffers (collisionFree htext' htext (Option.some.inj heq))
    have hreply := inputReply_eq_conflict (hconflict hhash)
    exact Prod.ext hreply (exec_failed hreply)
  blamed clock id eventType key payload h := by
    have hexternal : eventType = .userMessage ∨ eventType = .cancellationRequested :=
      exec_keyedInput_external fun hfailed => by cases h.symm.trans hfailed
    have hstep := run.input_step clock id key payload hexternal
    rw [h] at hstep
    obtain ⟨hash, record, hdiffers, hanswered⟩ :=
      ((run.inputs id).step hstep).blamed (List.mem_append_right _ (List.mem_singleton.mpr rfl))
    rcases List.mem_append.mp hanswered with hold | hnew
    · obtain ⟨entry, hentry, payload', result, henqueued, rfl⟩ := exists_enqueued hold
      exact ⟨entry, hentry, payload', result, fun heq => hdiffers (by rw [heq]), henqueued⟩
    · cases List.mem_singleton.mp hnew
  failed clock input error := exec_failed

/-! ## Operator retries -/

theorem retryReply_eq_conflict {reply : Reply} (h : retryReply reply = .conflict) :
    reply = .failed .idempotencyConflict := by
  cases reply with
  | failed error =>
    cases error with
    | idempotencyConflict => rfl
    | _ => cases h
  | _ => cases h

theorem retryReply_eq_answered {reply : Reply} {retry : ProcessingRetry}
    (h : retryReply reply = .answered retry) : reply = .retried retry := by
  cases reply with
  | retried retry' =>
    cases h
    rfl
  | failed error => cases error <;> cases h
  | _ => cases h

theorem Run.retriesIdempotent {texts : Set RawJson} (collisionFree : Set.InjOn codec.fingerprint texts)
    (run : Run codec trace db)
    (presented : ∀ entry ∈ trace, ∀ text ∈ entry.call.fingerprinted, text ∈ texts) :
    RetriesIdempotent codec texts trace db where
  same entry hentry entry' hentry' id key request request' retry retry' h h' := by
    obtain ⟨hhash, hretry⟩ := (run.retries id).same (retried_request codec hentry h)
      (retried_request codec hentry' h')
    obtain ⟨eventId, revision, reason, hcall⟩ := h.call
    obtain ⟨eventId', revision', reason', hcall'⟩ := h'.call
    have htext : request ∈ texts := presented entry hentry request (by rw [hcall]; rfl)
    have htext' : request' ∈ texts := presented entry' hentry' request' (by rw [hcall']; rfl)
    exact ⟨collisionFree htext' htext hhash, hretry⟩
  repeated entry hentry id key request retry h clock eventId revision reason := by
    have hrequest := retried_request codec hentry h
    have hknown := (run.retries id).kept hrequest
    have hstep := Db.retry_request run.registered.unique codec clock id eventId revision key request
      reason
    obtain ⟨-, hsame, -⟩ := (run.retries id).repeated hrequest hstep
    exact ⟨retryReply_eq_answered (hsame rfl),
      Db.retry_known run.registered.unique (by rw [hknown]; rfl)⟩
  conflicts entry hentry id key request retry h clock eventId revision reason request' htext'
      hdiffers := by
    have hstep := Db.retry_request run.registered.unique codec clock id eventId revision key request'
      reason
    obtain ⟨-, -, hconflict⟩ := (run.retries id).repeated (retried_request codec hentry h) hstep
    obtain ⟨eventId', revision', reason', hcall⟩ := h.call
    have htext : request ∈ texts := presented entry hentry request (by rw [hcall]; rfl)
    have hreply := retryReply_eq_conflict
      (hconflict fun heq => hdiffers (collisionFree htext' htext heq))
    exact Prod.ext hreply (exec_failed hreply)
  resets clock id eventId revision key request reason retry unanswered h := by
    have hunknown : AnswerBook.under (db.bookOf Session.retryBook id) key = none := by
      refine (run.retries id).unknown fun hash retry' hanswered => ?_
      obtain ⟨entry, hentry, request', hretried⟩ := exists_retried hanswered
      exact unanswered entry hentry request' retry' hretried
    simp only [exec, Db.retryBlockedEvent] at h ⊢
    cases hresult : db.transact id 1 fun retryId s =>
        s.retryBlockedEvent codec clock retryId eventId revision key request reason with
    | error error => rw [hresult] at h; cases h
    | ok out =>
      obtain ⟨retry', db'⟩ := out
      obtain ⟨s, s', hs, rfl, hok, rfl⟩ := Db.transact_ok hresult
      rw [hresult] at h
      cases h
      rw [Db.bookOf_some (Table.lookup_eq_some run.registered.unique hs)] at hunknown
      obtain ⟨hevent, hreset⟩ := Session.retryBlockedEvent_reset hunknown hok
      have hid := (Session.retryBlockedEvent_step hok).1
      exact ⟨s, hs, s', Db.mem_put.mpr (.inl ⟨rfl, s, hs, hid.symm⟩), rfl, hid, hevent, hreset⟩
  failed clock id eventId revision key request reason error := exec_failed

end

/-- External inputs and operator retries are idempotent after every run, where the digest of the
store tells apart the texts that are presented. -/
theorem keyed_calls_idempotent {codec : Codec} {texts : Set RawJson}
    (collisionFree : Set.InjOn codec.fingerprint texts) {trace : List Entry} {db : Db}
    (run : Run codec trace db)
    (presented : ∀ entry ∈ trace, ∀ text ∈ entry.call.fingerprinted, text ∈ texts) :
    InputsIdempotent codec texts trace db ∧ RetriesIdempotent codec texts trace db :=
  ⟨run.inputsIdempotent collisionFree presented, run.retriesIdempotent collisionFree presented⟩

/-- A message is sent twice and then changed, and its event blocked and retried twice. -/
def repeatedCalls : List StoreCall :=
  firstTurn.take 1 ++
    [keyedInput 1 .userMessage "message" "true", keyedInput 1 .userMessage "message" "true",
      keyedInput 1 .userMessage "message" "false",
      .claimNextEvent (fun _ => false) 1000,
      .recordHandlerFailure
        { sessionId := 1, eventId := 0, attemptId := 3, leaseToken := 2, inputStateVersion := 0 }
        .null 0 true,
      .retryBlockedEvent 1 0 1 "again" "null" none, .retryBlockedEvent 1 0 1 "again" "null" none]

theorem repeatedCalls_run :
    Run plainCodec (replay plainCodec stillClock repeatedCalls).1
      (replay plainCodec stillClock repeatedCalls).2 := by
  refine Run.replay fun n call hcall => ?_
  match n, hcall with
  | 0, rfl | 1, rfl | 2, rfl | 3, rfl | 4, rfl => exact .of_unclaimed rfl rfl rfl
  | 5, rfl => exact .of_handler rfl (by decide) rfl rfl
  | 6, rfl | 7, rfl => exact .of_unclaimed rfl rfl rfl

theorem keyed_calls_idempotent_repeatedCalls :
    let (trace, db) := replay plainCodec stillClock repeatedCalls
    InputsIdempotent plainCodec Set.univ trace db ∧
      RetriesIdempotent plainCodec Set.univ trace db :=
  keyed_calls_idempotent (fun _ _ _ _ same => same) repeatedCalls_run
    fun _ _ _ _ => Set.mem_univ _

end AgentPlatform.Store
