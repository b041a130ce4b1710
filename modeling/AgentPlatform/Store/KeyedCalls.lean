import AgentPlatform.Lib.AnswerBook
import AgentPlatform.Store.FailureCounts
import AgentPlatform.Store.Replay

/-!
# Calls under an idempotency key

A session keeps two books of answers. The events that external inputs were inserted as stand under
their type and key, the acknowledgements of operator retries under their key, and each with the
fingerprint of its request. The calls that enqueue and retry under a key are requests to these
books, and no other call touches them.
-/

namespace AgentPlatform.Store

/-! ## The books -/

/-- What an event record keeps for good: all but its status and the time it was handled. -/
def EventRecord.lasting (r : EventRecord) : EventRecord :=
  { r with status := .pending, handledAt := none }

def EnqueueResult.event : EnqueueResult → EventRecord
  | .inserted event | .existing event => event

/-- The event that an external input was inserted as, under its type and key. -/
def EventRow.kept (e : EventRow) (sessionId : SessionId) :
    Option (KeptAnswer (EventType × String) (Option String) EventRecord) :=
  e.idempotencyKey.map fun key => ⟨(e.eventType, key), e.requestHash, (e.record sessionId).lasting⟩

/-- The acknowledgement of a retry, under its key. -/
def ProcessingRetryRow.kept (r : ProcessingRetryRow) (sessionId : SessionId) :
    KeptAnswer String String ProcessingRetry :=
  ⟨r.idempotencyKey, r.requestHash,
    { sessionId, eventId := r.eventId, processingRevision := r.processingRevision
      retriedAt := r.createdAt }⟩

def Session.inputBook (s : Session) : AnswerBook (EventType × String) (Option String) EventRecord :=
  s.events.filterMap fun e => e.kept s.id

def Session.retryBook (s : Session) : AnswerBook String String ProcessingRetry :=
  s.retries.map fun r => r.kept s.id

/-- What a database stores of a session; nothing while there is no such session. -/
def Db.bookOf {β : Type} (db : Db) (book : Session → List β) (id : SessionId) : List β :=
  match db.session? id with
  | none => []
  | some s => book s

/-! ## The requests -/

/-- What the answer to an external input says. -/
def inputReply : Reply → KeyedReply EventRecord
  | .enqueued result => .answered result.event.lasting
  | .failed .idempotencyConflict => .conflict
  | _ => .refused

/-- What the answer to an operator retry says. -/
def retryReply : Reply → KeyedReply ProcessingRetry
  | .retried retry => .answered retry
  | .failed .idempotencyConflict => .conflict
  | _ => .refused

/-- The request of an entry that enqueues an external input to session `id` under a key. -/
def inputRequest (codec : Codec) (id : SessionId) (entry : Entry) :
    Option ((EventType × String) × Option String × KeyedReply EventRecord) :=
  match entry.call with
  | .enqueueExternalEvent input =>
    if input.sessionId = id ∧
        (input.eventType = .userMessage ∨ input.eventType = .cancellationRequested) then
      input.idempotencyKey.map fun key =>
        ((input.eventType, key), some (codec.fingerprint input.payload), inputReply entry.reply)
    else none
  | _ => none

/-- The request of an entry that retries the processing of session `id`. -/
def retryRequest (codec : Codec) (id : SessionId) (entry : Entry) :
    Option (String × String × KeyedReply ProcessingRetry) :=
  match entry.call with
  | .retryBlockedEvent sessionId _ _ key request _ =>
    if sessionId = id then some (key, codec.fingerprint request, retryReply entry.reply) else none
  | _ => none

/-! ## Calls without a key -/

/-- The calls that are requests to a book. -/
def StoreCall.keyed : StoreCall → Bool
  | .enqueueExternalEvent input => input.idempotencyKey.isSome
  | .retryBlockedEvent .. => true
  | _ => false

/-- Both books of `s'` are those of `s`. -/
structure Session.KeepsBooks (s s' : Session) : Prop where
  inputs : s'.inputBook = s.inputBook
  retries : s'.retryBook = s.retryBook

section

variable {codec : Codec} {clock : Clock} {s s' : Session}

theorem Session.inputBook_of_append {added : List EventRow} (id : s'.id = s.id)
    (events : s'.events = s.events ++ added) (unkeyed : ∀ e ∈ added, e.idempotencyKey = none) :
    s'.inputBook = s.inputBook := by
  have hadded : added.filterMap (fun e => e.kept s.id) = [] :=
    List.filterMap_eq_nil_iff.mpr fun e he => by rw [EventRow.kept, unkeyed e he]; rfl
  rw [Session.inputBook, events, id, List.filterMap_append, hadded, List.append_nil]
  rfl

theorem Session.inputBook_of_update {p : EventRow → Bool} {f : EventRow → EventRow}
    (id : s'.id = s.id) (events : s'.events = Table.update p f s.events)
    (kept : ∀ e sessionId, (f e).kept sessionId = e.kept sessionId) :
    s'.inputBook = s.inputBook := by
  rw [Session.inputBook, events, id]
  exact Table.filterMap_update_of_eq (fun e => kept e s.id) s.events

theorem Session.retryBook_of_eq (id : s'.id = s.id) (retries : s'.retries = s.retries) :
    s'.retryBook = s.retryBook := by
  rw [Session.retryBook, retries, id]
  rfl

theorem Session.KeepsBooks.of_eq (id : s'.id = s.id) (events : s'.events = s.events)
    (retries : s'.retries = s.retries) : s.KeepsBooks s' where
  inputs := Session.inputBook_of_append id (events.trans (List.append_nil _).symm)
    fun _ he => absurd he List.not_mem_nil
  retries := Session.retryBook_of_eq id retries

theorem Session.KeepsBooks.of_append {added : List EventRow} (id : s'.id = s.id)
    (events : s'.events = s.events ++ added) (unkeyed : ∀ e ∈ added, e.idempotencyKey = none)
    (retries : s'.retries = s.retries) : s.KeepsBooks s' where
  inputs := Session.inputBook_of_append id events unkeyed
  retries := Session.retryBook_of_eq id retries

theorem Session.KeepsBooks.of_update {p : EventRow → Bool} {f : EventRow → EventRow}
    (id : s'.id = s.id) (events : s'.events = Table.update p f s.events)
    (kept : ∀ e sessionId, (f e).kept sessionId = e.kept sessionId)
    (retries : s'.retries = s.retries) : s.KeepsBooks s' where
  inputs := Session.inputBook_of_update id events kept
  retries := Session.retryBook_of_eq id retries

theorem Session.KeepsBooks.trans {t : Session} (first : s.KeepsBooks t) (second : t.KeepsBooks s') :
    s.KeepsBooks s' :=
  ⟨second.inputs.trans first.inputs, second.retries.trans first.retries⟩

/-- The events of cancelled waits have no key. -/
theorem Session.cancelWaits_unkeyed {waitIds : List WaitId} {tick : Nat} {eventId : EventId}
    {sequence next : EventSequence}
    (h : cancelWaits clock waitIds tick eventId sequence s = .ok (next, s')) :
    ∃ added, s'.events = s.events ++ added ∧ ∀ e ∈ added, e.idempotencyKey = none := by
  induction waitIds generalizing tick eventId sequence s with
  | nil =>
    cases h
    exact ⟨[], (List.append_nil _).symm, fun _ he => absurd he List.not_mem_nil⟩
  | cons waitId waitIds ih =>
    unfold Session.cancelWaits at h
    split at h
    · cases h
    · split at h
      · exact ih h
      · split at h
        · cases h
        · rename_i hfinish
          obtain ⟨rfl, -, rfl⟩ := Session.finishWait_ok hfinish
          obtain ⟨added, hevents, hunkeyed⟩ := ih h
          refine ⟨_ :: added, hevents.trans (List.append_assoc _ _ _), fun e he => ?_⟩
          rcases List.mem_cons.mp he with rfl | hin
          · rfl
          · exact hunkeyed e hin

theorem Session.commitHandlerOutcome_keepsBooks {taken : TakenIds} {eventId : EventId}
    {claim : HandlerClaim} {outcome : OutcomeCommit} {r : Unit}
    (h : s.commitHandlerOutcome codec clock taken eventId claim outcome = .ok (r, s')) :
    s.KeepsBooks s' := by
  obtain ⟨c⟩ := Session.commitHandlerOutcome_ok h
  have hwaiting : s.KeepsBooks c.waiting := by
    have happended : s.KeepsBooks c.appended := by
      rw [Session.appendHistory_frame c.history]
      exact .of_eq rfl rfl rfl
    have hannounced := Session.sansUpdates_announceHistory c.appended clock claim
      outcome.history.length c.historySequence
    have hstaged := Session.stageOperations_frame c.operations
    have hwaits := Session.createWaits_frame c.waits
    refine happended.trans (.of_eq ?_ ?_ ?_)
    · exact (congrArg (·.id) hwaits).trans ((congrArg (·.id) hstaged).trans
        (congrArg (·.id) hannounced))
    · exact (congrArg (·.events) hwaits).trans ((congrArg (·.events) hstaged).trans
        (congrArg (·.events) hannounced))
    · exact (congrArg (·.retries) hwaits).trans ((congrArg (·.retries) hstaged).trans
        (congrArg (·.retries) hannounced))
  have hcancelled : c.waiting.KeepsBooks c.cancelled := by
    have hframe := Session.cancelWaits_frame c.cancellations
    obtain ⟨added, hevents, hunkeyed⟩ := Session.cancelWaits_unkeyed c.cancellations
    exact .of_append (congrArg (·.id) hframe) hevents hunkeyed (congrArg (·.retries) hframe)
  have hsaved : c.cancelled.KeepsBooks s' := by
    have hevents : s'.events = Table.update _ _ c.cancelled.events := congrArg (·.events) c.result
    refine .of_update (congrArg (·.id) c.result) hevents (fun e id => ?_)
      (congrArg (·.retries) c.result)
    rfl
  exact hwaiting.trans (hcancelled.trans hsaved)

/-- An operation that settles adds an event without a key. -/
theorem Session.KeepsBooks.of_settled (clock : Clock) {id : OperationId}
    {f : OperationRow → OperationRow} {expiresAt : Option Timestamp} {e : EventRow}
    (result : s'.sansUpdates = (s.settled clock id f expiresAt e).sansUpdates)
    (unkeyed : e.idempotencyKey = none) : s.KeepsBooks s' := by
  have hevents : s'.events = s.events ++ [e] :=
    (congrArg (·.events) result).trans (s.events_settled clock id f expiresAt e)
  refine .of_append ((congrArg (·.id) result).trans ?_) hevents
    (fun e' he' => List.mem_singleton.mp he' ▸ unkeyed) ((congrArg (·.retries) result).trans ?_)
  · cases expiresAt <;> rfl
  · cases expiresAt <;> rfl

theorem Session.completeWithdrawal_keepsBooks {eventId : EventId} {claim : ClaimedOperation}
    {targetId : OperationId} {expiresAt : Option Timestamp} {r : Bool × List EventRecord}
    (h : s.completeWithdrawal clock eventId claim targetId expiresAt = .ok (r, s')) :
    s.KeepsBooks s' := by
  obtain ⟨o, row, events, s₁, e, -, -, -, -, hwithdraw, he, -, -, hresult⟩ :=
    Session.completeWithdrawal_ok h
  have htarget : s.KeepsBooks s₁ := by
    rcases Session.withdrawTarget_ok hwithdraw with ⟨-, -, rfl⟩ | ⟨-, e₁, -, he₁, -, hs₁⟩
    · exact .of_eq rfl rfl rfl
    · exact .of_settled clock (congrArg Session.sansUpdates hs₁) (he₁ ▸ rfl)
  exact htarget.trans ((Session.KeepsBooks.of_settled clock rfl (he ▸ rfl)).trans
    (.of_eq (congrArg (·.id) hresult) (congrArg (·.events) hresult) (congrArg (·.retries) hresult)))

/-- A call without a key touches neither book. -/
theorem SessionStep.keepsBooks {db : Db} {call : StoreCall} {reply : Reply}
    (step : SessionStep codec clock db call reply s s') (unkeyed : call.keyed = false) :
    s.KeepsBooks s' := by
  cases step with
  | retryBlockedEvent => cases unkeyed
  | patchSessionMetadata h =>
    simp only [Session.patchMetadata] at h
    split at h <;> cases h
    exact .of_eq rfl rfl rfl
  | @enqueueExternalEvent _ _ input result session external h =>
    have hkey : input.idempotencyKey = none := by simpa [StoreCall.keyed] using unkeyed
    simp only [Session.enqueueExternalEvent, hkey, Option.bind_none, Session.insertExternalEvent] at h
    split at h
    · cases h
    · rename_i hinsert
      obtain ⟨-, rfl⟩ := Session.insertEvent_ok hinsert
      cases h
      exact .of_append rfl rfl (fun e he => List.mem_singleton.mp he ▸ rfl) rfl
  | claimNextEvent claimable =>
    refine .of_update rfl rfl (fun e id => ?_) rfl
    rfl
  | renewEventClaim session h =>
    simp only [Session.renewEventClaim] at h
    split at h
    · cases h
    · split at h <;> cases h
      exact .of_eq rfl rfl rfl
  | @recordHandlerFailure _ _ _ _ _ blocked _ session h =>
    simp only [Session.recordHandlerFailure] at h
    split at h <;> cases h
    cases blocked <;> exact .of_update rfl rfl (fun _ _ => rfl) rfl
  | abandonHandlerAttempt session h =>
    simp only [Session.abandonHandlerAttempt] at h
    split at h <;> cases h
    refine .of_update rfl rfl (fun e id => ?_) rfl
    rfl
  | commitHandlerOutcome session h => exact Session.commitHandlerOutcome_keepsBooks h
  | resolveWait h =>
    simp only [Session.resolveWait] at h
    split at h
    · cases h
    · split at h
      · split at h
        · cases h
        · split at h <;> cases h
          exact .of_eq rfl rfl rfl
      · split at h
        · cases h
        · split at h
          · cases h
          · rename_i hfinish
            obtain ⟨rfl, -, rfl⟩ := Session.finishWait_ok hfinish
            cases h
            exact .of_append rfl rfl (fun e he => List.mem_singleton.mp he ▸ rfl) rfl
  | expireWait h =>
    simp only [Session.expireWait] at h
    split at h
    · cases h
    · split at h
      · cases h
        exact .of_eq rfl rfl rfl
      · split at h
        · cases h
        · rename_i hfinish
          obtain ⟨rfl, -, rfl⟩ := Session.finishWait_ok hfinish
          cases h
          exact .of_append rfl rfl (fun e he => List.mem_singleton.mp he ▸ rfl) rfl
  | @claimOperation _ _ phase _ o leaseMs ho claimable =>
    have hframe := Session.claimOperation_eq s clock o phase db.nextUuid (db.nextUuid + 1) leaseMs
    exact .of_eq (congrArg (·.id) hframe) (congrArg (·.events) hframe) (congrArg (·.retries) hframe)
  | deferOperation session h =>
    obtain ⟨o, -, -, -, -, rfl⟩ := Session.deferOperation_ok h
    exact .of_eq rfl rfl rfl
  | recordOperationAccepted session h =>
    obtain ⟨o, -, -, -, -, -, rfl⟩ := Session.recordOperationAccepted_ok h
    exact .of_eq rfl rfl rfl
  | renewOperationClaim found h =>
    obtain ⟨o, leaseMs, -, rfl⟩ := Session.renewOperationClaim_ok h
    exact .of_eq rfl rfl rfl
  | recordOperationRetry session h =>
    obtain ⟨o, status, -, -, -, rfl⟩ := Session.recordOperationRetry_ok h
    exact .of_eq rfl rfl rfl
  | recordOperationPendingResult session h =>
    obtain ⟨o, -, -, -, -, hresult⟩ := Session.recordOperationPendingResult_ok h
    exact .of_eq (congrArg (·.id) hresult) (congrArg (·.events) hresult)
      (congrArg (·.retries) hresult)
  | completeWithdrawal session phase kind target h => exact Session.completeWithdrawal_keepsBooks h
  | completeOperation session terminal h =>
    obtain ⟨o, e, -, -, he, -, -, hresult⟩ := Session.completeOperation_ok h
    exact (Session.KeepsBooks.of_settled clock rfl (he ▸ rfl)).trans (.of_eq (congrArg (·.id) hresult)
      (congrArg (·.events) hresult) (congrArg (·.retries) hresult))
  | deleteExpiredOperationRequest h =>
    simp only [Session.deleteExpiredOperationRequest] at h
    split at h <;> cases h <;> exact .of_eq rfl rfl rfl
  | pruneUpdates h =>
    simp only [Session.pruneUpdates] at h
    split at h <;> cases h <;> exact .of_eq rfl rfl rfl

/-! ## Requests -/

theorem Session.inputBook_under (s : Session) (eventType : EventType) (key : String) :
    AnswerBook.under s.inputBook (eventType, key) =
      (s.eventByKey eventType key).bind fun e => e.kept s.id := by
  rw [AnswerBook.under, Session.inputBook, List.find?_filterMap, Session.eventByKey]
  congr 2
  funext e
  cases hkey : e.idempotencyKey with
  | none => simp [EventRow.kept, hkey]
  | some key' => simp [EventRow.kept, hkey, Prod.ext_iff, Bool.beq_eq_decide_eq]

theorem Session.retryBook_under (s : Session) (key : String) :
    AnswerBook.under s.retryBook key =
      (s.retries.find? (·.idempotencyKey == key)).map fun r => r.kept s.id := by
  rw [AnswerBook.under, Session.retryBook, List.find?_map]
  rfl

theorem Session.eventByKey_kept {eventType : EventType} {key : String} {e : EventRow}
    (h : s.eventByKey eventType key = some e) :
    e.kept s.id = some ⟨(eventType, key), e.requestHash, (e.record s.id).lasting⟩ := by
  have hkey := List.find?_some h
  simp only [Bool.and_eq_true, beq_iff_eq] at hkey
  rw [EventRow.kept, hkey.1, hkey.2]
  rfl

/-- An event that is inserted under an unknown key is a fresh answer. -/
theorem Session.inputBook_fresh {e : EventRow} {key : EventType × String} {hash : Option String}
    {record : EventRecord} (id : s'.id = s.id) (events : s'.events = s.events ++ [e])
    (kept : e.kept s.id = some ⟨key, hash, record⟩)
    (unknown : AnswerBook.under s.inputBook key = none) :
    AnswerBook.Step s.inputBook key hash (.answered record) s'.inputBook := by
  have hbook : s'.inputBook = s.inputBook ++ [⟨key, hash, record⟩] := by
    rw [Session.inputBook, events, id, List.filterMap_append]
    simp [Session.inputBook, kept]
  rw [hbook]
  exact .fresh unknown record

/-- So is a retry. -/
theorem Session.retryBook_fresh {r : ProcessingRetryRow} (id : s'.id = s.id)
    (retries : s'.retries = s.retries ++ [r])
    (unknown : AnswerBook.under s.retryBook r.idempotencyKey = none) :
    AnswerBook.Step s.retryBook r.idempotencyKey r.requestHash (.answered (r.kept s.id).answer)
      s'.retryBook := by
  have hbook : s'.retryBook = s.retryBook ++ [r.kept s.id] := by
    rw [Session.retryBook, retries, id, List.map_append]
    rfl
  rw [hbook]
  exact .fresh unknown _

theorem Session.insertEvent_error {e : EventRow} {error : StoreError}
    (h : s.insertEvent e = .error error) : error = .uniqueViolation := by
  unfold Session.insertEvent at h
  split at h <;> cases h
  rfl

/-- An external input that fails is a request that changes nothing. -/
theorem Session.enqueueExternalEvent_error {id : EventId} {input : NewExternalEvent} {key : String}
    {error : StoreError} (keyed : input.idempotencyKey = some key)
    (h : s.enqueueExternalEvent codec clock id input = .error error) :
    AnswerBook.Step s.inputBook (input.eventType, key) (some (codec.fingerprint input.payload))
      (inputReply (.failed error)) s.inputBook := by
  have hunder := s.inputBook_under input.eventType key
  simp only [Session.enqueueExternalEvent, keyed, Option.bind_some, Option.map_some] at h
  split at h
  · rename_i e hfound
    rw [hfound, Option.bind_some, Session.eventByKey_kept hfound] at hunder
    split at h
    · rename_i hhash
      cases h
      exact .conflict hunder hhash
    · cases h
  · rename_i hfound
    rw [hfound, Option.bind_none] at hunder
    simp only [Session.insertExternalEvent] at h
    split at h
    · rename_i hinsert
      cases h
      cases Session.insertEvent_error hinsert
      exact .refused hunder
    · cases h

/-- An external input that is answered is a request to the inputs. -/
theorem Session.enqueueExternalEvent_ok {id : EventId} {input : NewExternalEvent} {key : String}
    {result : EnqueueResult} (keyed : input.idempotencyKey = some key)
    (h : s.enqueueExternalEvent codec clock id input = .ok (result, s')) : s'.id = s.id ∧
    AnswerBook.Step s.inputBook (input.eventType, key) (some (codec.fingerprint input.payload))
      (inputReply (.enqueued result)) s'.inputBook := by
  have hunder := s.inputBook_under input.eventType key
  simp only [Session.enqueueExternalEvent, keyed, Option.bind_some, Option.map_some] at h
  split at h
  · rename_i e hfound
    rw [hfound, Option.bind_some, Session.eventByKey_kept hfound] at hunder
    split at h
    · cases h
    · rename_i hhash
      cases h
      exact ⟨rfl, .kept hunder (not_not.mp hhash)⟩
  · rename_i hfound
    rw [hfound, Option.bind_none] at hunder
    simp only [Session.insertExternalEvent, keyed] at h
    split at h
    · cases h
    · rename_i hinsert
      obtain ⟨-, rfl⟩ := Session.insertEvent_ok hinsert
      cases h
      exact ⟨rfl, Session.inputBook_fresh rfl rfl rfl hunder⟩

/-- A retry that fails is a request that changes nothing. -/
theorem Session.retryBlockedEvent_error {retryId : Uuid} {eventId : EventId}
    {expectedRevision : Nat} {key : String} {request : RawJson} {reason : Option String}
    {error : StoreError}
    (h : s.retryBlockedEvent codec clock retryId eventId expectedRevision key request reason =
      .error error) :
    AnswerBook.Step s.retryBook key (codec.fingerprint request) (retryReply (.failed error))
      s.retryBook := by
  have hunder := s.retryBook_under key
  simp only [Session.retryBlockedEvent] at h
  split at h
  · rename_i existing hfound
    rw [hfound, Option.map_some] at hunder
    split at h
    · rename_i hhash
      cases h
      exact .conflict hunder hhash
    · cases h
  · rename_i hfound
    rw [hfound, Option.map_none] at hunder
    split at h
    · cases h
      exact .refused hunder
    · cases h

/-- A retry that is answered is a request to the retries. -/
theorem Session.retryBlockedEvent_step {retryId : Uuid} {eventId : EventId}
    {expectedRevision : Nat} {key : String} {request : RawJson} {reason : Option String}
    {retry : ProcessingRetry}
    (h : s.retryBlockedEvent codec clock retryId eventId expectedRevision key request reason =
      .ok (retry, s')) : s'.id = s.id ∧
    AnswerBook.Step s.retryBook key (codec.fingerprint request) (retryReply (.retried retry))
      s'.retryBook := by
  have hunder := s.retryBook_under key
  simp only [Session.retryBlockedEvent] at h
  split at h
  · rename_i existing hfound
    rw [hfound, Option.map_some] at hunder
    have hkey : existing.idempotencyKey = key := by simpa using List.find?_some hfound
    split at h
    · cases h
    · rename_i hhash
      cases h
      exact ⟨rfl, .kept hunder (not_not.mp hhash)⟩
  · rename_i hfound
    rw [hfound, Option.map_none] at hunder
    split at h
    · cases h
    · let row : ProcessingRetryRow :=
        { id := retryId, idempotencyKey := key, requestHash := codec.fingerprint request, eventId
          expectedProcessingRevision := expectedRevision
          processingRevision := s.processingRevision + 1, reason, createdAt := clock.now }
      obtain ⟨hid, hretries, rfl⟩ : s'.id = s.id ∧ s'.retries = s.retries ++ [row] ∧
          retry = (row.kept s.id).answer := by
        cases h
        exact ⟨rfl, rfl, rfl⟩
      exact ⟨hid, Session.retryBook_fresh hid hretries hunder⟩

/-! ## Every call of a run -/

variable {trace : List Entry} {db : Db} {id : SessionId}

theorem Db.bookOf_some {β : Type} {book : Session → List β} (found : db.session? id = some s) :
    db.bookOf book id = book s := by
  rw [Db.bookOf, found]

theorem Db.bookOf_none {β : Type} {book : Session → List β} (missing : db.session? id = none) :
    db.bookOf book id = [] := by
  rw [Db.bookOf, missing]

theorem Db.session?_put (unique : (db.sessions.map (·.id)).Nodup) (found : db.session? id = some s)
    (same : s'.id = s.id) (nextUuid : Uuid) :
    ({ db.put s' with nextUuid } : Db).session? id = some s' := by
  obtain ⟨hs, rfl⟩ := Db.session?_some found
  have hmem : s' ∈ (db.put s').sessions := Db.mem_put.mpr (.inl ⟨rfl, s, hs, same.symm⟩)
  have hunique : ((db.put s').sessions.map (·.id)).Nodup := (db.ids_put s').symm ▸ unique
  rw [← same]
  exact Table.lookup_eq_some hunique hmem

/-- A transaction is a request to a book of the session it locks, where its body is one. -/
theorem Db.transact_request {κ φ α β : Type} [DecidableEq κ] {book : Session → AnswerBook κ φ α}
    {key : κ} {fingerprint : φ} {hears : Reply → KeyedReply α} {reply : β → Reply} {draws : Nat}
    {body : Uuid → Session → Result (β × Session)} (unique : (db.sessions.map (·.id)).Nodup)
    (missing : hears (.failed (.sessionNotFound id)) = .refused)
    (failed : ∀ s error, body db.nextUuid s = .error error →
      AnswerBook.Step (book s) key fingerprint (hears (.failed error)) (book s))
    (answered : ∀ s s' a, body db.nextUuid s = .ok (a, s') → s'.id = s.id ∧
      AnswerBook.Step (book s) key fingerprint (hears (reply a)) (book s')) :
    AnswerBook.Step (db.bookOf book id) key fingerprint
      (hears (settle db reply (db.transact id draws body)).1)
      ((settle db reply (db.transact id draws body)).2.bookOf book id) := by
  cases hsession : db.session? id with
  | none =>
    simp only [Db.transact, hsession, settle, Db.bookOf_none hsession, missing]
    exact .refused AnswerBook.under_nil
  | some s =>
    cases hbody : body db.nextUuid s with
    | error error =>
      simp only [Db.transact, hsession, hbody, settle, Db.bookOf_some hsession]
      exact failed s error hbody
    | ok result =>
      obtain ⟨a, s'⟩ := result
      obtain ⟨hid, hstep⟩ := answered s s' a hbody
      simp only [Db.transact, hsession, hbody, settle, Db.bookOf_some hsession,
        Db.bookOf_some (Db.session?_put unique hsession hid _)]
      exact hstep

theorem Db.enqueue_request (unique : (db.sessions.map (·.id)).Nodup) (codec : Codec) (clock : Clock)
    {input : NewExternalEvent} {key : String} (keyed : input.idempotencyKey = some key)
    (external : input.eventType = .userMessage ∨ input.eventType = .cancellationRequested) :
    AnswerBook.Step (db.bookOf Session.inputBook input.sessionId) (input.eventType, key)
      (some (codec.fingerprint input.payload))
      (inputReply (exec codec clock db (.enqueueExternalEvent input)).1)
      ((exec codec clock db (.enqueueExternalEvent input)).2.bookOf Session.inputBook
        input.sessionId) := by
  simp only [exec, Db.enqueueExternalEvent, if_pos external]
  exact Db.transact_request unique rfl (fun s error h => Session.enqueueExternalEvent_error keyed h)
    fun s s' a h => Session.enqueueExternalEvent_ok keyed h

theorem Db.retry_request (unique : (db.sessions.map (·.id)).Nodup) (codec : Codec) (clock : Clock)
    (sessionId : SessionId) (eventId : EventId) (expectedRevision : Nat) (key : String)
    (request : RawJson) (reason : Option String) :
    AnswerBook.Step (db.bookOf Session.retryBook sessionId) key (codec.fingerprint request)
      (retryReply (exec codec clock db
        (.retryBlockedEvent sessionId eventId expectedRevision key request reason)).1)
      ((exec codec clock db
        (.retryBlockedEvent sessionId eventId expectedRevision key request reason)).2.bookOf
          Session.retryBook sessionId) := by
  simp only [exec, Db.retryBlockedEvent]
  exact Db.transact_request unique rfl (fun s error h => Session.retryBlockedEvent_error h)
    fun s s' a h => Session.retryBlockedEvent_step h

/-- A call that leaves a book of a session as it is leaves it so in the database. -/
theorem Run.bookOf_kept {β : Type} {book : Session → List β} (run : Run codec trace db)
    {call : StoreCall} {clock : Clock} (admissible : Admissible trace call) (id : SessionId)
    (created : ∀ session, book (Session.create clock session) = [])
    (kept : ∀ s s', s.id = id → s.After codec clock db call (exec codec clock db call).1 s' →
      book s' = book s) :
    (exec codec clock db call).2.bookOf book id = db.bookOf book id := by
  have hunique := (run.step call clock admissible).registered.unique
  cases hsession : db.session? id with
  | some s =>
    obtain ⟨hs, rfl⟩ := Db.session?_some hsession
    obtain ⟨s', hs', hid, hafter⟩ := run.session_after call clock hs
    have hsession' : (exec codec clock db call).2.session? s.id = some s' := by
      rw [← hid]
      exact Table.lookup_eq_some hunique hs'
    rw [Db.bookOf_some hsession, Db.bookOf_some hsession']
    exact kept s s' rfl hafter
  | none =>
    rw [Db.bookOf_none hsession]
    cases hsession' : (exec codec clock db call).2.session? id with
    | none => exact Db.bookOf_none hsession'
    | some t =>
      rw [Db.bookOf_some hsession']
      obtain ⟨ht, rfl⟩ := Db.session?_some hsession'
      rcases run.session_before call clock ht with ⟨session, rfl⟩ | ⟨s, hs, hid, -⟩
      · exact created session
      · exact absurd hid (Table.lookup_eq_none.mp hsession s hs)

/-- A transaction that is no request to the inputs of its session leaves them alone. -/
theorem SessionStep.inputBook_kept {call : StoreCall} {reply : Reply}
    (step : SessionStep codec clock db call reply s s')
    (request : inputRequest codec s.id { call, clock, reply } = none) :
    s'.inputBook = s.inputBook := by
  cases hkeyed : call.keyed with
  | false => exact (step.keepsBooks hkeyed).inputs
  | true =>
    have hid := step.id_eq
    cases step with
    | @enqueueExternalEvent _ _ input result session external h =>
      have hkey : input.idempotencyKey = none := by
        simpa [inputRequest, session, external] using request
      simp [StoreCall.keyed, hkey] at hkeyed
    | retryBlockedEvent h =>
      rcases Session.retryBlockedEvent_ok h with ⟨-, rfl⟩ | ⟨-, -, -, -, hevents⟩
      · rfl
      · refine Session.inputBook_of_update hid hevents fun e id => ?_
        rfl
    | _ => cases hkeyed

/-- A transaction that is no request to the retries of its session leaves them alone. -/
theorem SessionStep.retryBook_kept {call : StoreCall} {reply : Reply}
    (step : SessionStep codec clock db call reply s s')
    (request : retryRequest codec s.id { call, clock, reply } = none) :
    s'.retryBook = s.retryBook := by
  cases hkeyed : call.keyed with
  | false => exact (step.keepsBooks hkeyed).retries
  | true =>
    cases step with
    | enqueueExternalEvent session external h =>
      simp only [Session.enqueueExternalEvent] at h
      split at h
      · split at h <;> cases h
        rfl
      · simp only [Session.insertExternalEvent] at h
        split at h
        · cases h
        · rename_i hinsert
          obtain ⟨-, rfl⟩ := Session.insertEvent_ok hinsert
          cases h
          rfl
    | retryBlockedEvent h => simp [retryRequest] at request
    | _ => cases hkeyed

/-- The inputs of a session are the requests that a run made of them. -/
theorem Run.inputs (run : Run codec trace db) (id : SessionId) :
    AnswerBook.Run (trace.filterMap (inputRequest codec id)) (db.bookOf Session.inputBook id) := by
  induction run with
  | start => exact .start
  | @step trace db call clock run admissible ih =>
    rw [List.filterMap_append]
    cases hrequest : inputRequest codec id
        { call, clock, reply := (exec codec clock db call).1 } with
    | none =>
      rw [List.filterMap_cons_none hrequest, List.filterMap_nil, List.append_nil,
        run.bookOf_kept admissible id (fun _ => rfl)]
      · exact ih
      · rintro s s' rfl hafter
        cases hafter with
        | same | due => rfl
        | step step => exact step.inputBook_kept hrequest
    | some request =>
      rw [List.filterMap_cons_some hrequest, List.filterMap_nil]
      cases call with
      | enqueueExternalEvent input =>
        simp only [inputRequest] at hrequest
        split at hrequest
        · rename_i hinput
          obtain ⟨rfl, hexternal⟩ := hinput
          obtain ⟨key, hkey, rfl⟩ := Option.map_eq_some_iff.mp hrequest
          exact ih.step (Db.enqueue_request run.registered.unique codec clock hkey hexternal)
        · cases hrequest
      | _ => cases hrequest

/-- The retries of a session are the requests that a run made of them. -/
theorem Run.retries (run : Run codec trace db) (id : SessionId) :
    AnswerBook.Run (trace.filterMap (retryRequest codec id)) (db.bookOf Session.retryBook id) := by
  induction run with
  | start => exact .start
  | @step trace db call clock run admissible ih =>
    rw [List.filterMap_append]
    cases hrequest : retryRequest codec id
        { call, clock, reply := (exec codec clock db call).1 } with
    | none =>
      rw [List.filterMap_cons_none hrequest, List.filterMap_nil, List.append_nil,
        run.bookOf_kept admissible id (fun _ => rfl)]
      · exact ih
      · rintro s s' rfl hafter
        cases hafter with
        | same | due => rfl
        | step step => exact step.retryBook_kept hrequest
    | some request =>
      rw [List.filterMap_cons_some hrequest, List.filterMap_nil]
      cases call with
      | retryBlockedEvent sessionId eventId expectedRevision key text reason =>
        simp only [retryRequest] at hrequest
        split at hrequest
        · rename_i hsession
          subst hsession
          cases hrequest
          exact ih.step (Db.retry_request run.registered.unique codec clock sessionId eventId
            expectedRevision key text reason)
        · cases hrequest
      | _ => cases hrequest

end

end AgentPlatform.Store
