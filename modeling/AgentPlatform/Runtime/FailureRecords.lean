import AgentPlatform.Runtime.Dispatch
import AgentPlatform.Store.Drawn

/-!
# Recording failures

A handler, a gateway or the platform tells a failure as a code and a message, and a worker stores
both in `jsonb` columns under its claim. While the claim is valid the record commits exactly when
neither text has the character U+0000, which no `jsonb` document holds.
-/

namespace AgentPlatform.Runtime

open Store

/-! ## Reports -/

/-- `json!({"code": code, "message": message})`. -/
def failureReport (code message : String) : Value :=
  .object [("code", .string code), ("message", .string message)]

/-- A code and a message that a `jsonb` column takes. -/
def Storable (code message : String) : Prop := '\x00' ∉ code.toList ∧ '\x00' ∉ message.toList

theorem failureReport_mentionsNul (code message : String) :
    (failureReport code message).mentionsNul = false ↔ Storable code message := by
  simp [failureReport, Value.mentionsNul, Value.mentionsNulFields, Storable,
    String.contains_char_eq]

theorem failureValue_mentionsNul (failure : OperationFailure) :
    (failureValue failure).mentionsNul = false ↔ Storable failure.code failure.message := by
  have hsource : '\x00' ∉ failure.source.asStr.toList := by cases failure.source <;> decide
  simp [failureValue, Value.mentionsNul, Value.mentionsNulFields, Storable,
    String.contains_char_eq, hsource]

/-! ## The calls that record a failure -/

/-- The terminal statuses that a claim of a phase may complete its operation with. -/
def mayComplete : OperationPhase → OperationStatus → Prop
  | .submission, status => status = .failed
  | .resultRetrieval, status | .cancellation, status => status.terminal = true
  | .withdrawal, _ => False

theorem mayComplete_terminal {phase : OperationPhase} {status : OperationStatus}
    (h : mayComplete phase status) : status.terminal = true := by
  cases phase with
  | submission =>
    cases h
    rfl
  | resultRetrieval | cancellation => exact h
  | withdrawal => exact absurd h id

/-- A call that records a failure under a valid claim. -/
inductive FailureCall (trace : List Entry) (db : Db) (clock : Clock) (code message : String) :
    StoreCall → Prop
  | handlerFailure {claim : HandlerClaim} {s : Session} {out : HistorySequence × StateVersion}
      (issued : claim ∈ handlerClaims trace) (found : s ∈ db.sessions)
      (session : s.id = claim.sessionId) (valid : s.lockValidSessionClaim clock claim = .ok out)
      (retryAt : Timestamp) (blocked : Bool) : FailureCall trace db clock code message
        (.recordHandlerFailure claim (failureReport code message) retryAt blocked)
  | abandoned {claim : HandlerClaim} {s : Session} {out : HistorySequence × StateVersion}
      (issued : claim ∈ handlerClaims trace) (found : s ∈ db.sessions)
      (session : s.id = claim.sessionId) (valid : s.lockValidSessionClaim clock claim = .ok out)
      (retryAt : Timestamp) : FailureCall trace db clock code message
        (.abandonHandlerAttempt claim (failureReport code message) retryAt)
  | retried {claim : ClaimedOperation} {s : Session} {o : OperationRow}
      (issued : claim ∈ operationClaims trace) (found : s ∈ db.sessions)
      (session : s.id = claim.operation.sessionId) (valid : s.HoldsOperation clock claim o)
      (phase : claim.phase ≠ .withdrawal) (uncertain : Bool) (retryAt : Timestamp)
      (httpStatus : Option Int) : FailureCall trace db clock code message
        (.recordOperationRetry claim uncertain retryAt httpStatus (failureReport code message))
  | blocked {claim : ClaimedCallbackReceipt} {r : CallbackReceiptRow}
      (issued : claim ∈ receiptClaims trace) (valid : db.lockValidCallbackClaim clock claim = .ok r) :
      FailureCall trace db clock code message
        (.blockCallbackReceipt claim (failureReport code message))
  | completed {claim : ClaimedOperation} {s : Session} {o : OperationRow}
      (issued : claim ∈ operationClaims trace) (found : s ∈ db.sessions)
      (session : s.id = claim.operation.sessionId) (valid : s.HoldsOperation clock claim o)
      (status : OperationStatus) (ending : mayComplete claim.phase status)
      (result : Option RawJson) (failure : OperationFailure) (told : failure.code = code)
      (tells : failure.message = message) (expiresAt : Option Timestamp)
      (httpStatus : Option Int) : FailureCall trace db clock code message
        (.completeOperation claim status result (some (failureValue failure)) expiresAt httpStatus)

/-- The attempt of a handler claim ended with a report, and its session is free again. -/
def HandlerRecorded (db : Db) (claim : HandlerClaim) (status : HandlerAttemptStatus)
    (error : Value) : Prop :=
  ∃ s ∈ db.sessions, s.id = claim.sessionId ∧ s.lease = none ∧
    ∃ a ∈ s.eventAttempts, a.id = claim.attemptId ∧ a.status = status ∧ a.error = some error

/-- The operation of a claim stands as the record says, and is free again. -/
def OperationRecorded (db : Db) (claim : ClaimedOperation) (recorded : OperationRow → Prop) : Prop :=
  ∃ s ∈ db.sessions, s.id = claim.operation.sessionId ∧
    ∃ o ∈ s.operations, o.id = claim.operation.id ∧ o.lease = none ∧ recorded o

/-- The database shows what a call records: the failed attempt counts, the gateway's outcome
stands. -/
def Recorded (db : Db) : StoreCall → Prop
  | .recordHandlerFailure claim error _ _ => HandlerRecorded db claim .errored error
  | .abandonHandlerAttempt claim error _ => HandlerRecorded db claim .abandoned error
  | .recordOperationRetry claim _ _ _ error =>
    OperationRecorded db claim fun o => o.error = some error
  | .blockCallbackReceipt claim error =>
    ∃ r ∈ db.receipts, r.id = claim.receipt.id ∧ r.status = .blocked ∧ r.lastError = some error
  | .completeOperation claim status result error _ _ =>
    OperationRecorded db claim fun o => o.status = status ∧ o.result = result ∧ o.error = error
  | _ => True

/-- The call commits. -/
def Commits (codec : Codec) (clock : Clock) (db : Db) (call : StoreCall) : Prop :=
  ∀ error, (exec codec clock db call).1 ≠ .failed error

/-! ## Transactions that succeed -/

section

variable {codec : Codec} {trace : List Entry} {db : Db} {clock : Clock}

/-- A transaction commits what its body leaves of the session. -/
theorem settle_ok (unique : (db.sessions.map (·.id)).Nodup) {s s' : Session}
    (found : s ∈ db.sessions) {id : SessionId} (session : s.id = id) (keeps : s'.id = s.id)
    {α : Type} {reply : α → Reply} {a : α} {draws : Nat}
    {body : Uuid → Session → Result (α × Session)} (ok : body db.nextUuid s = .ok (a, s')) :
    (settle db reply (db.transact id draws body)).1 = reply a ∧
      s' ∈ (settle db reply (db.transact id draws body)).2.sessions := by
  have hfound : db.session? id = some s := session ▸ Table.lookup_eq_some unique found
  simp only [Db.transact, hfound, ok, settle, true_and]
  exact Db.mem_put.mpr (.inl ⟨rfl, s, found, keeps.symm⟩)

theorem settle_error (unique : (db.sessions.map (·.id)).Nodup) {s : Session}
    (found : s ∈ db.sessions) {id : SessionId} (session : s.id = id) {α : Type}
    {reply : α → Reply} {draws : Nat} {body : Uuid → Session → Result (α × Session)}
    {error : StoreError} (fails : body db.nextUuid s = .error error) :
    (settle db reply (db.transact id draws body)).1 = .failed error := by
  have hfound : db.session? id = some s := session ▸ Table.lookup_eq_some unique found
  simp only [Db.transact, hfound, fails, settle]

theorem jsonb_storable {v : Value} (h : v.mentionsNul = false) : jsonb v = .ok v := by
  simp [jsonb, h]

theorem jsonb_refused {v : Value} (h : ¬v.mentionsNul = false) :
    jsonb v = .error (.database (.database "22P05")) := by
  simpa [jsonb] using h

/-! ## Handler attempts -/

/-- The claim that holds a session has its attempt among those of the session. -/
theorem handler_attempt (run : Run codec trace db) {s : Session} (found : s ∈ db.sessions)
    {claim : HandlerClaim} (issued : claim ∈ handlerClaims trace)
    (session : s.id = claim.sessionId) {out : HistorySequence × StateVersion}
    (valid : s.lockValidSessionClaim clock claim = .ok out) :
    ∃ a ∈ s.eventAttempts, a.id = claim.attemptId ∧ a.leaseToken = claim.leaseToken ∧
      a.status = .running := by
  obtain ⟨⟨lease, hlease, -, htoken, -⟩, -⟩ := Session.lockValidSessionClaim_ok valid
  obtain ⟨-, -, a, ha, hruns⟩ :=
    (run.inboxInvariant found).known claim issued session.symm lease hlease htoken
  exact ⟨a, ha, by simpa [Inbox.runs, and_assoc] using hruns⟩

theorem recordHandlerFailure_succeeds {s : Session} {claim : HandlerClaim}
    {out : HistorySequence × StateVersion} (valid : s.lockValidSessionClaim clock claim = .ok out)
    {error : Value} (storable : error.mentionsNul = false) (retryAt : Timestamp) (blocked : Bool) :
    ∃ s', s.recordHandlerFailure clock claim error retryAt blocked = .ok ((), s') ∧ s'.id = s.id ∧
      s'.lease = none ∧
      s'.eventAttempts = (s.finishEventAttempt clock claim .errored (some error)).eventAttempts := by
  simp only [Session.recordHandlerFailure, valid, jsonb_storable storable]
  cases blocked <;> exact ⟨_, rfl, rfl, rfl, rfl⟩

theorem abandonHandlerAttempt_succeeds {s : Session} {claim : HandlerClaim}
    {out : HistorySequence × StateVersion} (valid : s.lockValidSessionClaim clock claim = .ok out)
    {error : Value} (storable : error.mentionsNul = false) (retryAt : Timestamp) :
    ∃ s', s.abandonHandlerAttempt clock claim error retryAt = .ok ((), s') ∧ s'.id = s.id ∧
      s'.lease = none ∧
      s'.eventAttempts =
        (s.finishEventAttempt clock claim .abandoned (some error)).eventAttempts := by
  simp only [Session.abandonHandlerAttempt, valid, jsonb_storable storable]
  exact ⟨_, rfl, rfl, rfl, rfl⟩

/-- The attempt that a claim ends is left with the report. -/
theorem attempt_finished {s : Session} {claim : HandlerClaim} {status : HandlerAttemptStatus}
    {error : Value} {a : EventAttemptRow} (ha : a ∈ s.eventAttempts) (id : a.id = claim.attemptId)
    (token : a.leaseToken = claim.leaseToken) (running : a.status = .running) :
    ∃ a' ∈ (s.finishEventAttempt clock claim status (some error)).eventAttempts,
      a'.id = claim.attemptId ∧ a'.status = status ∧ a'.error = some error := by
  refine ⟨a.finish clock status (some error), ?_, id, rfl, rfl⟩
  refine Table.mem_update.mpr ⟨a, ha, ?_⟩
  simp [id, token, running]

/-! ## Operation attempts -/

theorem lock_of_held {s : Session} {claim : ClaimedOperation} {o : OperationRow}
    (held : s.HoldsOperation clock claim o) :
    s.lockValidOperationClaim clock claim = .ok o.lock := by
  obtain ⟨lease, hlease, htoken, hexpires⟩ := held.leased
  simp [Session.lockValidOperationClaim, held.found, hlease, htoken, not_le.mpr hexpires,
    OperationRow.lock]

/-- A claim that ends one attempt finishes it. -/
theorem finishOperationAttempt_succeeds (clock : Clock) {s : Session} {claim : ClaimedOperation}
    (once : s.operationAttempts.countP claim.ends = 1) (status : OperationAttemptStatus)
    (httpStatus : Option Int) (error : Option Value) :
    ∃ s', s.finishOperationAttempt clock claim status httpStatus error = .ok s' := by
  simp [Session.finishOperationAttempt, once]

theorem recordAttempt_succeeds (clock : Clock) {s : Session} {claim : ClaimedOperation}
    (once : s.operationAttempts.countP claim.ends = 1) (f : OperationRow → OperationRow)
    (status : OperationAttemptStatus) (httpStatus : Option Int) (error : Option Value) :
    ∃ s', s.recordAttempt clock claim f status httpStatus error = .ok s' := by
  have honce : (s.updateOperations (·.id = claim.operation.id) fun o =>
      { f o with lease := none }).operationAttempts.countP claim.ends = 1 := once
  exact finishOperationAttempt_succeeds clock honce status httpStatus error

theorem recordOperationRetry_succeeds {s : Session} {claim : ClaimedOperation} {o : OperationRow}
    (held : s.HoldsOperation clock claim o) (once : s.operationAttempts.countP claim.ends = 1)
    {uncertain : Bool} {status : OperationStatus}
    (next : retryStatus claim.phase o.status uncertain = some status) (retryAt : Timestamp)
    (httpStatus : Option Int) {error : Value} (storable : error.mentionsNul = false) :
    ∃ s', s.recordOperationRetry clock claim uncertain retryAt httpStatus error = .ok ((), s') := by
  obtain ⟨s₁, hrecord⟩ := recordAttempt_succeeds clock once
    (fun o => { o with status, nextAttemptAt := retryAt, error := some error })
    (if uncertain then .unknown else .failed) httpStatus (some error)
  refine ⟨s₁.announceOperation clock claim.operation.id, ?_⟩
  simp only [Session.recordOperationRetry, lock_of_held held, bind, Except.bind, OperationRow.lock,
    next, jsonb_storable storable, hrecord]

theorem recordOperationRetry_refused {s : Session} {claim : ClaimedOperation} {o : OperationRow}
    (held : s.HoldsOperation clock claim o) {uncertain : Bool} {status : OperationStatus}
    (next : retryStatus claim.phase o.status uncertain = some status) (retryAt : Timestamp)
    (httpStatus : Option Int) {error : Value} (refused : ¬error.mentionsNul = false) :
    s.recordOperationRetry clock claim uncertain retryAt httpStatus error =
      .error (.database (.database "22P05")) := by
  simp only [Session.recordOperationRetry, lock_of_held held, bind, Except.bind, OperationRow.lock,
    next, jsonb_refused refused]

/-- The completion event of an operation that has not ended is new to its session. -/
theorem completion_fresh (run : Run codec trace db) {s : Session} (found : s ∈ db.sessions)
    {o : OperationRow} (ho : o ∈ s.operations) (running : o.status.terminal = false)
    (clock : Clock) (kind : OperationKind) (status : OperationStatus) :
    ∀ e ∈ s.events, Session.eventsConflict
      (operationEvent clock db.nextUuid o.id kind status s.nextEventSequence) e = false := by
  obtain ⟨q, hqueue, -⟩ := (run.inboxInvariant found).queue
  have hsequences : s.events.map (·.sequence) = List.range' 1 s.events.length := hqueue.sequences
  have hnext : s.nextEventSequence = s.events.length + 1 := hqueue.next
  have hannounced := ((run.ledgerInvariant found).sound.views o ho).announced
  rw [show (s.ledger.view o).row = o from rfl, running, Session.announced_view] at hannounced
  have hcompletions : s.completionEvents o.id = [] := by simpa using hannounced
  intro e he
  have hid : db.nextUuid ≠ e.id := (run.event_drawn s found e he).ne'
  have hsequence : s.nextEventSequence ≠ e.sequence := by
    have : e.sequence ∈ List.range' 1 s.events.length := hsequences ▸ List.mem_map_of_mem he
    have hlt := (List.mem_range'_1.mp this).2
    intro heq
    rw [← heq, hnext, Nat.add_comm] at hlt
    exact Nat.lt_irrefl _ hlt
  have hcompletion : ¬(e.eventType = .operationCompleted ∧ e.operationId = some o.id) := by
    rintro ⟨htype, hop⟩
    have : e ∈ s.completionEvents o.id := List.mem_filter.mpr ⟨he, by simp [htype, hop]⟩
    rw [hcompletions] at this
    cases this
  simp only [Session.eventsConflict, operationEvent, EventRow.new, Bool.or_eq_false_iff]
  refine ⟨⟨⟨⟨by simpa using hid, by simpa using hsequence⟩, rfl⟩, ?_⟩, rfl⟩
  refine Bool.eq_false_iff.mpr fun hall => hcompletion ?_
  simp only [Bool.and_eq_true, beq_iff_eq] at hall
  exact ⟨hall.1.2, hall.2.symm⟩

/-- An operation settles when its completion event is new. -/
theorem settleOperation_succeeds {s : Session} {id : OperationId} {kind : OperationKind}
    {status : OperationStatus} {eventId : EventId}
    (fresh : ∀ e ∈ s.events, Session.eventsConflict
      (operationEvent clock eventId id kind status s.nextEventSequence) e = false)
    (f : OperationRow → OperationRow) (expiresAt : Option Timestamp) :
    ∃ e s', s.settleOperation clock id kind status f expiresAt eventId = .ok (e, s') ∧
      s'.operationAttempts = s.operationAttempts := by
  have hinsert : ∃ s', ((s.updateOperations (·.id = id) fun o =>
        { f o with status, completedAt := some clock.now, lease := none }).expireRequest id
          expiresAt).insertEvent
        (operationEvent clock eventId id kind status s.nextEventSequence) = .ok s' := by
    simp only [Session.insertEvent, Session.events_expireRequest]
    rw [if_neg]
    · exact ⟨_, rfl⟩
    · simpa [Session.updateOperations] using fresh
  obtain ⟨s₁, hs₁⟩ := hinsert
  have hsettle : s.settleOperation clock id kind status f expiresAt eventId =
      .ok (operationEvent clock eventId id kind status s.nextEventSequence,
        s₁.advanceEventSequence clock) := by
    simp only [Session.settleOperation, Session.nextEventSequence_expireRequest]
    rw [show (s.updateOperations _ _).nextEventSequence = s.nextEventSequence from rfl, hs₁]
  refine ⟨_, _, hsettle, ?_⟩
  obtain ⟨-, -, hs⟩ := Session.settleOperation_ok hsettle
  rw [hs, Session.operationAttempts_settled]

/-- A completion that its claim allows is stored when its error is. -/
theorem completeOperation_succeeds (run : Run codec trace db) {s : Session}
    (found : s ∈ db.sessions) {claim : ClaimedOperation} {o : OperationRow}
    (held : s.HoldsOperation clock claim o) (once : s.operationAttempts.countP claim.ends = 1)
    {status : OperationStatus} (allowed : completionAllowed claim.phase o.lock status = true)
    (result : Option RawJson) {error : Value} (storable : error.mentionsNul = false)
    (expiresAt : Option Timestamp) (httpStatus : Option Int) :
    ∃ r s', s.completeOperation clock db.nextUuid claim status result (some error) expiresAt
      httpStatus = .ok (r, s') := by
  have hopen : o.status.terminal = false := by
    rcases OperationStep.completionAllowed_status allowed with hstatus | hstatus <;> rw [hstatus] <;>
      rfl
  have hfresh := completion_fresh run found held.mem hopen clock claim.operation.kind status
  rw [held.id_eq] at hfresh
  obtain ⟨e, s₁, hsettle, hattempts⟩ := settleOperation_succeeds hfresh
    (fun o => { o with result, error := some error }) expiresAt
  have honce : s₁.operationAttempts.countP claim.ends = 1 := by rw [hattempts, once]
  obtain ⟨s₂, hfinish⟩ := finishOperationAttempt_succeeds clock honce .succeeded httpStatus none
  let told := s₂.announceOperation clock claim.operation.id
  refine ⟨e.record told.id, told.emitUpdate clock .eventChanged (eventTouched e.id), ?_⟩
  simp only [Session.completeOperation, lock_of_held held, bind, Except.bind, allowed,
    Bool.not_true, Bool.false_eq_true, if_false, Option.getD_some, jsonb_storable storable, hsettle,
    hfinish, told]

theorem completeOperation_refused {s : Session} {claim : ClaimedOperation} {o : OperationRow}
    (held : s.HoldsOperation clock claim o) {status : OperationStatus}
    (allowed : completionAllowed claim.phase o.lock status = true) (eventId : EventId)
    (result : Option RawJson) {error : Value} (refused : ¬error.mentionsNul = false)
    (expiresAt : Option Timestamp) (httpStatus : Option Int) :
    s.completeOperation clock eventId claim status result (some error) expiresAt httpStatus =
      .error (.database (.database "22P05")) := by
  simp only [Session.completeOperation, lock_of_held held, bind, Except.bind, allowed,
    Bool.not_true, Bool.false_eq_true, if_false, Option.getD_some, jsonb_refused refused]
/-- The status that a valid claim finds its operation in lets it record what its phase may. -/
theorem retryStatus_of_holds {phase : OperationPhase} {o : OperationRow} (holds : phase.Holds o)
    (retries : phase ≠ .withdrawal) (uncertain : Bool) :
    ∃ status, retryStatus phase o.status uncertain = some status := by
  rw [show o.status = _ from holds]
  cases phase with
  | submission | cancellation | resultRetrieval => exact ⟨_, rfl⟩
  | withdrawal => exact absurd rfl retries

theorem completionAllowed_of_holds {phase : OperationPhase} {o : OperationRow}
    (holds : phase.Holds o) (unmapped : o.Unmapped) {status : OperationStatus}
    (ending : mayComplete phase status) : completionAllowed phase o.lock status = true := by
  have hstatus : o.status = _ := holds
  cases phase with
  | submission =>
    have hjob := unmapped (.inr hstatus)
    cases ending
    simp [completionAllowed, OperationRow.lock, hstatus, hjob]
  | resultRetrieval | cancellation => simp [completionAllowed, OperationRow.lock, hstatus]
  | withdrawal => exact absurd ending id

/-! ## Every record -/

/-- A claim under which a failure is recorded was issued. -/
theorem FailureCall.admissible {code message : String} {call : StoreCall}
    (h : FailureCall trace db clock code message call) : Admissible trace call := by
  cases h with
  | handlerFailure issued | abandoned issued => exact .of_handler rfl issued rfl rfl
  | retried issued | completed issued => exact .of_operation rfl issued
  | blocked issued => exact .of_receipt rfl issued

/-- A transaction that leaves the session of a handler claim free and its attempt finished. -/
theorem handlerRecorded_of_settled {db' : Db} {claim : HandlerClaim} {s s' : Session}
    (found : s' ∈ db'.sessions) (keeps : s'.id = s.id) (session : s.id = claim.sessionId)
    (free : s'.lease = none) {status : HandlerAttemptStatus} {error : Value}
    (attempts : s'.eventAttempts =
      (s.finishEventAttempt clock claim status (some error)).eventAttempts)
    (attempted : ∃ a ∈ s.eventAttempts, a.id = claim.attemptId ∧
      a.leaseToken = claim.leaseToken ∧ a.status = .running) :
    HandlerRecorded db' claim status error := by
  obtain ⟨a, ha, hid, htoken, hrunning⟩ := attempted
  refine ⟨s', found, keeps.trans session, free, ?_⟩
  rw [attempts]
  exact attempt_finished ha hid htoken hrunning

/-- A report that the columns take is recorded. -/
theorem FailureCall.recorded (run : Run codec trace db) {code message : String} {call : StoreCall}
    (h : FailureCall trace db clock code message call) (storable : Storable code message) :
    Commits codec clock db call ∧ Recorded (exec codec clock db call).2 call := by
  have hunique := run.registered.unique
  have hreport := (failureReport_mentionsNul code message).mpr storable
  cases h with
  | @handlerFailure claim s out issued found session valid retryAt blocked =>
    let call : StoreCall := .recordHandlerFailure claim (failureReport code message) retryAt blocked
    obtain ⟨s', hok, hkeeps, hfree, hattempts⟩ :=
      recordHandlerFailure_succeeds valid hreport retryAt blocked
    have hcall : (exec codec clock db call).1 = .done ∧ s' ∈ (exec codec clock db call).2.sessions :=
      settle_ok hunique found session hkeeps hok
    refine ⟨fun error herror => (by cases hcall.1.symm.trans herror), ?_⟩
    exact handlerRecorded_of_settled hcall.2 hkeeps session hfree hattempts
      (handler_attempt run found issued session valid)
  | @abandoned claim s out issued found session valid retryAt =>
    let call : StoreCall := .abandonHandlerAttempt claim (failureReport code message) retryAt
    obtain ⟨s', hok, hkeeps, hfree, hattempts⟩ :=
      abandonHandlerAttempt_succeeds valid hreport retryAt
    have hcall : (exec codec clock db call).1 = .done ∧ s' ∈ (exec codec clock db call).2.sessions :=
      settle_ok hunique found session hkeeps hok
    refine ⟨fun error herror => (by cases hcall.1.symm.trans herror), ?_⟩
    exact handlerRecorded_of_settled hcall.2 hkeeps session hfree hattempts
      (handler_attempt run found issued session valid)
  | @retried claim s o issued found session valid phase uncertain retryAt httpStatus =>
    let call : StoreCall :=
      .recordOperationRetry claim uncertain retryAt httpStatus (failureReport code message)
    have hholds := run.claim_holds claim issued s found o valid.mem valid.heldBy.2
    obtain ⟨status, hnext⟩ := retryStatus_of_holds hholds phase uncertain
    obtain ⟨s', hok⟩ := recordOperationRetry_succeeds valid
      (run.ends_once found issued session.symm valid) hnext retryAt httpStatus hreport
    obtain ⟨_, _, -, -, -, hs'⟩ := Session.recordOperationRetry_ok hok
    have hkeeps : s'.id = s.id := by rw [hs']; rfl
    have hcall : (exec codec clock db call).1 = .done ∧ s' ∈ (exec codec clock db call).2.sessions :=
      settle_ok hunique found session hkeeps hok
    refine ⟨fun error herror => (by cases hcall.1.symm.trans herror), ?_⟩
    refine ⟨s', hcall.2, hkeeps.trans session, ?_⟩
    rw [hs']
    exact ⟨_, Table.mem_update.mpr ⟨o, valid.mem, if_pos (by simpa using valid.id_eq)⟩,
      valid.id_eq, rfl, rfl⟩
  | @blocked claim r issued valid =>
    have hfound := Db.lockValidCallbackClaim_ok valid
    have hid : r.id = claim.receipt.id := by simpa using List.find?_some hfound
    simp only [Commits, Recorded, exec, Db.blockCallbackReceipt, valid, jsonb_storable hreport, bind,
      Except.bind, settle]
    refine ⟨fun error herror => (by cases herror), _,
      Table.mem_update.mpr ⟨r, List.mem_of_find?_eq_some hfound, if_pos (by simpa using hid)⟩, ?_⟩
    exact ⟨hid, rfl, rfl⟩
  | @completed claim s o issued found session valid status ending result failure told tells
      expiresAt httpStatus =>
    let call : StoreCall :=
      .completeOperation claim status result (some (failureValue failure)) expiresAt httpStatus
    have hstorable : (failureValue failure).mentionsNul = false := by
      rw [failureValue_mentionsNul, told, tells]
      exact storable
    have hholds := run.claim_holds claim issued s found o valid.mem valid.heldBy.2
    have hallowed := completionAllowed_of_holds hholds (run.unmapped s found o valid.mem) ending
    have honce := run.ends_once found issued session.symm valid
    obtain ⟨r, s', hok⟩ :=
      completeOperation_succeeds run found valid honce hallowed result hstorable expiresAt httpStatus
    obtain ⟨_, e, -, -, -, -, -, hs'⟩ := Session.completeOperation_ok hok
    have hkeeps : s'.id = s.id := (congrArg (·.id) hs').trans (by cases expiresAt <;> rfl)
    have hoperations : s'.operations = _ :=
      (congrArg (·.operations) hs').trans (Session.operations_settled s clock _ _ _ e)
    have hterminal : status.terminal = true := mayComplete_terminal ending
    have hcall : (exec codec clock db call).1 = .completed r ∧
        s' ∈ (exec codec clock db call).2.sessions := by
      have hexec : exec codec clock db call = settle db .completed
          (db.transact claim.operation.sessionId 1 fun eventId s =>
            s.completeOperation clock eventId claim status result (some (failureValue failure))
              expiresAt httpStatus) := by
        simp [call, exec, Db.completeOperation, hterminal]
      rw [hexec]
      exact settle_ok hunique found session hkeeps hok
    refine ⟨fun error herror => (by cases hcall.1.symm.trans herror), ?_⟩
    refine ⟨s', hcall.2, hkeeps.trans session, ?_⟩
    rw [hoperations]
    exact ⟨_, Table.mem_update.mpr ⟨o, valid.mem, if_pos (by simpa using valid.id_eq)⟩,
      valid.id_eq, rfl, rfl, rfl, rfl⟩

/-- A report that the columns do not take is refused. -/
theorem FailureCall.refused (run : Run codec trace db) {code message : String} {call : StoreCall}
    (h : FailureCall trace db clock code message call) (refused : ¬Storable code message) :
    ¬Commits codec clock db call := by
  have hunique := run.registered.unique
  have hreport := mt (failureReport_mentionsNul code message).mp refused
  have refutes {call : StoreCall}
      (hfailed : (exec codec clock db call).1 = .failed (.database (.database "22P05"))) :
      ¬Commits codec clock db call :=
    fun commits => commits _ hfailed
  cases h with
  | handlerFailure issued found session valid retryAt blocked =>
    refine refutes (settle_error hunique found session ?_)
    simp only [Session.recordHandlerFailure, valid, jsonb_refused hreport]
  | abandoned issued found session valid retryAt =>
    refine refutes (settle_error hunique found session ?_)
    simp only [Session.abandonHandlerAttempt, valid, jsonb_refused hreport]
  | retried issued found session valid phase uncertain retryAt httpStatus =>
    have hholds := run.claim_holds _ issued _ found _ valid.mem valid.heldBy.2
    obtain ⟨status, hnext⟩ := retryStatus_of_holds hholds phase uncertain
    exact refutes (settle_error hunique found session
      (recordOperationRetry_refused valid hnext retryAt httpStatus hreport))
  | @blocked claim r issued valid =>
    have hblock : db.blockCallbackReceipt clock claim (failureReport code message) =
        .error (.database (.database "22P05")) := by
      simp only [Db.blockCallbackReceipt, valid, jsonb_refused hreport, bind, Except.bind]
    refine refutes ?_
    simp only [exec, hblock, settle]
  | completed issued found session valid status ending result failure told tells expiresAt
      httpStatus =>
    have hstorable : ¬(failureValue failure).mentionsNul = false := by
      rw [failureValue_mentionsNul, told, tells]
      exact refused
    have hholds := run.claim_holds _ issued _ found _ valid.mem valid.heldBy.2
    have hallowed := completionAllowed_of_holds hholds (run.unmapped _ found _ valid.mem) ending
    have hfails := completeOperation_refused valid hallowed db.nextUuid result hstorable expiresAt
      httpStatus
    refine refutes ?_
    simp only [exec, Db.completeOperation, mayComplete_terminal ending, Bool.not_true,
      Bool.false_eq_true, if_false]
    exact settle_error hunique found session hfails

/-- A failure is recorded exactly when no U+0000 stands in its code or message. -/
theorem failure_recorded (run : Run codec trace db) {code message : String} {call : StoreCall}
    (h : FailureCall trace db clock code message call) :
    (Commits codec clock db call ∧ Recorded (exec codec clock db call).2 call) ↔
      Storable code message := by
  refine ⟨fun recorded => ?_, h.recorded run⟩
  by_contra refused
  exact h.refused run refused recorded.1

end

/-! ## A handler that fails -/

/-- The claim of the event of a first turn. -/
def turnClaim : HandlerClaim :=
  { sessionId := 1, eventId := 0, attemptId := 2, leaseToken := 1, inputStateVersion := 0 }

/-- A first turn whose event is claimed. -/
def claimedTurn : List StoreCall := firstTurn.take 3

theorem claimedTurn_run :
    Run plainCodec (replay plainCodec stillClock claimedTurn).1
      (replay plainCodec stillClock claimedTurn).2 := by
  refine Run.replay fun n call hcall => ?_
  match n, hcall with
  | 0, rfl | 1, rfl | 2, rfl => exact .of_unclaimed rfl rfl rfl

theorem failure_recorded_claimedTurn :
    let db := (replay plainCodec stillClock claimedTurn).2
    let call : StoreCall :=
      .recordHandlerFailure turnClaim (failureReport "handler_error" "no answer") 5 false
    (Commits plainCodec stillClock db call ∧ Recorded (exec plainCodec stillClock db call).2 call) ↔
      Storable "handler_error" "no answer" :=
  failure_recorded claimedTurn_run
    (.handlerFailure (by decide) List.mem_cons_self rfl rfl 5 false)

/-- A message with U+0000 is refused, so the failed attempt is not counted and its lease runs out. -/
theorem failure_unrecorded :
    ¬∀ (trace : List Entry) (db : Db) (clock : Clock) (code message : String) (call : StoreCall),
      Run plainCodec trace db → FailureCall trace db clock code message call →
        Commits plainCodec clock db call := by
  intro recorded
  let db := (replay plainCodec stillClock claimedTurn).2
  have hcall : FailureCall (replay plainCodec stillClock claimedTurn).1 db stillClock
      "handler_error" "tool \x00 failed"
      (.recordHandlerFailure turnClaim (failureReport "handler_error" "tool \x00 failed") 5 false) :=
    .handlerFailure (by decide) List.mem_cons_self rfl rfl 5 false
  refine hcall.refused claimedTurn_run (fun storable => storable.2 (by decide)) ?_
  exact recorded _ _ _ _ _ _ claimedTurn_run hcall

end AgentPlatform.Runtime
