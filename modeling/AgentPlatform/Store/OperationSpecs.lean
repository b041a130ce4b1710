import AgentPlatform.Lib.Fallible
import AgentPlatform.Store.InboxRefines

/-!
# What the operation transactions do

For each transaction on an operation, the facts that its success gives: the claim holds the
operation, the guards passed, and the session it leaves, up to its update log.
-/

namespace AgentPlatform.Store

open Fallible

/-- The claim carries the lease token of operation `o`, and the lease has not run out. -/
structure Session.HoldsOperation (s : Session) (clock : Clock) (claim : ClaimedOperation)
    (o : OperationRow) : Prop where
  found : s.operations.find? (·.id = claim.operation.id) = some o
  leased : ∃ lease, o.lease = some lease ∧ lease.token = claim.leaseToken ∧
    clock.reading 0 < lease.expiresAt

theorem Session.HoldsOperation.id_eq {s : Session} {clock : Clock} {claim : ClaimedOperation}
    {o : OperationRow} (held : s.HoldsOperation clock claim o) : o.id = claim.operation.id := by
  simpa using List.find?_some held.found

theorem Session.HoldsOperation.mem {s : Session} {clock : Clock} {claim : ClaimedOperation}
    {o : OperationRow} (held : s.HoldsOperation clock claim o) : o ∈ s.operations :=
  List.mem_of_find?_eq_some held.found

/-- What a lock reads off its operation. -/
def OperationRow.lock (o : OperationRow) : OperationLock :=
  { status := o.status, gatewayJobId := o.gatewayJobId, hasError := o.error.isSome }

theorem Session.lockValidOperationClaim_ok {s : Session} {clock : Clock} {claim : ClaimedOperation}
    {current : OperationLock} (h : s.lockValidOperationClaim clock claim = .ok current) :
    ∃ o, s.HoldsOperation clock claim o ∧ current = o.lock := by
  unfold Session.lockValidOperationClaim at h
  split at h
  · cases h
  · rename_i o hfound
    split at h
    · cases h
    · rename_i lease hlease
      split at h
      · cases h
      · rename_i hvalid
        cases h
        simp only [not_or, Decidable.not_not, not_le] at hvalid
        exact ⟨o, ⟨hfound, lease, hlease, hvalid.1, hvalid.2⟩, rfl⟩

theorem Db.lockValidCallbackClaim_ok {db : Db} {clock : Clock} {claim : ClaimedCallbackReceipt}
    {r : CallbackReceiptRow} (h : db.lockValidCallbackClaim clock claim = .ok r) :
    db.receipts.find? (·.id = claim.receipt.id) = some r := by
  unfold Db.lockValidCallbackClaim at h
  split at h
  · cases h
  · rename_i hfound
    split at h
    · cases h
    · split at h
      · cases h
      · cases h
        exact hfound

/-- The session after a worker's record, before its updates. -/
def Session.recorded (s : Session) (claim : ClaimedOperation) (f : OperationRow → OperationRow)
    (g : OperationAttemptRow → OperationAttemptRow) : Session :=
  (s.updateOperations (·.id = claim.operation.id) f).updateOperationAttempts claim.ends g

theorem Session.finishOperationAttempt_ok {s s' : Session} {clock : Clock}
    {claim : ClaimedOperation} {status : OperationAttemptStatus} {httpStatus : Option Int}
    {error : Option Value}
    (h : s.finishOperationAttempt clock claim status httpStatus error = .ok s') :
    s.operationAttempts.countP claim.ends = 1 ∧
      s' = s.updateOperationAttempts claim.ends fun a =>
        { a with status, httpStatus, error, finishedAt := some clock.now } := by
  unfold Session.finishOperationAttempt at h
  split at h
  · cases h
  · rename_i hcount
    cases h
    exact ⟨by simpa using hcount, rfl⟩

theorem Session.recordAttempt_ok {s s' : Session} {clock : Clock} {claim : ClaimedOperation}
    {f : OperationRow → OperationRow} {status : OperationAttemptStatus} {httpStatus : Option Int}
    {error : Option Value} (h : s.recordAttempt clock claim f status httpStatus error = .ok s') :
    s.operationAttempts.countP claim.ends = 1 ∧
      s' = s.recorded claim (fun o => { f o with lease := none }) fun a =>
        { a with status, httpStatus, error, finishedAt := some clock.now } :=
  Session.finishOperationAttempt_ok h

theorem Session.deferOperation_ok {s s' : Session} {clock : Clock} {claim : ClaimedOperation}
    {retryAt : Timestamp} {r : Unit} (h : s.deferOperation clock claim retryAt = .ok (r, s')) :
    ∃ o, s.HoldsOperation clock claim o ∧
      (claim.phase = .submission ∨ claim.phase = .cancellation) ∧ o.status = .submitting ∧
      s.operationAttempts.countP claim.ends = 1 ∧
      s' = (s.recorded claim
        (fun o =>
          { o with status := .pending, nextAttemptAt := retryAt, error := none, lease := none })
        fun a =>
          { a with
            status := .succeeded, httpStatus := none, error := none
            finishedAt := some clock.now }).announceOperation clock claim.operation.id := by
  obtain ⟨current, hlock, h⟩ := bind_ok h
  obtain ⟨o, hheld, rfl⟩ := Session.lockValidOperationClaim_ok hlock
  split at h
  · cases h
  · rename_i hguard
    obtain ⟨s₁, hrecord, h⟩ := bind_ok h
    obtain ⟨hcount, rfl⟩ := Session.recordAttempt_ok hrecord
    cases h
    simp only [not_or, not_and_or, Decidable.not_not] at hguard
    exact ⟨o, hheld, hguard.1, hguard.2, hcount, rfl⟩

theorem Session.recordOperationAccepted_ok {s s' : Session} {clock : Clock}
    {taken : Option GatewayConnectionId → Uuid → Bool} {claim : ClaimedOperation}
    {gatewayJobId : Uuid} {resultCheckAt : Timestamp} {httpStatus : Option Int} {r : Unit}
    (h : s.recordOperationAccepted clock taken claim gatewayJobId resultCheckAt httpStatus =
      .ok (r, s')) :
    ∃ o, s.HoldsOperation clock claim o ∧ claim.phase = .submission ∧ o.status = .submitting ∧
      o.gatewayJobId = none ∧ s.operationAttempts.countP claim.ends = 1 ∧
      s' = (s.recorded claim
        (fun o =>
          { o with
            status := .accepted, gatewayJobId := some gatewayJobId
            submittedAt := some clock.now, error := none, nextAttemptAt := resultCheckAt
            lease := none })
        fun a =>
          { a with
            status := .succeeded, httpStatus, error := none
            finishedAt := some clock.now }).announceOperation clock claim.operation.id := by
  obtain ⟨current, hlock, h⟩ := bind_ok h
  obtain ⟨o, hheld, rfl⟩ := Session.lockValidOperationClaim_ok hlock
  split at h
  · cases h
  · rename_i hguard
    split at h
    · cases h
    · obtain ⟨s₁, hrecord, h⟩ := bind_ok h
      obtain ⟨hcount, rfl⟩ := Session.recordAttempt_ok hrecord
      cases h
      simp only [not_or, Decidable.not_not, OperationRow.lock] at hguard
      exact ⟨o, hheld, hguard.1, hguard.2.1, Option.not_isSome_iff_eq_none.mp hguard.2.2, hcount,
        rfl⟩

theorem Session.renewOperationClaim_ok {s s' : Session} {clock : Clock} {claim : ClaimedOperation}
    {leaseFor : Nat} {r : Unit} (h : s.renewOperationClaim clock claim leaseFor = .ok (r, s')) :
    ∃ o leaseMs, s.HoldsOperation clock claim o ∧
      s' = s.updateOperations (·.id = claim.operation.id) fun o =>
        { o with
          lease := o.lease.map fun lease =>
            { lease with expiresAt := clock.after 1 leaseMs } } := by
  obtain ⟨current, hlock, h⟩ := bind_ok h
  obtain ⟨o, hheld, rfl⟩ := Session.lockValidOperationClaim_ok hlock
  obtain ⟨leaseMs, -, h⟩ := bind_ok h
  cases h
  exact ⟨o, leaseMs, hheld, rfl⟩

theorem Session.recordOperationRetry_ok {s s' : Session} {clock : Clock} {claim : ClaimedOperation}
    {uncertain : Bool} {retryAt : Timestamp} {httpStatus : Option Int} {error : Value} {r : Unit}
    (h : s.recordOperationRetry clock claim uncertain retryAt httpStatus error = .ok (r, s')) :
    ∃ o status, s.HoldsOperation clock claim o ∧
      retryStatus claim.phase o.status uncertain = some status ∧
      s.operationAttempts.countP claim.ends = 1 ∧
      s' = (s.recorded claim
        (fun o =>
          { o with status, nextAttemptAt := retryAt, error := some error, lease := none })
        fun a =>
          { a with
            status := if uncertain then .unknown else .failed, httpStatus, error := some error
            finishedAt := some clock.now }).announceOperation clock claim.operation.id := by
  obtain ⟨current, hlock, h⟩ := bind_ok h
  obtain ⟨o, hheld, rfl⟩ := Session.lockValidOperationClaim_ok hlock
  split at h
  · cases h
  · rename_i status hstatus
    obtain ⟨-, -, h⟩ := bind_ok h
    obtain ⟨s₁, hrecord, h⟩ := bind_ok h
    obtain ⟨hcount, rfl⟩ := Session.recordAttempt_ok hrecord
    cases h
    exact ⟨o, status, hheld, hstatus, hcount, rfl⟩

theorem Session.recordOperationPendingResult_ok {s s' : Session} {clock : Clock}
    {claim : ClaimedOperation} {checkAgainAt : Timestamp} {httpStatus : Option Int} {r : Unit}
    (h : s.recordOperationPendingResult clock claim checkAgainAt httpStatus = .ok (r, s')) :
    ∃ o, s.HoldsOperation clock claim o ∧ claim.phase = .resultRetrieval ∧ o.status = .accepted ∧
      s.operationAttempts.countP claim.ends = 1 ∧
      s'.sansUpdates = (s.recorded claim
        (fun o => { o with nextAttemptAt := checkAgainAt, error := none, lease := none })
        fun a =>
          { a with
            status := .succeeded, httpStatus, error := none
            finishedAt := some clock.now }).sansUpdates := by
  obtain ⟨current, hlock, h⟩ := bind_ok h
  obtain ⟨o, hheld, rfl⟩ := Session.lockValidOperationClaim_ok hlock
  split at h
  · cases h
  · rename_i hguard
    obtain ⟨s₁, hrecord, h⟩ := bind_ok h
    obtain ⟨hcount, rfl⟩ := Session.recordAttempt_ok hrecord
    cases h
    simp only [not_or, Decidable.not_not] at hguard
    refine ⟨o, hheld, hguard.1, hguard.2, hcount, ?_⟩
    split <;> rfl

/-! ## Settling -/

/-- The session after an operation ends, its event inserted and counted. -/
def Session.settled (s : Session) (clock : Clock) (id : OperationId)
    (f : OperationRow → OperationRow) (requestExpiresAt : Option Timestamp) (e : EventRow) :
    Session :=
  let s := (s.updateOperations (·.id = id) f).expireRequest id requestExpiresAt
  { s with
    events := s.events ++ [e]
    nextEventSequence := s.nextEventSequence + 1
    updatedAt := clock.now }

@[simp] theorem Session.inbox_expireRequest (s : Session) (id : OperationId)
    (expiresAt : Option Timestamp) : (s.expireRequest id expiresAt).inbox = s.inbox := by
  cases expiresAt <;> rfl

@[simp] theorem Session.events_expireRequest (s : Session) (id : OperationId)
    (expiresAt : Option Timestamp) : (s.expireRequest id expiresAt).events = s.events :=
  congrArg Inbox.events (s.inbox_expireRequest id expiresAt)

@[simp] theorem Session.nextEventSequence_expireRequest (s : Session) (id : OperationId)
    (expiresAt : Option Timestamp) :
    (s.expireRequest id expiresAt).nextEventSequence = s.nextEventSequence :=
  congrArg Inbox.next (s.inbox_expireRequest id expiresAt)

theorem Session.operations_settled (s : Session) (clock : Clock) (id : OperationId)
    (f : OperationRow → OperationRow) (expiresAt : Option Timestamp) (e : EventRow) :
    (s.settled clock id f expiresAt e).operations = Table.update (·.id = id) f s.operations := by
  cases expiresAt <;> rfl

theorem Session.events_settled (s : Session) (clock : Clock) (id : OperationId)
    (f : OperationRow → OperationRow) (expiresAt : Option Timestamp) (e : EventRow) :
    (s.settled clock id f expiresAt e).events = s.events ++ [e] := by
  cases expiresAt <;> rfl

theorem Session.operationAttempts_settled (s : Session) (clock : Clock) (id : OperationId)
    (f : OperationRow → OperationRow) (expiresAt : Option Timestamp) (e : EventRow) :
    (s.settled clock id f expiresAt e).operationAttempts = s.operationAttempts := by
  cases expiresAt <;> rfl

theorem Session.settleOperation_ok {s s' : Session} {clock : Clock} {id : OperationId}
    {kind : OperationKind} {status : OperationStatus} {f : OperationRow → OperationRow}
    {requestExpiresAt : Option Timestamp} {eventId : EventId} {e : EventRow}
    (h : s.settleOperation clock id kind status f requestExpiresAt eventId = .ok (e, s')) :
    e = operationEvent clock eventId id kind status s.nextEventSequence ∧
      (∀ e' ∈ s.events, Session.eventsConflict e e' = false) ∧
      s' = s.settled clock id
        (fun o => { f o with status, completedAt := some clock.now, lease := none })
        requestExpiresAt e := by
  simp only [Session.settleOperation] at h
  split at h
  · cases h
  · rename_i hinsert
    obtain ⟨hfresh, rfl⟩ := Session.insertEvent_ok hinsert
    cases h
    refine ⟨?_, ?_, rfl⟩
    · rw [Session.nextEventSequence_expireRequest]
      rfl
    · rw [Session.events_expireRequest] at hfresh
      exact hfresh

theorem Session.completeOperation_ok {s s' : Session} {clock : Clock} {eventId : EventId}
    {claim : ClaimedOperation} {status : OperationStatus} {result : Option RawJson}
    {error : Option Value} {requestExpiresAt : Option Timestamp} {httpStatus : Option Int}
    {r : EventRecord}
    (h : s.completeOperation clock eventId claim status result error requestExpiresAt httpStatus =
      .ok (r, s')) :
    ∃ o e, s.HoldsOperation clock claim o ∧ completionAllowed claim.phase o.lock status = true ∧
      e = operationEvent clock eventId claim.operation.id claim.operation.kind status
        s.nextEventSequence ∧
      (∀ e' ∈ s.events, Session.eventsConflict e e' = false) ∧
      s.operationAttempts.countP claim.ends = 1 ∧
      s'.sansUpdates = ((s.settled clock claim.operation.id
          (fun o => { o with
            result, error, status, completedAt := some clock.now, lease := none })
          requestExpiresAt e).updateOperationAttempts claim.ends fun a =>
            { a with
              status := .succeeded, httpStatus, error := none
              finishedAt := some clock.now }).sansUpdates := by
  obtain ⟨current, hlock, h⟩ := bind_ok h
  obtain ⟨o, hheld, rfl⟩ := Session.lockValidOperationClaim_ok hlock
  split at h
  · cases h
  · rename_i hguard
    obtain ⟨-, -, h⟩ := bind_ok h
    obtain ⟨⟨e, s₁⟩, hsettle, h⟩ := bind_ok h
    obtain ⟨he, hfresh, rfl⟩ := Session.settleOperation_ok hsettle
    obtain ⟨s₂, hfinish, h⟩ := bind_ok h
    obtain ⟨hcount, rfl⟩ := Session.finishOperationAttempt_ok hfinish
    cases h
    refine ⟨o, e, hheld, by simpa using hguard, he, hfresh, ?_, rfl⟩
    cases requestExpiresAt <;> exact hcount

/-- What a withdrawal does to its target: nothing, or the target ends as cancelled. -/
theorem Session.withdrawTarget_ok {s s' : Session} {clock : Clock} {target : OperationRow}
    {requestExpiresAt : Option Timestamp} {eventId : EventId} {events : List EventRow}
    (h : s.withdrawTarget clock target requestExpiresAt eventId = .ok (events, s')) :
    (target.withdrawable = false ∧ events = [] ∧ s' = s) ∨
      (target.withdrawable = true ∧ ∃ e, events = [e] ∧
        e = operationEvent clock eventId target.id target.kind .cancelled s.nextEventSequence ∧
        (∀ e' ∈ s.events, Session.eventsConflict e e' = false) ∧
        s' = s.settled clock target.id
          (fun o => { o with status := .cancelled, completedAt := some clock.now, lease := none })
          requestExpiresAt e) := by
  simp only [Session.withdrawTarget] at h
  split at h
  · rename_i hwithdrawable
    split at h
    · cases h
    · rename_i hsettle
      cases h
      obtain ⟨he, hfresh, hs⟩ := Session.settleOperation_ok hsettle
      exact .inr ⟨hwithdrawable, _, rfl, he, hfresh, hs⟩
  · rename_i hwithdrawable
    cases h
    exact .inl ⟨by simpa using hwithdrawable, rfl, rfl⟩

theorem Session.completeWithdrawal_ok {s s' : Session} {clock : Clock} {eventId : EventId}
    {claim : ClaimedOperation} {targetId : OperationId} {requestExpiresAt : Option Timestamp}
    {r : Bool × List EventRecord}
    (h : s.completeWithdrawal clock eventId claim targetId requestExpiresAt = .ok (r, s')) :
    ∃ o target events s₁ e, s.HoldsOperation clock claim o ∧ o.status = .submitting ∧
      s.operations.find? (·.id = targetId) = some target ∧ r.1 = target.withdrawable ∧
      s.withdrawTarget clock target requestExpiresAt eventId = .ok (events, s₁) ∧
      e = operationEvent clock (eventId + 1) claim.operation.id .withdraw .succeeded
        s₁.nextEventSequence ∧
      (∀ e' ∈ s₁.events, Session.eventsConflict e e' = false) ∧
      s.operationAttempts.countP claim.ends = 1 ∧
      s'.sansUpdates = ((s₁.settled clock claim.operation.id
          (fun o => { o with
            result := some (withdrawalResult target.withdrawable), status := .succeeded
            completedAt := some clock.now, lease := none })
          requestExpiresAt e).updateOperationAttempts claim.ends fun a =>
            { a with
              status := .succeeded, httpStatus := none, error := none
              finishedAt := some clock.now }).sansUpdates := by
  obtain ⟨current, hlock, h⟩ := bind_ok h
  obtain ⟨o, hheld, rfl⟩ := Session.lockValidOperationClaim_ok hlock
  split at h
  · cases h
  · rename_i hstatus
    split at h
    · cases h
    · rename_i target htarget
      obtain ⟨⟨events, s₁⟩, hwithdraw, h⟩ := bind_ok h
      obtain ⟨⟨e, s₂⟩, hsettle, h⟩ := bind_ok h
      obtain ⟨s₃, hfinish, h⟩ := bind_ok h
      obtain ⟨he, hfresh, rfl⟩ := Session.settleOperation_ok hsettle
      obtain ⟨hcount, rfl⟩ := Session.finishOperationAttempt_ok hfinish
      cases h
      refine ⟨o, target, events, s₁, e, hheld, not_not.mp hstatus, htarget, rfl, hwithdraw, he,
        hfresh, ?_, ?_⟩
      · have hattempts : s₁.operationAttempts = s.operationAttempts := by
          rcases Session.withdrawTarget_ok hwithdraw with ⟨-, -, rfl⟩ | ⟨-, -, -, -, -, rfl⟩
          · rfl
          · cases requestExpiresAt <;> rfl
        rw [← hattempts]
        cases requestExpiresAt <;> exact hcount
      · rw [Session.sansUpdates_announceEvents]
        split <;> rfl

/-! ## Claiming -/

/-- The session after a claim, before its update. -/
def Session.claimedBy (s : Session) (id : OperationId) (lease : Lease) (a : OperationAttemptRow)
    (now : Timestamp) : Session :=
  let s := s.updateOperationAttempts (fun a => a.operationId = id && a.status = .running)
    fun a => { a with status := .unknown, finishedAt := some now }
  let s := s.updateOperations (·.id = id) (·.claimed lease)
  { s with operationAttempts := s.operationAttempts ++ [a] }

/-- A claim leaves the operation leased and submitting, and a running attempt under the lease token. -/
theorem Session.claimOperation_eq (s : Session) (clock : Clock) (o : OperationRow)
    (phase : OperationPhase) (leaseToken attemptId : Uuid) (leaseMs : Int) :
    let claimed := s.claimOperation clock o phase leaseToken attemptId leaseMs
    claimed.2.sansUpdates =
      (s.claimedBy o.id { token := leaseToken, expiresAt := clock.after 1 leaseMs }
        (.new clock attemptId o.id claimed.1.attemptNumber phase leaseToken)
        clock.now).sansUpdates := by
  simp only [Session.claimOperation]
  split <;> rfl

end AgentPlatform.Store
