import AgentPlatform.Store.OperationInvariant

/-!
# The life of a callback receipt

What one call can make of a receipt, and which operation carries the gateway job that it names. A
receipt waits, is claimed under a lease, is matched and ends once; the operation of a job is found
by every later call when one call has found it.
-/

namespace AgentPlatform.Store

open Fallible

/-! ## One receipt -/

/-- The claim is the one that holds the receipt. -/
structure CallbackReceiptRow.HeldBy (r : CallbackReceiptRow) (claim : ClaimedCallbackReceipt) :
    Prop where
  id : claim.receipt.id = r.id
  token : r.lease.map (·.token) = some claim.leaseToken

/-- What a call makes of a receipt. -/
inductive ReceiptStep (db : Db) (clock : Clock) :
    StoreCall → Reply → CallbackReceiptRow → CallbackReceiptRow → Prop
  | same {call : StoreCall} {reply : Reply} (r : CallbackReceiptRow) :
      ReceiptStep db clock call reply r r
  | claimed {locked leaseFor} {claim : ClaimedCallbackReceipt} {r : CallbackReceiptRow}
      (expiresAt : Timestamp) (claimable : r.claimable clock = true)
      (own : claim.receipt.id = r.id) :
      ReceiptStep db clock (.claimCallbackReceipt locked leaseFor) (.claimedReceipt (some claim)) r
        { r with status := .processing, lease := some { token := claim.leaseToken, expiresAt } }
  | matched {claim retryAt id} {r : CallbackReceiptRow} (held : r.HeldBy claim)
      (found : db.operationOfJob r.gatewayConnectionId r.gatewayJobId = some id) :
      ReceiptStep db clock (.matchCallbackReceipt claim retryAt) (.matched (some id)) r
        { r with operationId := some id, nextAttemptAt := retryAt }
  | unmatched {claim retryAt} {r : CallbackReceiptRow} (held : r.HeldBy claim)
      (missing : db.operationOfJob r.gatewayConnectionId r.gatewayJobId = none) :
      ReceiptStep db clock (.matchCallbackReceipt claim retryAt) (.matched none) r
        { r with operationId := none, nextAttemptAt := retryAt, status := .pending, lease := none }
  | completed {claim} {r : CallbackReceiptRow} (held : r.HeldBy claim) :
      ReceiptStep db clock (.completeCallbackReceipt claim) .done r
        { r with status := .processed, processedAt := some clock.now, lease := none }
  | blocked {claim error} {r : CallbackReceiptRow} (held : r.HeldBy claim) :
      ReceiptStep db clock (.blockCallbackReceipt claim error) .done r
        { r with status := .blocked, lastError := some error, lease := none }
  | blockedUnmatched {error} {r : CallbackReceiptRow} (pending : r.status = .pending)
      (missing : db.operationOfJob r.gatewayConnectionId r.gatewayJobId = none) :
      ReceiptStep db clock (.blockUnmatchedCallbackReceipt r.id error) .done r
        { r with status := .blocked, lastError := some error }
  | renewed {claim leaseFor} {r : CallbackReceiptRow} {lease : Lease} (expiresAt : Timestamp)
      (held : r.HeldBy claim) (leased : r.lease = some lease) :
      ReceiptStep db clock (.renewCallbackReceiptClaim claim leaseFor) .done r
        { r with lease := some { lease with expiresAt } }
  | retried {claim retryAt error} {r : CallbackReceiptRow} (held : r.HeldBy claim) :
      ReceiptStep db clock (.retryCallbackReceipt claim retryAt error) .done r
        { r with status := .pending, nextAttemptAt := retryAt, lastError := some error, lease := none }

/-- A receipt that has ended. -/
def CallbackReceiptRow.Settled (r : CallbackReceiptRow) : Prop :=
  r.status = .processed ∨ r.status = .blocked

/-- A receipt that agrees with its status and with the operations of the database. -/
structure CallbackReceiptRow.Sound (r : CallbackReceiptRow) (db : Db) : Prop where
  leased : r.lease.isSome = true ↔ r.status = .processing
  matched : ∀ id, r.operationId = some id →
    db.operationOfJob r.gatewayConnectionId r.gatewayJobId = some id

/-- What later calls leave of a receipt: what was delivered, its end, and its operation. -/
structure CallbackReceiptRow.Later (r r' : CallbackReceiptRow) : Prop where
  id : r'.id = r.id
  connection : r'.gatewayConnectionId = r.gatewayConnectionId
  event : r'.gatewayEventId = r.gatewayEventId
  job : r'.gatewayJobId = r.gatewayJobId
  payload : r'.payload = r.payload
  ended : r.Settled → r' = r
  operation : ∀ id, r.operationId = some id → r'.operationId = some id

theorem CallbackReceiptRow.Later.refl (r : CallbackReceiptRow) : r.Later r :=
  ⟨rfl, rfl, rfl, rfl, rfl, fun _ => rfl, fun _ h => h⟩

theorem CallbackReceiptRow.Later.trans {r r' r'' : CallbackReceiptRow} (h : r.Later r')
    (h' : r'.Later r'') : r.Later r'' where
  id := h'.id.trans h.id
  connection := h'.connection.trans h.connection
  event := h'.event.trans h.event
  job := h'.job.trans h.job
  payload := h'.payload.trans h.payload
  ended settled := by
    have heq := h.ended settled
    rw [heq] at h'
    exact h'.ended settled
  operation id hid := h'.operation id (h.operation id hid)

theorem CallbackReceiptRow.claimable_status {r : CallbackReceiptRow} {clock : Clock}
    (h : r.claimable clock = true) : r.status = .pending ∨ r.status = .processing := by
  simp only [CallbackReceiptRow.claimable, Bool.and_eq_true, Bool.or_eq_true,
    decide_eq_true_eq] at h
  exact h.1.1

/-- A held receipt is processing, so it has not ended. -/
theorem CallbackReceiptRow.HeldBy.status {r : CallbackReceiptRow} {claim : ClaimedCallbackReceipt}
    (held : r.HeldBy claim) {db : Db} (sound : r.Sound db) : r.status = .processing := by
  apply sound.leased.mp
  have htoken := held.token
  cases hlease : r.lease with
  | none =>
    rw [hlease] at htoken
    cases htoken
  | some lease => rfl

theorem CallbackReceiptRow.not_settled {r : CallbackReceiptRow}
    (h : r.status = .pending ∨ r.status = .processing) : ¬ r.Settled := by
  intro settled
  rcases h with h | h <;> rcases settled with h' | h' <;> cases h.symm.trans h'

namespace ReceiptStep

variable {db : Db} {clock : Clock} {call : StoreCall} {reply : Reply} {r r' : CallbackReceiptRow}

/-- A step takes back neither what was delivered, nor an end, nor an operation. -/
theorem later (step : ReceiptStep db clock call reply r r') (sound : r.Sound db) : r.Later r' := by
  cases step with
  | same => exact .refl r
  | claimed expiresAt claimable own =>
    have hopen := CallbackReceiptRow.not_settled (CallbackReceiptRow.claimable_status claimable)
    exact ⟨rfl, rfl, rfl, rfl, rfl, fun h => absurd h hopen, fun _ h => h⟩
  | matched held found =>
    have hopen := CallbackReceiptRow.not_settled (.inr (held.status sound))
    refine ⟨rfl, rfl, rfl, rfl, rfl, fun h => absurd h hopen, fun id hid => ?_⟩
    exact found.symm.trans (sound.matched id hid)
  | unmatched held missing =>
    have hopen := CallbackReceiptRow.not_settled (.inr (held.status sound))
    refine ⟨rfl, rfl, rfl, rfl, rfl, fun h => absurd h hopen, fun id hid => ?_⟩
    exact missing.symm.trans (sound.matched id hid)
  | completed held | blocked held | retried held | renewed _ held =>
    have hopen := CallbackReceiptRow.not_settled (.inr (held.status sound))
    exact ⟨rfl, rfl, rfl, rfl, rfl, fun h => absurd h hopen, fun _ h => h⟩
  | blockedUnmatched pending missing =>
    have hopen := CallbackReceiptRow.not_settled (.inl pending)
    exact ⟨rfl, rfl, rfl, rfl, rfl, fun h => absurd h hopen, fun _ h => h⟩

/-- A step keeps a receipt sound, in a database that finds the operations of jobs still. -/
theorem sound (step : ReceiptStep db clock call reply r r') (sound : r.Sound db) {db' : Db}
    (finds : ∀ connection jobId id, db.operationOfJob connection jobId = some id →
      db'.operationOfJob connection jobId = some id) : r'.Sound db' := by
  have kept : ∀ id, r.operationId = some id →
      db'.operationOfJob r.gatewayConnectionId r.gatewayJobId = some id :=
    fun id hid => finds _ _ id (sound.matched id hid)
  cases step with
  | same => exact ⟨sound.leased, kept⟩
  | claimed expiresAt claimable own => exact ⟨⟨fun _ => rfl, fun _ => rfl⟩, kept⟩
  | matched held found =>
    refine ⟨sound.leased, fun id hid => ?_⟩
    cases hid
    exact finds _ _ _ found
  | unmatched held missing =>
    refine ⟨⟨fun h => ?_, fun h => ?_⟩, fun id hid => ?_⟩
    · cases h
    · cases h
    · cases hid
  | completed held | blocked held | retried held =>
    refine ⟨⟨?_, ?_⟩, kept⟩ <;> intro h <;> cases h
  | blockedUnmatched pending missing =>
    refine ⟨⟨fun h => ?_, fun h => ?_⟩, kept⟩
    · have hprocessing := sound.leased.mp h
      cases pending.symm.trans hprocessing
    · cases h
  | renewed expiresAt held leased =>
    refine ⟨⟨fun _ => ?_, fun _ => rfl⟩, kept⟩
    exact held.status sound

end ReceiptStep

/-! ## All receipts -/

/-- A receipt as it is first received. -/
structure CallbackReceiptRow.Received (r : CallbackReceiptRow) (db : Db) : Prop where
  id : r.id = db.nextUuid
  new : ∀ r₀ ∈ db.receipts, r₀.gatewayConnectionId = r.gatewayConnectionId →
    r₀.gatewayEventId ≠ r.gatewayEventId
  status : r.status = .pending
  lease : r.lease = none
  operation : r.operationId = none

/-- What a call makes of the receipts of a database. -/
inductive Db.ReceiptsStep (db : Db) (clock : Clock) (call : StoreCall) (reply : Reply) (db' : Db) :
    Prop
  | rewritten (g : CallbackReceiptRow → CallbackReceiptRow) (rows : db'.receipts = db.receipts.map g)
      (steps : ∀ r ∈ db.receipts, ReceiptStep db clock call reply r (g r))
  | received (r : CallbackReceiptRow) (rows : db'.receipts = db.receipts ++ [r])
      (uuids : db.nextUuid < db'.nextUuid) (received : r.Received db)

namespace Db.ReceiptsStep

variable {db db' : Db} {clock : Clock} {call : StoreCall} {reply : Reply}

theorem of_eq (h : db'.receipts = db.receipts) : db.ReceiptsStep clock call reply db' :=
  .rewritten id (by rw [h, List.map_id]) fun r _ => .same r

theorem forward (step : db.ReceiptsStep clock call reply db') {r : CallbackReceiptRow}
    (hr : r ∈ db.receipts) : ∃ r' ∈ db'.receipts, ReceiptStep db clock call reply r r' := by
  cases step with
  | rewritten g rows steps => exact ⟨g r, rows ▸ List.mem_map_of_mem hr, steps r hr⟩
  | received new rows => exact ⟨r, rows ▸ List.mem_append_left _ hr, .same r⟩

theorem back (step : db.ReceiptsStep clock call reply db') {r' : CallbackReceiptRow}
    (hr' : r' ∈ db'.receipts) :
    (∃ r ∈ db.receipts, ReceiptStep db clock call reply r r') ∨
      r'.Received db ∧ db.nextUuid < db'.nextUuid := by
  cases step with
  | rewritten g rows steps =>
    rw [rows] at hr'
    obtain ⟨r, hr, rfl⟩ := List.mem_map.mp hr'
    exact .inl ⟨r, hr, steps r hr⟩
  | received new rows uuids received =>
    rw [rows] at hr'
    rcases List.mem_append.mp hr' with hold | hnew
    · exact .inl ⟨r', hold, .same r'⟩
    · rw [List.mem_singleton.mp hnew]
      exact .inr ⟨received, uuids⟩

/-- A call that rewrites the receipt of an id. -/
theorem of_update {id : Uuid} {f : CallbackReceiptRow → CallbackReceiptRow}
    (rows : db'.receipts = (db.updateReceipt id f).receipts)
    (steps : ∀ r ∈ db.receipts, r.id = id → ReceiptStep db clock call reply r (f r)) :
    db.ReceiptsStep clock call reply db' := by
  refine .rewritten (fun r => if r.id = id then f r else r) ?_ fun r hr => ?_
  · rw [rows]
    simp [Db.updateReceipt, Table.update]
  · split
    next hid => exact steps r hr hid
    · exact .same r

end Db.ReceiptsStep

section

variable {codec : Codec} {clock : Clock} {db : Db} {claim : ClaimedCallbackReceipt}

/-- A valid claim holds the receipt that it locks. -/
theorem Db.held_of_lock {r : CallbackReceiptRow}
    (h : db.lockValidCallbackClaim clock claim = .ok r) : r ∈ db.receipts ∧ r.HeldBy claim := by
  have hfound := Db.lockValidCallbackClaim_ok h
  refine ⟨List.mem_of_find?_eq_some hfound, ?_, ?_⟩
  · have hid := List.find?_some hfound
    exact (of_decide_eq_true hid).symm
  · simp only [Db.lockValidCallbackClaim, hfound] at h
    split at h
    · cases h
    next lease hlease =>
      split at h
      · cases h
      next hvalid =>
        rw [not_or, not_not] at hvalid
        rw [hlease, Option.map_some, hvalid.1]

/-- A call under a claim rewrites the receipt that the claim holds. -/
theorem Db.ReceiptsStep.of_held {db' : Db} {call : StoreCall} {reply : Reply}
    {r : CallbackReceiptRow} (f : CallbackReceiptRow → CallbackReceiptRow)
    (unique : (db.receipts.map (·.id)).Nodup)
    (hlock : db.lockValidCallbackClaim clock claim = .ok r)
    (rows : db'.receipts = (db.updateReceipt claim.receipt.id f).receipts)
    (step : r.HeldBy claim → ReceiptStep db clock call reply r (f r)) :
    db.ReceiptsStep clock call reply db' := by
  obtain ⟨hr, held⟩ := Db.held_of_lock hlock
  refine .of_update rows fun r' hr' hid => ?_
  cases Table.eq_of_key unique hr' hr (hid.trans held.id)
  exact step held

/-- A call that transacts on a session leaves the receipts. -/
theorem Db.ReceiptsStep.transact {α : Type} {call : StoreCall} {reply : α → Reply} {id : SessionId}
    {draws : Nat} {body : Uuid → Session → Result (α × Session)} {reply' : Reply} :
    db.ReceiptsStep clock call reply' (settle db reply (db.transact id draws body)).2 := by
  cases hresult : db.transact id draws body with
  | error error => exact .of_eq rfl
  | ok result =>
    obtain ⟨a, db'⟩ := result
    obtain ⟨s, s', hs, hid, hbody, rfl⟩ := Db.transact_ok hresult
    exact .of_eq rfl

theorem exec_recordCallbackReceipt (connection : GatewayConnectionId)
    (gatewayEventId gatewayJobId : Uuid) (payload : RawJson) :
    db.ReceiptsStep clock (.recordCallbackReceipt connection gatewayEventId gatewayJobId payload)
      (exec codec clock db
        (.recordCallbackReceipt connection gatewayEventId gatewayJobId payload)).1
      (exec codec clock db
        (.recordCallbackReceipt connection gatewayEventId gatewayJobId payload)).2 := by
  simp only [exec, Db.recordCallbackReceipt]
  split
  · split <;> exact .of_eq rfl
  next hnone =>
    refine .received _ rfl (Nat.lt_succ_self _) ⟨rfl, ?_, rfl, rfl, rfl⟩
    intro r₀ hr₀ hconnection hevent
    have hnot := List.find?_eq_none.mp hnone r₀ hr₀
    simp only [Bool.and_eq_true, decide_eq_true_eq] at hnot
    exact hnot ⟨hconnection, hevent⟩

theorem exec_claimCallbackReceipt (unique : (db.receipts.map (·.id)).Nodup)
    (locked : Uuid → Bool) (leaseFor : Nat) :
    db.ReceiptsStep clock (.claimCallbackReceipt locked leaseFor)
      (exec codec clock db (.claimCallbackReceipt locked leaseFor)).1
      (exec codec clock db (.claimCallbackReceipt locked leaseFor)).2 := by
  simp only [exec, Db.claimCallbackReceipt]
  split
  · exact .of_eq rfl
  next r hfirst =>
    split
    · exact .of_eq rfl
    next leaseMs hlease =>
      obtain ⟨hr, hclaimable⟩ := List.mem_filter.mp (Table.firstBy_mem hfirst)
      rw [Bool.and_eq_true] at hclaimable
      refine .of_update rfl fun r' hr' hid => ?_
      cases Table.eq_of_key unique hr' hr hid
      exact .claimed _ hclaimable.1 rfl

theorem exec_matchCallbackReceipt (unique : (db.receipts.map (·.id)).Nodup)
    (retryAt : Timestamp) :
    db.ReceiptsStep clock (.matchCallbackReceipt claim retryAt)
      (exec codec clock db (.matchCallbackReceipt claim retryAt)).1
      (exec codec clock db (.matchCallbackReceipt claim retryAt)).2 := by
  simp only [exec]
  cases hresult : db.matchCallbackReceipt clock claim retryAt with
  | error error => exact .of_eq rfl
  | ok result =>
    obtain ⟨r, hlock, hrest⟩ := bind_ok hresult
    cases hrest
    refine .of_held _ unique hlock rfl fun held => ?_
    dsimp only [settle]
    cases hfound : db.operationOfJob r.gatewayConnectionId r.gatewayJobId with
    | none => exact .unmatched held hfound
    | some id => exact .matched held hfound

theorem exec_blockUnmatchedCallbackReceipt (receiptId : Uuid) (error : Value) :
    db.ReceiptsStep clock (.blockUnmatchedCallbackReceipt receiptId error)
      (exec codec clock db (.blockUnmatchedCallbackReceipt receiptId error)).1
      (exec codec clock db (.blockUnmatchedCallbackReceipt receiptId error)).2 := by
  simp only [exec]
  cases hresult : db.blockUnmatchedCallbackReceipt receiptId error with
  | error error => exact .of_eq rfl
  | ok result =>
    obtain ⟨-, -, hrest⟩ := bind_ok hresult
    cases hrest
    refine .of_update rfl fun r hr hid => ?_
    subst hid
    split
    next hguard =>
      simp only [Bool.and_eq_true, decide_eq_true_eq, Option.isNone_iff_eq_none] at hguard
      exact .blockedUnmatched hguard.1.1 hguard.2
    · exact .same r

theorem exec_renewCallbackReceiptClaim (unique : (db.receipts.map (·.id)).Nodup)
    (leaseFor : Nat) :
    db.ReceiptsStep clock (.renewCallbackReceiptClaim claim leaseFor)
      (exec codec clock db (.renewCallbackReceiptClaim claim leaseFor)).1
      (exec codec clock db (.renewCallbackReceiptClaim claim leaseFor)).2 := by
  simp only [exec]
  cases hresult : db.renewCallbackReceiptClaim clock claim leaseFor with
  | error error => exact .of_eq rfl
  | ok result =>
    obtain ⟨r, hlock, hrest⟩ := bind_ok hresult
    obtain ⟨leaseMs, -, hrest⟩ := bind_ok hrest
    cases hrest
    refine .of_held _ unique hlock rfl fun held => ?_
    have htoken := held.token
    cases hlease : r.lease with
    | none =>
      rw [hlease] at htoken
      cases htoken
    | some lease =>
      simp only [Option.map_some]
      exact .renewed _ held hlease

/-- What any call does to the receipts of a database whose receipts have different ids. -/
theorem exec_receipts (codec : Codec) (clock : Clock) (unique : (db.receipts.map (·.id)).Nodup)
    (call : StoreCall) :
    db.ReceiptsStep clock call (exec codec clock db call).1 (exec codec clock db call).2 := by
  cases call with
  | recordCallbackReceipt connection gatewayEventId gatewayJobId payload =>
    exact exec_recordCallbackReceipt connection gatewayEventId gatewayJobId payload
  | claimCallbackReceipt locked leaseFor => exact exec_claimCallbackReceipt unique locked leaseFor
  | matchCallbackReceipt claim retryAt => exact exec_matchCallbackReceipt unique retryAt
  | blockUnmatchedCallbackReceipt receiptId error =>
    exact exec_blockUnmatchedCallbackReceipt receiptId error
  | renewCallbackReceiptClaim claim leaseFor => exact exec_renewCallbackReceiptClaim unique leaseFor
  | completeCallbackReceipt claim =>
    simp only [exec]
    cases hresult : db.completeCallbackReceipt clock claim with
    | error error => exact .of_eq rfl
    | ok result =>
      obtain ⟨r, hlock, hrest⟩ := bind_ok hresult
      cases hrest
      refine .of_held
        (fun r => { r with
          status := .processed, processedAt := some clock.now, lease := none }) unique hlock ?_ ?_
      · cases r.operationId <;> rfl
      · exact .completed
  | blockCallbackReceipt claim error =>
    simp only [exec]
    cases hresult : db.blockCallbackReceipt clock claim error with
    | error error => exact .of_eq rfl
    | ok result =>
      obtain ⟨r, hlock, hrest⟩ := bind_ok hresult
      obtain ⟨-, -, hrest⟩ := bind_ok hrest
      cases hrest
      exact .of_held _ unique hlock rfl .blocked
  | retryCallbackReceipt claim retryAt error =>
    simp only [exec]
    cases hresult : db.retryCallbackReceipt clock claim retryAt error with
    | error error => exact .of_eq rfl
    | ok result =>
      obtain ⟨r, hlock, hrest⟩ := bind_ok hresult
      obtain ⟨-, -, hrest⟩ := bind_ok hrest
      cases hrest
      exact .of_held _ unique hlock rfl .retried
  | createSession session =>
    apply Db.ReceiptsStep.of_eq
    simp only [exec, Db.createSession]
    split
    · rfl
    · split <;> rfl
  | patchSessionMetadata | renewEventClaim | recordHandlerFailure | abandonHandlerAttempt
  | commitHandlerOutcome | retryBlockedEvent | deferOperation | recordOperationRetry
  | recordOperationPendingResult | pruneUpdates => exact .transact
  | recordOperationAccepted claim jobId checkAt httpStatus =>
    simp only [exec, Db.recordOperationAccepted]
    exact .transact
  | enqueueExternalEvent input =>
    simp only [exec, Db.enqueueExternalEvent]
    split
    · exact .transact
    · exact .of_eq rfl
  | claimNextEvent locked leaseFor =>
    simp only [exec, Db.claimNextEvent]
    split
    · exact .of_eq rfl
    · split
      · exact .of_eq rfl
      · exact .transact
  | resolveWait waitId =>
    simp only [exec, Db.resolveWait]
    split
    · exact .of_eq rfl
    · exact .transact
  | expireWait waitId =>
    simp only [exec, Db.expireWait]
    split
    · exact .of_eq rfl
    · exact .transact
  | claimOperation locked phase leaseFor =>
    simp only [exec, Db.claimOperation]
    split
    · exact .of_eq rfl
    · split
      · exact .of_eq rfl
      · exact .transact
  | renewOperationClaim claim leaseFor =>
    simp only [exec, Db.renewOperationClaim]
    split
    · exact .of_eq rfl
    · exact .transact
  | completeWithdrawal claim expiresAt =>
    simp only [exec, Db.completeWithdrawal]
    split
    · exact .of_eq rfl
    · split
      · exact .of_eq rfl
      · exact .transact
  | completeOperation claim status =>
    simp only [exec, Db.completeOperation]
    split
    · exact .of_eq rfl
    · exact .transact
  | deleteExpiredOperationRequest locked id =>
    simp only [exec, Db.deleteExpiredOperationRequest]
    split
    · exact .of_eq rfl
    · split
      · exact .of_eq rfl
      · exact .transact

end

end AgentPlatform.Store
