import AgentPlatform.Store.Frames

/-!
# The life of an operation

An operation with its running attempts and its completion events, and what one call can make of it.
An operation waits, is submitted under a lease, may be accepted by the gateway, and ends once; what
every step keeps, and what no step takes back, is proved here of one operation at a time.
-/

namespace AgentPlatform.Store

/-! ## One operation -/

/-- An operation, the lease tokens of its running attempts, and the payloads of its completion
events. -/
structure OperationView where
  row : OperationRow
  running : List Uuid
  announced : List RawJson

/-- A row without the columns that only time a next attempt: when it is due, when its lease runs
out, and when its request was removed. -/
def OperationRow.essence (o : OperationRow) : OperationRow :=
  { o with
    nextAttemptAt := 0
    requestRemovedAt := none
    lease := o.lease.map fun lease => { lease with expiresAt := 0 } }

/-- The claim is the one that holds the operation. -/
structure OperationView.HeldBy (v : OperationView) (claim : ClaimedOperation) : Prop where
  id : claim.operation.id = v.row.id
  token : v.row.lease.map (·.token) = some claim.leaseToken

/-- The claim that is issued for an operation under the token `base`. -/
structure OperationRow.IssuedAs (o : OperationRow) (base : Uuid) (phase : OperationPhase)
    (claim : ClaimedOperation) : Prop where
  record : ∃ lease sessionId, claim.operation = (o.claimed lease).record sessionId
  phase : claim.phase = phase
  token : claim.leaseToken = base
  recovering : claim.recoveringUncertain = decide (o.status = .submitting)

/-- What a call makes of an operation. `base` is the first uuid that the call draws. -/
inductive OperationStep (base : Uuid) : StoreCall → Reply → OperationView → OperationView → Prop
  /-- The call is about something else, or only moves a time. -/
  | same {call : StoreCall} {reply : Reply} {v v' : OperationView}
      (row : v'.row.essence = v.row.essence) (running : v'.running = v.running)
      (announced : v'.announced = v.announced) : OperationStep base call reply v v'
  | claimed {locked phase leaseFor} {claim : ClaimedOperation} {v : OperationView} (lease : Lease)
      (eligible : phase.eligible v.row = true) (token : lease.token = base)
      (issued : v.row.IssuedAs base phase claim) :
      OperationStep base (.claimOperation locked phase leaseFor) (.claimedOperation (some claim)) v
        { v with row := v.row.claimed lease, running := [base] }
  | deferred {claim retryAt} {v : OperationView} (held : v.HeldBy claim)
      (phase : claim.phase = .submission ∨ claim.phase = .cancellation)
      (submitting : v.row.status = .submitting) :
      OperationStep base (.deferOperation claim retryAt) .done v
        { v with
          row := { v.row with
            status := .pending, nextAttemptAt := retryAt, error := none, lease := none }
          running := [] }
  | accepted {claim jobId checkAt httpStatus} {v : OperationView} (now : Timestamp)
      (held : v.HeldBy claim) (phase : claim.phase = .submission)
      (submitting : v.row.status = .submitting) (unmapped : v.row.gatewayJobId = none) :
      OperationStep base (.recordOperationAccepted claim jobId checkAt httpStatus) .done v
        { v with
          row := { v.row with
            status := .accepted, gatewayJobId := some jobId, submittedAt := some now
            error := none, nextAttemptAt := checkAt, lease := none }
          running := [] }
  | retried {claim uncertain retryAt httpStatus error} {v : OperationView} {status : OperationStatus}
      (held : v.HeldBy claim) (next : retryStatus claim.phase v.row.status uncertain = some status) :
      OperationStep base (.recordOperationRetry claim uncertain retryAt httpStatus error) .done v
        { v with
          row := { v.row with
            status, nextAttemptAt := retryAt, error := some error, lease := none }
          running := [] }
  | pendingResult {claim checkAgainAt httpStatus} {v : OperationView} (held : v.HeldBy claim)
      (accepted : v.row.status = .accepted) :
      OperationStep base (.recordOperationPendingResult claim checkAgainAt httpStatus) .done v
        { v with
          row := { v.row with nextAttemptAt := checkAgainAt, error := none, lease := none }
          running := [] }
  | completed {claim status result error expiresAt httpStatus reply} {v : OperationView}
      (now : Timestamp) (held : v.HeldBy claim) (terminal : status.terminal = true)
      (allowed : completionAllowed claim.phase v.row.lock status = true) :
      OperationStep base (.completeOperation claim status result error expiresAt httpStatus) reply v
        { row := { v.row with result, error, status, completedAt := some now, lease := none }
          running := []
          announced := v.announced ++ [operationPayload v.row.id v.row.kind status] }
  | withdrew {claim expiresAt reply} {v : OperationView} (now : Timestamp) (withdrawn : Bool)
      (held : v.HeldBy claim) (kind : v.row.kind = .withdraw)
      (submitting : v.row.status = .submitting) :
      OperationStep base (.completeWithdrawal claim expiresAt) reply v
        { row := { v.row with
            result := some (withdrawalResult withdrawn), status := .succeeded
            completedAt := some now, lease := none }
          running := []
          announced := v.announced ++ [operationPayload v.row.id .withdraw .succeeded] }
  /-- A withdrawal takes back its target. -/
  | withdrawn {claim expiresAt reply} {v : OperationView} (now : Timestamp)
      (target : claim.operation.targetOperationId = some v.row.id)
      (withdrawable : v.row.withdrawable = true) :
      OperationStep base (.completeWithdrawal claim expiresAt) reply v
        { row := { v.row with status := .cancelled, completedAt := some now, lease := none }
          running := v.running
          announced := v.announced ++ [operationPayload v.row.id v.row.kind .cancelled] }

/-! ## What every step keeps -/

/-- An operation whose lease, attempts and events agree with its status. -/
structure OperationView.Sound (v : OperationView) : Prop where
  /-- It is leased exactly when one attempt runs, under the same token. -/
  running : v.running = (v.row.lease.map (·.token)).toList
  leased : v.row.lease.isSome = true → v.row.status = .submitting ∨ v.row.status = .accepted
  /-- An accepted operation has its gateway job. -/
  accepted : v.row.status = .accepted → v.row.gatewayJobId.isSome = true
  key : v.row.gatewayIdempotencyKey = v.row.id.toText
  /-- It has a completion event exactly when it ended, and then one. -/
  announced : v.announced =
    if v.row.status.terminal then [operationPayload v.row.id v.row.kind v.row.status] else []

/-- What is never taken back: the end of an operation, and its gateway job. -/
structure OperationRow.Later (o o' : OperationRow) : Prop where
  id : o'.id = o.id
  ended : o.status.terminal = true →
    o'.status = o.status ∧ o'.result = o.result ∧ o'.error = o.error
  mapped : ∀ jobId, o.gatewayJobId = some jobId → o'.gatewayJobId = some jobId

theorem OperationRow.Later.refl (o : OperationRow) : o.Later o :=
  ⟨rfl, fun _ => ⟨rfl, rfl, rfl⟩, fun _ h => h⟩

theorem OperationRow.Later.trans {o o' o'' : OperationRow} (h : o.Later o') (h' : o'.Later o'') :
    o.Later o'' where
  id := h'.id.trans h.id
  ended hended := by
    obtain ⟨hstatus, hresult, herror⟩ := h.ended hended
    obtain ⟨hstatus', hresult', herror'⟩ := h'.ended (hstatus ▸ hended)
    exact ⟨hstatus'.trans hstatus, hresult'.trans hresult, herror'.trans herror⟩
  mapped jobId hjob := h'.mapped jobId (h.mapped jobId hjob)

/-- Rows of one essence agree on everything but times. -/
theorem OperationRow.essence_eq {o o' : OperationRow} (h : o'.essence = o.essence) :
    o'.id = o.id ∧ o'.kind = o.kind ∧ o'.effect = o.effect ∧ o'.status = o.status ∧
      o'.result = o.result ∧ o'.error = o.error ∧ o'.gatewayJobId = o.gatewayJobId ∧
      o'.lease.map (·.token) = o.lease.map (·.token) := by
  have token : ∀ o : OperationRow,
      o.essence.lease.map (·.token) = o.lease.map (·.token) := by
    intro o
    cases hlease : o.lease <;> simp [OperationRow.essence, hlease]
  exact ⟨congrArg (·.id) h, congrArg (·.kind) h, congrArg (·.effect) h, congrArg (·.status) h,
    congrArg (·.result) h, congrArg (·.error) h, congrArg (·.gatewayJobId) h,
    (token o').symm.trans ((congrArg (·.lease.map (·.token)) h).trans (token o))⟩

namespace OperationStep

variable {base : Uuid} {call : StoreCall} {reply : Reply} {v v' : OperationView}

/-- A held operation is leased, so it has not ended. -/
theorem held_status (sound : v.Sound) {claim : ClaimedOperation} (held : v.HeldBy claim) :
    v.row.status = .submitting ∨ v.row.status = .accepted := by
  refine sound.leased ?_
  have := held.token
  cases hlease : v.row.lease with
  | none => simp [hlease] at this
  | some lease => rfl

/-- A status that a retry leaves has not ended. -/
theorem retryStatus_some {phase : OperationPhase} {status status' : OperationStatus}
    {uncertain : Bool} (h : retryStatus phase status uncertain = some status') :
    (status = .submitting ∧ (status' = .submitting ∨ status' = .pending)) ∨
      (status = .accepted ∧ status' = .accepted) := by
  unfold retryStatus at h
  split at h
  · cases h
    exact .inl ⟨rfl, by cases uncertain <;> simp⟩
  · cases h
    exact .inl ⟨rfl, by cases uncertain <;> simp⟩
  · cases h
    exact .inr ⟨rfl, rfl⟩
  · cases h

theorem eligible_status {phase : OperationPhase} {o : OperationRow} (h : phase.eligible o = true) :
    o.status = .pending ∨ o.status = .submitting ∨ o.status = .accepted := by
  cases phase <;> simp [OperationPhase.eligible] at h
  · exact h.1.imp_right .inl
  · exact .inr (.inr h)
  · exact h.1.imp_right .inl
  · exact h.1.imp_right .inl

theorem completionAllowed_status {phase : OperationPhase} {o : OperationRow}
    {status : OperationStatus} (h : completionAllowed phase o.lock status = true) :
    o.status = .submitting ∨ o.status = .accepted := by
  cases phase <;> simp [completionAllowed, OperationRow.lock] at h
  · exact .inl (of_decide_eq_true h.1.1)
  · exact .inr (of_decide_eq_true h)
  · exact .inl (of_decide_eq_true h)

/-- What an operation was staged with never changes. -/
theorem effect (step : OperationStep base call reply v v') : v'.row.effect = v.row.effect := by
  cases step with
  | same row running announced => exact (OperationRow.essence_eq row).2.2.1
  | _ => rfl

theorem id_eq (step : OperationStep base call reply v v') : v'.row.id = v.row.id :=
  congrArg (·.id) step.effect

/-- Every step keeps an operation sound. -/
theorem sound (step : OperationStep base call reply v v') (h : v.Sound) : v'.Sound := by
  have key : v'.row.gatewayIdempotencyKey = v'.row.id.toText := by
    have hkey : v'.row.gatewayIdempotencyKey = _ := congrArg (·.gatewayIdempotencyKey) step.effect
    rw [hkey, step.id_eq]
    exact h.key
  cases step with
  | same row running announced =>
    obtain ⟨hid, hkind, -, hstatus, -, -, hjob, htoken⟩ := OperationRow.essence_eq row
    have hsome : v'.row.lease.isSome = v.row.lease.isSome := by
      have := congrArg Option.isSome htoken
      simpa using this
    refine ⟨?_, ?_, ?_, key, ?_⟩
    · rw [running, h.running, htoken]
    · rw [hsome, hstatus]
      exact h.leased
    · rw [hstatus, hjob]
      exact h.accepted
    · rw [announced, h.announced, hstatus, hid, hkind]
  | claimed lease eligible token issued =>
    have hnot := eligible_status eligible
    have hopen : v.row.status.terminal = false := by
      rcases hnot with hs | hs | hs <;> simp [hs, OperationStatus.terminal]
    have hannounced := h.announced
    rw [hopen] at hannounced
    refine ⟨by simp [OperationRow.claimed, token], fun _ => ?_, fun hs => ?_, key, ?_⟩
    · rcases hnot with hs | hs | hs <;> simp [OperationRow.claimed, hs]
    · refine h.accepted ?_
      simp only [OperationRow.claimed] at hs
      split at hs
      · cases hs
      · exact hs
    · rcases hnot with hs | hs | hs <;>
        simpa [OperationRow.claimed, hs, OperationStatus.terminal] using hannounced
  | deferred held phase submitting =>
    have hannounced := h.announced
    rw [submitting] at hannounced
    exact ⟨rfl, nofun, nofun, key, hannounced⟩
  | accepted now held phase submitting unmapped =>
    have hannounced := h.announced
    rw [submitting] at hannounced
    exact ⟨rfl, nofun, fun _ => rfl, key, hannounced⟩
  | retried held next =>
    have hannounced := h.announced
    rcases retryStatus_some next with ⟨hs, rfl | rfl⟩ | ⟨hs, rfl⟩
    · rw [hs] at hannounced
      exact ⟨rfl, nofun, nofun, key, hannounced⟩
    · rw [hs] at hannounced
      exact ⟨rfl, nofun, nofun, key, hannounced⟩
    · rw [hs] at hannounced
      exact ⟨rfl, nofun, fun _ => h.accepted hs, key, hannounced⟩
  | pendingResult held accepted =>
    have hannounced := h.announced
    exact ⟨rfl, nofun, fun _ => h.accepted accepted, key, hannounced⟩
  | @completed _ status _ _ _ _ _ _ now held terminal allowed =>
    have hannounced := h.announced
    have hopen : v.row.status.terminal = false := by
      rcases completionAllowed_status allowed with hs | hs <;> simp [hs, OperationStatus.terminal]
    rw [hopen] at hannounced
    refine ⟨rfl, nofun, fun hs => ?_, key, ?_⟩
    · rw [show status = .accepted from hs] at terminal
      cases terminal
    · simp [hannounced, terminal]
  | withdrew now withdrawn held kind submitting =>
    have hannounced := h.announced
    rw [submitting] at hannounced
    refine ⟨rfl, nofun, nofun, key, ?_⟩
    simp [hannounced, OperationStatus.terminal, kind]
  | withdrawn now target withdrawable =>
    have hpending : v.row.status = .pending ∧ v.row.lease = none := by
      simpa [OperationRow.withdrawable] using withdrawable
    have hannounced := h.announced
    rw [hpending.1] at hannounced
    refine ⟨?_, nofun, nofun, key, ?_⟩
    · rw [h.running, hpending.2]
    · simp [hannounced, OperationStatus.terminal]

/-- No step takes back an end or a gateway job. -/
theorem later (step : OperationStep base call reply v v') : v.row.Later v'.row := by
  have ended : ∀ {P : Prop}, v.row.status = .pending ∨ v.row.status = .submitting ∨
      v.row.status = .accepted → v.row.status.terminal = true → P := by
    intro P hs hterminal
    rcases hs with hs | hs | hs <;> simp [hs, OperationStatus.terminal] at hterminal
  cases step with
  | same row running announced =>
    obtain ⟨hid, -, -, hstatus, hresult, herror, hjob, -⟩ := OperationRow.essence_eq row
    exact ⟨hid, fun _ => ⟨hstatus, hresult, herror⟩, fun jobId h => hjob.trans h⟩
  | claimed lease eligible token issued =>
    exact ⟨rfl, ended (eligible_status eligible), fun _ h => h⟩
  | deferred held phase submitting =>
    exact ⟨rfl, ended (.inr (.inl submitting)), fun _ h => h⟩
  | accepted now held phase submitting unmapped =>
    refine ⟨rfl, ended (.inr (.inl submitting)), fun jobId h => ?_⟩
    rw [unmapped] at h
    cases h
  | retried held next =>
    refine ⟨rfl, ended ?_, fun _ h => h⟩
    rcases retryStatus_some next with ⟨hs, -⟩ | ⟨hs, -⟩
    · exact .inr (.inl hs)
    · exact .inr (.inr hs)
  | pendingResult held accepted =>
    exact ⟨rfl, ended (.inr (.inr accepted)), fun _ h => h⟩
  | completed now held terminal allowed =>
    exact ⟨rfl, ended (.inr (completionAllowed_status allowed)), fun _ h => h⟩
  | withdrew now withdrawn held kind submitting =>
    exact ⟨rfl, ended (.inr (.inl submitting)), fun _ h => h⟩
  | withdrawn now target withdrawable =>
    have hpending : v.row.status = .pending ∧ v.row.lease = none := by
      simpa [OperationRow.withdrawable] using withdrawable
    exact ⟨rfl, ended (.inl hpending.1), fun _ h => h⟩

end OperationStep

end AgentPlatform.Store
