import AgentPlatform.Store.CommitSpecs

/-!
# What one call does to the database

A call changes the rows of one session, creates a session, or leaves all sessions alone; the one
exception is `complete_callback_receipt`, which makes an operation due without locking its session.
`exec_cases` says so once for every call; the invariants are proved from it.
-/

namespace AgentPlatform.Store

open Fallible

/-! ## The change of one session -/

/-- The change that a successful call makes to the session it locks. `base` is the first uuid the
call draws, `others` the sessions it does not lock. -/
inductive SessionStep (codec : Codec) (clock : Clock) (db : Db) :
    StoreCall → Reply → Session → Session → Prop
  | patchSessionMetadata {s s' : Session} {name metadata record}
      (h : s.patchMetadata clock name metadata = .ok (record, s')) :
      SessionStep codec clock db (.patchSessionMetadata s.id name metadata) (.session record) s s'
  | enqueueExternalEvent {s s' : Session} {input result} (session : input.sessionId = s.id)
      (external : input.eventType = .userMessage ∨ input.eventType = .cancellationRequested)
      (h : s.enqueueExternalEvent codec clock db.nextUuid input = .ok (result, s')) :
      SessionStep codec clock db (.enqueueExternalEvent input) (.enqueued result) s s'
  | claimNextEvent {s : Session} {locked leaseFor} {e : EventRow} {leaseMs : Int}
      (claimable : s.claimableEvent clock = some e) :
      SessionStep codec clock db (.claimNextEvent locked leaseFor)
        (.claimedEvent (some (s.claimEvent clock e db.nextUuid (db.nextUuid + 1) leaseMs).1)) s
        (s.claimEvent clock e db.nextUuid (db.nextUuid + 1) leaseMs).2
  | renewEventClaim {s s' : Session} {claim leaseFor r} (session : claim.sessionId = s.id)
      (h : s.renewEventClaim clock claim leaseFor = .ok (r, s')) :
      SessionStep codec clock db (.renewEventClaim claim leaseFor) .done s s'
  | recordHandlerFailure {s s' : Session} {claim error retryAt blocked r}
      (session : claim.sessionId = s.id)
      (h : s.recordHandlerFailure clock claim error retryAt blocked = .ok (r, s')) :
      SessionStep codec clock db (.recordHandlerFailure claim error retryAt blocked) .done s s'
  | abandonHandlerAttempt {s s' : Session} {claim error retryAt r}
      (session : claim.sessionId = s.id)
      (h : s.abandonHandlerAttempt clock claim error retryAt = .ok (r, s')) :
      SessionStep codec clock db (.abandonHandlerAttempt claim error retryAt) .done s s'
  | commitHandlerOutcome {s s' : Session} {claim outcome r} (session : claim.sessionId = s.id)
      (h : s.commitHandlerOutcome codec clock (db.takenIds s.id) db.nextUuid claim outcome =
        .ok (r, s')) :
      SessionStep codec clock db (.commitHandlerOutcome claim outcome) .done s s'
  | retryBlockedEvent {s s' : Session} {eventId expectedRevision key request reason retry}
      (h : s.retryBlockedEvent codec clock db.nextUuid eventId expectedRevision key request reason =
        .ok (retry, s')) :
      SessionStep codec clock db
        (.retryBlockedEvent s.id eventId expectedRevision key request reason) (.retried retry) s s'
  | resolveWait {s s' : Session} {waitId key response resolution}
      (h : s.resolveWait codec clock db.nextUuid waitId key response = .ok (resolution, s')) :
      SessionStep codec clock db (.resolveWait waitId key response) (.waitResolved resolution) s s'
  | expireWait {s s' : Session} {waitId event}
      (h : s.expireWait clock db.nextUuid waitId = .ok (event, s')) :
      SessionStep codec clock db (.expireWait waitId) (.waitExpired event) s s'
  | claimOperation {s : Session} {locked phase leaseFor} {o : OperationRow} {leaseMs : Int}
      (found : o ∈ s.operations) (claimable : o.claimable clock phase = true) :
      SessionStep codec clock db (.claimOperation locked phase leaseFor)
        (.claimedOperation
          (some (s.claimOperation clock o phase db.nextUuid (db.nextUuid + 1) leaseMs).1)) s
        (s.claimOperation clock o phase db.nextUuid (db.nextUuid + 1) leaseMs).2
  | deferOperation {s s' : Session} {claim retryAt r} (session : claim.operation.sessionId = s.id)
      (h : s.deferOperation clock claim retryAt = .ok (r, s')) :
      SessionStep codec clock db (.deferOperation claim retryAt) .done s s'
  | recordOperationAccepted {s s' : Session} {claim jobId checkAt httpStatus taken r}
      (session : claim.operation.sessionId = s.id)
      (h : s.recordOperationAccepted clock taken claim jobId checkAt httpStatus = .ok (r, s')) :
      SessionStep codec clock db (.recordOperationAccepted claim jobId checkAt httpStatus) .done s s'
  | renewOperationClaim {s s' : Session} {claim leaseFor r}
      (found : s.operations.any (·.id = claim.operation.id) = true)
      (h : s.renewOperationClaim clock claim leaseFor = .ok (r, s')) :
      SessionStep codec clock db (.renewOperationClaim claim leaseFor) .done s s'
  | recordOperationRetry {s s' : Session} {claim uncertain retryAt httpStatus error r}
      (session : claim.operation.sessionId = s.id)
      (h : s.recordOperationRetry clock claim uncertain retryAt httpStatus error = .ok (r, s')) :
      SessionStep codec clock db (.recordOperationRetry claim uncertain retryAt httpStatus error)
        .done s s'
  | recordOperationPendingResult {s s' : Session} {claim checkAgainAt httpStatus r}
      (session : claim.operation.sessionId = s.id)
      (h : s.recordOperationPendingResult clock claim checkAgainAt httpStatus = .ok (r, s')) :
      SessionStep codec clock db (.recordOperationPendingResult claim checkAgainAt httpStatus)
        .done s s'
  | completeWithdrawal {s s' : Session} {claim targetId expiresAt result}
      (session : claim.operation.sessionId = s.id) (phase : claim.phase = .withdrawal)
      (kind : claim.operation.kind = .withdraw)
      (target : claim.operation.targetOperationId = some targetId)
      (h : s.completeWithdrawal clock db.nextUuid claim targetId expiresAt = .ok (result, s')) :
      SessionStep codec clock db (.completeWithdrawal claim expiresAt) (.withdrawn result) s s'
  | completeOperation {s s' : Session} {claim status result error expiresAt httpStatus event}
      (session : claim.operation.sessionId = s.id) (terminal : status.terminal = true)
      (h : s.completeOperation clock db.nextUuid claim status result error expiresAt httpStatus =
        .ok (event, s')) :
      SessionStep codec clock db
        (.completeOperation claim status result error expiresAt httpStatus) (.completed event) s s'
  | deleteExpiredOperationRequest {s s' : Session} {locked id deleted}
      (h : s.deleteExpiredOperationRequest clock id = (deleted, s')) :
      SessionStep codec clock db (.deleteExpiredOperationRequest locked id)
        (.requestDeleted deleted) s s'
  | pruneUpdates {s s' : Session} {before removed} (h : s.pruneUpdates before = (removed, s')) :
      SessionStep codec clock db (.pruneUpdates s.id before) (.pruned removed) s s'

/-! ## The log of a run -/

/-- The outcome that an entry committed, with the claim it was committed under. -/
def Entry.committed (entry : Entry) : Option (HandlerClaim × OutcomeCommit) :=
  match entry.call, entry.reply with
  | .commitHandlerOutcome claim outcome, .done => some (claim, outcome)
  | _, _ => none

/-- The session that an entry created. -/
def Entry.created (entry : Entry) : Option NewSession :=
  match entry.call, entry.reply with
  | .createSession session, .session _ => some session
  | _, _ => none

/-- An entry that issues no claim, commits nothing and creates nothing. -/
structure Entry.Quiet (entry : Entry) : Prop where
  handlerClaim : entry.issuedHandlerClaim = none
  operationClaim : entry.issuedOperationClaim = none
  committed : entry.committed = none
  created : entry.created = none

/-! ## The change of the database -/

/-- How many uuids a call draws at most. -/
def StoreCall.draws : StoreCall → Nat
  | .enqueueExternalEvent _ | .retryBlockedEvent .. | .resolveWait .. | .expireWait _
  | .completeOperation .. => 1
  | .claimNextEvent .. | .claimOperation .. | .completeWithdrawal .. => 2
  | .commitHandlerOutcome _ outcome => outcome.cancelledWaits.length
  | _ => 0

/-- A row that became due without anything else of it changing. -/
def OperationRow.due (o : OperationRow) (nextAttemptAt : Timestamp) : OperationRow :=
  { o with nextAttemptAt }

/-- What a call does to the database. -/
inductive DbStep (codec : Codec) (clock : Clock) (db : Db) (call : StoreCall) : Reply → Db → Prop
  | quiet {reply : Reply} {db' : Db} (sessions : db'.sessions = db.sessions)
      (uuids : db.nextUuid ≤ db'.nextUuid) (quiet : Entry.Quiet { call, clock, reply }) :
      DbStep codec clock db call reply db'
  | create {session : NewSession} {db' : Db} (created : call = .createSession session)
      (fresh : ∀ s ∈ db.sessions, s.id ≠ session.id)
      (sessions : db'.sessions = db.sessions ++ [Session.create clock session])
      (uuids : db'.nextUuid = db.nextUuid) :
      DbStep codec clock db call (.session (Session.create clock session).record) db'
  | session {reply : Reply} {s s' : Session} (found : s ∈ db.sessions)
      (step : SessionStep codec clock db call reply s s') :
      DbStep codec clock db call reply { db.put s' with nextUuid := db.nextUuid + call.draws }
  | due {db' : Db} (id : OperationId) (f : OperationRow → OperationRow)
      (due : ∀ o, ∃ t ≤ o.nextAttemptAt, f o = o.due t)
      (quiet : Entry.Quiet { call, clock, reply := .done })
      (sessions : db'.sessions = db.sessions.map fun s => s.updateOperations (·.id = id) f)
      (uuids : db'.nextUuid = db.nextUuid) : DbStep codec clock db call .done db'

theorem Db.transact_ok {α : Type} {db db' : Db} {id : SessionId} {draws : Nat}
    {body : Uuid → Session → Result (α × Session)} {a : α}
    (h : db.transact id draws body = .ok (a, db')) :
    ∃ s s', s ∈ db.sessions ∧ s.id = id ∧ body db.nextUuid s = .ok (a, s') ∧
      db' = { db.put s' with nextUuid := db.nextUuid + draws } := by
  unfold Db.transact at h
  split at h
  · cases h
  · rename_i s hfound
    split at h
    · cases h
    · rename_i hbody
      cases h
      have hlookup : Table.lookup (fun s : Session => s.id) id db.sessions = some s := hfound
      have hid := Table.lookup_key hlookup
      exact ⟨s, _, Table.lookup_mem hlookup, hid, hbody, rfl⟩

/-- A failed call is quiet. -/
theorem quiet_failed (call : StoreCall) (clock : Clock) (error : StoreError) :
    Entry.Quiet { call, clock, reply := .failed error } where
  handlerClaim := rfl
  operationClaim := rfl
  committed := by cases call <;> rfl
  created := by cases call <;> rfl

theorem DbStep.unchanged {codec : Codec} {clock : Clock} {db : Db} {call : StoreCall}
    {reply : Reply} (quiet : Entry.Quiet { call, clock, reply }) :
    DbStep codec clock db call reply db :=
  .quiet rfl (Nat.le_refl _) quiet

/-- A transaction on one session is a failure or a step of that session. -/
theorem DbStep.transact {codec : Codec} {clock : Clock} {db : Db} {call : StoreCall} {α : Type}
    {reply : α → Reply} {id : SessionId} {body : Uuid → Session → Result (α × Session)}
    (h : ∀ s s' a, s ∈ db.sessions → s.id = id → body db.nextUuid s = .ok (a, s') →
      SessionStep codec clock db call (reply a) s s') :
    DbStep codec clock db call (settle db reply (db.transact id call.draws body)).1
      (settle db reply (db.transact id call.draws body)).2 := by
  cases hresult : db.transact id call.draws body with
  | error error => exact .unchanged (quiet_failed call clock error)
  | ok result =>
    obtain ⟨a, db'⟩ := result
    obtain ⟨s, s', hs, hid, hbody, rfl⟩ := Db.transact_ok hresult
    exact .session hs (h s s' a hs hid hbody)

/-- A call that touches receipts only. -/
theorem DbStep.receipts {codec : Codec} {clock : Clock} {db : Db} {call : StoreCall} {α : Type}
    {reply : α → Reply} {result : Result (α × Db)}
    (quiet : ∀ a, Entry.Quiet { call, clock, reply := reply a })
    (h : ∀ a db', result = .ok (a, db') →
      db'.sessions = db.sessions ∧ db.nextUuid ≤ db'.nextUuid) :
    DbStep codec clock db call (settle db reply result).1 (settle db reply result).2 := by
  cases result with
  | error error => exact .unchanged (quiet_failed call clock error)
  | ok result =>
    obtain ⟨hsessions, huuids⟩ := h result.1 result.2 rfl
    exact .quiet hsessions huuids (quiet result.1)

/-- The candidate of a claim is a session with its claimable head event. -/
theorem Db.claimCandidate_some {db : Db} {clock : Clock} {locked : SessionId → Bool} {s : Session}
    {e : EventRow} (h : db.claimCandidate clock locked = some (s, e)) :
    s ∈ db.sessions ∧ s.claimableEvent clock = some e := by
  have hmem := Table.firstBy_mem h
  obtain ⟨s', hs', heq⟩ := List.mem_filterMap.mp hmem
  split at heq
  · cases heq
  · obtain ⟨e', he', hpair⟩ := Option.map_eq_some_iff.mp heq
    cases hpair
    exact ⟨hs', he'⟩

/-- The candidate of an operation claim is a claimable operation of a session. -/
theorem Db.operationCandidate_some {db : Db} {clock : Clock} {locked : SessionId → Bool}
    {phase : OperationPhase} {s : Session} {o : OperationRow}
    (h : db.operationCandidate clock locked phase = some (s, o)) :
    s ∈ db.sessions ∧ o ∈ s.operations ∧ o.claimable clock phase = true := by
  have hmem := Table.firstBy_mem h
  obtain ⟨s', hs', hin⟩ := List.mem_flatMap.mp hmem
  split at hin
  · cases hin
  · obtain ⟨o', ho', hpair⟩ := List.mem_map.mp hin
    cases hpair
    obtain ⟨hfound, hclaimable⟩ := List.mem_filter.mp ho'
    exact ⟨hs', hfound, hclaimable⟩

theorem Db.sessionOfOperation_some {db : Db} {id : OperationId} {sessionId : SessionId}
    (unique : (db.sessions.map (·.id)).Nodup) (h : db.sessionOfOperation id = some sessionId)
    {s : Session} (hs : s ∈ db.sessions) (hid : s.id = sessionId) :
    s.operations.any (·.id = id) = true := by
  obtain ⟨s', hfound, rfl⟩ := Option.map_eq_some_iff.mp h
  have hmem := List.mem_of_find?_eq_some hfound
  have := Table.eq_of_key unique hs hmem hid
  subst this
  have hany := List.find?_some hfound
  exact hany

variable {codec : Codec} {clock : Clock} {db : Db}

theorem exec_createSession (session : NewSession) :
    DbStep codec clock db (.createSession session) (exec codec clock db (.createSession session)).1
      (exec codec clock db (.createSession session)).2 := by
  simp only [exec, Db.createSession]
  split
  · exact .unchanged (quiet_failed _ clock _)
  · split
    · exact .unchanged (quiet_failed _ clock _)
    · rename_i hnone
      refine .create rfl ?_ rfl rfl
      have := Option.not_isSome_iff_eq_none.mp hnone
      exact Table.lookup_eq_none.mp this

theorem exec_claimNextEvent (unique : (db.sessions.map (·.id)).Nodup)
    (locked : SessionId → Bool) (leaseFor : Nat) :
    DbStep codec clock db (.claimNextEvent locked leaseFor)
      (exec codec clock db (.claimNextEvent locked leaseFor)).1
      (exec codec clock db (.claimNextEvent locked leaseFor)).2 := by
  simp only [exec, Db.claimNextEvent]
  split
  · exact .unchanged ⟨rfl, rfl, rfl, rfl⟩
  · rename_i s e hcandidate
    obtain ⟨hs, hclaimable⟩ := Db.claimCandidate_some hcandidate
    split
    · exact .unchanged (quiet_failed _ clock _)
    · refine .transact fun s₁ s₂ a hs₁ hid hbody => ?_
      have := Table.eq_of_key unique hs₁ hs hid
      subst this
      cases hbody
      exact .claimNextEvent hclaimable

theorem exec_claimOperation (unique : (db.sessions.map (·.id)).Nodup)
    (locked : SessionId → Bool) (phase : OperationPhase) (leaseFor : Nat) :
    DbStep codec clock db (.claimOperation locked phase leaseFor)
      (exec codec clock db (.claimOperation locked phase leaseFor)).1
      (exec codec clock db (.claimOperation locked phase leaseFor)).2 := by
  simp only [exec, Db.claimOperation]
  split
  · exact .unchanged ⟨rfl, rfl, rfl, rfl⟩
  · rename_i s o hcandidate
    obtain ⟨hs, ho, hclaimable⟩ := Db.operationCandidate_some hcandidate
    split
    · exact .unchanged (quiet_failed _ clock _)
    · refine .transact fun s₁ s₂ a hs₁ hid hbody => ?_
      have := Table.eq_of_key unique hs₁ hs hid
      subst this
      cases hbody
      exact .claimOperation ho hclaimable

theorem exec_completeCallbackReceipt (claim : ClaimedCallbackReceipt) :
    DbStep codec clock db (.completeCallbackReceipt claim)
      (exec codec clock db (.completeCallbackReceipt claim)).1
      (exec codec clock db (.completeCallbackReceipt claim)).2 := by
  simp only [exec]
  cases hresult : db.completeCallbackReceipt clock claim with
  | error error => exact .unchanged (quiet_failed _ clock error)
  | ok result =>
    obtain ⟨r, hlock, h⟩ := bind_ok hresult
    cases hop : r.operationId with
    | none =>
      rw [hop] at h
      cases h
      exact .quiet rfl (Nat.le_refl _) ⟨rfl, rfl, rfl, rfl⟩
    | some id =>
      rw [hop] at h
      cases h
      refine .due id _ (fun o => ?_) ⟨rfl, rfl, rfl, rfl⟩ rfl rfl
      split
      · exact ⟨_, min_le_left _ _, rfl⟩
      · exact ⟨o.nextAttemptAt, le_refl _, rfl⟩

/-- What any call does to a database whose sessions have different ids. -/
theorem exec_cases (codec : Codec) (clock : Clock) (unique : (db.sessions.map (·.id)).Nodup)
    (call : StoreCall) :
    DbStep codec clock db call (exec codec clock db call).1 (exec codec clock db call).2 := by
  cases call with
  | createSession session => exact exec_createSession session
  | patchSessionMetadata id name metadata =>
    refine .transact fun s s' a _ hid h => ?_
    subst hid
    exact .patchSessionMetadata h
  | enqueueExternalEvent input =>
    simp only [exec, Db.enqueueExternalEvent]
    split
    · rename_i hexternal
      exact .transact fun s s' a _ hid h => .enqueueExternalEvent hid.symm hexternal h
    · exact .unchanged (quiet_failed _ clock _)
  | claimNextEvent locked leaseFor => exact exec_claimNextEvent unique locked leaseFor
  | renewEventClaim claim leaseFor =>
    exact .transact fun s s' a _ hid h => .renewEventClaim hid.symm h
  | recordHandlerFailure claim error retryAt blocked =>
    exact .transact fun s s' a _ hid h => .recordHandlerFailure hid.symm h
  | abandonHandlerAttempt claim error retryAt =>
    exact .transact fun s s' a _ hid h => .abandonHandlerAttempt hid.symm h
  | commitHandlerOutcome claim outcome =>
    exact .transact fun s s' a _ hid h => .commitHandlerOutcome hid.symm (hid ▸ h)
  | retryBlockedEvent id eventId expectedRevision key request reason =>
    refine .transact fun s s' a _ hid h => ?_
    subst hid
    exact .retryBlockedEvent h
  | resolveWait waitId key response =>
    simp only [exec, Db.resolveWait]
    split
    · exact .unchanged (quiet_failed _ clock _)
    · exact .transact fun s s' a _ _ h => .resolveWait h
  | expireWait waitId =>
    simp only [exec, Db.expireWait]
    split
    · exact .unchanged (quiet_failed _ clock _)
    · exact .transact fun s s' a _ _ h => .expireWait h
  | claimOperation locked phase leaseFor => exact exec_claimOperation unique locked phase leaseFor
  | deferOperation claim retryAt =>
    exact .transact fun s s' a _ hid h => .deferOperation hid.symm h
  | recordOperationAccepted claim jobId checkAt httpStatus =>
    simp only [exec, Db.recordOperationAccepted]
    exact .transact fun s s' a _ hid h => .recordOperationAccepted hid.symm h
  | renewOperationClaim claim leaseFor =>
    simp only [exec, Db.renewOperationClaim]
    split
    · exact .unchanged (quiet_failed _ clock _)
    · rename_i hsession
      exact .transact fun s s' a hs hid h =>
        .renewOperationClaim (Db.sessionOfOperation_some unique hsession hs hid) h
  | recordOperationRetry claim uncertain retryAt httpStatus error =>
    exact .transact fun s s' a _ hid h => .recordOperationRetry hid.symm h
  | recordOperationPendingResult claim checkAgainAt httpStatus =>
    exact .transact fun s s' a _ hid h => .recordOperationPendingResult hid.symm h
  | completeWithdrawal claim expiresAt =>
    simp only [exec, Db.completeWithdrawal]
    split
    · exact .unchanged (quiet_failed _ clock _)
    · rename_i hphase
      simp only [not_or, not_not] at hphase
      split
      · exact .unchanged (quiet_failed _ clock _)
      · rename_i htarget
        exact .transact fun s s' a _ hid h =>
          .completeWithdrawal hid.symm hphase.1 hphase.2 htarget h
  | completeOperation claim status result error expiresAt httpStatus =>
    simp only [exec, Db.completeOperation]
    split
    · exact .unchanged (quiet_failed _ clock _)
    · rename_i hterminal
      exact .transact fun s s' a _ hid h => .completeOperation hid.symm (by simpa using hterminal) h
  | deleteExpiredOperationRequest locked id =>
    simp only [exec, Db.deleteExpiredOperationRequest]
    split
    · exact .unchanged ⟨rfl, rfl, rfl, rfl⟩
    · split
      · exact .unchanged ⟨rfl, rfl, rfl, rfl⟩
      · exact .transact fun s s' a _ _ h => .deleteExpiredOperationRequest (Except.ok.inj h)
  | pruneUpdates id before =>
    refine .transact fun s s' a _ hid h => ?_
    subst hid
    exact .pruneUpdates (Except.ok.inj h)
  | recordCallbackReceipt connection gatewayEventId gatewayJobId payload =>
    refine .receipts (fun _ => ⟨rfl, rfl, rfl, rfl⟩) fun a db' h => ?_
    simp only [Db.recordCallbackReceipt] at h
    split at h
    · split at h
      · cases h
      · cases h
        exact ⟨rfl, Nat.le_refl _⟩
    · cases h
      exact ⟨rfl, Nat.le_succ _⟩
  | claimCallbackReceipt locked leaseFor =>
    refine .receipts (fun _ => ⟨rfl, rfl, rfl, rfl⟩) fun a db' h => ?_
    simp only [Db.claimCallbackReceipt] at h
    split at h
    · cases h
      exact ⟨rfl, Nat.le_refl _⟩
    · split at h
      · cases h
      · cases h
        exact ⟨rfl, Nat.le_succ _⟩
  | matchCallbackReceipt claim retryAt =>
    refine .receipts (fun _ => ⟨rfl, rfl, rfl, rfl⟩) fun a db' h => ?_
    obtain ⟨r, -, h⟩ := bind_ok h
    cases h
    exact ⟨rfl, Nat.le_refl _⟩
  | completeCallbackReceipt claim => exact exec_completeCallbackReceipt claim
  | blockCallbackReceipt claim error =>
    refine .receipts (fun _ => ⟨rfl, rfl, rfl, rfl⟩) fun a db' h => ?_
    obtain ⟨r, -, h⟩ := bind_ok h
    obtain ⟨-, -, h⟩ := bind_ok h
    cases h
    exact ⟨rfl, Nat.le_refl _⟩
  | blockUnmatchedCallbackReceipt receiptId error =>
    refine .receipts (fun _ => ⟨rfl, rfl, rfl, rfl⟩) fun a db' h => ?_
    obtain ⟨-, -, h⟩ := bind_ok h
    cases h
    exact ⟨rfl, Nat.le_refl _⟩
  | renewCallbackReceiptClaim claim leaseFor =>
    refine .receipts (fun _ => ⟨rfl, rfl, rfl, rfl⟩) fun a db' h => ?_
    obtain ⟨r, -, h⟩ := bind_ok h
    obtain ⟨leaseMs, -, h⟩ := bind_ok h
    cases h
    exact ⟨rfl, Nat.le_refl _⟩
  | retryCallbackReceipt claim retryAt error =>
    refine .receipts (fun _ => ⟨rfl, rfl, rfl, rfl⟩) fun a db' h => ?_
    obtain ⟨r, -, h⟩ := bind_ok h
    obtain ⟨-, -, h⟩ := bind_ok h
    cases h
    exact ⟨rfl, Nat.le_refl _⟩

end AgentPlatform.Store
