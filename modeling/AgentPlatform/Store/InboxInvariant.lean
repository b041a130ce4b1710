import AgentPlatform.Store.InboxSteps
import AgentPlatform.Store.RunRule

/-!
# The inbox invariant

Along every run the inbox of every session stands for a queue, and a claim that was ever issued
names the running attempt whenever its token is the current one. Both are kept by every transaction,
and together they give the order and the ownership of events in plain terms of the tables.
-/

namespace AgentPlatform.Store

/-! ## Claims that were issued -/

/-- What an issued claim can rely on while its token is current. -/
def Inbox.Knows (i : Inbox) (claim : HandlerClaim) : Prop :=
  ∀ lease, i.lease = some lease → lease.token = claim.leaseToken →
    lease.eventId = claim.eventId ∧ i.version = claim.inputStateVersion ∧
      ∃ a ∈ i.attempts, Inbox.runs (claim.attemptId, claim.leaseToken) a = true

/-- A step that does not reuse the token of a claim keeps what the claim relies on. -/
theorem Inbox.Knows.step {i i' : Inbox} {claim : HandlerClaim} {action : EventAction}
    (h : i.Knows claim) (step : Inbox.Step i action i')
    (fresh : ∀ key, action = .claim key → key.2 ≠ claim.leaseToken) : i'.Knows claim := by
  cases step with
  | arrive e pending sequence unused => exact h
  | claim e head enabled moves ends lease event a runs attempts token =>
    intro lease' hlease htoken
    cases hlease
    exact absurd (token.trans htoken) (fresh _ rfl)
  | renew lease lease' held event token =>
    intro lease'' hlease htoken
    cases hlease
    obtain ⟨hevent, hversion, hruns⟩ := h lease held (token.symm.trans htoken)
    exact ⟨event.trans hevent, hversion, hruns⟩
  | release | block | commit =>
    intro lease' hlease
    cases hlease
  | retry e head blocked moves => exact h

theorem Inbox.Knows.path {i i' : Inbox} {claim : HandlerClaim} {actions : List EventAction}
    (path : StepPath Inbox.Step i actions i') (h : i.Knows claim)
    (fresh : ∀ key, .claim key ∈ actions → key.2 ≠ claim.leaseToken) : i'.Knows claim := by
  induction path with
  | nil => exact h
  | cons head _ ih =>
    refine ih (h.step head fun key hkey => ?_) fun key hkey =>
      fresh key (List.mem_cons_of_mem _ hkey)
    exact fresh key (hkey ▸ List.mem_cons_self)

/-! ## The methods of a claim -/

theorem EventAttemptRow.ends_finish (clock : Clock) (status : HandlerAttemptStatus)
    (error : Option Value) : Inbox.Ends (·.finish clock status error) status where
  key _ := rfl
  status _ := rfl

section

variable {codec : Codec} {clock : Clock} {s s' : Session}

theorem Session.renewEventClaim_steps {claim : HandlerClaim} {leaseFor : Nat} {r : Unit}
    (h : s.renewEventClaim clock claim leaseFor = .ok (r, s')) :
    Inbox.Step s.inbox .keep s'.inbox := by
  simp only [Session.renewEventClaim] at h
  split at h
  · cases h
  · rename_i hlock
    obtain ⟨⟨lease, hlease, -⟩, -⟩ := Session.lockValidSessionClaim_ok hlock
    split at h
    · cases h
    · rename_i leaseMs hlease'
      cases h
      have hstep := Inbox.Step.renew (i := s.inbox) lease
        { lease with expiresAt := clock.after 1 leaseMs } hlease rfl rfl
      simpa [Session.inbox, hlease] using hstep

theorem Session.recordHandlerFailure_steps {claim : HandlerClaim} {error : Value}
    {retryAt : Timestamp} {blocked : Bool} {r : Unit}
    (h : s.recordHandlerFailure clock claim error retryAt blocked = .ok (r, s'))
    (known : s.inbox.Knows claim) :
    Inbox.Step s.inbox (if blocked then .block else .release) s'.inbox := by
  simp only [Session.recordHandlerFailure] at h
  split at h
  · cases h
  · cases h
  · rename_i hlock _
    obtain ⟨⟨lease, hlease, hevent, htoken, -⟩, -⟩ := Session.lockValidSessionClaim_ok hlock
    obtain ⟨-, -, hruns⟩ := known lease hlease htoken
    cases h
    cases blocked with
    | true =>
      refine .block lease hlease hevent (claim.attemptId, claim.leaseToken) hruns ?_
        (EventAttemptRow.ends_finish ..)
      exact ⟨fun _ => rfl, fun _ => rfl, fun _ => rfl⟩
    | false =>
      refine .release lease hlease hevent (claim.attemptId, claim.leaseToken) hruns ?_
        (EventAttemptRow.ends_finish ..) (.inl rfl)
      exact ⟨fun _ => rfl, fun _ => rfl, fun _ => rfl⟩

theorem Session.abandonHandlerAttempt_steps {claim : HandlerClaim} {error : Value}
    {retryAt : Timestamp} {r : Unit}
    (h : s.abandonHandlerAttempt clock claim error retryAt = .ok (r, s'))
    (known : s.inbox.Knows claim) : Inbox.Step s.inbox .release s'.inbox := by
  simp only [Session.abandonHandlerAttempt] at h
  split at h
  · cases h
  · cases h
  · rename_i hlock _
    obtain ⟨⟨lease, hlease, hevent, htoken, -⟩, -⟩ := Session.lockValidSessionClaim_ok hlock
    obtain ⟨-, -, hruns⟩ := known lease hlease htoken
    cases h
    refine .release lease hlease hevent (claim.attemptId, claim.leaseToken) hruns ?_
      (EventAttemptRow.ends_finish ..) (.inr rfl)
    exact ⟨fun _ => rfl, fun _ => rfl, fun _ => rfl⟩

theorem Session.retryBlockedEvent_steps {retryId : Uuid} {eventId : EventId}
    {expectedRevision : Nat} {key : String} {request : RawJson} {reason : Option String}
    {retry : ProcessingRetry}
    (h : s.retryBlockedEvent codec clock retryId eventId expectedRevision key request reason =
      .ok (retry, s')) :
    s'.inbox = s.inbox ∨ Inbox.Step s.inbox .retry s'.inbox := by
  simp only [Session.retryBlockedEvent] at h
  split at h
  · split at h
    · cases h
    · cases h
      exact .inl rfl
  · split at h
    · cases h
    · rename_i hmatches
      cases h
      refine .inr ?_
      simp only [Session.retryMatches, Bool.not_eq_true', Bool.not_eq_false,
        Bool.and_eq_true] at hmatches
      obtain ⟨e, hhead, hevent⟩ := (Option.any_eq_true _ _).mp hmatches.2
      simp only [Bool.and_eq_true, decide_eq_true_eq] at hevent
      obtain ⟨rfl, hblocked⟩ := hevent
      refine .retry (i := s.inbox) e hhead hblocked ?_
      exact ⟨fun _ => rfl, fun _ => rfl, fun _ => rfl⟩

theorem Session.claimEvent_steps {e : EventRow} (claimable : s.claimableEvent clock = some e)
    (leaseToken attemptId : Uuid) (leaseMs : Int) :
    Inbox.Step s.inbox (.claim (attemptId, leaseToken))
      (s.claimEvent clock e leaseToken attemptId leaseMs).2.inbox := by
  obtain ⟨hhead, hguard⟩ := Option.filter_eq_some_iff.mp claimable
  simp only [Bool.and_eq_true] at hguard
  refine .claim (i := s.inbox) e hhead hguard.1.1.1 ?_ (EventAttemptRow.ends_finish ..)
    { eventId := e.id, token := leaseToken, expiresAt := clock.after 1 leaseMs } rfl
    (.new clock attemptId e.id _ leaseToken s.stateVersion (s.nextHistorySequence - 1)) rfl rfl rfl
  exact ⟨fun _ => rfl, fun _ => rfl, fun _ => rfl⟩

theorem Session.commitHandlerOutcome_steps {taken : TakenIds} {eventId : EventId}
    {claim : HandlerClaim} {outcome : OutcomeCommit} {r : Unit}
    (h : s.commitHandlerOutcome codec clock taken eventId claim outcome = .ok (r, s')) :
    ∃ ids cancelled, s.inbox.Arrives ids cancelled ∧
      Inbox.Step cancelled (.complete claim.eventId (claim.attemptId, claim.leaseToken) outcome)
        s'.inbox := by
  obtain ⟨c⟩ := Session.commitHandlerOutcome_ok h
  have hwaiting : c.waiting.inbox = s.inbox := by
    have happended : c.appended.inbox = s.inbox := by rw [Session.appendHistory_frame c.history]; rfl
    have hannounced := Session.inbox_of_sansUpdates (Session.sansUpdates_announceHistory c.appended
      clock claim outcome.history.length c.historySequence)
    have hstaged := Session.inbox_of_sansUpdates (Session.stageOperations_frame c.operations)
    have hwaits := Session.inbox_of_sansUpdates (Session.createWaits_frame c.waits)
    exact hwaits.trans (hstaged.trans (hannounced.trans happended))
  obtain ⟨ids, harrives⟩ := Session.cancelWaits_arrives c.cancellations
  obtain ⟨lease, hlease, hevent, -⟩ := c.held
  have hcancelled : c.cancelled.lease = c.waiting.lease :=
    congrArg (·.lease) (Session.cancelWaits_frame c.cancellations)
  have hheld : c.cancelled.lease = some lease := by
    rw [hcancelled, ← hlease]
    exact congrArg Inbox.lease hwaiting
  have hruns : ∃ a ∈ c.cancelled.eventAttempts,
      Inbox.runs (claim.attemptId, claim.leaseToken) a = true :=
    List.countP_pos_iff.mp (by rw [c.running]; exact Nat.one_pos)
  refine ⟨ids, c.cancelled.inboxAt c.eventSequence, ?_, ?_⟩
  · rw [← hwaiting]
    exact harrives
  · rw [Session.inbox_of_sansUpdates c.result]
    refine .commit (i := c.cancelled.inboxAt c.eventSequence) lease hheld hevent
      (claim.attemptId, claim.leaseToken) hruns ?_ (EventAttemptRow.ends_finish ..) outcome
    exact ⟨fun _ => rfl, fun _ => rfl, fun _ => rfl⟩

theorem Session.settled_arrives {id : OperationId} {f : OperationRow → OperationRow}
    {expiresAt : Option Timestamp} {e : EventRow}
    (fresh : ∀ e' ∈ s.events, Session.eventsConflict e e' = false) (pending : e.status = .pending)
    (sequence : e.sequence = s.nextEventSequence) :
    s.inbox.Arrives [e.id] (s.settled clock id f expiresAt e).inbox := by
  have hstep : Inbox.Step s.inbox (.arrive e.id)
      { s.inbox with events := s.events ++ [e], next := s.nextEventSequence + 1 } :=
    .arrive e pending sequence fun e' he' => id_ne_of_eventsConflict (fresh e' he')
  cases expiresAt <;> exact .single hstep

theorem Session.completeOperation_arrives {eventId : EventId} {claim : ClaimedOperation}
    {status : OperationStatus} {result : Option RawJson} {error : Option Value}
    {expiresAt : Option Timestamp} {httpStatus : Option Int} {r : EventRecord}
    (h : s.completeOperation clock eventId claim status result error expiresAt httpStatus =
      .ok (r, s')) : ∃ ids, s.inbox.Arrives ids s'.inbox := by
  obtain ⟨o, e, -, -, rfl, hfresh, -, hresult⟩ := Session.completeOperation_ok h
  refine ⟨[eventId], ?_⟩
  rw [Session.inbox_of_sansUpdates hresult]
  exact Session.settled_arrives hfresh rfl rfl

theorem Session.completeWithdrawal_arrives {eventId : EventId} {claim : ClaimedOperation}
    {targetId : OperationId} {expiresAt : Option Timestamp} {r : Bool × List EventRecord}
    (h : s.completeWithdrawal clock eventId claim targetId expiresAt = .ok (r, s')) :
    ∃ ids, s.inbox.Arrives ids s'.inbox := by
  obtain ⟨o, target, events, s₁, e, -, -, -, -, hwithdraw, rfl, hfresh, -, hresult⟩ :=
    Session.completeWithdrawal_ok h
  have htarget : ∃ ids, s.inbox.Arrives ids s₁.inbox := by
    rcases Session.withdrawTarget_ok hwithdraw with ⟨-, -, rfl⟩ | ⟨-, e₁, -, rfl, hfresh₁, rfl⟩
    · exact ⟨[], .refl _⟩
    · exact ⟨_, Session.settled_arrives hfresh₁ rfl rfl⟩
  obtain ⟨ids, hids⟩ := htarget
  refine ⟨ids ++ [eventId + 1], hids.trans ?_⟩
  rw [Session.inbox_of_sansUpdates hresult]
  exact Session.settled_arrives hfresh rfl rfl

/-! ## Every transaction -/

/-- The actions of a transaction as the log of the run tells them: what it commits, and under which
token it claims. -/
structure Logged (entry : Entry) (base : Uuid) (actions : List EventAction) : Prop where
  completed : FencedQueue.completed actions =
    entry.committed.toList.map fun c => (c.1.eventId, (c.1.attemptId, c.1.leaseToken), c.2)
  claims : ∀ key, .claim key ∈ actions → key.2 = base

theorem completed_arrivals (ids : List EventId) (actions : List EventAction) :
    FencedQueue.completed (ids.map .arrive ++ actions) = FencedQueue.completed actions := by
  induction ids with
  | nil => rfl
  | cons id ids ih => exact ih

/-- Arrivals commit nothing and claim nothing. -/
theorem Inbox.Arrives.logged {i i' : Inbox} {ids : List EventId} (h : i.Arrives ids i')
    {entry : Entry} {base : Uuid} (uncommitted : entry.committed = none) :
    ∃ actions, StepPath Inbox.Step i actions i' ∧ Logged entry base actions := by
  refine ⟨_, h, ?_, fun key hkey => by simp at hkey⟩
  have := completed_arrivals ids []
  rw [List.append_nil] at this
  rw [this, uncommitted]
  rfl

/-- A transaction that leaves the inbox alone. -/
theorem Logged.same {i i' : Inbox} (h : i' = i) {entry : Entry} {base : Uuid}
    (uncommitted : entry.committed = none) :
    ∃ actions, StepPath Inbox.Step i actions i' ∧ Logged entry base actions := by
  rw [h]
  exact (Inbox.Arrives.refl i).logged uncommitted

/-- A transaction that is one step, neither a claim nor a commit. -/
theorem Logged.single {i i' : Inbox} {action : EventAction} (h : Inbox.Step i action i')
    {entry : Entry} {base : Uuid} (uncommitted : entry.committed = none)
    (quiet : FencedQueue.completed [action] = []) (unclaimed : ∀ key, action ≠ .claim key) :
    ∃ actions, StepPath Inbox.Step i actions i' ∧ Logged entry base actions := by
  refine ⟨_, .single h, by rw [quiet, uncommitted]; rfl, fun key hkey => ?_⟩
  exact absurd (List.mem_singleton.mp hkey).symm (unclaimed key)

/-- Every transaction is a path of the inbox, with the commits and claims that the run logs. -/
theorem SessionStep.path {db : Db} {call : StoreCall} {reply : Reply}
    (step : SessionStep codec clock db call reply s s')
    (known : ∀ claim ∈ call.handlerClaim, claim.sessionId = s.id → s.inbox.Knows claim) :
    ∃ actions, StepPath Inbox.Step s.inbox actions s'.inbox ∧
      Logged { call, clock, reply } db.nextUuid actions := by
  cases step with
  | patchSessionMetadata h =>
    simp only [Session.patchMetadata] at h
    split at h
    · cases h
    · cases h
      exact Logged.same rfl rfl
  | enqueueExternalEvent session external h =>
    obtain ⟨ids, harrives⟩ := Session.enqueueExternalEvent_arrives h
    exact harrives.logged rfl
  | claimNextEvent claimable =>
    refine ⟨_, .single (Session.claimEvent_steps claimable _ _ _), rfl, fun key hkey => ?_⟩
    cases List.mem_singleton.mp hkey
    rfl
  | renewEventClaim session h =>
    exact Logged.single (Session.renewEventClaim_steps h) rfl rfl (by simp)
  | @recordHandlerFailure _ _ claim _ _ blocked _ session h =>
    have hstep := Session.recordHandlerFailure_steps h (known claim rfl session)
    cases blocked <;> exact Logged.single hstep rfl rfl (by simp)
  | @abandonHandlerAttempt _ _ claim _ _ _ session h =>
    exact Logged.single (Session.abandonHandlerAttempt_steps h (known claim rfl session)) rfl rfl
      (by simp)
  | commitHandlerOutcome session h =>
    obtain ⟨ids, cancelled, harrives, hstep⟩ := Session.commitHandlerOutcome_steps h
    refine ⟨_, StepPath.append harrives (.single hstep), ?_, fun key hkey => by simp at hkey⟩
    rw [completed_arrivals]
    rfl
  | retryBlockedEvent h =>
    rcases Session.retryBlockedEvent_steps h with hsame | hstep
    · exact Logged.same hsame rfl
    · exact Logged.single hstep rfl rfl (by simp)
  | resolveWait h =>
    obtain ⟨ids, harrives⟩ := Session.resolveWait_arrives h
    exact harrives.logged rfl
  | expireWait h =>
    obtain ⟨ids, harrives⟩ := Session.expireWait_arrives h
    exact harrives.logged rfl
  | claimOperation found claimable =>
    exact Logged.same (Session.inbox_of_sansUpdates (Session.claimOperation_eq ..)) rfl
  | deferOperation session h =>
    obtain ⟨o, -, -, -, -, rfl⟩ := Session.deferOperation_ok h
    exact Logged.same rfl rfl
  | recordOperationAccepted session h =>
    obtain ⟨o, -, -, -, -, -, rfl⟩ := Session.recordOperationAccepted_ok h
    exact Logged.same rfl rfl
  | renewOperationClaim found h =>
    obtain ⟨o, leaseMs, -, rfl⟩ := Session.renewOperationClaim_ok h
    exact Logged.same rfl rfl
  | recordOperationRetry session h =>
    obtain ⟨o, status, -, -, -, rfl⟩ := Session.recordOperationRetry_ok h
    exact Logged.same rfl rfl
  | recordOperationPendingResult session h =>
    obtain ⟨o, -, -, -, -, hresult⟩ := Session.recordOperationPendingResult_ok h
    exact Logged.same (Session.inbox_of_sansUpdates hresult) rfl
  | completeWithdrawal session phase kind target h =>
    obtain ⟨ids, harrives⟩ := Session.completeWithdrawal_arrives h
    exact harrives.logged rfl
  | completeOperation session terminal h =>
    obtain ⟨ids, harrives⟩ := Session.completeOperation_arrives h
    exact harrives.logged rfl
  | deleteExpiredOperationRequest h =>
    simp only [Session.deleteExpiredOperationRequest] at h
    split at h <;> cases h <;> exact Logged.same rfl rfl
  | pruneUpdates h =>
    simp only [Session.pruneUpdates] at h
    split at h <;> cases h <;> exact Logged.same rfl rfl

/-- The claim of a new attempt is known. -/
theorem Session.claimEvent_knows (e : EventRow) (leaseToken attemptId : Uuid) (leaseMs : Int) :
    (s.claimEvent clock e leaseToken attemptId leaseMs).2.inbox.Knows
      (s.claimEvent clock e leaseToken attemptId leaseMs).1.claim := by
  intro lease hlease _
  cases hlease
  exact ⟨rfl, rfl, _, List.mem_append_right _ List.mem_cons_self,
    by simp [Inbox.runs, EventAttemptRow.new, ClaimedEvent.claim, Session.claimEvent]⟩

theorem SessionStep.issued_knows {db : Db} {call : StoreCall} {reply : Reply}
    (step : SessionStep codec clock db call reply s s') {claim : HandlerClaim}
    (issued : claim ∈ Entry.issuedHandlerClaim { call, clock, reply }) : s'.inbox.Knows claim := by
  cases step with
  | claimNextEvent claimable =>
    cases issued
    intro lease hlease htoken
    exact Session.claimEvent_knows _ _ _ _ lease hlease htoken
  | _ => exact (Option.not_mem_none claim issued).elim

theorem SessionStep.committed_session {db : Db} {call : StoreCall} {reply : Reply}
    (step : SessionStep codec clock db call reply s s') {c : HandlerClaim × OutcomeCommit}
    (committed : c ∈ Entry.committed { call, clock, reply }) : c.1.sessionId = s.id := by
  by_contra hother
  exact (step.foreign hother).committed c committed rfl

end

/-! ## Every run -/

/-- The outcomes that a run committed for one session, in order. -/
def commitsOf (trace : List Entry) (id : SessionId) : List (HandlerClaim × OutcomeCommit) :=
  (commits trace).filter fun c => c.1.sessionId = id

/-- A committed outcome as the queue records it. -/
def completion (c : HandlerClaim × OutcomeCommit) : EventId × AttemptKey × OutcomeCommit :=
  (c.1.eventId, (c.1.attemptId, c.1.leaseToken), c.2)

theorem commitsOf_foreign {trace : List Entry} {entry : Entry} {id : SessionId}
    (foreign : entry.Foreign id) : commitsOf (trace ++ [entry]) id = commitsOf trace id := by
  unfold commitsOf
  rw [commits_concat, List.filter_append]
  have hnone : entry.committed.toList.filter (fun c => c.1.sessionId = id) = [] := by
    refine List.filter_eq_nil_iff.mpr fun c hc => ?_
    simpa using foreign.committed c (Option.mem_toList.mp hc)
  rw [hnone, List.append_nil]

theorem commitsOf_own {trace : List Entry} {entry : Entry} {id : SessionId}
    (own : ∀ c ∈ entry.committed, c.1.sessionId = id) :
    commitsOf (trace ++ [entry]) id = commitsOf trace id ++ entry.committed.toList := by
  unfold commitsOf
  rw [commits_concat, List.filter_append]
  congr 1
  exact List.filter_eq_self.mpr fun c hc => by simpa using own c (Option.mem_toList.mp hc)

/-- A session that is just created has no commits yet. -/
theorem commitsOf_create {trace : List Entry} {clock : Clock} {session : NewSession}
    (absent : ∀ c ∈ commits trace, c.1.sessionId ≠ session.id) :
    commitsOf (trace ++ [⟨.createSession session, clock,
      .session (Session.create clock session).record⟩]) (Session.create clock session).id = [] := by
  have hnone : commitsOf trace session.id = [] :=
    List.filter_eq_nil_iff.mpr fun c hc => by simpa using absent c hc
  rw [commitsOf_own (forall_mem_of_none rfl)]
  exact (List.append_nil _).trans hnone

/-- The inbox of a session stands for the queue whose completions are the commits of the run, and
knows every claim that was issued for it. -/
structure InboxInvariant (trace : List Entry) (s : Session) : Prop where
  queue : ∃ q : EventQueue, Represents s.inbox q ∧ q.done = (commitsOf trace s.id).map completion
  known : ∀ claim ∈ handlerClaims trace, claim.sessionId = s.id → s.inbox.Knows claim

theorem inboxInvariant_step {codec : Codec} {clock : Clock} {trace : List Entry} {db : Db}
    {call : StoreCall} {reply : Reply} {s s' : Session} (registered : Registered trace db)
    (admissible : Admissible trace call) (step : SessionStep codec clock db call reply s s')
    (h : InboxInvariant trace s) : InboxInvariant (trace ++ [⟨call, clock, reply⟩]) s' := by
  obtain ⟨q, hrepresents, hdone⟩ := h.queue
  obtain ⟨actions, path, logged⟩ := step.path fun claim hclaim =>
    h.known claim (admissible.handler claim hclaim)
  obtain ⟨q', hpath, hrepresents'⟩ := StepPath.simulates (fun _ _ _ _ represents step => represents.step step) path
    hrepresents
  refine ⟨⟨q', hrepresents', ?_⟩, ?_⟩
  · rw [FencedQueue.done_of_path hpath, hdone, logged.completed, step.id_eq,
      commitsOf_own fun c hc => step.committed_session hc, List.map_append]
    rfl
  · intro claim hclaim hid
    rw [handlerClaims_concat] at hclaim
    rcases List.mem_append.mp hclaim with hold | hnew
    · refine (h.known claim hold (hid.trans step.id_eq)).path path fun key hkey heq => ?_
      have hfresh := registered.handlerTokens claim hold
      rw [← heq, logged.claims key hkey] at hfresh
      exact Nat.lt_irrefl _ hfresh
    · exact step.issued_knows (Option.mem_toList.mp hnew)

theorem inboxInvariant_rule (codec : Codec) : SessionRule codec InboxInvariant where
  create trace clock session absent _ := by
    refine ⟨⟨FencedQueue.empty, Represents.create clock session, ?_⟩, ?_⟩
    · rw [commitsOf_create absent]
      rfl
    · intro claim _ _ lease hlease
      cases hlease
  step trace db call clock reply s s' registered admissible step h :=
    inboxInvariant_step registered admissible step h
  foreign trace entry s foreign h := by
    refine ⟨?_, fun claim hclaim hid => ?_⟩
    · rw [commitsOf_foreign foreign]
      exact h.queue
    · rw [handlerClaims_concat] at hclaim
      rcases List.mem_append.mp hclaim with hold | hnew
      · exact h.known claim hold hid
      · exact absurd hid (foreign.handlerClaim claim (Option.mem_toList.mp hnew))
  due trace s id f due h := ⟨h.queue, h.known⟩

/-- Every session of every run satisfies the inbox invariant. -/
theorem Run.inboxInvariant {codec : Codec} {trace : List Entry} {db : Db}
    (run : Run codec trace db) {s : Session} (hs : s ∈ db.sessions) : InboxInvariant trace s :=
  run.forall_sessions (inboxInvariant_rule codec) s hs

/-! ## In terms of the tables -/

/-- The attempts of a session that run. -/
def Session.runningAttempts (s : Session) : List EventAttemptRow :=
  s.eventAttempts.filter fun a => a.status = .running

/-- The first `k` events are handled and the next one, if there is one, is worked on: it alone may
be processing or blocked, the lease and the running attempt are its own, and the session is stopped
exactly when it is blocked. -/
structure Session.OrderedAt (s : Session) (k : Nat) : Prop where
  inside : k ≤ s.events.length
  handled : ∀ e ∈ s.events.take k, e.status = .handled
  head : ∀ e ∈ s.events[k]?, e.status = .pending ∨ e.status = .processing ∨ e.status = .blocked
  later : ∀ e ∈ s.events.drop (k + 1),
    e.status = .pending ∧ ∀ a ∈ s.eventAttempts, a.eventId ≠ e.id
  blocked : s.processingEnabled = false ↔ ∃ e ∈ s.events[k]?, e.status = .blocked
  leased : s.lease.isSome = true ↔ ∃ e ∈ s.events[k]?, e.status = .processing
  running : (∃ e ∈ s.events[k]?, e.status = .processing) ↔
    ∃ e ∈ s.events[k]?, ∃ lease ∈ s.lease, ∃ a, s.runningAttempts = [a] ∧ a.eventId = e.id ∧
      a.leaseToken = lease.token
  idle : (¬∃ e ∈ s.events[k]?, e.status = .processing) → s.runningAttempts = []

/-- The events carry the sequences from 1 on without a gap, and are handled in their order. -/
structure Session.InboxOrdered (s : Session) : Prop where
  sequences : s.events.map (·.sequence) = List.range' 1 (s.nextEventSequence - 1)
  next : 1 ≤ s.nextEventSequence
  ordered : ∃ k, s.OrderedAt k

/-- The event at the front of the queue, with the status of its focus. -/
theorem Represents.front {s : Session} {q : EventQueue} (h : Represents s.inbox q) {e : EventRow}
    (he : e ∈ s.events[q.done.length]?) :
    q.waiting.head? = some e.id ∧ e.status = focusStatus q.focus := by
  obtain ⟨handled, waiting, hevents, hids, hwaiting, -, hstatuses⟩ := h.split
  have hlen : handled.length = q.done.length := by simpa using congrArg List.length hids
  have hsplit : s.events = handled ++ waiting := hevents
  rw [hsplit, ← hlen, List.getElem?_append_right (Nat.le_refl _), Nat.sub_self] at he
  cases waiting with
  | nil => cases he
  | cons e₀ rest =>
    cases he
    have hw : q.waiting = e.id :: rest.map (·.id) := by simpa using hwaiting.symm
    simp only [List.map_cons, waitingStatuses, hw] at hstatuses
    exact ⟨by rw [hw]; rfl, (List.cons.inj hstatuses).1⟩

/-- A queue with something at its front has an event there. -/
theorem Represents.front_exists {s : Session} {q : EventQueue} (h : Represents s.inbox q)
    {item : EventId} {rest : List EventId} (hw : q.waiting = item :: rest) :
    ∃ e ∈ s.events[q.done.length]?, e.status = focusStatus q.focus := by
  obtain ⟨handled, waiting, hevents, hids, hwaiting, -, -⟩ := h.split
  have hlen : handled.length = q.done.length := by simpa using congrArg List.length hids
  have hsplit : s.events = handled ++ waiting := hevents
  cases waiting with
  | nil => simp [hw] at hwaiting
  | cons e rest' =>
    have he : e ∈ s.events[q.done.length]? := by
      rw [hsplit, ← hlen, List.getElem?_append_right (Nat.le_refl _), Nat.sub_self]
      rfl
    exact ⟨e, he, (h.front he).2⟩

/-- The current attempt of a queue is the only one that runs. -/
theorem Represents.running_eq {s : Session} {q : EventQueue} (h : Represents s.inbox q)
    {c : EventId × AttemptKey} (hc : q.current = some c) :
    ∃ a lease, s.runningAttempts = [a] ∧ a.eventId = c.1 ∧ s.lease = some lease ∧
      a.leaseToken = lease.token := by
  have hrunning := h.running
  have hlease := h.lease
  rw [hc] at hrunning hlease
  obtain ⟨before, a, hattempts, hstatus, hkey, hbefore⟩ := hrunning
  obtain ⟨lease, hl, htoken⟩ := Option.map_eq_some_iff.mp hlease
  have hsplit : s.eventAttempts = before ++ [a] := hattempts
  have hnone : before.filter (fun b => b.status = .running) = [] :=
    List.filter_eq_nil_iff.mpr fun b hb => by simpa using hbefore b hb
  refine ⟨a, lease, ?_, congrArg Prod.fst hkey, hl, ?_⟩
  · rw [Session.runningAttempts, hsplit, List.filter_append, hnone]
    simp [hstatus]
  · rw [← hkey] at htoken
    exact (congrArg Prod.snd htoken).symm

/-- Nothing runs when nothing is held. -/
theorem Represents.running_none {s : Session} {q : EventQueue} (h : Represents s.inbox q)
    (hc : q.current = none) : s.runningAttempts = [] ∧ s.lease = none := by
  have hrunning := h.running
  have hlease := h.lease
  rw [hc] at hrunning hlease
  have hnone : ∀ a ∈ s.eventAttempts, a.status ≠ .running := hrunning
  exact ⟨List.filter_eq_nil_iff.mpr fun a ha => by simpa using hnone a ha,
    Option.map_eq_none_iff.mp hlease⟩

/-- A queue holds its front exactly when the front event is processing. -/
theorem Represents.processing_iff {s : Session} {q : EventQueue} (h : Represents s.inbox q) :
    (∃ e ∈ s.events[q.done.length]?, e.status = .processing) ↔ ∃ c, q.current = some c := by
  constructor
  · rintro ⟨e, he, hstatus⟩
    obtain ⟨hw, hfocus⟩ := h.front he
    rw [hstatus] at hfocus
    obtain ⟨rest, hwaiting⟩ : ∃ rest, q.waiting = e.id :: rest := by
      cases hq : q.waiting with
      | nil => simp [hq] at hw
      | cons x rest => exact ⟨rest, by simp [hq] at hw; rw [hw]⟩
    cases hf : q.focus with
    | held token => exact ⟨(e.id, token), by simp only [FencedQueue.current, hwaiting, hf]⟩
    | free | blocked => simp [hf, focusStatus] at hfocus
  · rintro ⟨c, hc⟩
    unfold FencedQueue.current at hc
    split at hc
    · rename_i hw hf
      obtain ⟨e, he, hstatus⟩ := h.front_exists hw
      exact ⟨e, he, by rw [hstatus, hf]; rfl⟩
    · cases hc

/-- A queue is blocked exactly when the front event is. -/
theorem Represents.blocked_iff {s : Session} {q : EventQueue} (h : Represents s.inbox q) :
    (∃ e ∈ s.events[q.done.length]?, e.status = .blocked) ↔ q.focus = .blocked := by
  constructor
  · rintro ⟨e, he, hstatus⟩
    have hfocus := (h.front he).2
    rw [hstatus] at hfocus
    cases hf : q.focus with
    | blocked => rfl
    | free | held => simp [hf, focusStatus] at hfocus
  · intro hf
    cases hw : q.waiting with
    | nil => exact absurd (hf.symm.trans (q.idle hw)) (by simp)
    | cons item rest =>
      obtain ⟨e, he, hstatus⟩ := h.front_exists hw
      exact ⟨e, he, by rw [hstatus, hf]; rfl⟩

/-- An event behind the front is pending and was never tried. -/
theorem Represents.later {s : Session} {q : EventQueue} (h : Represents s.inbox q) {e : EventRow}
    (he : e ∈ s.events.drop (q.done.length + 1)) :
    e.status = .pending ∧ ∀ a ∈ s.eventAttempts, a.eventId ≠ e.id := by
  obtain ⟨handled, waiting, hevents, hids, hwaiting, -, hstatuses⟩ := h.split
  have hlen : handled.length = q.done.length := by simpa using congrArg List.length hids
  have hsplit : s.events = handled ++ waiting := hevents
  have hdrop : s.events.drop (q.done.length + 1) = waiting.drop 1 := by
    rw [hsplit, ← hlen, List.drop_append]
    simp
  rw [hdrop] at he
  cases waiting with
  | nil => cases he
  | cons front rest =>
    have hrest : e ∈ rest := by simpa using he
    have hw : q.waiting = front.id :: rest.map (·.id) := by simpa using hwaiting.symm
    simp only [List.map_cons, waitingStatuses, hw] at hstatuses
    have hpending : e.status ∈ (rest.map (·.id)).map fun _ => EventStatus.pending :=
      (List.cons.inj hstatuses).2 ▸ List.mem_map_of_mem hrest
    obtain ⟨-, -, hstatus⟩ := List.mem_map.mp hpending
    refine ⟨hstatus.symm, fun a ha heq => ?_⟩
    have hin : e.id ∈ rest.map (·.id) := List.mem_map_of_mem hrest
    have hdistinct := h.distinct
    rw [FencedQueue.items, hw, List.nodup_append, List.nodup_cons] at hdistinct
    rcases h.attempted a ha with hdone | hfront
    · exact hdistinct.2.2 _ hdone _ (List.mem_cons_of_mem _ hin) heq
    · rw [hw, heq] at hfront
      exact hdistinct.2.1.1 (by rwa [Option.some.inj hfront])

/-- The inbox of every session of every run is ordered. -/
theorem inbox_ordered {codec : Codec} {trace : List Entry} {db : Db} (run : Run codec trace db) :
    ∀ s ∈ db.sessions, s.InboxOrdered := by
  intro s hs
  obtain ⟨q, h, -⟩ := (run.inboxInvariant hs).queue
  have hnext : s.nextEventSequence = s.events.length + 1 := h.next
  refine ⟨?_, hnext ▸ Nat.le_add_left 1 _, q.done.length, ?_⟩
  · rw [hnext, Nat.add_sub_cancel]
    exact h.sequences
  · have hprocessing := h.processing_iff
    refine
      { inside := ?_
        handled := ?_
        head := ?_
        later := fun e he => h.later he
        blocked := ?_
        leased := ?_
        running := ?_
        idle := ?_ }
    · have hlength := congrArg List.length h.ids
      simp only [List.length_map, FencedQueue.items, List.length_append] at hlength
      exact hlength ▸ Nat.le_add_right _ _
    · obtain ⟨handled, waiting, hevents, hids, -, hhandled, -⟩ := h.split
      have hlen : handled.length = q.done.length := by simpa using congrArg List.length hids
      intro e he
      have hsplit : s.events = handled ++ waiting := hevents
      rw [hsplit, ← hlen, List.take_left] at he
      have : e.status ∈ q.done.map fun _ => EventStatus.handled :=
        hhandled ▸ List.mem_map_of_mem he
      obtain ⟨_, _, hstatus⟩ := List.mem_map.mp this
      exact hstatus.symm
    · intro e he
      rw [(h.front he).2]
      cases q.focus <;> simp [focusStatus]
    · rw [h.blocked_iff]
      have henabled : s.processingEnabled = true ↔ q.focus ≠ .blocked := h.enabled
      cases hb : s.processingEnabled with
      | true => simpa using henabled.mp hb
      | false => simpa [hb] using henabled
    · rw [hprocessing]
      cases hc : q.current with
      | none => simp [(h.running_none hc).2]
      | some c =>
        obtain ⟨a, lease, -, -, hlease, -⟩ := h.running_eq hc
        simp [hlease]
    · constructor
      · intro hexists
        obtain ⟨c, hc⟩ := hprocessing.mp hexists
        obtain ⟨a, lease, hruns, hevent, hlease, htoken⟩ := h.running_eq hc
        obtain ⟨e, he, -⟩ := hexists
        refine ⟨e, he, lease, hlease, a, hruns, ?_, htoken⟩
        have hfront := (h.front he).1
        unfold FencedQueue.current at hc
        split at hc
        · rename_i hw _
          cases hc
          rw [hw] at hfront
          exact hevent.trans (Option.some.inj hfront)
        · cases hc
      · rintro ⟨e, he, lease, hlease, -⟩
        refine hprocessing.mpr ?_
        cases hc : q.current with
        | none => exact absurd ((h.running_none hc).2.symm.trans hlease) (by simp)
        | some c => exact ⟨c, rfl⟩
    · intro hnone
      refine (h.running_none ?_).1
      cases hc : q.current with
      | none => rfl
      | some c => exact absurd (hprocessing.mpr ⟨c, hc⟩) hnone

/-- The inbox after a first turn is ordered. -/
theorem inbox_ordered_firstTurn :
    let db := (replay plainCodec stillClock firstTurn).2
    ∀ s ∈ db.sessions, s.InboxOrdered :=
  inbox_ordered firstTurn_run

end AgentPlatform.Store
