import AgentPlatform.Store.InboxInvariant

/-!
# Handler effects happen once

The effects that a session holds are what the sequential handler makes of the outcomes that the run
committed for it, one for each handled event and in the order of the events. A worker whose claim is
no longer current changes nothing.
-/

namespace AgentPlatform.Store

open Fallible

/-! ## The effects of a run -/

/-- A session holds the effects of the outcomes that the run committed for it. -/
def HoldsCommits (codec : Codec) (trace : List Entry) (s : Session) : Prop :=
  ∃ session ∈ created trace, session.id = s.id ∧
    s.effects = Effects.fold codec session (commitsOf trace s.id)

theorem HoldsCommits.step {codec : Codec} {clock : Clock} {trace : List Entry} {db : Db}
    {call : StoreCall} {reply : Reply} {s s' : Session}
    (step : SessionStep codec clock db call reply s s') (h : HoldsCommits codec trace s) :
    HoldsCommits codec (trace ++ [⟨call, clock, reply⟩]) s' := by
  obtain ⟨session, hcreated, hid, heffects⟩ := h
  refine ⟨session, ?_, hid.trans step.id_eq.symm, ?_⟩
  · rw [created_concat]
    exact List.mem_append_left _ hcreated
  · rw [step.effects, heffects, step.id_eq, commitsOf_own fun c hc => step.committed_session hc]
    exact (List.foldl_append ..).symm

theorem holdsCommits_rule (codec : Codec) : SessionRule codec (HoldsCommits codec) where
  create trace clock session absent _ := by
    refine ⟨session, ?_, rfl, ?_⟩
    · rw [created_concat]
      exact List.mem_append_right _ List.mem_cons_self
    · rw [commitsOf_create absent]
      rfl
  step trace db call clock reply s s' registered admissible step h := h.step step
  foreign trace entry s foreign h := by
    obtain ⟨session, hcreated, hid, heffects⟩ := h
    refine ⟨session, ?_, hid, ?_⟩
    · rw [created_concat]
      exact List.mem_append_left _ hcreated
    · rw [commitsOf_foreign foreign]
      exact heffects
  due trace s id f due h := by
    obtain ⟨session, hcreated, hid, heffects⟩ := h
    refine ⟨session, hcreated, hid, ?_⟩
    rw [s.effects_updateOperations _ fun o => ?_]
    · exact heffects
    · obtain ⟨t, -, ht⟩ := due o
      rw [ht]
      rfl

theorem Run.holdsCommits {codec : Codec} {trace : List Entry} {db : Db} (run : Run codec trace db)
    {s : Session} (hs : s ∈ db.sessions) : HoldsCommits codec trace s :=
  run.forall_sessions (holdsCommits_rule codec) s hs

/-! ## In terms of the tables -/

/-- The events of a session that were handled. -/
def Session.handledEvents (s : Session) : List EventRow :=
  s.events.filter fun e => e.status = .handled

/-- What a run leaves in a session is what handling its events one after the other leaves. -/
structure Session.HandledOnce (codec : Codec) (trace : List Entry) (s : Session) : Prop where
  /-- No event is committed twice. -/
  once : ∀ e ∈ s.events, (s.eventAttempts.countP fun a =>
    a.eventId = e.id && a.status = .committed) ≤ 1
  /-- Every handled event is a new version of the state. -/
  version : s.stateVersion = s.handledEvents.length
  /-- Events stand in the order of their sequences. -/
  sequences : s.events.map (·.sequence) = List.range' 1 s.events.length
  /-- The commits of the run are those of the committed attempts, in the order of the events. -/
  attempts : committedKeys s.eventAttempts =
    (commitsOf trace s.id).map fun c => (c.1.eventId, c.1.attemptId, c.1.leaseToken)
  handled : s.handledEvents.map (·.id) = (commitsOf trace s.id).map (·.1.eventId)
  /-- State, history, operations and waits are those of the sequential handler. -/
  effects : ∃ session ∈ created trace, session.id = s.id ∧
    s.effects = Effects.fold codec session (commitsOf trace s.id)
  history : s.history.map (·.sequence) = List.range' 1 (s.nextHistorySequence - 1)

/-- The handled events are those at the front, in order. -/
theorem Represents.handled {s : Session} {q : EventQueue} (h : Represents s.inbox q) :
    s.handledEvents.map (·.id) = q.done.map (·.1) := by
  obtain ⟨handled, waiting, hevents, hids, -, hhandled, hstatuses⟩ := h.split
  have hsplit : s.events = handled ++ waiting := hevents
  have hfront : handled.filter (fun e => e.status = .handled) = handled := by
    refine List.filter_eq_self.mpr fun e he => ?_
    have : e.status ∈ q.done.map fun _ => EventStatus.handled := hhandled ▸ List.mem_map_of_mem he
    obtain ⟨_, _, hstatus⟩ := List.mem_map.mp this
    simp [← hstatus]
  have hrest : waiting.filter (fun e => e.status = .handled) = [] := by
    refine List.filter_eq_nil_iff.mpr fun e he => ?_
    have : e.status ∈ waitingStatuses q := hstatuses ▸ List.mem_map_of_mem he
    simpa using Represents.waiting_not_handled this
  rw [Session.handledEvents, hsplit, List.filter_append, hfront, hrest, List.append_nil, hids]

/-- An event has at most one attempt that committed. -/
theorem Represents.committed_once {s : Session} {q : EventQueue} (h : Represents s.inbox q)
    (id : EventId) :
    (s.eventAttempts.countP fun a => a.eventId = id && a.status = .committed) ≤ 1 := by
  have hcommitted : (committedKeys s.eventAttempts).map (·.1) = q.done.map (·.1) := by
    have := congrArg (List.map (·.1)) h.committed
    rw [List.map_map] at this
    exact this
  have hnodup : ((committedKeys s.eventAttempts).map (·.1)).Nodup := by
    rw [hcommitted]
    exact h.distinct.of_append_left
  have hcount : (s.eventAttempts.countP fun a => a.eventId = id && a.status = .committed) =
      ((committedKeys s.eventAttempts).map (·.1)).count id := by
    rw [committedKeys, List.map_map, List.count_eq_countP, List.countP_map, List.countP_filter]
    refine List.countP_congr fun a _ => ?_
    simp [EventAttemptRow.key]
  rw [hcount]
  exact List.nodup_iff_count_le_one.mp hnodup id

/-! ## Claims that are no longer current -/

/-- The claim holds the session: token, event and state version are the current ones. -/
def Session.Current (s : Session) (claim : HandlerClaim) : Prop :=
  ∃ lease, s.lease = some lease ∧ lease.token = claim.leaseToken ∧
    lease.eventId = claim.eventId ∧ s.stateVersion = claim.inputStateVersion

/-- The token, the event or the state version of the claim is not that of its session. -/
def Db.Stale (db : Db) (claim : HandlerClaim) : Prop :=
  ∀ s ∈ db.sessions, s.id = claim.sessionId → ¬s.Current claim

/-- A claim that passes the lock is current. -/
theorem Session.lockValidSessionClaim_current {s : Session} {clock : Clock} {claim : HandlerClaim}
    {out : HistorySequence × StateVersion} (h : s.lockValidSessionClaim clock claim = .ok out)
    (known : s.inbox.Knows claim) : s.Current claim := by
  obtain ⟨⟨lease, hlease, hevent, htoken, -⟩, -⟩ := Session.lockValidSessionClaim_ok h
  exact ⟨lease, hlease, htoken, hevent, (known lease hlease htoken).2.1⟩

/-- A transaction that fails on every session it may lock changes nothing. -/
theorem settle_transact_unchanged {α : Type} {db : Db} {reply : α → Reply} {id : SessionId}
    {draws : Nat} {body : Uuid → Session → Result (α × Session)}
    (fails : ∀ s ∈ db.sessions, s.id = id → ∀ a s', body db.nextUuid s ≠ .ok (a, s')) :
    (settle db reply (db.transact id draws body)).2 = db := by
  cases hresult : db.transact id draws body with
  | error error => rfl
  | ok result =>
    obtain ⟨a, db'⟩ := result
    obtain ⟨s, s', hs, hid, hbody, -⟩ := Db.transact_ok hresult
    exact absurd hbody (fails s hs hid a s')

/-- A call under a stale claim changes nothing. -/
theorem Run.stale_unchanged {codec : Codec} {trace : List Entry} {db : Db}
    (run : Run codec trace db) {call : StoreCall} {claim : HandlerClaim}
    (presents : call.handlerClaim = some claim) (issued : claim ∈ handlerClaims trace)
    (stale : db.Stale claim) (clock : Clock) : (exec codec clock db call).2 = db := by
  have hlock : ∀ s ∈ db.sessions, s.id = claim.sessionId → ∀ out,
      s.lockValidSessionClaim clock claim ≠ .ok out := by
    intro s hs hid out hlock
    have hknown := (run.inboxInvariant hs).known claim issued hid.symm
    exact stale s hs hid (Session.lockValidSessionClaim_current hlock hknown)
  cases call with
  | renewEventClaim claim leaseFor =>
    cases presents
    refine settle_transact_unchanged fun s hs hid a s' h => ?_
    simp only [Session.renewEventClaim] at h
    split at h
    · cases h
    · rename_i hok
      exact hlock s hs hid _ hok
  | recordHandlerFailure claim error retryAt blocked =>
    cases presents
    refine settle_transact_unchanged fun s hs hid a s' h => ?_
    simp only [Session.recordHandlerFailure] at h
    split at h
    · cases h
    · cases h
    · rename_i hok _
      exact hlock s hs hid _ hok
  | abandonHandlerAttempt claim error retryAt =>
    cases presents
    refine settle_transact_unchanged fun s hs hid a s' h => ?_
    simp only [Session.abandonHandlerAttempt] at h
    split at h
    · cases h
    · cases h
    · rename_i hok _
      exact hlock s hs hid _ hok
  | commitHandlerOutcome claim outcome =>
    cases presents
    refine settle_transact_unchanged fun s hs hid a s' h => ?_
    obtain ⟨out, hok, -⟩ := bind_ok h
    exact hlock s hs hid _ hok
  | _ => cases presents

/-- Handler effects are applied exactly once, whatever the workers do. -/
theorem handled_once {codec : Codec} {trace : List Entry} {db : Db} (run : Run codec trace db) :
    (∀ s ∈ db.sessions, s.HandledOnce codec trace) ∧
      ∀ (call : StoreCall) (claim : HandlerClaim) (clock : Clock),
        call.handlerClaim = some claim → claim ∈ handlerClaims trace → db.Stale claim →
          (exec codec clock db call).2 = db := by
  refine ⟨fun s hs => ?_, fun call claim clock presents issued stale =>
    run.stale_unchanged presents issued stale clock⟩
  obtain ⟨q, h, hdone⟩ := (run.inboxInvariant hs).queue
  obtain ⟨session, hcreated, hid, heffects⟩ := run.holdsCommits hs
  refine
    { once := fun e _ => h.committed_once e.id
      version := ?_
      sequences := h.sequences
      attempts := ?_
      handled := ?_
      effects := ⟨session, hcreated, hid, heffects⟩
      history := ?_ }
  · have hlength := congrArg List.length h.handled
    simp only [List.length_map] at hlength
    exact h.version.trans hlength.symm
  · have hcommitted : committedKeys s.eventAttempts = _ := h.committed
    rw [hcommitted, hdone, List.map_map]
    rfl
  · rw [h.handled, hdone, List.map_map]
    rfl
  · have hsequences := (Effects.fold_sequences codec session (commitsOf trace s.id)).2
    rw [← heffects] at hsequences
    simp only [Session.effects, List.map_map] at hsequences
    exact hsequences

/-- After a first turn its claim is stale, and a failure recorded under it changes nothing. -/
theorem handled_once_firstTurn :
    let claim : HandlerClaim :=
      { sessionId := 1, eventId := 0, attemptId := 2, leaseToken := 1, inputStateVersion := 0 }
    let (trace, db) := replay plainCodec stillClock firstTurn
    (∀ s ∈ db.sessions, s.HandledOnce plainCodec trace) ∧
      (exec plainCodec stillClock db (.recordHandlerFailure claim .null 0 false)).2 = db := by
  have hfree : ∀ s ∈ (replay plainCodec stillClock firstTurn).2.sessions, s.lease = none := by
    decide
  obtain ⟨honce, hstale⟩ := handled_once firstTurn_run
  refine ⟨honce, hstale _ _ stillClock rfl (by decide) fun s hs _ hcurrent => ?_⟩
  obtain ⟨lease, hlease, -⟩ := hcurrent
  rw [hfree s hs] at hlease
  cases hlease

end AgentPlatform.Store
