import AgentPlatform.Store.Drawn

/-!
# The failures of an event

`handler_failure_count` along runs. One call records a failure of one event and one call forgives
those of one event; `Run.failureStep` says so of every event over every call, and what the caller
held.
-/

namespace AgentPlatform.Store

/-! ## The count -/

/-- The errored attempts of an event that its last retry did not forgive. -/
def Session.handlerFailures (s : Session) (e : EventRow) : Int :=
  s.erroredAttempts e.id - e.retryFailureBaseline

/-- `Store::handler_failure_count`. -/
def Db.handlerFailureCount (db : Db) (eventId : EventId) : Result Int :=
  match db.sessions.findSome? fun s =>
      (s.events.find? (·.id = eventId)).map s.handlerFailures with
  | some count => .ok count
  | none => .error (.database .other)

/-- A retry of the session was recorded under the key. -/
def Db.knowsRetry (db : Db) (sessionId : SessionId) (key : String) : Bool :=
  (db.session? sessionId).any fun s => s.retries.any (·.idempotencyKey == key)

/-- The event that an answered retry let be tried again: an answer under a key that the session
knows repeats an earlier one. -/
def Db.retriedEvent (db : Db) (call : StoreCall) (reply : Reply) : Option (SessionId × EventId) :=
  match call, reply with
  | .retryBlockedEvent sessionId eventId _ key _ _, .retried _ =>
    if db.knowsRetry sessionId key then none else some (sessionId, eventId)
  | _, _ => none

/-- The call recorded a failure of the event. -/
def StoreCall.Fails (call : StoreCall) (reply : Reply) (sessionId : SessionId) (eventId : EventId) :
    Prop :=
  ∃ claim error retryAt blocked, call = .recordHandlerFailure claim error retryAt blocked ∧
    reply = .done ∧ claim.sessionId = sessionId ∧ claim.eventId = eventId

theorem StoreCall.Fails.counted {call : StoreCall} {reply : Reply} {sessionId : SessionId}
    {eventId : EventId} (h : call.Fails reply sessionId eventId) : call.countsFailures = true := by
  obtain ⟨_, _, _, _, rfl, -⟩ := h
  rfl

theorem Db.retriedEvent_uncounted {db : Db} {call : StoreCall} {reply : Reply}
    (uncounted : call.countsFailures = false) : db.retriedEvent call reply = none := by
  unfold Db.retriedEvent
  split
  · cases uncounted
  · rfl

/-- A retry is of the session that the call names. -/
theorem Db.retriedEvent_session {db : Db} {sessionId : SessionId} {eventId : EventId}
    {revision : Nat} {key : String} {request : RawJson} {reason : Option String} {reply : Reply}
    {retried : SessionId × EventId}
    (h : db.retriedEvent (.retryBlockedEvent sessionId eventId revision key request reason) reply =
      some retried) : sessionId = retried.1 := by
  unfold Db.retriedEvent at h
  split at h
  · rename_i hcall
    cases hcall
    split at h
    · cases h
    · cases h
      rfl
  · cases h

/-! ## The event that is worked on -/

section

variable {trace : List Entry} {s : Session}

theorem InboxInvariant.distinct (h : InboxInvariant trace s) : (s.events.map (·.id)).Nodup := by
  obtain ⟨q, hq, -⟩ := h.queue
  have hids : s.events.map (·.id) = q.items := hq.ids
  exact hids ▸ hq.distinct

/-- The event that a session is leased for is there, and processing. -/
theorem InboxInvariant.held_event (h : InboxInvariant trace s) {lease : SessionLease}
    (held : s.lease = some lease) :
    ∃ e ∈ s.events, e.id = lease.eventId ∧ e.status = .processing := by
  obtain ⟨q, hq, -⟩ := h.queue
  obtain ⟨rest, attemptId, hwaiting, hfocus⟩ := hq.of_lease held
  obtain ⟨front, hfront, hstatus⟩ := hq.front_exists hwaiting
  have hid := (hq.front hfront).1
  rw [hwaiting] at hid
  rw [hfocus] at hstatus
  exact ⟨front, List.mem_of_getElem? hfront, (Option.some.inj hid).symm, hstatus⟩

theorem InboxInvariant.held (h : InboxInvariant trace s) {lease : SessionLease}
    (held : s.lease = some lease) {e : EventRow} (he : e ∈ s.events) (event : e.id = lease.eventId) :
    e.status = .processing := by
  obtain ⟨front, hfront, hid, hstatus⟩ := h.held_event held
  rw [Table.eq_of_key h.distinct he hfront (event.trans hid.symm), hstatus]

/-- No event that is worked on is blocked. -/
theorem InboxInvariant.unblocked (h : InboxInvariant trace s) {clock : Clock} {e : EventRow}
    (he : e ∈ s.events) (works : s.WorksOn clock e.id) : e.status ≠ .blocked := by
  rcases works with ⟨lease, hlease, hevent⟩ | ⟨e₀, hclaimable, hevent⟩
  · rw [h.held hlease he hevent.symm]
    exact nofun
  · obtain ⟨hhead, hguard⟩ := Option.filter_eq_some_iff.mp hclaimable
    have hin : e₀ ∈ s.events := (List.mem_filter.mp (Table.firstBy_mem hhead)).1
    rw [← Table.eq_of_key h.distinct hin he hevent]
    intro hblocked
    simp [hblocked] at hguard

/-- The claim whose failure is recorded had the one attempt that ran. -/
theorem InboxInvariant.errored (h : InboxInvariant trace s) {claim : HandlerClaim}
    (issued : claim ∈ handlerClaims trace) (session : claim.sessionId = s.id)
    {lease : SessionLease} (held : s.lease = some lease) (token : lease.token = claim.leaseToken)
    (clock : Clock) (error : Option Value) (id : EventId) :
    (s.finishEventAttempt clock claim .errored error).erroredAttempts id =
      s.erroredAttempts id + if claim.eventId = id then 1 else 0 := by
  obtain ⟨q, hq, -⟩ := h.queue
  obtain ⟨hevent, -, hcurrent⟩ := h.known claim issued session lease held token
  obtain ⟨rest, attemptId, hwaiting, hfocus⟩ := hq.of_lease held
  have hrunning : OnlyRuns s.eventAttempts (some (lease.eventId, attemptId, lease.token)) := by
    have hruns := hq.running
    simp only [FencedQueue.current, hwaiting, hfocus] at hruns
    exact hruns
  obtain ⟨-, before, last, hattempts, hlast, hkey, -, hupdate⟩ :=
    hrunning.update_runs hcurrent (·.finish clock .errored error)
  have hown : last.eventId = claim.eventId := (congrArg Prod.fst hkey).trans hevent
  have hended : (s.finishEventAttempt clock claim .errored error).eventAttempts =
      before ++ [last.finish clock .errored error] := hupdate
  unfold Session.erroredAttempts
  rw [hended, hattempts, List.countP_append, List.countP_append, List.countP_singleton,
    List.countP_singleton]
  simp [EventAttemptRow.finish, hlast, hown]

end

/-! ## What was drawn -/

section

variable {codec : Codec} {trace : List Entry} {db : Db}

/-- A session after a call was there before it or is new. -/
theorem Run.session_before (run : Run codec trace db) (call : StoreCall) (clock : Clock)
    {t : Session} (ht : t ∈ (exec codec clock db call).2.sessions) :
    (∃ session, t = Session.create clock session) ∨
      ∃ s ∈ db.sessions, s.id = t.id ∧
        s.After codec clock db call (exec codec clock db call).1 t := by
  have hstep := exec_cases codec clock run.registered.unique call
  generalize (exec codec clock db call).1 = reply at hstep ⊢
  generalize (exec codec clock db call).2 = db' at hstep ht
  cases hstep with
  | quiet sessions uuids quiet => exact .inr ⟨t, sessions ▸ ht, rfl, .same⟩
  | @create session _ created fresh sessions uuids =>
    rw [sessions] at ht
    rcases List.mem_append.mp ht with hold | hnew
    · exact .inr ⟨t, hold, rfl, .same⟩
    · exact .inl ⟨session, List.mem_singleton.mp hnew⟩
  | @session _ s s' found step =>
    rcases Db.mem_put.mp ht with ⟨rfl, -⟩ | ⟨hold, -⟩
    · exact .inr ⟨s, found, step.id_eq.symm, .step step⟩
    · exact .inr ⟨t, hold, rfl, .same⟩
  | due id f due quiet sessions uuids =>
    rw [sessions] at ht
    obtain ⟨s, hs, rfl⟩ := List.mem_map.mp ht
    exact .inr ⟨s, hs, rfl, .due id f due⟩

/-- Attempts are of the session's events. -/
theorem Run.attempt_event (run : Run codec trace db) {s : Session} (hs : s ∈ db.sessions)
    {a : EventAttemptRow} (ha : a ∈ s.eventAttempts) : ∃ e ∈ s.events, e.id = a.eventId := by
  obtain ⟨q, hq, -⟩ := (run.inboxInvariant hs).queue
  have hin : a.eventId ∈ q.items := by
    rcases hq.attempted a ha with hdone | hfront
    · exact List.mem_append_left _ hdone
    · exact List.mem_append_right _ (List.mem_of_mem_head? hfront)
  have hids : s.events.map (·.id) = q.items := hq.ids
  rw [← hids] at hin
  exact List.mem_map.mp hin

/-- An event that was not drawn yet never failed. -/
theorem Run.erroredAttempts_undrawn (run : Run codec trace db) {s : Session}
    (hs : s ∈ db.sessions) {id : EventId} (undrawn : db.nextUuid ≤ id) :
    s.erroredAttempts id = 0 := by
  refine List.countP_eq_zero.mpr fun a ha herrored => ?_
  obtain ⟨e, he, hid⟩ := run.attempt_event hs ha
  simp only [Bool.and_eq_true, decide_eq_true_eq] at herrored
  have hdrawn := run.event_drawn s hs e he
  rw [hid, herrored.1] at hdrawn
  exact absurd hdrawn (Nat.not_lt.mpr undrawn)

/-- The supply only grows. -/
theorem Run.nextUuid_le (run : Run codec trace db) (call : StoreCall) (clock : Clock) :
    db.nextUuid ≤ (exec codec clock db call).2.nextUuid := by
  have hstep := exec_cases codec clock run.registered.unique call
  generalize (exec codec clock db call).1 = reply at hstep
  generalize (exec codec clock db call).2 = db' at hstep ⊢
  cases hstep with
  | quiet sessions uuids quiet => exact uuids
  | create created fresh sessions uuids => exact uuids.ge
  | session found step => exact Nat.le_add_right _ _
  | due id f due quiet sessions uuids => exact uuids.ge

/-- A claim that was issued is for an event that was drawn. -/
theorem Run.claim_drawn (run : Run codec trace db) {claim : HandlerClaim}
    (issued : claim ∈ handlerClaims trace) : claim.eventId < db.nextUuid := by
  induction run with
  | start => exact absurd issued List.not_mem_nil
  | step call clock run admissible ih =>
    rename_i trace db
    rw [handlerClaims_concat] at issued
    rcases List.mem_append.mp issued with hold | hnew
    · exact Nat.lt_of_lt_of_le (ih hold) (run.nextUuid_le call clock)
    · replace hnew := Option.mem_toList.mp hnew
      refine Nat.lt_of_lt_of_le ?_ (run.nextUuid_le call clock)
      have hstep := exec_cases codec clock run.registered.unique call
      generalize (exec codec clock db call).1 = reply at hstep hnew
      generalize (exec codec clock db call).2 = db' at hstep
      cases hstep with
      | quiet sessions uuids quiet | due id f due quiet sessions uuids =>
        rw [quiet.handlerClaim] at hnew
        exact absurd hnew (Option.not_mem_none claim)
      | create => cases hnew
      | session found step =>
        cases step with
        | @claimNextEvent _ _ _ e _ claimable =>
          cases hnew
          obtain ⟨hhead, -⟩ := Option.filter_eq_some_iff.mp claimable
          exact run.event_drawn _ found e (List.mem_filter.mp (Table.firstBy_mem hhead)).1
        | _ => exact absurd hnew (Option.not_mem_none claim)

/-- Events of different sessions have different ids. -/
theorem Run.event_session (run : Run codec trace db) {s s' : Session} (hs : s ∈ db.sessions)
    (hs' : s' ∈ db.sessions) {e e' : EventRow} (he : e ∈ s.events) (he' : e' ∈ s'.events)
    (same : e.id = e'.id) : s.id = s'.id := by
  induction run generalizing s s' e e' with
  | start => exact absurd hs List.not_mem_nil
  | step call clock run admissible ih =>
    rename_i trace db
    have hstep := exec_cases codec clock run.registered.unique call
    generalize (exec codec clock db call).1 = reply at hstep
    generalize (exec codec clock db call).2 = db' at hstep hs hs'
    cases hstep with
    | quiet sessions uuids quiet => exact ih (sessions ▸ hs) (sessions ▸ hs') he he' same
    | create created fresh sessions uuids =>
      -- the new session has no events
      have old {t : Session} (ht : t ∈ db'.sessions) {e : EventRow} (he : e ∈ t.events) :
          t ∈ db.sessions := by
        rw [sessions] at ht
        rcases List.mem_append.mp ht with hold | hnew
        · exact hold
        · rw [List.mem_singleton.mp hnew] at he
          exact absurd he List.not_mem_nil
      exact ih (old hs he) (old hs' he') he he' same
    | @session _ t t' found step =>
      -- an id that the call drew is behind those of the other sessions
      have apart {r : Session} (hr : r ∈ db.sessions) {e e' : EventRow} (he : e ∈ t'.events)
          (he' : e' ∈ r.events) (same : e.id = e'.id) : t'.id = r.id := by
        rcases step.events_drawn e he with ⟨e₀, he₀, hid⟩ | ⟨hnew, -⟩
        · exact step.id_eq.trans (ih found hr he₀ he' (hid.trans same))
        · have hdrawn := run.event_drawn r hr e' he'
          rw [← same] at hdrawn
          exact absurd hdrawn (Nat.not_lt.mpr hnew)
      rcases Db.mem_put.mp hs with ⟨rfl, -⟩ | ⟨hold, -⟩
      · rcases Db.mem_put.mp hs' with ⟨rfl, -⟩ | ⟨hold', -⟩
        · rfl
        · exact apart hold' he he' same
      · rcases Db.mem_put.mp hs' with ⟨rfl, -⟩ | ⟨hold', -⟩
        · exact (apart hold he' he same.symm).symm
        · exact ih hold hold' he he' same
    | due id f due quiet sessions uuids =>
      rw [sessions] at hs hs'
      obtain ⟨t, ht, rfl⟩ := List.mem_map.mp hs
      obtain ⟨t', ht', rfl⟩ := List.mem_map.mp hs'
      have hids : t.id = t'.id := ih ht ht' he he' same
      exact hids

/-! ## One event over a call -/

/-- What a call does to the failures of an event, `e` before it and `e'` after. -/
inductive FailureStep (db : Db) (call : StoreCall) (reply : Reply) (s s' : Session)
    (e e' : EventRow) : Prop
  | kept (failures : s'.handlerFailures e' = s.handlerFailures e)
      (blocked : e'.status = .blocked ↔ e.status = .blocked)
      (unrecorded : ¬call.Fails reply s.id e.id)
      (unforgiven : db.retriedEvent call reply ≠ some (s.id, e.id))
  | recorded {claim : HandlerClaim} {error : Value} {retryAt : Timestamp} {blocked : Bool}
      (call : call = .recordHandlerFailure claim error retryAt blocked) (reply : reply = .done)
      (session : claim.sessionId = s.id) (event : claim.eventId = e.id)
      (held : ∃ lease, s.lease = some lease ∧ lease.token = claim.leaseToken)
      (processing : e.status = .processing) (released : s'.lease = none)
      (failures : s'.handlerFailures e' = s.handlerFailures e + 1)
      (status : e'.status = if blocked then .blocked else .pending)
      (scheduled : e'.nextAttemptAt = retryAt)
  | forgiven (retried : db.retriedEvent call reply = some (s.id, e.id)) (released : s'.lease = none)
      (failures : s'.handlerFailures e' = 0) (status : e'.status = .pending)

theorem FailureStep.same {call : StoreCall} {reply : Reply} {s s' : Session} {e : EventRow}
    (attempts : s'.eventAttempts = s.eventAttempts) (unrecorded : ¬call.Fails reply s.id e.id)
    (unforgiven : db.retriedEvent call reply ≠ some (s.id, e.id)) :
    FailureStep db call reply s s' e e :=
  .kept (by rw [Session.handlerFailures, Session.handlerFailures,
    Session.erroredAttempts_congr attempts]) Iff.rfl unrecorded unforgiven

/-- An event over a call: there before it, or new and without failures. -/
def FailureHistory (db : Db) (call : StoreCall) (reply : Reply) (t : Session) (e' : EventRow) :
    Prop :=
  (db.nextUuid ≤ e'.id ∧ e'.status ≠ .blocked ∧ t.handlerFailures e' = 0 ∧
      call.countsFailures = false) ∨
    ∃ s ∈ db.sessions, s.id = t.id ∧ ∃ e ∈ s.events, e.id = e'.id ∧
      FailureStep db call reply s t e e'

variable {clock : Clock}

/-- The calls that neither record nor forgive a failure. -/
theorem Run.failureHistory_uncounted (run : Run codec trace db) {call : StoreCall}
    (uncounted : call.countsFailures = false) {t : Session}
    (ht : t ∈ (exec codec clock db call).2.sessions) {e' : EventRow} (he' : e' ∈ t.events) :
    FailureHistory db call (exec codec clock db call).1 t e' := by
  have hunrecorded {reply : Reply} {id : SessionId} {eventId : EventId} :
      ¬call.Fails reply id eventId := by
    intro hfails
    rw [hfails.counted] at uncounted
    cases uncounted
  have hunforgiven {reply : Reply} {named : SessionId × EventId} :
      db.retriedEvent call reply ≠ some named := by
    rw [Db.retriedEvent_uncounted uncounted]
    exact nofun
  rcases run.session_before call clock ht with ⟨session, rfl⟩ | ⟨s, hs, hid, hafter⟩
  · exact absurd he' List.not_mem_nil
  · cases hafter with
    | same => exact .inr ⟨t, hs, rfl, e', he', rfl, .same rfl hunrecorded hunforgiven⟩
    | due id f due => exact .inr ⟨s, hs, rfl, e', he', rfl, .same rfl hunrecorded hunforgiven⟩
    | step step =>
      have hkeeps := step.keepsFailures uncounted
      rcases hkeeps.events e' he' with ⟨e, he, hmoved⟩ | harrived
      · refine .inr ⟨s, hs, hid, e, he, hmoved.id.symm, .kept ?_ ?_ hunrecorded hunforgiven⟩
        · rw [Session.handlerFailures, Session.handlerFailures, hmoved.id, hmoved.baseline,
            hkeeps.errored]
        · rcases hmoved.status with hsame | ⟨hstatus, hworks⟩
          · rw [hsame]
          · exact ⟨fun h => absurd h hstatus,
              fun h => absurd h ((run.inboxInvariant hs).unblocked he hworks)⟩
      · refine .inl ⟨harrived.drawn, harrived.unblocked, ?_, uncounted⟩
        rw [Session.handlerFailures, hkeeps.errored, harrived.baseline,
          run.erroredAttempts_undrawn hs harrived.drawn]
        rfl

/-- A session that the call leaves alone keeps the failures of its events. -/
theorem FailureHistory.of_other {call : StoreCall} {reply : Reply} {t : Session}
    (ht : t ∈ db.sessions) {e : EventRow} (he : e ∈ t.events)
    (unrecorded : ¬call.Fails reply t.id e.id)
    (unforgiven : db.retriedEvent call reply ≠ some (t.id, e.id)) :
    FailureHistory db call reply t e :=
  .inr ⟨t, ht, rfl, e, he, rfl, .same rfl unrecorded unforgiven⟩

theorem Run.failureHistory_recorded (run : Run codec trace db) {claim : HandlerClaim}
    (issued : claim ∈ handlerClaims trace) {error : Value} {retryAt : Timestamp} {blocked : Bool}
    {t : Session}
    (ht : t ∈ (exec codec clock db (.recordHandlerFailure claim error retryAt blocked)).2.sessions)
    {e' : EventRow} (he' : e' ∈ t.events) :
    FailureHistory db (.recordHandlerFailure claim error retryAt blocked)
      (exec codec clock db (.recordHandlerFailure claim error retryAt blocked)).1 t e' := by
  have hexec : exec codec clock db (.recordHandlerFailure claim error retryAt blocked) =
      settle db (fun _ => .done) (db.recordHandlerFailure clock claim error retryAt blocked) := rfl
  rw [hexec] at ht ⊢
  cases hresult : db.recordHandlerFailure clock claim error retryAt blocked with
  | error failure =>
    rw [hresult] at ht
    refine .of_other ht he' ?_ nofun
    rintro ⟨_, _, _, _, -, hreply, -⟩
    cases hreply
  | ok result =>
    obtain ⟨_, db'⟩ := result
    rw [hresult] at ht
    obtain ⟨s, s', hs, hsession, hbody, rfl⟩ := Db.transact_ok hresult
    have hstep : SessionStep codec clock db _ _ s s' := .recordHandlerFailure hsession.symm hbody
    have hid := hstep.id_eq
    rcases Db.mem_put.mp ht with ⟨rfl, -⟩ | ⟨hold, hother⟩
    · obtain ⟨⟨lease, hlease, hevent, htoken, -⟩, hfree, hattempts, hevents⟩ :=
        Session.recordHandlerFailure_ok hbody
      have hinbox := run.inboxInvariant hs
      have herrored (id : EventId) : t.erroredAttempts id =
          s.erroredAttempts id + if claim.eventId = id then 1 else 0 := by
        rw [Session.erroredAttempts_congr hattempts,
          hinbox.errored issued hsession.symm hlease htoken]
      rw [hevents] at he'
      obtain ⟨e, he, rfl⟩ := Table.mem_update.mp he'
      by_cases hown : e.id = claim.eventId
      · rw [if_pos (decide_eq_true hown)]
        refine .inr ⟨s, hs, hid.symm, e, he, rfl, .recorded rfl rfl hsession.symm hown.symm
          ⟨lease, hlease, htoken⟩ ?_ hfree ?_ rfl rfl⟩
        · exact hinbox.held hlease he (hown.trans hevent.symm)
        · simp only [Session.handlerFailures, herrored, if_pos hown.symm]
          omega
      · rw [if_neg (by simpa using hown)]
        refine .inr ⟨s, hs, hid.symm, e, he, rfl, .kept ?_ Iff.rfl ?_ nofun⟩
        · simp only [Session.handlerFailures, herrored, if_neg (Ne.symm hown), Nat.add_zero]
        · rintro ⟨_, _, _, _, hcall, -, -, hclaimed⟩
          cases hcall
          exact hown hclaimed.symm
    · refine .of_other hold he' ?_ nofun
      rintro ⟨_, _, _, _, hcall, -, hclaimed, -⟩
      cases hcall
      exact hother (hclaimed.symm.trans (hsession.symm.trans hid.symm))

theorem Run.failureHistory_retried (run : Run codec trace db) {sessionId : SessionId}
    {eventId : EventId} {revision : Nat} {key : String} {request : RawJson} {reason : Option String}
    {t : Session}
    (ht : t ∈ (exec codec clock db
      (.retryBlockedEvent sessionId eventId revision key request reason)).2.sessions)
    {e' : EventRow} (he' : e' ∈ t.events) :
    FailureHistory db (.retryBlockedEvent sessionId eventId revision key request reason)
      (exec codec clock db (.retryBlockedEvent sessionId eventId revision key request reason)).1
      t e' := by
  have hexec : exec codec clock db
        (.retryBlockedEvent sessionId eventId revision key request reason) =
      settle db .retried
        (db.retryBlockedEvent codec clock sessionId eventId revision key request reason) := rfl
  have hrecorded {reply : Reply} {id : SessionId} {named : EventId} :
      ¬StoreCall.Fails (.retryBlockedEvent sessionId eventId revision key request reason) reply id
        named := by
    rintro ⟨_, _, _, _, hcall, -⟩
    cases hcall
  rw [hexec] at ht ⊢
  cases hresult : db.retryBlockedEvent codec clock sessionId eventId revision key request reason with
  | error failure =>
    rw [hresult] at ht
    exact .of_other ht he' hrecorded nofun
  | ok result =>
    obtain ⟨retry, db'⟩ := result
    rw [hresult] at ht
    obtain ⟨s, s', hs, hsession, hbody, rfl⟩ := Db.transact_ok hresult
    have hfound : db.session? sessionId = some s :=
      hsession ▸ Table.lookup_eq_some run.registered.unique hs
    have hstep : SessionStep codec clock db _ _ s s' := .retryBlockedEvent hbody
    have hid := hstep.id_eq
    rcases Db.mem_put.mp ht with ⟨rfl, -⟩ | ⟨hold, hother⟩
    · rcases Session.retryBlockedEvent_ok hbody with ⟨⟨existing, hknown⟩, rfl⟩ |
        ⟨hnew, hmatches, hlease, hattempts, hevents⟩
      · refine .of_other hs he' hrecorded ?_
        have hkey : (existing.idempotencyKey == key) = true := by
          simpa using List.find?_some hknown
        have hrepeats : t.retries.any (·.idempotencyKey == key) = true :=
          List.any_eq_true.mpr ⟨existing, List.mem_of_find?_eq_some hknown, hkey⟩
        simp [Db.retriedEvent, Db.knowsRetry, settle, hfound, hrepeats]
      · have hfresh : s.retries.any (·.idempotencyKey == key) = false := by
          simpa using List.find?_eq_none.mp hnew
        have hretried : db.retriedEvent
            (.retryBlockedEvent sessionId eventId revision key request reason) (.retried retry) =
              some (sessionId, eventId) := by
          simp [Db.retriedEvent, Db.knowsRetry, hfound, hfresh]
        rw [hevents] at he'
        obtain ⟨e, he, rfl⟩ := Table.mem_update.mp he'
        by_cases hown : e.id = eventId
        · rw [if_pos (decide_eq_true hown)]
          refine .inr ⟨s, hs, hid.symm, e, he, rfl, .forgiven ?_ ?_ ?_ rfl⟩
          · rw [hown, hsession]
            exact hretried
          · simp only [Session.retryMatches, Bool.and_eq_true, Option.isNone_iff_eq_none]
              at hmatches
            exact hlease.trans hmatches.1.2
          · simp only [Session.handlerFailures, Session.erroredAttempts_congr hattempts, hown]
            omega
        · rw [if_neg (by simpa using hown)]
          refine .inr ⟨s, hs, hid.symm, e, he, rfl, .same hattempts hrecorded fun h => ?_⟩
          cases hretried.symm.trans h
          exact hown rfl
    · refine .of_other hold he' hrecorded fun h => hother ?_
      have hnamed : sessionId = t.id := Db.retriedEvent_session h
      rw [← hnamed, hid, hsession]

/-- What a call does to the failures of every event. -/
theorem Run.failureHistory (run : Run codec trace db) {call : StoreCall}
    (admissible : Admissible trace call) {t : Session}
    (ht : t ∈ (exec codec clock db call).2.sessions) {e' : EventRow} (he' : e' ∈ t.events) :
    FailureHistory db call (exec codec clock db call).1 t e' := by
  cases hcounts : call.countsFailures with
  | false => exact run.failureHistory_uncounted hcounts ht he'
  | true =>
    cases call with
    | recordHandlerFailure claim error retryAt blocked =>
      exact run.failureHistory_recorded (admissible.handler claim rfl) ht he'
    | retryBlockedEvent => exact run.failureHistory_retried ht he'
    | _ => cases hcounts

/-- The event whose failure was recorded. -/
theorem Run.recorded_event (run : Run codec trace db) {claim : HandlerClaim} {error : Value}
    {retryAt : Timestamp} {blocked : Bool}
    (done : (exec codec clock db (.recordHandlerFailure claim error retryAt blocked)).1 = .done) :
    ∃ t ∈ (exec codec clock db (.recordHandlerFailure claim error retryAt blocked)).2.sessions,
      t.id = claim.sessionId ∧ ∃ e ∈ t.events, e.id = claim.eventId := by
  have hexec : exec codec clock db (.recordHandlerFailure claim error retryAt blocked) =
      settle db (fun _ => .done) (db.recordHandlerFailure clock claim error retryAt blocked) := rfl
  rw [hexec] at done ⊢
  cases hresult : db.recordHandlerFailure clock claim error retryAt blocked with
  | error failure =>
    rw [hresult] at done
    cases done
  | ok result =>
    obtain ⟨_, db'⟩ := result
    obtain ⟨s, s', hs, hsession, hbody, rfl⟩ := Db.transact_ok hresult
    have hstep : SessionStep codec clock db _ _ s s' := .recordHandlerFailure hsession.symm hbody
    have hid := hstep.id_eq
    obtain ⟨⟨lease, hlease, hevent, -⟩, -, -, hevents⟩ := Session.recordHandlerFailure_ok hbody
    obtain ⟨e, he, heid, -⟩ := (run.inboxInvariant hs).held_event hlease
    refine ⟨s', Db.mem_put.mpr (.inl ⟨rfl, s, hs, hid.symm⟩), hid.trans hsession, _,
      hevents ▸ Table.mem_update.mpr ⟨e, he, rfl⟩, ?_⟩
    split <;> exact heid.trans hevent

/-- The event that an answered retry names is there after it, unless the retry repeats an earlier
one, which changes nothing. -/
theorem Run.retried_event (run : Run codec trace db) {sessionId : SessionId} {eventId : EventId}
    {revision : Nat} {key : String} {request : RawJson} {reason : Option String}
    {retry : ProcessingRetry}
    (retried : (exec codec clock db
      (.retryBlockedEvent sessionId eventId revision key request reason)).1 = .retried retry) :
    db.knowsRetry sessionId key = true ∧
        (exec codec clock db
          (.retryBlockedEvent sessionId eventId revision key request reason)).2.sessions =
            db.sessions ∨
      db.knowsRetry sessionId key = false ∧
        ∃ t ∈ (exec codec clock db
          (.retryBlockedEvent sessionId eventId revision key request reason)).2.sessions,
          t.id = sessionId ∧ ∃ e ∈ t.events, e.id = eventId := by
  have hexec : exec codec clock db
        (.retryBlockedEvent sessionId eventId revision key request reason) =
      settle db .retried
        (db.retryBlockedEvent codec clock sessionId eventId revision key request reason) := rfl
  rw [hexec] at retried ⊢
  cases hresult : db.retryBlockedEvent codec clock sessionId eventId revision key request reason with
  | error failure =>
    rw [hresult] at retried
    cases retried
  | ok result =>
    obtain ⟨_, db'⟩ := result
    obtain ⟨s, s', hs, hsession, hbody, rfl⟩ := Db.transact_ok hresult
    have hfound : db.session? sessionId = some s :=
      hsession ▸ Table.lookup_eq_some run.registered.unique hs
    have hstep : SessionStep codec clock db _ _ s s' := .retryBlockedEvent hbody
    have hid := hstep.id_eq
    rcases Session.retryBlockedEvent_ok hbody with ⟨⟨existing, hknown⟩, rfl⟩ |
      ⟨hnew, hmatches, -, -, hevents⟩
    · refine .inl ⟨?_, ?_⟩
      · simpa [Db.knowsRetry, hfound] using
          ⟨existing, List.mem_of_find?_eq_some hknown, by simpa using List.find?_some hknown⟩
      · have hput : (db.put s').sessions.map id = db.sessions.map id :=
          Table.map_update_of_mem fun t ht hown =>
            Table.eq_of_key run.registered.unique hs ht (of_decide_eq_true hown).symm
        rwa [List.map_id, List.map_id] at hput
    · refine .inr ⟨?_, s', Db.mem_put.mpr (.inl ⟨rfl, s, hs, hid.symm⟩), hid.trans hsession, ?_⟩
      · simpa [Db.knowsRetry, hfound] using List.find?_eq_none.mp hnew
      · simp only [Session.retryMatches, Bool.and_eq_true, Option.any_eq_true, decide_eq_true_eq]
          at hmatches
        obtain ⟨-, e, hhead, heid, -⟩ := hmatches
        have he : e ∈ s.events := (List.mem_filter.mp (Table.firstBy_mem hhead)).1
        refine ⟨_, hevents ▸ Table.mem_update.mpr ⟨e, he, rfl⟩, ?_⟩
        split <;> exact heid

/-! ## A lease over a call -/

theorem Inbox.lease_of_path {i i' : Inbox} {actions : List EventAction}
    (path : StepPath Inbox.Step i actions i') {lease : SessionLease} (held : i'.lease = some lease) :
    (∃ lease₀, i.lease = some lease₀ ∧ lease₀.token = lease.token) ∨
      ∃ key, .claim key ∈ actions ∧ key.2 = lease.token := by
  induction path with
  | nil => exact .inl ⟨lease, held, rfl⟩
  | cons head _ ih =>
    rcases ih held with ⟨lease₁, hlease₁, htoken⟩ | ⟨key, hkey, htoken⟩
    · cases head with
      | arrive => exact .inl ⟨lease₁, hlease₁, htoken⟩
      | claim e head enabled moves ends lease' event a runs attempts token =>
        cases hlease₁
        exact .inr ⟨_, List.mem_cons_self, token.trans htoken⟩
      | renew lease₀ lease' held₀ event token =>
        cases hlease₁
        exact .inl ⟨lease₀, held₀, token.symm.trans htoken⟩
      | release | block | commit => cases hlease₁
      | retry => exact .inl ⟨lease₁, hlease₁, htoken⟩
    · exact .inr ⟨key, List.mem_cons_of_mem _ hkey, htoken⟩

/-- A lease of a token that was drawn before the call was there before the call. -/
theorem Run.lease_before (run : Run codec trace db) {call : StoreCall}
    (admissible : Admissible trace call) {t : Session}
    (ht : t ∈ (exec codec clock db call).2.sessions) {lease : SessionLease}
    (held : t.lease = some lease) (drawn : lease.token < db.nextUuid) :
    ∃ s ∈ db.sessions, s.id = t.id ∧ ∃ lease₀, s.lease = some lease₀ ∧
      lease₀.token = lease.token := by
  rcases run.session_before call clock ht with ⟨session, rfl⟩ | ⟨s, hs, hid, hafter⟩
  · cases held
  · refine ⟨s, hs, hid, ?_⟩
    cases hafter with
    | same => exact ⟨lease, held, rfl⟩
    | due id f due => exact ⟨lease, held, rfl⟩
    | step step =>
      obtain ⟨actions, hpath, hlogged⟩ := step.path fun claim hclaim =>
        (run.inboxInvariant hs).known claim (admissible.handler claim hclaim)
      rcases Inbox.lease_of_path hpath held with hbefore | ⟨key, hkey, htoken⟩
      · exact hbefore
      · rw [← htoken, hlogged.claims key hkey] at drawn
        exact absurd drawn (Nat.lt_irrefl _)

/-- While a token is current, the failures of its event stay what they were. -/
theorem Run.failures_held (run : Run codec trace db) {call : StoreCall}
    (admissible : Admissible trace call) {t : Session}
    (ht : t ∈ (exec codec clock db call).2.sessions) {lease : SessionLease}
    (held : t.lease = some lease) (drawn : lease.token < db.nextUuid) {e' : EventRow}
    (he' : e' ∈ t.events) (old : e'.id < db.nextUuid) :
    ∃ s ∈ db.sessions, s.id = t.id ∧ (∃ lease₀, s.lease = some lease₀ ∧
      lease₀.token = lease.token) ∧ ∃ e ∈ s.events, e.id = e'.id ∧
      t.handlerFailures e' = s.handlerFailures e := by
  obtain ⟨s, hs, hid, hlease⟩ := run.lease_before admissible ht held drawn
  rcases run.failureHistory admissible ht he' with ⟨hnew, -⟩ | ⟨s₁, hs₁, hid₁, e, he, heid, hstep⟩
  · exact absurd old (Nat.not_lt.mpr hnew)
  · have hsame := Table.eq_of_key run.registered.unique hs₁ hs (hid₁.trans hid.symm)
    subst hsame
    refine ⟨s₁, hs, hid, hlease, e, he, heid, ?_⟩
    cases hstep with
    | kept failures => exact failures
    | recorded call reply session event hheld processing released =>
      cases released.symm.trans held
    | forgiven retried released => cases released.symm.trans held

end

end AgentPlatform.Store
