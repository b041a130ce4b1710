import AgentPlatform.Runtime.CountedFailures

/-!
# The retry budget of an event

With `n` retry delays, an event fails at most `n + 1` times until an operator retries it: the `i`-th
failure of its handler waits for the `i`-th delay, and the failure after the last delay blocks it. A
retry restores the budget, unless it repeats an earlier one under its idempotency key: that one is
answered from its record and changes nothing.
-/

namespace AgentPlatform.Runtime

open Store

/-- How often an event may still fail. -/
def SessionScheduler.budgetLeft (scheduler : SessionScheduler) (s : Session) (e : EventRow) : Int :=
  scheduler.settings.retryDelays.length + 1 - s.handlerFailures e

namespace HandlerWorld

variable {Event Outcome : Type}

/-- The retry budget of the events of a world. -/
structure RetryBudget (codec : Codec) (scheduler : SessionScheduler) (marks : List Mark)
    (w : HandlerWorld Event Outcome) : Prop where
  /-- The errored attempts are the failures recorded since the event was created or retried. -/
  counted : ∀ s ∈ w.db.sessions, ∀ e ∈ s.events,
    s.handlerFailures e = (failuresSince marks s.id e.id).length ∧
      (failuresSince marks s.id e.id).length ≤ scheduler.settings.retryDelays.length + 1
  /-- A claim, an abandoned attempt, an expired lease and a commit count nothing. -/
  uncounted : ∀ w', Step codec scheduler w .other w' → ∀ s ∈ w'.db.sessions, ∀ e ∈ s.events,
    s.handlerFailures e = (failuresSince marks s.id e.id).length
  scheduled : ∀ failure w', Step codec scheduler w (.failed failure) w' → failure.retryable = true →
    ∃ s ∈ w'.db.sessions, s.id = failure.claim.sessionId ∧ ∃ e ∈ s.events,
      e.id = failure.claim.eventId ∧ Scheduled scheduler.settings.retryDelays
        ((failuresSince marks failure.claim.sessionId failure.claim.eventId).countP (·.retryable) + 1)
        failure e
  /-- A retry under a key that the session does not know restores the budget. -/
  restored : ∀ clock sessionId eventId revision key request reason retry,
    (exec codec clock w.db
      (.retryBlockedEvent sessionId eventId revision key request reason)).1 = .retried retry →
    w.db.knowsRetry sessionId key = false →
      let w' := w.call codec (.retryBlockedEvent sessionId eventId revision key request reason) clock
      Step codec scheduler w (.retried sessionId eventId) w' ∧
        ∃ s ∈ w'.db.sessions, s.id = sessionId ∧ ∃ e ∈ s.events, e.id = eventId ∧
          e.status = .pending ∧
          scheduler.budgetLeft s e = scheduler.settings.retryDelays.length + 1
  /-- A retry under a key that the session knows repeats an earlier answer. -/
  repeated : ∀ clock sessionId eventId revision key request reason retry,
    (exec codec clock w.db
      (.retryBlockedEvent sessionId eventId revision key request reason)).1 = .retried retry →
    w.db.knowsRetry sessionId key = true →
      (exec codec clock w.db
        (.retryBlockedEvent sessionId eventId revision key request reason)).2.sessions =
          w.db.sessions

variable {codec : Codec} {scheduler : SessionScheduler} {marks : List Mark} {mark : Mark}
  {w w' : HandlerWorld Event Outcome}

/-! ## Every step -/

/-- The failure that a step records schedules its event, or blocks it. -/
theorem Sound.scheduled (h : w.Sound codec scheduler marks) {failure : HandlerFailure}
    (step : Step codec scheduler w (.failed failure) w') (retryable : failure.retryable = true) :
    ∃ s ∈ w'.db.sessions, s.id = failure.claim.sessionId ∧ ∃ e ∈ s.events,
      e.id = failure.claim.eventId ∧ Scheduled scheduler.settings.retryDelays
        ((failuresSince marks failure.claim.sessionId failure.claim.eventId).countP (·.retryable) + 1)
        failure e := by
  rcases h.effect step with moves | ⟨call, clock, calls⟩
  · cases moves.mark
  · obtain ⟨rfl, hmade⟩ : call = failure.call ∧ (exec codec clock w.db call).1 = .done := by
      cases calls.marked with
      | failed failure records made => exact ⟨records, made⟩
    obtain ⟨t, ht, hsession, e', he', hevent⟩ := h.run.recorded_event hmade
    rw [calls.db]
    refine ⟨t, ht, hsession, e', he', hevent, ?_⟩
    rcases h.run.failureHistory calls.admissible ht he' with
      ⟨-, -, -, huncounted⟩ | ⟨s, hs, hid, e, he, heid, hstep⟩
    · cases huncounted
    · have hs' : failure.claim.sessionId = s.id := (hid.trans hsession).symm
      have he'' : failure.claim.eventId = e.id := (heid.trans hevent).symm
      cases hstep with
      | kept _ _ unrecorded => exact absurd ⟨_, _, _, _, rfl, hmade, hs', he''⟩ unrecorded
      | recorded records made session event held processing released failures status scheduled =>
        cases records
        rw [hs', he'']
        exact (h.budget s hs e he).scheduled (calls.rightful failure rfl)
          ⟨hs, he, hs', he'', held, processing⟩ retryable status scheduled
      | forgiven retried => cases (retriedEvent_recorded ..).symm.trans retried

/-- A retry under a new key forgives the failures of its event. -/
theorem Sound.restored (h : w.Sound codec scheduler marks) {clock : Clock} {sessionId : SessionId}
    {eventId : EventId} {revision : Nat} {key : String} {request : RawJson} {reason : Option String}
    {retry : ProcessingRetry}
    (answered : (exec codec clock w.db
      (.retryBlockedEvent sessionId eventId revision key request reason)).1 = .retried retry)
    (unknown : w.db.knowsRetry sessionId key = false) :
    let w' := w.call codec (.retryBlockedEvent sessionId eventId revision key request reason) clock
    Step codec scheduler w (.retried sessionId eventId) w' ∧
      ∃ s ∈ w'.db.sessions, s.id = sessionId ∧ ∃ e ∈ s.events, e.id = eventId ∧
        e.status = .pending ∧
        scheduler.budgetLeft s e = scheduler.settings.retryDelays.length + 1 := by
  have hretried : w.db.retriedEvent (.retryBlockedEvent sessionId eventId revision key request reason)
      (.retried retry) = some (sessionId, eventId) := by
    simp [Db.retriedEvent, unknown]
  have hadmissible : Admissible w.trace
      (.retryBlockedEvent sessionId eventId revision key request reason) := .of_unclaimed rfl rfl rfl
  refine ⟨?_, ?_⟩
  · have hstep : Step codec scheduler w _ _ := .store _ clock hadmissible rfl
    rw [answered, storeMark, hretried] at hstep
    exact hstep
  · rcases h.run.retried_event answered with ⟨hknown, -⟩ | ⟨-, t, ht, hsession, e', he', hevent⟩
    · cases unknown.symm.trans hknown
    · refine ⟨t, ht, hsession, e', he', hevent, ?_⟩
      rcases h.run.failureHistory hadmissible ht he' with
        ⟨-, -, -, huncounted⟩ | ⟨s, hs, hid, e, he, heid, hstep⟩
      · cases huncounted
      · rw [answered] at hstep
        have hnamed : some (sessionId, eventId) = some (s.id, e.id) := by
          rw [hid, heid, hsession, hevent]
        cases hstep with
        | kept _ _ _ unforgiven => exact absurd (hretried.trans hnamed) unforgiven
        | recorded records => cases records
        | forgiven retried released failures status =>
          exact ⟨status, by rw [SessionScheduler.budgetLeft, failures, Int.sub_zero]⟩

end HandlerWorld

open HandlerWorld in
/-- Every world that is reached keeps the retry budget. -/
theorem handler_retry_budget {Event Outcome : Type} {codec : Codec} {scheduler : SessionScheduler}
    {marks : List Mark} {w : HandlerWorld Event Outcome}
    (reach : Reachable codec scheduler marks w) : w.RetryBudget codec scheduler marks where
  counted s hs e he :=
    have hbudget := reach.sound.budget s hs e he
    ⟨hbudget.counted, hbudget.within⟩
  uncounted w' step s hs e he := by
    have hcounted := ((reach.step step).sound.budget s hs e he).counted
    rwa [failuresSince_concat] at hcounted
  scheduled failure w' step retryable := reach.sound.scheduled step retryable
  restored clock sessionId eventId revision key request reason retry answered unknown :=
    reach.sound.restored answered unknown
  repeated clock sessionId eventId revision key request reason retry answered known := by
    rcases reach.sound.run.retried_event answered with ⟨-, hsame⟩ | ⟨hunknown, -⟩
    · exact hsame
    · cases known.symm.trans hunknown

/-! ## Schedules -/

/-- What happens next: a call of the rest of the platform, a scheduler that claims, or a worker that
gets on with its program and hears `handled` of its handler. -/
inductive HandlerChoice where
  | store (call : StoreCall)
  | claim (leaseFor : Nat)
  | go (token : Uuid) (handled : Handled Unit)

/-- A call that presents no claim. -/
def StoreCall.claimless : StoreCall → Bool
  | .createSession _ | .enqueueExternalEvent _ | .retryBlockedEvent .. => true
  | _ => false

/-- What recording a storable failure does, without the test for U+0000. -/
def HandlerFailure.recorded (failure : HandlerFailure) (clock : Clock) (db : Db) : Reply × Db :=
  settle db (fun _ => .done) <| db.transact failure.claim.sessionId 0 fun _ s =>
    (s.lockValidSessionClaim clock failure.claim).map fun _ =>
      ((), s.afterFailure clock failure.claim (failureReport failure.code failure.message)
        failure.retryAt failure.blocked)

theorem HandlerFailure.exec_call {failure : HandlerFailure} (codec : Codec) (clock : Clock) (db : Db)
    (storable : Storable failure.code failure.message) :
    exec codec clock db failure.call = failure.recorded clock db := by
  have hjson := jsonb_storable ((failureReport_mentionsNul failure.code failure.message).mpr storable)
  simp only [HandlerFailure.call, exec, Db.recordHandlerFailure,
    Session.recordHandlerFailure_eq hjson]
  rfl

namespace HandlerWorld

variable (codec : Codec) (scheduler : SessionScheduler) (clock : Clock)
  (w : HandlerWorld Unit Unit)

/-- A store call that does `result`. -/
def called (call : StoreCall) (clock : Clock) (result : Reply × Db) : HandlerWorld Unit Unit :=
  { w with trace := w.trace ++ [⟨call, clock, result.1⟩], db := result.2 }

/-- Answer the next request of a worker: the harness is there, the event decodes, the lease is kept,
and what the store is asked reaches it. -/
def go (token : Uuid) (handled : Handled Unit) : Option (Mark × HandlerWorld Unit Unit) :=
  match w.workers token with
  | none => none
  | some worker =>
    match worker.program with
    | .ask (.harness ..) next => some (.other, w.place token worker.claim (next true))
    | .ask (.validateConfiguration _) next => some (.other, w.place token worker.claim (next .valid))
    | .ask (.decodeEvent _) next => some (.other, w.place token worker.claim (next (.ok ())))
    | .ask (.handle ..) next => some (.other, w.place token worker.claim (next (some handled)))
    | .ask .takeInfrastructureFailure next => some (.other, w.place token worker.claim (next none))
    | .ask (.renewAuthority claim) next =>
      let call := .renewEventClaim claim scheduler.settings.leaseDuration
      some (.other, (w.call codec call clock).place token worker.claim
        (next (replied (exec codec clock w.db call).1)))
    | .ask (.handlerFailureCount eventId) next =>
      some (.other, w.place token worker.claim (next (w.db.handlerFailureCount eventId)))
    | .ask (.recordFailure claim code message delay blocked) next =>
      let failure : HandlerFailure := { claim, code, message, delay, blocked, now := clock.now }
      let result := failure.recorded clock w.db
      if '\x00' ∈ code.toList ∨ '\x00' ∈ message.toList then none
      else
        some (recordMark failure result.1,
          (w.called failure.call clock result).place token worker.claim (next ()))
    | _ => none

/-- Take one choice. -/
def act : HandlerChoice → Option (Mark × HandlerWorld Unit Unit)
  | .store call =>
    if StoreCall.claimless call then
      some (storeMark w.db call (exec codec clock w.db call).1, w.call codec call clock)
    else none
  | .claim leaseFor =>
    let call := .claimNextEvent (fun _ => false) leaseFor
    match (exec codec clock w.db call).1 with
    | .claimedEvent (some claimed) =>
      some (.other, (w.call codec call clock).place claimed.leaseToken claimed.claim
        (scheduler.processClaim claimed))
    | _ => none
  | .go token handled => w.go codec scheduler clock token handled

/-- Take the choices of a schedule, each at its time, after the steps of `marks`. -/
def play (marks : List Mark) (w : HandlerWorld Unit Unit) :
    List (Timestamp × HandlerChoice) → Option (List Mark × HandlerWorld Unit Unit)
  | [] => some (marks, w)
  | (now, choice) :: rest =>
    (w.act codec scheduler { now, reading := fun _ => now, stamp := fun _ => now } choice).bind
      fun (mark, w') => w'.play (marks ++ [mark]) rest

variable {codec scheduler clock w} {mark : Mark} {w' : HandlerWorld Unit Unit}

/-- A worker that gets on with its program takes a step. -/
theorem go_step {token : Uuid} {handled : Handled Unit}
    (h : w.go codec scheduler clock token handled = some (mark, w')) :
    Step codec scheduler w mark w' := by
  unfold go at h
  split at h
  · cases h
  · rename_i worker hpresent
    split at h <;> rename_i hasks
    case h_6 =>
      cases h
      exact .renew token worker _ _ clock hpresent hasks
    case h_7 =>
      cases h
      exact .count token worker _ _ hpresent hasks
    case h_8 claim code message delay blocked next =>
      split at h
      · cases h
      · rename_i hstorable
        let failure : HandlerFailure := { claim, code, message, delay, blocked, now := clock.now }
        have hexec : exec codec clock w.db failure.call = failure.recorded clock w.db :=
          HandlerFailure.exec_call codec clock w.db (not_or.mp hstorable)
        cases h
        rw [← hexec]
        exact .record token worker failure next clock hpresent hasks
    case h_9 => cases h
    all_goals
      cases h
      exact .hear token worker _ _ _ hpresent hasks rfl

/-- Every choice is a step. -/
theorem act_step {choice : HandlerChoice}
    (h : w.act codec scheduler clock choice = some (mark, w')) : Step codec scheduler w mark w' := by
  cases choice with
  | store call =>
    simp only [act] at h
    split at h
    · rename_i hclaimless
      cases h
      cases call with
      | createSession | enqueueExternalEvent | retryBlockedEvent =>
        exact .store _ clock (.of_unclaimed rfl rfl rfl) rfl
      | _ => cases hclaimless
    · cases h
  | claim leaseFor =>
    simp only [act] at h
    split at h
    · rename_i hclaims
      cases h
      exact .claim _ leaseFor clock _ hclaims
    · cases h
  | go token handled => exact go_step h

/-- A schedule leads to a reachable world. -/
theorem play_reachable {schedule : List (Timestamp × HandlerChoice)} {marks marks' : List Mark}
    (h : w.play codec scheduler marks schedule = some (marks', w'))
    (reach : Reachable codec scheduler marks w) : Reachable codec scheduler marks' w' := by
  induction schedule generalizing marks w with
  | nil =>
    cases h
    exact reach
  | cons choice schedule ih =>
    obtain ⟨⟨mark, w₁⟩, hact, hrest⟩ := Option.bind_eq_some_iff.mp h
    exact ih hrest (reach.step (act_step hact))

/-- What a schedule leads to, when it can be taken to its end. -/
theorem exists_of_played {schedule : List (Timestamp × HandlerChoice)}
    {p : HandlerWorld Unit Unit → Bool}
    (h : (start.play codec scheduler [] schedule).any (fun played => p played.2) = true) :
    ∃ marks w, start.play codec scheduler [] schedule = some (marks, w) ∧
      Reachable codec scheduler marks w ∧ p w = true := by
  obtain ⟨⟨marks, w⟩, hplay, hp⟩ := Option.any_eq_true .. |>.mp h
  exact ⟨marks, w, hplay, play_reachable hplay .start, hp⟩

end HandlerWorld

/-! ## A budget that is restored, and a retry that is answered again -/

theorem halfMinute_ne_zero : 30000 ≠ 0 := by decide

/-- A scheduler with one retry delay. -/
def oneDelay : SessionScheduler where
  settings :=
    { leaseDuration := 30000, retryDelays := [1000], commitRetryDelays := [100]
      infrastructureRetryDelay := 5000, leases := halfMinute_ne_zero, retries := by decide
      recommits := by decide, waits := by decide }
  errorText _ := "store"

/-- The handler's data is invalid, which blocks the event 0 of the session 1. An operator retries it,
its handler panics once, and the event waits for the one delay. -/
def retriedOnce : List (Timestamp × HandlerChoice) :=
  [(0, .store (.createSession
      { id := 1, projectId := "project", harnessId := "harness", harnessVersion := "1"
        configuration := "null", state := "null", name := none, metadata := .null })),
    (0, .store (.enqueueExternalEvent
      { sessionId := 1, eventType := .userMessage, payload := "null", idempotencyKey := none })),
    (0, .claim 30000)] ++
    List.replicate 6 (0, .go 1 (.failed (.invalidState "state"))) ++
    [(0, .store (.retryBlockedEvent 1 0 1 "again" "null" none)), (0, .claim 30000)] ++
    List.replicate 7 (0, .go 4 .panicked)

/-- The run keeps the budget. -/
theorem handler_retry_budget_retriedOnce :
    ∃ marks w, HandlerWorld.start.play plainCodec oneDelay [] retriedOnce = some (marks, w) ∧
      w.RetryBudget plainCodec oneDelay marks := by
  have hplayed : (HandlerWorld.start.play plainCodec oneDelay [] retriedOnce).any
      (fun _ => true) = true := by decide
  obtain ⟨marks, w, hplay, hreach, -⟩ :=
    HandlerWorld.exists_of_played (p := fun _ => true) hplayed
  exact ⟨marks, w, hplay, handler_retry_budget hreach⟩

/-- Every answered retry leaves its event the whole budget. -/
def HandlerWorld.AlwaysRestores (codec : Codec) (scheduler : SessionScheduler)
    (w : HandlerWorld Unit Unit) : Prop :=
  ∀ clock sessionId eventId revision key request reason retry,
    let call := .retryBlockedEvent sessionId eventId revision key request reason
    (exec codec clock w.db call).1 = .retried retry →
      ∀ s ∈ (exec codec clock w.db call).2.sessions, s.id = sessionId →
        ∀ e ∈ s.events, e.id = eventId →
          scheduler.budgetLeft s e = scheduler.settings.retryDelays.length + 1

/-- The operator's call is answered once more, and leaves the event less than the whole budget. -/
def HandlerWorld.answersAgain (w : HandlerWorld Unit Unit) : Bool :=
  match exec plainCodec stillClock w.db (.retryBlockedEvent 1 0 1 "again" "null" none) with
  | (.retried _, db) => db.sessions.any fun s =>
      s.id = 1 && s.events.any fun e => e.id = 0 && decide (oneDelay.budgetLeft s e ≠ 2)
  | _ => false

theorem HandlerWorld.not_alwaysRestores {w : HandlerWorld Unit Unit} (h : w.answersAgain = true) :
    ¬ w.AlwaysRestores plainCodec oneDelay := by
  intro hall
  unfold answersAgain at h
  split at h
  · rename_i retry db hexec
    simp only [List.any_eq_true, Bool.and_eq_true, decide_eq_true_eq] at h
    obtain ⟨s, hs, hsession, e, he, hevent, hleft⟩ := h
    have hanswered := hall stillClock 1 0 1 "again" "null" none retry
    dsimp only at hanswered
    rw [hexec] at hanswered
    exact hleft (hanswered rfl s hs hsession e he hevent)
  · cases h

/-- A retry that is answered again under its idempotency key restores nothing. -/
theorem repeated_retry_restores_nothing :
    ¬ ∀ (marks : List Mark) (w : HandlerWorld Unit Unit),
      HandlerWorld.Reachable plainCodec oneDelay marks w → w.AlwaysRestores plainCodec oneDelay := by
  intro hall
  have hplayed : (HandlerWorld.start.play plainCodec oneDelay [] retriedOnce).any
      (fun played => played.2.answersAgain) = true := by decide
  obtain ⟨marks, w, -, hreach, hagain⟩ := HandlerWorld.exists_of_played hplayed
  exact HandlerWorld.not_alwaysRestores hagain (hall marks w hreach)

end AgentPlatform.Runtime
