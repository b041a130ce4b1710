import AgentPlatform.Runtime.RetryDiscipline

/-!
# The failures of an event over a run

A worker reads the count of failures before the transaction that records the next one. While its claim
is current nothing changes the count, and afterwards the record is refused, so every failure that is
recorded was counted right. The errored attempts of an event are then the failures recorded since it
was created or last retried, and no more than the retry delays and one.
-/

namespace AgentPlatform.Runtime

open Store

/-! ## The failures of one event -/

/-- The errored attempts of an event are its failures since the last retry, at most one more than there
are delays; while the event is not blocked a delay is left for each, and its handler reported them. -/
structure EventBudget (delays : List Nat) (failures : List HandlerFailure) (s : Session)
    (e : EventRow) : Prop where
  counted : s.handlerFailures e = failures.length
  within : failures.length ≤ delays.length + 1
  unblocked : e.status ≠ .blocked →
    failures.length ≤ delays.length ∧ ∀ failure ∈ failures, failure.retryable = true

/-- What the `i`-th retryable failure makes of its event. -/
structure Scheduled (delays : List Nat) (i : Nat) (failure : HandlerFailure) (e : EventRow) :
    Prop where
  within : i ≤ delays.length + 1
  again : i ≤ delays.length → ∃ delay, delays[i - 1]? = some delay ∧ e.status = .pending ∧
    e.nextAttemptAt = failure.now + 1000 * delay
  stops : i = delays.length + 1 → e.status = .blocked

/-- While the claim is current, its event has failed `count` times. -/
def Counts (db : Db) (claim : HandlerClaim) (count : Int) : Prop :=
  ∀ s ∈ db.sessions, s.id = claim.sessionId →
    (∃ lease, s.lease = some lease ∧ lease.token = claim.leaseToken) →
      ∀ e ∈ s.events, e.id = claim.eventId → s.handlerFailures e = count

/-- A failure recorded by the count that its worker read, which holds while the claim is current. -/
def Rightful (scheduler : SessionScheduler) (db : Db) (failure : HandlerFailure) : Prop :=
  ∃ counted, FailureRecord scheduler failure.claim counted failure ∧
    ∀ count, counted = some count → Counts db failure.claim count

/-- The failure is of the event `e` of `s`, under the claim that is current. -/
structure HandlerFailure.Hits (failure : HandlerFailure) (db : Db) (s : Session) (e : EventRow) :
    Prop where
  found : s ∈ db.sessions
  known : e ∈ s.events
  session : failure.claim.sessionId = s.id
  event : failure.claim.eventId = e.id
  held : ∃ lease, s.lease = some lease ∧ lease.token = failure.claim.leaseToken
  processing : e.status = .processing

section

variable {scheduler : SessionScheduler} {db : Db} {failure : HandlerFailure} {s s' : Session}
  {e e' : EventRow} {failures : List HandlerFailure}

/-- The failure that a worker records of an event takes the next delay, or blocks the event. -/
theorem EventBudget.taken (h : EventBudget scheduler.settings.retryDelays failures s e)
    (rightful : Rightful scheduler db failure) (hits : failure.Hits db s e)
    (retryable : failure.retryable = true) :
    failure.delay = scheduler.settings.retryDelays[failures.length]?.getD 0 ∧
      failure.blocked = decide (scheduler.settings.retryDelays.length ≤ failures.length) := by
  obtain ⟨counted, hrecord, hcounts⟩ := rightful
  obtain ⟨count, hcount, hdelay, hblocked⟩ := hrecord.retries retryable
  have hread : s.handlerFailures e = count :=
    hcounts count hcount s hits.found hits.session.symm hits.held e hits.known hits.event.symm
  have hlength : count.toNat = failures.length := by
    rw [← hread, h.counted, Int.toNat_natCast]
  rw [hlength] at hdelay hblocked
  exact ⟨hdelay, hblocked⟩

/-- A recorded failure stays within the budget. -/
theorem EventBudget.record (h : EventBudget scheduler.settings.retryDelays failures s e)
    (rightful : Rightful scheduler db failure) (hits : failure.Hits db s e)
    (counts : s'.handlerFailures e' = s.handlerFailures e + 1)
    (status : e'.status = if failure.blocked then .blocked else .pending) :
    EventBudget scheduler.settings.retryDelays (failures ++ [failure]) s' e' := by
  obtain ⟨hwithin, hretryable⟩ := h.unblocked (by rw [hits.processing]; exact nofun)
  have hlength : (failures ++ [failure]).length = failures.length + 1 := List.length_append
  refine ⟨?_, hlength ▸ Nat.succ_le_succ hwithin, fun hopen => ?_⟩
  · rw [counts, h.counted, hlength]
    rfl
  · have hpending : failure.blocked = false := by
      cases hblocked : failure.blocked with
      | false => rfl
      | true => exact absurd (by rw [status, hblocked]; rfl) hopen
    -- a failure that does not block was the handler's
    have hown : failure.retryable = true := by
      obtain ⟨counted, hrecord, -⟩ := rightful
      cases hkind : failure.retryable with
      | true => rfl
      | false => cases hpending.symm.trans (hrecord.blocks hkind)
    obtain ⟨-, hblocked⟩ := h.taken rightful hits hown
    have hleft : ¬ scheduler.settings.retryDelays.length ≤ failures.length :=
      of_decide_eq_false (hblocked.symm.trans hpending)
    refine ⟨by omega, fun failure' hin => ?_⟩
    rcases List.mem_append.mp hin with hold | hnew
    · exact hretryable failure' hold
    · exact List.mem_singleton.mp hnew ▸ hown

/-- What the failure makes of the event is what its place among the failures says. -/
theorem EventBudget.scheduled (h : EventBudget scheduler.settings.retryDelays failures s e)
    (rightful : Rightful scheduler db failure) (hits : failure.Hits db s e)
    (retryable : failure.retryable = true)
    (status : e'.status = if failure.blocked then .blocked else .pending)
    (scheduled : e'.nextAttemptAt = failure.retryAt) :
    Scheduled scheduler.settings.retryDelays (failures.countP (·.retryable) + 1) failure e' := by
  obtain ⟨hwithin, hretryable⟩ := h.unblocked (by rw [hits.processing]; exact nofun)
  obtain ⟨hdelay, hblocked⟩ := h.taken rightful hits retryable
  rw [List.countP_eq_length.mpr hretryable]
  refine ⟨Nat.succ_le_succ hwithin, fun hleft => ?_, fun hlast => ?_⟩
  · have hnth := List.getElem?_eq_getElem (Nat.lt_of_succ_le hleft)
    have hpending : failure.blocked = false := by
      rw [hblocked]
      exact decide_eq_false (by omega)
    refine ⟨_, hnth, by rw [status, hpending]; rfl, ?_⟩
    rw [scheduled, HandlerFailure.retryAt, hdelay, hnth]
    rfl
  · have : failure.blocked = true := by
      rw [hblocked]
      exact decide_eq_true (by omega)
    rw [status, this]
    rfl

end

/-! ## The marks of a call -/

/-- The mark of a call tells the failure that the call recorded, or the event that it forgave. -/
inductive Marked (db : Db) (call : StoreCall) (reply : Reply) : Mark → Prop
  | failed (failure : HandlerFailure) (records : call = failure.call) (made : reply = .done) :
      Marked db call reply (.failed failure)
  | retried (sessionId : SessionId) (eventId : EventId)
      (retried : db.retriedEvent call reply = some (sessionId, eventId)) :
      Marked db call reply (.retried sessionId eventId)
  | other (unrecorded : ∀ sessionId eventId, ¬call.Fails reply sessionId eventId)
      (unforgiven : db.retriedEvent call reply = none) : Marked db call reply .other

/-- A call that neither records nor forgives a failure. -/
theorem Marked.of_uncounted {db : Db} {call : StoreCall} {reply : Reply}
    (uncounted : call.countsFailures = false) : Marked db call reply .other := by
  refine .other (fun _ _ hfails => ?_) (Db.retriedEvent_uncounted uncounted)
  cases uncounted.symm.trans hfails.counted

theorem marked_store {db : Db} {call : StoreCall} {reply : Reply}
    (unscheduled : StoreCall.unscheduled call = true) :
    Marked db call reply (storeMark db call reply) := by
  unfold storeMark
  split
  · rename_i hretried
    exact .retried _ _ hretried
  · rename_i hnone
    refine .other ?_ hnone
    rintro _ _ ⟨_, _, _, _, rfl, -⟩
    cases unscheduled

theorem retriedEvent_recorded (db : Db) (claim : HandlerClaim) (error : Value) (retryAt : Timestamp)
    (blocked : Bool) (reply : Reply) :
    db.retriedEvent (.recordHandlerFailure claim error retryAt blocked) reply = none := by
  unfold Db.retriedEvent
  split
  · rename_i hcall
    cases hcall
  · rfl

theorem marked_record {db : Db} {failure : HandlerFailure} {reply : Reply} :
    Marked db failure.call reply (recordMark failure reply) := by
  unfold recordMark
  cases reply with
  | done => exact .failed failure rfl rfl
  | _ =>
    refine .other ?_ (retriedEvent_recorded ..)
    rintro _ _ ⟨_, _, _, _, -, hreply, -⟩
    cases hreply

section

variable {db : Db} {call : StoreCall} {reply : Reply} {mark : Mark} {s : Session} {e : EventRow}
  {failures : List HandlerFailure}

/-- The failures of an event that the call neither failed nor forgave. -/
theorem Marked.count_kept (h : Marked db call reply mark) {sessionId : SessionId} {eventId : EventId}
    (unrecorded : ¬call.Fails reply sessionId eventId)
    (unforgiven : db.retriedEvent call reply ≠ some (sessionId, eventId)) :
    mark.count sessionId eventId failures = failures := by
  cases h with
  | failed failure records made =>
    refine if_neg fun hof => unrecorded ?_
    simp only [HandlerFailure.isOf, Bool.and_eq_true, decide_eq_true_eq] at hof
    exact ⟨_, _, _, _, records, made, hof.1, hof.2⟩
  | retried s e hretried =>
    refine if_neg ?_
    rintro ⟨rfl, rfl⟩
    exact unforgiven hretried
  | other => rfl

/-- An event that was not drawn before the call, which counts nothing, has no failures. -/
theorem Marked.count_uncounted (h : Marked db call reply mark) {sessionId : SessionId}
    {eventId : EventId} (uncounted : call.countsFailures = false) :
    mark.count sessionId eventId failures = failures := by
  refine h.count_kept (fun hfails => ?_) (by rw [Db.retriedEvent_uncounted uncounted]; exact nofun)
  cases uncounted.symm.trans hfails.counted

/-- The call that records a failure is marked with it. -/
theorem Marked.failed_of_recorded (h : Marked db call reply mark) {claim : HandlerClaim}
    {error : Value} {retryAt : Timestamp} {blocked : Bool}
    (records : call = .recordHandlerFailure claim error retryAt blocked) (made : reply = .done) :
    ∃ failure, mark = .failed failure ∧ call = failure.call := by
  cases h with
  | failed failure records => exact ⟨failure, rfl, records⟩
  | retried sessionId eventId retried =>
    subst records
    cases (retriedEvent_recorded ..).symm.trans retried
  | other unrecorded =>
    exact absurd ⟨_, _, _, _, records, made, rfl, rfl⟩ (unrecorded claim.sessionId claim.eventId)

/-- A retried event has no failures left. -/
theorem Marked.count_retried (h : Marked db call reply mark) {sessionId : SessionId}
    {eventId : EventId} (retried : db.retriedEvent call reply = some (sessionId, eventId)) :
    mark.count sessionId eventId failures = [] := by
  cases h with
  | failed failure records =>
    subst records
    cases (retriedEvent_recorded ..).symm.trans retried
  | retried _ _ same =>
    cases retried.symm.trans same
    exact if_pos ⟨rfl, rfl⟩
  | other unrecorded unforgiven => cases unforgiven.symm.trans retried

end

/-! ## The world -/

/-- A worker of a claim that was issued, with a count that holds while the claim is current. -/
def HandlerWorker.Ready {Event Outcome : Type} (worker : HandlerWorker Event Outcome)
    (scheduler : SessionScheduler) (trace : List Entry) (db : Db) : Prop :=
  worker.claim ∈ handlerClaims trace ∧ ∃ counted,
    Abides scheduler worker.claim counted worker.program ∧
      ∀ count, counted = some count → Counts db worker.claim count

namespace HandlerWorld

variable {Event Outcome : Type}

/-- What holds of every world that is reached. -/
structure Sound (codec : Codec) (scheduler : SessionScheduler) (marks : List Mark)
    (w : HandlerWorld Event Outcome) : Prop where
  run : Run codec w.trace w.db
  ready : ∀ token worker, w.workers token = some worker → worker.Ready scheduler w.trace w.db
  undrawn : ∀ sessionId eventId, w.db.nextUuid ≤ eventId → failuresSince marks sessionId eventId = []
  budget : ∀ s ∈ w.db.sessions, ∀ e ∈ s.events,
    EventBudget scheduler.settings.retryDelays (failuresSince marks s.id e.id) s e

/-- A step that makes no store call: its worker goes on, or is gone. -/
structure Moves (scheduler : SessionScheduler) (w : HandlerWorld Event Outcome) (mark : Mark)
    (w' : HandlerWorld Event Outcome) : Prop where
  trace : w'.trace = w.trace
  db : w'.db = w.db
  mark : mark = .other
  workers : ∀ token worker, w'.workers token = some worker → worker.Ready scheduler w.trace w.db

/-- A step that makes one store call, which the mark tells of. -/
structure Calls (codec : Codec) (scheduler : SessionScheduler) (w : HandlerWorld Event Outcome)
    (mark : Mark) (w' : HandlerWorld Event Outcome) (call : StoreCall) (clock : Clock) : Prop where
  trace : w'.trace = w.trace ++ [⟨call, clock, (exec codec clock w.db call).1⟩]
  db : w'.db = (exec codec clock w.db call).2
  admissible : Admissible w.trace call
  marked : Marked w.db call (exec codec clock w.db call).1 mark
  rightful : ∀ failure, mark = .failed failure → Rightful scheduler w.db failure
  workers : ∀ token worker, w'.workers token = some worker →
    worker.Ready scheduler w.trace w.db ∨
      ∃ claimed, (exec codec clock w.db call).1 = .claimedEvent (some claimed) ∧
        worker.claim = claimed.claim ∧ Abides scheduler worker.claim none worker.program

variable {codec : Codec} {scheduler : SessionScheduler} {marks : List Mark} {mark : Mark}
  {w w' : HandlerWorld Event Outcome}

/-! ### Steps -/

/-- The workers after one of them goes on. -/
theorem Sound.ready_place (h : w.Sound codec scheduler marks) {token : Uuid}
    {placed : HandlerWorker Event Outcome} (ready : placed.Ready scheduler w.trace w.db)
    (other : Uuid) (worker : HandlerWorker Event Outcome)
    (present : Function.update w.workers token (some placed) other = some worker) :
    worker.Ready scheduler w.trace w.db := by
  by_cases htoken : other = token
  · subst htoken
    rw [Function.update_self] at present
    cases present
    exact ready
  · rw [Function.update_of_ne htoken] at present
    exact h.ready other worker present

/-- A worker that is answered is ready for the rest, unless the answer was a count. -/
theorem Sound.ready_next (h : w.Sound codec scheduler marks) {token : Uuid}
    {worker : HandlerWorker Event Outcome} {request : HandlerRequest Event Outcome}
    {next : request.Answer → HandlerWork Event Outcome Unit}
    (present : w.workers token = some worker) (asks : worker.program = .ask request next)
    (answer : request.Answer)
    (stays : ∀ counted, (handlerDiscipline scheduler worker.claim).after counted request answer =
      counted) :
    HandlerWorker.Ready { claim := worker.claim, program := next answer } scheduler w.trace w.db := by
  obtain ⟨hissued, counted, habides, hcounts⟩ := h.ready token worker present
  refine ⟨hissued, counted, ?_, hcounts⟩
  unfold Abides at habides
  rw [asks] at habides
  have hnext := habides.2 answer
  rwa [stays] at hnext

/-- What a worker may ask next. -/
theorem Sound.allows (h : w.Sound codec scheduler marks) {token : Uuid}
    {worker : HandlerWorker Event Outcome} {request : HandlerRequest Event Outcome}
    {next : request.Answer → HandlerWork Event Outcome Unit}
    (present : w.workers token = some worker) (asks : worker.program = .ask request next) :
    worker.claim ∈ handlerClaims w.trace ∧ ∃ counted,
      (handlerDiscipline scheduler worker.claim).allows counted request ∧
        ∀ count, counted = some count → Counts w.db worker.claim count := by
  obtain ⟨hissued, counted, habides, hcounts⟩ := h.ready token worker present
  unfold Abides at habides
  rw [asks] at habides
  exact ⟨hissued, counted, habides.1, hcounts⟩

/-- The count that the store answers holds of the event of the claim. -/
theorem Sound.counts (h : w.Sound codec scheduler marks) {claim : HandlerClaim} {count : Int}
    (counted : w.db.handlerFailureCount claim.eventId = .ok count) : Counts w.db claim count := by
  intro s hs hsession _ e he heid
  unfold Db.handlerFailureCount at counted
  split at counted
  · rename_i found hfound
    cases counted
    obtain ⟨s₀, hs₀, hmap⟩ := List.exists_of_findSome?_eq_some hfound
    obtain ⟨e₀, he₀, rfl⟩ := Option.map_eq_some_iff.mp hmap
    have hin := List.mem_of_find?_eq_some he₀
    have hid : e₀.id = claim.eventId := by simpa using List.find?_some he₀
    have hsame : s = s₀ := Table.eq_of_key h.run.registered.unique hs hs₀
      (h.run.event_session hs hs₀ he hin (heid.trans hid.symm))
    subst hsame
    rw [Table.eq_of_key (h.run.inboxInvariant hs).distinct he hin (heid.trans hid.symm)]
  · cases counted

/-- A worker hears an answer that no store call gives. -/
theorem Sound.moves_next (h : w.Sound codec scheduler marks) {token : Uuid}
    {worker : HandlerWorker Event Outcome} {request : HandlerRequest Event Outcome}
    {next : request.Answer → HandlerWork Event Outcome Unit}
    (present : w.workers token = some worker) (asks : worker.program = .ask request next)
    (answer : request.Answer)
    (stays : ∀ counted, (handlerDiscipline scheduler worker.claim).after counted request answer =
      counted) :
    Moves scheduler w .other (w.place token worker.claim (next answer)) where
  trace := rfl
  db := rfl
  mark := rfl
  workers := h.ready_place (h.ready_next present asks answer stays)

/-- A worker's call under its own claim that counts no failure. -/
theorem Sound.calls_next (h : w.Sound codec scheduler marks) {token : Uuid}
    {worker : HandlerWorker Event Outcome} {request : HandlerRequest Event Outcome}
    {next : request.Answer → HandlerWork Event Outcome Unit}
    (present : w.workers token = some worker) (asks : worker.program = .ask request next)
    (answer : request.Answer)
    (stays : ∀ counted, (handlerDiscipline scheduler worker.claim).after counted request answer =
      counted)
    {call : StoreCall} (clock : Clock) (admissible : Admissible w.trace call)
    (uncounted : call.countsFailures = false) :
    Calls codec scheduler w .other ((w.call codec call clock).place token worker.claim (next answer))
      call clock where
  trace := rfl
  db := rfl
  admissible := admissible
  marked := .of_uncounted uncounted
  rightful _ := nofun
  workers other worker' present' :=
    .inl (h.ready_place (h.ready_next present asks answer stays) other worker' present')

/-- Every step makes at most one store call. -/
theorem Sound.effect (h : w.Sound codec scheduler marks) (step : Step codec scheduler w mark w') :
    Moves scheduler w mark w' ∨ ∃ call clock, Calls codec scheduler w mark w' call clock := by
  cases step with
  | store call clock admissible unscheduled =>
    refine .inr ⟨call, clock, rfl, rfl, admissible, marked_store unscheduled, ?_, ?_⟩
    · intro failure hmark
      unfold storeMark at hmark
      split at hmark <;> cases hmark
    · exact fun token worker present => .inl (h.ready token worker present)
  | unclaimed locked leaseFor clock none =>
    exact .inr ⟨_, clock, rfl, rfl, .of_unclaimed rfl rfl rfl, .of_uncounted rfl, fun _ => nofun,
      fun token worker present => .inl (h.ready token worker present)⟩
  | claim locked leaseFor clock claimed claims =>
    refine .inr ⟨_, clock, rfl, rfl, .of_unclaimed rfl rfl rfl, .of_uncounted rfl, fun _ => nofun,
      fun token worker present => ?_⟩
    by_cases htoken : token = claimed.leaseToken
    · subst htoken
      have hplaced := (Function.update_self _ _ w.workers).symm.trans present
      cases hplaced
      exact .inr ⟨claimed, claims, rfl, abides_processClaim claimed⟩
    · exact .inl (h.ready token worker ((Function.update_of_ne htoken _ _).symm.trans present))
  | hear token worker request next answer present asks external =>
    refine .inl (h.moves_next present asks answer fun counted => ?_)
    cases request <;> first | rfl | cases external
  | renew token worker claim next clock present asks =>
    obtain ⟨hissued, _, rfl, -⟩ := h.allows present asks
    exact .inr ⟨_, _, h.calls_next present asks _ (fun _ => rfl) clock
      (.of_handler rfl hissued rfl rfl) rfl⟩
  | renewFailed token worker claim next present asks =>
    exact .inl (h.moves_next present asks false fun _ => rfl)
  | commit token worker claim outcome next answer clock present asks answers =>
    obtain ⟨hissued, _, rfl, -⟩ := h.allows present asks
    exact .inr ⟨_, _, h.calls_next present asks answer (fun _ => rfl) clock
      (.of_handler rfl hissued rfl rfl) rfl⟩
  | commitFailed token worker claim outcome next answer present asks failed =>
    exact .inl (h.moves_next present asks answer fun _ => rfl)
  | count token worker eventId next present asks =>
    obtain ⟨hissued, counted, habides, hcounts⟩ := h.ready token worker present
    unfold Abides at habides
    rw [asks] at habides
    obtain ⟨rfl, hnext⟩ := habides
    cases hread : w.db.handlerFailureCount worker.claim.eventId with
    | error error => exact .inl (h.moves_next present asks (.error error) fun _ => rfl)
    | ok count =>
      refine .inl ⟨rfl, rfl, rfl, h.ready_place ⟨hissued, some count, hnext (.ok count), ?_⟩⟩
      rintro _ ⟨⟩
      exact h.counts hread
  | countFailed token worker eventId next error present asks =>
    exact .inl (h.moves_next present asks (.error error) fun _ => rfl)
  | record token worker failure next clock present asks =>
    obtain ⟨hissued, counted, hallowed, hcounts⟩ := h.allows present asks
    have hrecord : FailureRecord scheduler worker.claim counted failure := hallowed failure.now
    have hown : failure.claim = worker.claim := hrecord.own
    refine .inr ⟨_, clock, rfl, rfl, .of_handler rfl (hown ▸ hissued) rfl rfl, marked_record, ?_,
      fun other worker' present' => .inl
        (h.ready_place (h.ready_next present asks () fun _ => rfl) other worker' present')⟩
    intro failure' hmark
    unfold recordMark at hmark
    split at hmark <;> cases hmark
    exact ⟨counted, hown.symm ▸ hrecord, hown.symm ▸ hcounts⟩
  | recordFailed token worker failure next present asks =>
    exact .inl (h.moves_next present asks () fun _ => rfl)
  | abandon token worker claim code message next now clock present asks =>
    obtain ⟨hissued, _, rfl, -⟩ := h.allows present asks
    exact .inr ⟨_, _, h.calls_next present asks () (fun _ => rfl) clock
      (.of_handler rfl hissued rfl rfl) rfl⟩
  | abandonFailed token worker claim code message next present asks =>
    exact .inl (h.moves_next present asks () fun _ => rfl)
  | stop token worker present =>
    refine .inl ⟨rfl, rfl, rfl, fun other worker' present' => ?_⟩
    by_cases htoken : other = token
    · subst htoken
      cases (Function.update_self _ _ w.workers).symm.trans present'
    · exact h.ready other worker' ((Function.update_of_ne htoken _ _).symm.trans present')

/-! ### What a step preserves -/

theorem Moves.sound (moves : Moves scheduler w mark w') (h : w.Sound codec scheduler marks) :
    w'.Sound codec scheduler (marks ++ [mark]) := by
  obtain ⟨htrace, hdb, rfl, hworkers⟩ := moves
  have hsince (sessionId : SessionId) (eventId : EventId) :
      failuresSince (marks ++ [.other]) sessionId eventId = failuresSince marks sessionId eventId :=
    failuresSince_concat marks .other sessionId eventId
  refine ⟨?_, ?_, ?_, ?_⟩
  · rw [htrace, hdb]
    exact h.run
  · rw [htrace, hdb]
    exact hworkers
  · rw [hdb]
    exact fun sessionId eventId hnew => (hsince sessionId eventId).trans
      (h.undrawn sessionId eventId hnew)
  · rw [hdb]
    intro s hs e he
    rw [hsince]
    exact h.budget s hs e he

/-- A worker stays ready over the calls of others: nothing changes its count while its claim is
current. -/
theorem Sound.ready_call (h : w.Sound codec scheduler marks) {call : StoreCall} {clock : Clock}
    (admissible : Admissible w.trace call) {worker : HandlerWorker Event Outcome}
    (ready : worker.Ready scheduler w.trace w.db) :
    worker.Ready scheduler (w.trace ++ [⟨call, clock, (exec codec clock w.db call).1⟩])
      (exec codec clock w.db call).2 := by
  obtain ⟨hissued, counted, habides, hcounts⟩ := ready
  refine ⟨?_, counted, habides, fun count hcount => ?_⟩
  · rw [handlerClaims_concat]
    exact List.mem_append_left _ hissued
  · rintro t ht hsession ⟨lease, hlease, htoken⟩ e' he' hevent
    have hdrawn : lease.token < w.db.nextUuid :=
      htoken ▸ h.run.registered.handlerTokens worker.claim hissued
    have hold : e'.id < w.db.nextUuid := hevent ▸ h.run.claim_drawn hissued
    obtain ⟨s, hs, hid, ⟨lease₀, hlease₀, htoken₀⟩, e, he, heid, hsame⟩ :=
      h.run.failures_held admissible ht hlease hdrawn he' hold
    rw [hsame]
    exact hcounts count hcount s hs (hid.trans hsession) ⟨lease₀, hlease₀, htoken₀.trans htoken⟩
      e he (heid.trans hevent)

/-- The budget of an event over a call. -/
theorem Calls.budget {call : StoreCall} {clock : Clock}
    (calls : Calls codec scheduler w mark w' call clock) (h : w.Sound codec scheduler marks)
    {t : Session} (ht : t ∈ w'.db.sessions) {e' : EventRow} (he' : e' ∈ t.events) :
    EventBudget scheduler.settings.retryDelays (failuresSince (marks ++ [mark]) t.id e'.id) t e' := by
  rw [failuresSince_concat]
  rw [calls.db] at ht
  rcases h.run.failureHistory calls.admissible ht he' with
    ⟨hnew, hopen, hnone, huncounted⟩ | ⟨s, hs, hid, e, he, heid, hstep⟩
  · rw [calls.marked.count_uncounted huncounted, h.undrawn t.id e'.id hnew]
    exact ⟨hnone, Nat.zero_le _, fun _ => ⟨Nat.zero_le _, nofun⟩⟩
  · have hbudget := h.budget s hs e he
    rw [← hid, ← heid]
    cases hstep with
    | kept failures blocked unrecorded unforgiven =>
      rw [calls.marked.count_kept unrecorded unforgiven]
      exact ⟨failures.trans hbudget.counted, hbudget.within, fun hopen =>
        hbudget.unblocked fun hblocked => hopen (blocked.mpr hblocked)⟩
    | recorded records made session event held processing released failures status scheduled =>
      obtain ⟨failure, rfl, rfl⟩ := calls.marked.failed_of_recorded records made
      cases records
      have hof : failure.isOf s.id e.id = true := by
        simp [HandlerFailure.isOf, session, event]
      rw [Mark.count, if_pos hof]
      exact hbudget.record (calls.rightful failure rfl)
        ⟨hs, he, session, event, held, processing⟩ failures status
    | forgiven retried released failures status =>
      rw [calls.marked.count_retried retried]
      exact ⟨failures, Nat.zero_le _, fun _ => ⟨Nat.zero_le _, nofun⟩⟩

theorem Calls.sound {call : StoreCall} {clock : Clock}
    (calls : Calls codec scheduler w mark w' call clock) (h : w.Sound codec scheduler marks) :
    w'.Sound codec scheduler (marks ++ [mark]) := by
  refine ⟨?_, ?_, ?_, fun s hs e he => calls.budget h hs he⟩
  · rw [calls.trace, calls.db]
    exact .step call clock h.run calls.admissible
  · intro token worker present
    rw [calls.trace, calls.db]
    rcases calls.workers token worker present with hready | ⟨claimed, hclaims, hclaim, habides⟩
    · exact h.ready_call calls.admissible hready
    · refine ⟨?_, none, habides, nofun⟩
      rw [handlerClaims_concat]
      exact List.mem_append_right _ (by simp [Entry.issuedHandlerClaim, hclaims, hclaim])
  · intro sessionId eventId hnew
    rw [calls.db] at hnew
    have hbefore : w.db.nextUuid ≤ eventId := Nat.le_trans (h.run.nextUuid_le call clock) hnew
    rw [failuresSince_concat, h.undrawn sessionId eventId hbefore]
    cases calls.marked with
    | failed failure records =>
      -- a claim that was issued is for an event that was drawn
      have hissued := calls.admissible.handler failure.claim (by rw [records]; rfl)
      refine if_neg fun hof => ?_
      simp only [HandlerFailure.isOf, Bool.and_eq_true, decide_eq_true_eq] at hof
      exact absurd (hof.2 ▸ h.run.claim_drawn hissued) (Nat.not_lt.mpr hbefore)
    | retried s e =>
      exact ite_self []
    | other => rfl

/-- Every step keeps the world sound. -/
theorem Sound.step (h : w.Sound codec scheduler marks) (step : Step codec scheduler w mark w') :
    w'.Sound codec scheduler (marks ++ [mark]) := by
  rcases h.effect step with moves | ⟨call, clock, calls⟩
  · exact moves.sound h
  · exact calls.sound h

theorem Reachable.sound (reach : Reachable codec scheduler marks w) :
    w.Sound codec scheduler marks := by
  induction reach with
  | start =>
    exact ⟨.start, fun _ _ => nofun, fun _ _ _ => rfl, fun s hs => absurd hs List.not_mem_nil⟩
  | step before step ih => exact ih.step step

end HandlerWorld

end AgentPlatform.Runtime
