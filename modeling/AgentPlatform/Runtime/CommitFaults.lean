import AgentPlatform.Runtime.Scheduler

/-!
# Faults of a commit

What `commit_prepared` makes of a database that fails. A statement before COMMIT fails with an error
that `From<sqlx::Error>` classifies, COMMIT itself with one that `from_commit` classifies. Of the
SQLSTATEs that pass by themselves, `from_commit` retries only `40001` and `40P01`: any other one of
them, as the answer to COMMIT, blocks the session.
-/

namespace AgentPlatform.Runtime

open Store

/-- How one commit of a prepared outcome ends. -/
inductive CommitReply where
  | committed
  /-- The lease is lost before the store answers. -/
  | unheard
  /-- The transaction ends before COMMIT. -/
  | failed (error : StoreError)
  /-- COMMIT is answered with an error. -/
  | uncommitted (error : DatabaseError)
deriving DecidableEq, Repr

namespace CommitReply

/-- What `commit_prepared` hears of it. -/
def answer : CommitReply → Option (Except HandlerCommitError Unit)
  | .committed => some (.ok ())
  | .unheard => none
  | .failed error => some (.error (.ofStore error))
  | .uncommitted error => some (.error (.fromCommit error))

/-- The transaction is known to be rolled back. Of the answers to COMMIT, those of SQLSTATE class 40
say so, but for `40003`, `statement_completion_unknown`. -/
def rolledBack : CommitReply → Bool
  | .failed _ => true
  | .uncommitted (.database sqlstate) => sqlstate.startsWith "40" && sqlstate != "40003"
  | _ => false

/-- The error passes by itself, as the store sees it before COMMIT. -/
def transient : CommitReply → Bool
  | .failed (.database error) | .uncommitted error => retryableDatabaseError error
  | _ => false

/-- A transient error that is answered as one to retry. -/
def retried : CommitReply → Bool
  | .failed (.database error) => retryableDatabaseError error
  | .uncommitted (.database sqlstate) => ["40001", "40P01"].contains sqlstate
  | _ => false

/-- COMMIT is answered with a transient SQLSTATE that `from_commit` does not retry. -/
def misread : CommitReply → Bool
  | .uncommitted (.database sqlstate) =>
    retryableDatabaseError (.database sqlstate) && !(["40001", "40P01"].contains sqlstate)
  | _ => false

end CommitReply

/-- What a worker did about its commit. -/
inductive CommitNote where
  | sent (outcome : OutcomeCommit) (reply : CommitReply)
  | recorded (code : String) (blocked : Bool)
  | other

section

variable {Event Outcome : Type}

/-- What an answer leaves in the log of a worker. -/
def HandlerRequest.Notes : (request : HandlerRequest Event Outcome) → request.Answer →
    CommitNote → Prop
  | .commit _ outcome, answer, note => ∃ reply : CommitReply,
      answer = reply.answer ∧ note = .sent outcome reply
  | .recordFailure _ code _ _ blocked, _, note => note = .recorded code blocked
  | _, _, note => note = .other

end

/-- The replies to the commits of a log. -/
def repliesOf (log : List CommitNote) : List CommitReply :=
  log.filterMap fun
    | .sent _ reply => some reply
    | _ => none

/-- After the reply `last`, a log sends the outcome again only if that reply says that it was rolled
back, and records a failure only as an invalid outcome, and only if that reply does not pass by
itself. An answer to COMMIT that passes by itself is not a rejection. -/
def FaultSafe (outcome : OutcomeCommit) : Option CommitReply → List CommitNote → Prop
  | _, [] => True
  | last, .sent resent reply :: log =>
    resent = outcome ∧ (∀ r ∈ last, r.rolledBack = true) ∧
      (∀ error, reply = .uncommitted error → retryableDatabaseError error = true →
        ∀ cause, HandlerCommitError.fromCommit error ≠ .rejected cause) ∧
      FaultSafe outcome (some reply) log
  | last, .recorded code blocked :: log =>
    code = "invalid_handler_outcome" ∧ blocked = true ∧ (∃ r ∈ last, r.transient = false) ∧
      FaultSafe outcome last log
  | last, .other :: log => FaultSafe outcome last log

/-- The reply that ends a commit with so many retries: the first one that is not retried. -/
def settling (retries : Nat) (replies : List CommitReply) : Option CommitReply :=
  (replies.take (retries + 1)).find? fun reply => !reply.retried

/-! ## One reply -/

namespace CommitReply

theorem retried_of_answer {reply : CommitReply} {error : StoreError}
    (h : reply.answer = some (.error (.retryable error))) : reply.retried = true := by
  cases reply with
  | committed | unheard => cases h
  | failed error =>
    cases error with
    | database error =>
      cases hretry : retryableDatabaseError error with
      | true => exact hretry
      | false => simp [answer, HandlerCommitError.ofStore, hretry] at h
    | _ => cases h
  | uncommitted error =>
    cases error with
    | database sqlstate =>
      cases hretry : ["40001", "40P01"].contains sqlstate with
      | true => exact hretry
      | false =>
        simp only [answer, HandlerCommitError.fromCommit, hretry, Bool.false_eq_true, if_false] at h
        cases h
    | _ => cases h

theorem answer_of_retried {reply : CommitReply} (h : reply.retried = true) :
    ∃ error, reply.answer = some (.error (.retryable error)) := by
  cases reply with
  | committed | unheard => cases h
  | failed error =>
    cases error with
    | database error =>
      have hretry : retryableDatabaseError error = true := h
      exact ⟨.database error, by simp [answer, HandlerCommitError.ofStore, hretry]⟩
    | _ => cases h
  | uncommitted error =>
    cases error with
    | database sqlstate =>
      have hretry : ["40001", "40P01"].contains sqlstate = true := h
      exact ⟨.database (.database sqlstate), by
        simp only [answer, HandlerCommitError.fromCommit, hretry, if_true]⟩
    | _ => cases h

/-- What is retried was rolled back. -/
theorem rolledBack_of_retried {reply : CommitReply} (h : reply.retried = true) :
    reply.rolledBack = true := by
  cases reply with
  | committed | unheard => cases h
  | failed error => rfl
  | uncommitted error =>
    cases error with
    | database sqlstate =>
      obtain rfl | rfl : sqlstate = "40001" ∨ sqlstate = "40P01" := by simpa [retried] using h
      · simp [rolledBack]
      · simp [rolledBack]
    | _ => cases h

theorem misread_of_retried {reply : CommitReply} (h : reply.retried = true) :
    reply.misread = false := by
  cases reply with
  | uncommitted error =>
    cases error with
    | database sqlstate =>
      have hretry : ["40001", "40P01"].contains sqlstate = true := h
      simp only [misread, hretry, Bool.not_true, Bool.and_false]
    | _ => rfl
  | _ => rfl

/-- A rejection that is not misread does not pass by itself. -/
theorem transient_of_answer {reply : CommitReply} {error : StoreError}
    (h : reply.answer = some (.error (.rejected error))) (read : reply.misread = false) :
    reply.transient = false := by
  cases reply with
  | committed | unheard => cases h
  | failed error =>
    cases error with
    | database error =>
      cases hretry : retryableDatabaseError error with
      | true => simp [answer, HandlerCommitError.ofStore, hretry] at h
      | false => exact hretry
    | _ => rfl
  | uncommitted error =>
    cases error with
    | database sqlstate =>
      cases hretry : ["40001", "40P01"].contains sqlstate with
      | true =>
        simp only [answer, HandlerCommitError.fromCommit, hretry, if_true] at h
        cases h
      | false =>
        show retryableDatabaseError (.database sqlstate) = false
        simpa only [misread, hretry, Bool.not_false, Bool.and_true] using read
    | _ => cases h

/-- A transient answer to COMMIT that is not misread is not a rejection. -/
theorem fromCommit_ne_rejected {error : DatabaseError}
    (read : (uncommitted error).misread = false) (passes : retryableDatabaseError error = true)
    (cause : StoreError) : HandlerCommitError.fromCommit error ≠ .rejected cause := by
  intro h
  have hlasting : (uncommitted error).transient = false :=
    transient_of_answer (by rw [answer, h]) read
  exact absurd passes (by simpa only [transient, Bool.not_eq_true] using hlasting)

/-- What is misread blocks, and passes by itself. -/
theorem of_misread {reply : CommitReply} (h : reply.misread = true) :
    reply.transient = true ∧ ∃ error, reply.answer = some (.error (.rejected error)) := by
  cases reply with
  | uncommitted error =>
    cases error with
    | database sqlstate =>
      have hboth : retryableDatabaseError (.database sqlstate) = true ∧
          ["40001", "40P01"].contains sqlstate = false := by
        simpa only [misread, Bool.and_eq_true, Bool.not_eq_true'] using h
      refine ⟨hboth.1, .database (.database sqlstate), ?_⟩
      simp only [answer, HandlerCommitError.fromCommit, hboth.2, Bool.false_eq_true, if_false]
    | _ => cases h
  | _ => cases h

end CommitReply

theorem settling_cons_of_not_retried {retries : Nat} {reply : CommitReply}
    {replies : List CommitReply} (h : reply.retried = false) :
    settling retries (reply :: replies) = some reply := by
  simp [settling, h]

theorem settling_succ_of_retried {retries : Nat} {reply : CommitReply} {replies : List CommitReply}
    (h : reply.retried = true) :
    settling (retries + 1) (reply :: replies) = settling retries replies := by
  simp [settling, h]

theorem settling_zero_of_retried {reply : CommitReply} {replies : List CommitReply}
    (h : reply.retried = true) : settling 0 (reply :: replies) = none := by
  simp [settling, h]

/-! ## One commit -/

namespace SessionScheduler

variable {Event Outcome : Type} {scheduler : SessionScheduler} {claim : HandlerClaim}
  {outcome : OutcomeCommit} {last : Option CommitReply} {log : List CommitNote}

/-- A worker that abandons its attempt is safe. -/
theorem faultSafe_whileOwned_abandon {code message : String}
    (h : Asking.Logs HandlerRequest.Notes (whileOwned claim
      (abandonInfrastructure claim code message) : HandlerWork Event Outcome Unit) log) :
    FaultSafe outcome last log := by
  obtain rfl | ⟨owned, note, rest, rfl, hrest, rfl⟩ := Asking.logs_ask.mp h
  · trivial
  · cases owned with
    | false =>
      obtain rfl := Asking.logs_done.mp hrest
      trivial
    | true =>
      obtain rfl | ⟨_, note, rest, rfl, hdone, rfl⟩ := Asking.logs_ask.mp hrest
      · trivial
      · obtain rfl := Asking.logs_done.mp hdone
        trivial

/-- A worker that blocks is safe after a reply that does not pass by itself. -/
theorem faultSafe_whileOwned_block {message : String} {reply : CommitReply}
    (lasting : reply.transient = false)
    (h : Asking.Logs HandlerRequest.Notes (whileOwned claim
      (block claim "invalid_handler_outcome" message) : HandlerWork Event Outcome Unit) log) :
    FaultSafe outcome (some reply) log := by
  obtain rfl | ⟨owned, note, rest, rfl, hrest, rfl⟩ := Asking.logs_ask.mp h
  · trivial
  · cases owned with
    | false =>
      obtain rfl := Asking.logs_done.mp hrest
      trivial
    | true =>
      obtain rfl | ⟨_, note, rest, rfl, hdone, rfl⟩ := Asking.logs_ask.mp hrest
      · trivial
      · obtain rfl := Asking.logs_done.mp hdone
        exact ⟨rfl, rfl, ⟨reply, rfl, lasting⟩, trivial⟩

/-- A commit that is answered sends its outcome, and goes on as the reply says. -/
theorem logs_commitOnce {retry : StoreError → HandlerWork Event Outcome Unit}
    (h : Asking.Logs HandlerRequest.Notes (scheduler.commitOnce claim outcome retry) log) :
    log = [] ∨ ∃ (reply : CommitReply) (rest : List CommitNote), log = .sent outcome reply :: rest ∧
      ((∃ error, reply.answer = some (.error (.retryable error)) ∧
          Asking.Logs HandlerRequest.Notes (retry error) rest) ∨
        reply.retried = false ∧
          (reply.misread = false → FaultSafe outcome (some reply) rest)) := by
  obtain rfl | ⟨answer, note, rest, ⟨reply, rfl, rfl⟩, hrest, rfl⟩ := Asking.logs_ask.mp h
  · exact .inl rfl
  · refine .inr ⟨reply, rest, rfl, ?_⟩
    have hlast : (∀ error, reply.answer ≠ some (.error (.retryable error))) →
        reply.retried = false := by
      intro hnone
      by_contra hretried
      obtain ⟨error, hanswer⟩ :=
        CommitReply.answer_of_retried (by simpa only [Bool.not_eq_false] using hretried)
      exact hnone error hanswer
    match hanswer : reply.answer, hrest with
    | none, hrest | some (.ok ()), hrest | some (.error .staleClaim), hrest =>
      obtain rfl := Asking.logs_done.mp hrest
      exact .inr ⟨hlast fun error h => by simp [hanswer] at h, fun _ => trivial⟩
    | some (.error (.retryable error)), hrest => exact .inl ⟨error, rfl, hrest⟩
    | some (.error (.rejected error)), hrest =>
      exact .inr ⟨hlast fun error h => by simp [hanswer] at h, fun read =>
        faultSafe_whileOwned_block (CommitReply.transient_of_answer hanswer read) hrest⟩
    | some (.error (.uncertain error)), hrest =>
      refine .inr ⟨hlast fun error h => by simp [hanswer] at h, fun _ => ?_⟩
      obtain rfl | ⟨status, note, rest, rfl, hdone, rfl⟩ := Asking.logs_ask.mp hrest
      · trivial
      · obtain rfl := Asking.logs_done.mp hdone
        trivial

/-! ## Every run -/

theorem repliesOf_sent_prefix {reply : CommitReply} {log : List CommitNote}
    {replies : List CommitReply} (h : repliesOf (.sent outcome reply :: log) <+: replies) :
    ∃ rest, replies = reply :: rest ∧ repliesOf log <+: rest := by
  obtain ⟨more, rfl⟩ := h
  exact ⟨repliesOf log ++ more, rfl, more, rfl⟩

/-- A log that sends the outcome and hears `reply` is safe where the rest of it is. -/
theorem faultSafe_sent {reply : CommitReply} (back : ∀ r ∈ last, r.rolledBack = true)
    (read : reply.misread = false) (rest : FaultSafe outcome (some reply) log) :
    FaultSafe outcome last (.sent outcome reply :: log) := by
  refine ⟨rfl, back, fun error huncommitted hpasses cause => ?_, rest⟩
  subst huncommitted
  exact CommitReply.fromCommit_ne_rejected read hpasses cause

/-- Where the reply that settles the commit is not misread, every run is safe. -/
theorem faultSafe_commitPrepared {delays : List Nat} {replies : List CommitReply}
    (read : ∀ reply ∈ settling delays.length replies, reply.misread = false)
    (back : ∀ r ∈ last, r.rolledBack = true)
    (h : Asking.Logs HandlerRequest.Notes
      (scheduler.commitPrepared claim outcome delays : HandlerWork Event Outcome Unit) log)
    (answered : repliesOf log <+: replies) : FaultSafe outcome last log := by
  induction delays generalizing log replies last with
  | nil =>
    obtain rfl | ⟨reply, rest, rfl, hretry | ⟨hlast, hsafe⟩⟩ := logs_commitOnce h
    · trivial
    · obtain ⟨error, hanswer, hrest⟩ := hretry
      exact faultSafe_sent back
        (CommitReply.misread_of_retried (CommitReply.retried_of_answer hanswer))
        (faultSafe_whileOwned_abandon hrest)
    · obtain ⟨later, rfl, -⟩ := repliesOf_sent_prefix answered
      have hread := read reply (settling_cons_of_not_retried hlast)
      exact faultSafe_sent back hread (hsafe hread)
  | cons delay delays ih =>
    obtain rfl | ⟨reply, rest, rfl, hretry | ⟨hlast, hsafe⟩⟩ := logs_commitOnce h
    · trivial
    · obtain ⟨later, rfl, hlater⟩ := repliesOf_sent_prefix answered
      obtain ⟨error, hanswer, hrest⟩ := hretry
      have hretried := CommitReply.retried_of_answer hanswer
      apply faultSafe_sent back (CommitReply.misread_of_retried hretried)
      -- the sleep and the look at the lease leave nothing to judge
      obtain rfl | ⟨lost, note, slept, rfl, hslept, rfl⟩ := Asking.logs_ask.mp hrest
      · trivial
      · cases lost with
        | true =>
          obtain rfl := Asking.logs_done.mp hslept
          trivial
        | false =>
          obtain rfl | ⟨lost, note, again, rfl, hagain, rfl⟩ := Asking.logs_ask.mp hslept
          · trivial
          · cases lost with
            | true =>
              obtain rfl := Asking.logs_done.mp hagain
              trivial
            | false =>
              have hback : ∀ r ∈ some reply, r.rolledBack = true := by
                rintro r ⟨⟩
                exact CommitReply.rolledBack_of_retried hretried
              apply ih _ hback hagain hlater
              rwa [List.length_cons, settling_succ_of_retried hretried] at read
    · obtain ⟨later, rfl, -⟩ := repliesOf_sent_prefix answered
      have hread := read reply (settling_cons_of_not_retried hlast)
      exact faultSafe_sent back hread (hsafe hread)

/-- What follows a reply that is misread: the worker still owns its claim, and blocks. -/
theorem logs_misread {retry : StoreError → HandlerWork Event Outcome Unit} {reply : CommitReply}
    (h : reply.misread = true) :
    Asking.Logs HandlerRequest.Notes (scheduler.commitOnce claim outcome retry)
      [.sent outcome reply, .other, .recorded "invalid_handler_outcome" true] := by
  obtain ⟨error, hanswer⟩ := (CommitReply.of_misread h).2
  refine ⟨reply.answer, ⟨reply, rfl, rfl⟩, ?_⟩
  rw [hanswer]
  exact ⟨true, rfl, (), rfl, trivial⟩

/-- A log that blocks after a reply that is misread is not safe. -/
theorem not_faultSafe_misread {reply : CommitReply} (h : reply.misread = true) :
    ¬ FaultSafe outcome last
      [.sent outcome reply, .other, .recorded "invalid_handler_outcome" true] := by
  rintro ⟨-, -, -, -, -, ⟨r, ⟨⟩, hlasting⟩, -⟩
  exact absurd (CommitReply.of_misread h).1 (by simpa only [Bool.not_eq_true] using hlasting)

/-- Where the reply that settles the commit is misread, some run is not safe. -/
theorem exists_unsafe (scheduler : SessionScheduler) (claim : HandlerClaim)
    (outcome : OutcomeCommit) (last : Option CommitReply) {delays : List Nat}
    {replies : List CommitReply} {reply : CommitReply}
    (settles : settling delays.length replies = some reply) (h : reply.misread = true) :
    ∃ log, Asking.Logs HandlerRequest.Notes
        (scheduler.commitPrepared claim outcome delays : HandlerWork Event Outcome Unit) log ∧
      repliesOf log <+: replies ∧ ¬ FaultSafe outcome last log := by
  induction delays generalizing replies last with
  | nil =>
    cases replies with
    | nil => cases settles
    | cons first replies =>
      cases hretried : first.retried with
      | true => rw [List.length_nil, settling_zero_of_retried hretried] at settles; cases settles
      | false =>
        obtain rfl : first = reply := by
          simpa only [settling_cons_of_not_retried hretried, Option.some.injEq] using settles
        exact ⟨_, logs_misread h, ⟨replies, rfl⟩, not_faultSafe_misread h⟩
  | cons delay delays ih =>
    cases replies with
    | nil => cases settles
    | cons first replies =>
      cases hretried : first.retried with
      | true =>
        rw [List.length_cons, settling_succ_of_retried hretried] at settles
        obtain ⟨log, hlogs, ⟨later, hlater⟩, hunsafe⟩ := ih (some first) settles
        obtain ⟨error, hanswer⟩ := CommitReply.answer_of_retried hretried
        refine ⟨.sent outcome first :: .other :: .other :: log, ?_, ⟨later, ?_⟩, ?_⟩
        · refine ⟨first.answer, ⟨first, rfl, rfl⟩, ?_⟩
          rw [hanswer]
          exact ⟨false, rfl, false, rfl, hlogs⟩
        · show first :: (repliesOf log ++ later) = first :: replies
          rw [hlater]
        · rintro ⟨-, -, -, hsafe⟩
          exact hunsafe hsafe
      | false =>
        obtain rfl : first = reply := by
          simpa only [settling_cons_of_not_retried hretried, Option.some.injEq] using settles
        exact ⟨_, logs_misread h, ⟨replies, rfl⟩, not_faultSafe_misread h⟩

end SessionScheduler

/-- Whatever the database answers, the runs of `commit_prepared` send the outcome again only after a
rollback and block only for an error that does not pass by itself, if and only if the reply that
settles the commit is no answer to COMMIT with a transient SQLSTATE other than `40001` and
`40P01`. -/
theorem commitPrepared_faultSafe_iff {Event Outcome : Type} (scheduler : SessionScheduler)
    (claim : HandlerClaim) (outcome : OutcomeCommit) (delays : List Nat)
    (replies : List CommitReply) :
    (∀ log, Asking.Logs HandlerRequest.Notes
        (scheduler.commitPrepared claim outcome delays : HandlerWork Event Outcome Unit) log →
      repliesOf log <+: replies → FaultSafe outcome none log) ↔
    ∀ reply ∈ settling delays.length replies, reply.misread = false := by
  constructor
  · intro safe reply settles
    by_contra hread
    obtain ⟨log, hlogs, hanswered, hunsafe⟩ :=
      SessionScheduler.exists_unsafe scheduler claim outcome none settles
        (by simpa only [Bool.not_eq_false] using hread)
    exact hunsafe (safe log hlogs hanswered)
  · intro read log hlogs hanswered
    exact SessionScheduler.faultSafe_commitPrepared read (fun _ h => nomatch h) hlogs hanswered

/-! ## A lock timeout at COMMIT -/

/-- `SchedulerSettings::default`. -/
def SchedulerSettings.default : SchedulerSettings where
  leaseDuration := 30000
  retryDelays := [1000, 5000]
  commitRetryDelays := [10, 50]
  infrastructureRetryDelay := 1000
  leases := by decide
  retries := by decide
  recommits := by decide
  waits := by decide

/-- COMMIT runs into the `lock_timeout` of the pool. -/
def lockTimeoutAtCommit : CommitReply := .uncommitted (.database "55P03")

/-- A lock timeout passes by itself and is retried before COMMIT, but at COMMIT it blocks the event
as an invalid outcome. -/
theorem lock_timeout_at_commit_blocks :
    let scheduler : SessionScheduler := { settings := .default, errorText := fun _ => "lock timeout" }
    let claim : HandlerClaim :=
      { sessionId := 1, eventId := 2, attemptId := 3, leaseToken := 4, inputStateVersion := 0 }
    let outcome : OutcomeCommit :=
      { state := "null", status := none, history := [], operations := [], waits := []
        cancelledWaits := [], progress := [] }
    ¬ ∀ log, Asking.Logs HandlerRequest.Notes (scheduler.commitPrepared claim outcome
        scheduler.settings.commitRetryDelays : HandlerWork Unit Unit Unit) log →
      repliesOf log <+: [lockTimeoutAtCommit] → FaultSafe outcome none log := by
  intro scheduler claim outcome safe
  have hmisread : lockTimeoutAtCommit.misread = true := by decide
  exact SessionScheduler.not_faultSafe_misread hmisread
    (safe _ (SessionScheduler.logs_misread hmisread) (List.prefix_refl _))

end AgentPlatform.Runtime
