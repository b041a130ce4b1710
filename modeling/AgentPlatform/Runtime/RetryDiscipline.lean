import AgentPlatform.Runtime.HandlerWorld

/-!
# The discipline of a handler worker

What a worker may ask while it processes a claim: it works on its own claim only, it records what the
handler failed of by the failures that it counted last, and every other failure blocks.
-/

namespace AgentPlatform.Runtime

open Store

/-- How the worker of `claim` may record a failure, when `counted` is the count that it read last. -/
structure FailureRecord (scheduler : SessionScheduler) (claim : HandlerClaim) (counted : Option Int)
    (failure : HandlerFailure) : Prop where
  own : failure.claim = claim
  blocks : failure.retryable = false → failure.blocked = true
  retries : failure.retryable = true → ∃ count, counted = some count ∧
    failure.delay = scheduler.settings.retryDelays[count.toNat]?.getD 0 ∧
    failure.blocked = decide (scheduler.settings.retryDelays.length ≤ count.toNat)

section

variable {Event Outcome : Type}

/-- The discipline of the worker that processes `claim`. -/
def handlerDiscipline (scheduler : SessionScheduler) (claim : HandlerClaim) :
    Asking.Discipline (HandlerRequest Event Outcome) HandlerRequest.Answer (Option Int) where
  allows counted
    | .renewAuthority own | .commit own _ | .abandonInfrastructure own .. => own = claim
    | .handlerFailureCount eventId => eventId = claim.eventId
    | .recordFailure own code message delay blocked =>
      ∀ now, FailureRecord scheduler claim counted { claim := own, code, message, delay, blocked, now }
    | _ => True
  after counted
    | .handlerFailureCount _, .ok count => some count
    | _, _ => counted

/-- The program keeps to the discipline of its claim. -/
def Abides (scheduler : SessionScheduler) (claim : HandlerClaim) (counted : Option Int)
    (program : HandlerWork Event Outcome Unit) : Prop :=
  program.Obeys (handlerDiscipline scheduler claim) (fun _ _ => True) counted

variable {scheduler : SessionScheduler} {claim : HandlerClaim} {counted : Option Int}

/-! ## The ends of an attempt -/

theorem abides_block {code message : String}
    (final : (code = "handler_failed" || code = "handler_panicked") = false) :
    Abides scheduler claim counted
      (SessionScheduler.block claim code message : HandlerWork Event Outcome Unit) := by
  refine ⟨fun now => ⟨rfl, fun _ => rfl, fun retryable => ?_⟩, fun _ => trivial⟩
  cases final.symm.trans retryable

theorem abides_retryHandler {code message : String}
    (retryable : (code = "handler_failed" || code = "handler_panicked") = true) :
    Abides scheduler claim counted
      (scheduler.retryHandler claim code message : HandlerWork Event Outcome Unit) := by
  refine ⟨rfl, fun answer => ?_⟩
  cases answer with
  | error error => trivial
  | ok count =>
    refine ⟨fun now => ⟨rfl, fun final => ?_, fun _ => ⟨count, rfl, rfl, rfl⟩⟩, fun _ => trivial⟩
    cases retryable.symm.trans final

theorem abides_abandonInfrastructure {code message : String} :
    Abides scheduler claim counted
      (SessionScheduler.abandonInfrastructure claim code message : HandlerWork Event Outcome Unit) :=
  ⟨rfl, fun _ => trivial⟩

theorem abides_whileOwned {program : HandlerWork Event Outcome Unit}
    (owned : Abides scheduler claim counted program) :
    Abides scheduler claim counted (SessionScheduler.whileOwned claim program) := by
  refine ⟨rfl, fun answer => ?_⟩
  cases answer with
  | false => trivial
  | true => exact owned

/-! ## The commit -/

theorem abides_commitOnce {outcome : OutcomeCommit}
    {retry : StoreError → HandlerWork Event Outcome Unit}
    (retries : ∀ error, Abides scheduler claim counted (retry error)) :
    Abides scheduler claim counted (scheduler.commitOnce claim outcome retry) := by
  refine ⟨rfl, fun answer => ?_⟩
  match answer with
  | none | some (.ok ()) | some (.error .staleClaim) => trivial
  | some (.error (.retryable error)) => exact retries error
  | some (.error (.rejected error)) => exact abides_whileOwned (abides_block rfl)
  | some (.error (.uncertain error)) => exact ⟨trivial, fun _ => trivial⟩

theorem abides_commitPrepared {outcome : OutcomeCommit} (delays : List Nat) :
    Abides scheduler claim counted
      (scheduler.commitPrepared claim outcome delays : HandlerWork Event Outcome Unit) := by
  induction delays with
  | nil =>
    unfold SessionScheduler.commitPrepared
    exact abides_commitOnce fun _ => abides_whileOwned abides_abandonInfrastructure
  | cons delay delays ih =>
    unfold SessionScheduler.commitPrepared
    refine abides_commitOnce fun _ => ⟨trivial, fun lost => ?_⟩
    cases lost with
    | true => trivial
    | false =>
      refine ⟨trivial, fun lost => ?_⟩
      cases lost with
      | true => trivial
      | false => exact ih

theorem abides_commitOutcome {outcome : Outcome} :
    Abides scheduler claim counted
      (scheduler.commitOutcome claim outcome : HandlerWork Event Outcome Unit) := by
  refine ⟨trivial, fun prepared => ?_⟩
  cases prepared with
  | none => trivial
  | some prepared =>
    refine ⟨trivial, fun lost => ?_⟩
    cases lost with
    | true => trivial
    | false =>
      match prepared with
      | .ok outcome => exact abides_commitPrepared _
      | .error (.invalid error) => exact abides_whileOwned (abides_block rfl)
      | .error (.store error) => exact abides_whileOwned abides_abandonInfrastructure

/-! ## A claim -/

theorem abides_finishHandled (handled : Handled Outcome) :
    Abides scheduler claim counted
      (scheduler.finishHandled claim handled : HandlerWork Event Outcome Unit) := by
  cases handled with
  | outcome outcome => exact abides_commitOutcome
  | panicked => exact abides_whileOwned (abides_retryHandler rfl)
  | failed error =>
    cases error with
    | handler message =>
      refine ⟨trivial, fun failure => ?_⟩
      cases failure with
      | none => exact abides_whileOwned (abides_retryHandler rfl)
      | some error => exact abides_whileOwned abides_abandonInfrastructure
    | _ => exact abides_whileOwned (abides_block rfl)

/-- The program of every claim keeps to its discipline. -/
theorem abides_processClaim (claimed : ClaimedEvent) :
    Abides scheduler claimed.claim counted
      (scheduler.processClaim claimed : HandlerWork Event Outcome Unit) := by
  refine ⟨trivial, fun registered => ?_⟩
  cases registered with
  | false => exact abides_block rfl
  | true =>
    refine ⟨trivial, fun validation => ?_⟩
    cases validation with
    | invalid error => exact abides_block rfl
    | panicked => exact abides_block rfl
    | valid =>
      refine ⟨trivial, fun decoded => ?_⟩
      cases decoded with
      | error error => exact abides_block rfl
      | ok event =>
        refine ⟨trivial, fun handled => ?_⟩
        cases handled with
        | none => trivial
        | some handled => exact abides_finishHandled handled

end

end AgentPlatform.Runtime
