import AgentPlatform.Harness.Submissions
import Mathlib.Logic.Relation

/-!
# The moves of a cleanup

Every function of a cancellation is a sequence of a few moves: it stages an operation that is not
one of the model, changes the cancellation state, forgets tracked processes, or reports that a
process could not be ended. What these keep, a cancellation keeps.
-/

namespace AgentPlatform.Harness

open Relation (ReflTransGen)

namespace Cancellation

/-- The progress record of a process that could not be ended. -/
def cleanupFailed (handle : Execution.ExecutionHandle) (attempts : Nat)
    (sequence : EventSequence) : Value :=
  .object [("type", .string "cancellation_cleanup_failed"),
    ("handle", .object [("id", .uuid handle.id), ("generation_id", .uuid handle.generationId)]),
    ("attempts", .nat attempts), ("requested_at_sequence", .nat sequence)]

end Cancellation

/-- One move of a cleanup. -/
inductive Cleanup.Move (c : Cleanup) : Cleanup → Prop
  | stage (request : OperationRequest) (control : request.kind ≠ .llm) :
      Move c { c with result := (c.result.pushOperation request).2 }
  | note (cancellation : CancellationState) : Move c { c with cancellation }
  | forget (executions : List TrackedExecution)
      (fewer : executions.Sublist c.result.state.executions) :
      Move c { c with result := c.result.setState { c.result.state with executions } }
  | report (handle : Execution.ExecutionHandle) (attempts : Nat) (sequence : EventSequence) :
      Move c { c with
        result := c.result.emitProgress (Cancellation.cleanupFailed handle attempts sequence) }

/-- A sequence of moves. -/
abbrev Cleanup.Moves : Cleanup → Cleanup → Prop := ReflTransGen Cleanup.Move

namespace Cancellation

variable {agent : Agent}

theorem moves_foldl {α : Type} (f : Cleanup → α → Cleanup) (hf : ∀ c a, Cleanup.Moves c (f c a))
    (items : List α) (c : Cleanup) : Cleanup.Moves c (items.foldl f c) := by
  induction items generalizing c with
  | nil => exact .refl
  | cons a rest ih => exact (hf c a).trans (ih (f c a))

theorem moves_note (c : Cleanup) (cancellation : CancellationState) :
    Cleanup.Moves c { c with cancellation } := .single (.note cancellation)

/-- A control operation, and the note of it. -/
theorem moves_stage (c : Cleanup) (request : OperationRequest) (control : request.kind ≠ .llm)
    (cancellation : CancellationState) :
    Cleanup.Moves c { result := (c.result.pushOperation request).2, cancellation } :=
  (ReflTransGen.single (.stage request control)).tail (.note cancellation)

theorem withdrawTarget_moves (c : Cleanup) (index : Nat) :
    Cleanup.Moves c (withdrawTarget c index) := by
  unfold withdrawTarget
  split
  · exact .refl
  next target _ => exact moves_stage c (.withdraw target.operationId) (fun h => by cases h) _

theorem stageInterrupt_moves (sequence : EventSequence) (c : Cleanup) (sessionId : Option Int)
    (handle : Execution.ExecutionHandle) :
    Cleanup.Moves c (stageInterrupt agent sequence c sessionId handle) := by
  unfold stageInterrupt
  split
  · exact .refl
  · refine moves_stage c (.execution _ _ _ _) ?_ _
    intro h
    cases h

theorem stageInterrupts_moves (sequence : EventSequence) (c : Cleanup)
    (processes : List Execution.Execution) :
    Cleanup.Moves c (stageInterrupts agent sequence c processes) := by
  refine moves_foldl _ ?_ processes c
  intro c execution
  split
  · exact .refl
  · exact stageInterrupt_moves sequence c none execution.handle

theorem stageTerminate_moves (c : Cleanup) (index : Nat) (handle : Execution.ExecutionHandle)
    (attempt : Nat) : Cleanup.Moves c (stageTerminate agent c index handle attempt) := by
  refine moves_stage c (.execution _ _ _ _) ?_ _
  intro h
  cases h

theorem stageDiscovery_moves (platformSessionId : SessionId) (c : Cleanup) (attempt : Nat) :
    Cleanup.Moves c (stageDiscovery agent platformSessionId c attempt) := by
  refine moves_stage c (.execution _ _ _ _) ?_ _
  intro h
  cases h

theorem settleProcess_moves (c : Cleanup) (index : Nat) (sessionId : Option Int) :
    Cleanup.Moves c (settleProcess c index sessionId) := by
  unfold settleProcess
  cases sessionId with
  | none => exact moves_note c _
  | some sessionId => exact (moves_note c _).tail (.forget _ List.filter_sublist)

theorem handleWithdrawal_moves {c c' : Cleanup} {operationId : OperationId}
    {outcome : OperationOutcome} (h : handleWithdrawal c operationId outcome = .ok c') :
    Cleanup.Moves c c' := by
  unfold handleWithdrawal at h
  split at h
  · cases h
  split at h
  · cases h
    exact moves_note c _
  split at h
  · split at h
    · cases h
    next target _ =>
      split at h
      · cases h
        exact moves_stage c (.llmCancellation target.operationId) (fun h => by cases h) _
      · cases h
        exact moves_note c _
  · cases h

theorem handleLlmCancellation_moves {c c' : Cleanup} {operationId : OperationId}
    {outcome : OperationOutcome} (h : handleLlmCancellation c operationId outcome = .ok c') :
    Cleanup.Moves c c' := by
  unfold handleLlmCancellation at h
  split at h
  · cases h
  split at h
  next targetId _ _ _ attempt _ =>
    have again (failure : OperationFailure) {index : Nat} : Cleanup.Moves c
        (if attempt < maxCleanupAttempts then
          (Cleanup.setControl { c with result := (c.result.requestLlmCancellation targetId).2 } index
            (.llmCancellationRequested (c.result.requestLlmCancellation targetId).1
              (attempt + 1))).recordCleanupFailure operationId failure.code failure.message
        else
          (c.recordCleanupFailure operationId failure.code failure.message).setControl index
            .settled) := by
      split
      · exact moves_stage c (.llmCancellation targetId) (fun h => by cases h) _
      · exact moves_note c _
    dsimp only at h
    split at h
    · cases h
      exact moves_note c _
    · cases h
      exact moves_note c _
    · cases h
      exact again _
    · cases h
      exact again _
    · cases h
  · cases h

theorem handleOriginalCompletion_moves {c c' : Cleanup} {platformSessionId : SessionId}
    {sequence : EventSequence} {operationId : OperationId} {kind : CancellationTargetKind}
    {outcome : OperationOutcome}
    (h : handleOriginalCompletion agent platformSessionId sequence c operationId kind outcome =
      .ok c') : Cleanup.Moves c c' := by
  unfold handleOriginalCompletion at h
  split at h
  · split at h
    · cases h
    split at h
    · cases h
    · dsimp only at h
      have staged : Cleanup.Moves c
          (stageInterrupts agent sequence c (executionsFromOutcome agent.lib outcome)) :=
        stageInterrupts_moves _ _ _
      split at h
      · cases h
        exact (staged.trans (moves_note _ _)).trans (stageDiscovery_moves _ _ _)
      · cases h
        exact staged.trans (moves_note _ _)
  · cases h

theorem handleTerminate_moves (sequence : EventSequence) (c : Cleanup) (index : Nat)
    (process : ProcessCleanup) (operationId : OperationId) (attempt : Nat)
    (outcome : OperationOutcome) :
    Cleanup.Moves c (handleTerminate agent sequence c index process operationId attempt outcome) := by
  have again (failure : OperationFailure) : Cleanup.Moves c
      (let c := c.recordCleanupFailure operationId failure.code failure.message
      if attempt < maxCleanupAttempts then
        stageTerminate agent c index process.handle (attempt + 1)
      else
        let c := settleProcess c index process.sessionId
        { c with
          result := c.result.emitProgress (cleanupFailed process.handle attempt sequence) }) := by
    dsimp only
    split
    · exact (moves_note c _).trans (stageTerminate_moves _ _ _ _)
    · exact ((moves_note c _).trans (settleProcess_moves _ _ _)).tail (.report _ _ _)
  unfold handleTerminate
  dsimp only
  split
  · exact settleProcess_moves _ _ _
  · exact settleProcess_moves _ _ _
  · exact again _
  · exact again _

theorem handleProcessControl_moves {c c' : Cleanup} {sequence : EventSequence} {index : Nat}
    {operationId : OperationId} {outcome : OperationOutcome}
    (h : handleProcessControl agent sequence c index operationId outcome = .ok c') :
    Cleanup.Moves c c' := by
  unfold handleProcessControl at h
  split at h
  · split at h
    · cases h
    split at h
    · cases h
      unfold handleInterrupt
      split
      · exact settleProcess_moves _ _ _
      · exact stageTerminate_moves _ _ _ _
    · cases h
      exact handleTerminate_moves _ _ _ _ _ _ _
    · cases h
      exact .refl
  · cases h

theorem handleDiscovery_moves {c c' : Cleanup} {platformSessionId : SessionId}
    {sequence : EventSequence} {operationId : OperationId} {outcome : OperationOutcome}
    (h : handleDiscovery agent platformSessionId sequence c operationId outcome = .ok c') :
    Cleanup.Moves c c' := by
  unfold handleDiscovery at h
  split at h
  · split at h
    · cases h
    split at h
    · cases h
      split
      · exact (moves_note c _).trans (stageDiscovery_moves _ _ _)
      · exact stageDiscovery_moves _ _ _
    · cases h
      exact (moves_note c _).trans (stageInterrupts_moves _ _ _)
  · cases h

/-- What a completion does during a cancellation is a sequence of moves. -/
theorem applyCompletion_moves {c c' : Cleanup} {platformSessionId : SessionId}
    {sequence : EventSequence} {operationId : OperationId} {kind : OperationKind}
    {outcome : OperationOutcome}
    (h : applyCompletion agent platformSessionId sequence c operationId kind outcome = .ok c') :
    Cleanup.Moves c c' := by
  unfold applyCompletion at h
  split at h
  · exact handleWithdrawal_moves h
  · exact handleLlmCancellation_moves h
  · exact handleOriginalCompletion_moves h
  · split at h
    · exact handleProcessControl_moves h
    · split at h
      · exact handleDiscovery_moves h
      · exact handleOriginalCompletion_moves h

end Cancellation

/-! ## What the moves keep -/

namespace Cleanup.Moves

variable {c c' : Cleanup}

theorem draws (moves : Cleanup.Moves c c') {nextId : Uuid} (draws : Draws nextId c.result) :
    Draws nextId c'.result := by
  induction moves with
  | refl => exact draws
  | tail _ move ih =>
    cases move with
    | stage request => exact ih.push request
    | note => exact ih
    | forget => exact ih.congr rfl rfl
    | report => exact ih.congr rfl rfl

/-- Of the harness's state only the tracked processes change. -/
theorem state (moves : Cleanup.Moves c c') :
    c'.result.state = { c.result.state with executions := c'.result.state.executions } := by
  induction moves with
  | refl => rfl
  | tail _ move ih =>
    cases move with
    | stage | note | report => exact ih
    | forget =>
      rw [OutcomeBuilder.setState_state, ih]

/-- No process is tracked that was not before. -/
theorem executions (moves : Cleanup.Moves c c') :
    c'.result.state.executions.Sublist c.result.state.executions := by
  induction moves with
  | refl => exact List.Sublist.refl _
  | tail _ move ih =>
    cases move with
    | stage | note | report => exact ih
    | forget _ fewer => exact fewer.trans ih

/-- No request to the model is staged. -/
theorem control (moves : Cleanup.Moves c c')
    (before : ∀ o ∈ c.result.outcome.operations, o.request.kind ≠ .llm) :
    ∀ o ∈ c'.result.outcome.operations, o.request.kind ≠ .llm := by
  induction moves with
  | refl => exact before
  | tail _ move ih =>
    cases move with
    | stage request control =>
      intro o ho
      rcases List.mem_append.mp ho with h | h
      · exact ih o h
      · rw [List.mem_singleton.mp h]
        exact control
    | note | forget | report => exact ih

/-- The platform's history gets nothing. -/
theorem history (moves : Cleanup.Moves c c') :
    c'.result.outcome.history = c.result.outcome.history := by
  induction moves with
  | refl => rfl
  | tail _ move ih => cases move <;> exact ih

end Cleanup.Moves

end AgentPlatform.Harness
