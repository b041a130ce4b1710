import AgentPlatform.Harness.Run
import AgentPlatform.Harness.CleanupMoves

/-!
# The branches of a cleanup

What the completion of an operation can have done to the records of a cancellation, one case for
each branch of `cancellation.rs`. The invariants of a cancellation are proved from these cases.
-/

namespace AgentPlatform.Harness.Cancellation

variable {agent : Agent} {c : Cleanup} {id : OperationId}

/-! ## Finding a record -/

theorem getElem?_of_findIdx? {α : Type} {p : α → Bool} {xs : List α} {index : Nat}
    (h : xs.findIdx? p = some index) : ∃ a, xs[index]? = some a ∧ p a = true := by
  have hfound := List.of_findIdx?_eq_some h
  cases hget : xs[index]? with
  | none =>
    rw [hget] at hfound
    cases hfound
  | some a =>
    rw [hget] at hfound
    exact ⟨a, rfl, hfound⟩

theorem targetForControl_ok {cancellation : CancellationState} {index : Nat}
    (h : targetForControl cancellation id = .ok index) :
    ∃ target, cancellation.targets[index]? = some target ∧ target.control.awaits id = true := by
  unfold targetForControl at h
  split at h
  next found =>
    cases h
    exact getElem?_of_findIdx? found
  · cases h

/-! ## The branches -/

/-- The records after the completion of a target. -/
def originalEnded (agent : Agent) (sequence : EventSequence) (c : Cleanup) (index : Nat)
    (uncertain : Bool) (outcome : OperationOutcome) : Cleanup :=
  (stageInterrupts agent sequence c (executionsFromOutcome agent.lib outcome)).setTargets
    ((stageInterrupts agent sequence c (executionsFromOutcome agent.lib outcome)).cancellation.targets.modify
      index (completeTarget uncertain))

/-- Whether it is not known which processes an operation has left. -/
def isUncertain (lib : Foreign) (kind : CancellationTargetKind) (outcome : OperationOutcome) : Bool :=
  kind == .execution && outcome.status == .unknown && (executionsFromOutcome lib outcome).isEmpty

/-- How the completion of an operation is taken in. -/
inductive Taken (agent : Agent) (sid : SessionId) (sequence : EventSequence) (c : Cleanup)
    (id : OperationId) : OperationKind → OperationOutcome → Cleanup → Prop
  | withdrawn {index : Nat} {target : CancellationTarget}
      (found : c.cancellation.targets[index]? = some target)
      (awaits : target.control.awaits id = true) :
      Taken agent sid sequence c id .withdraw (.succeeded (.withdraw true))
        (c.setTargets (c.cancellation.targets.modify index fun target =>
          { target with originalCompleted := true, control := .settled }))
  | keptLlm {index : Nat} {target : CancellationTarget} {outcome : OperationOutcome}
      (found : c.cancellation.targets[index]? = some target)
      (awaits : target.control.awaits id = true) (kind : target.kind = .llm)
      (kept : confirmsWithdrawal outcome = false) :
      Taken agent sid sequence c id .withdraw outcome
        (Cleanup.setControl
          { c with result := (c.result.requestLlmCancellation target.operationId).2 } index
          (.llmCancellationRequested c.result.nextId 1))
  | keptExecution {index : Nat} {target : CancellationTarget} {outcome : OperationOutcome}
      (found : c.cancellation.targets[index]? = some target)
      (awaits : target.control.awaits id = true) (kind : target.kind = .execution)
      (kept : confirmsWithdrawal outcome = false) :
      Taken agent sid sequence c id .withdraw outcome
        (c.setControl index (if target.originalCompleted then .settled else .awaitingCompletion))
  | llmSettled {index attempt : Nat} {target : CancellationTarget} {control : OperationId}
      {outcome : OperationOutcome} {c' : Cleanup}
      (found : c.cancellation.targets[index]? = some target)
      (awaits : target.control.awaits id = true)
      (asked : target.control = .llmCancellationRequested control attempt)
      (noted : c' = c ∨ ∃ code message, c' = c.recordCleanupFailure id code message) :
      Taken agent sid sequence c id .llmCancellation outcome (c'.setControl index .settled)
  | llmAgain {index attempt : Nat} {target : CancellationTarget} {control : OperationId}
      {outcome : OperationOutcome} {code message : String}
      (found : c.cancellation.targets[index]? = some target)
      (awaits : target.control.awaits id = true)
      (asked : target.control = .llmCancellationRequested control attempt) :
      Taken agent sid sequence c id .llmCancellation outcome
        ((Cleanup.setControl
          { c with result := (c.result.requestLlmCancellation target.operationId).2 } index
          (.llmCancellationRequested c.result.nextId (attempt + 1))).recordCleanupFailure id code
          message)
  | original {kind : CancellationTargetKind} {index : Nat} {target : CancellationTarget}
      {outcome : OperationOutcome} (found : c.cancellation.targets[index]? = some target)
      (named : target.operationId = id) (same : target.kind = kind)
      (certain : ¬ (isUncertain agent.lib kind outcome = true ∧
        (originalEnded agent sequence c index (isUncertain agent.lib kind outcome)
          outcome).cancellation.discovery.isNone = true)) :
      Taken agent sid sequence c id kind.operationKind outcome
        (originalEnded agent sequence c index (isUncertain agent.lib kind outcome) outcome)
  | originalUnknown {index : Nat} {target : CancellationTarget} {outcome : OperationOutcome}
      (found : c.cancellation.targets[index]? = some target)
      (named : target.operationId = id) (same : target.kind = .execution)
      (uncertain : isUncertain agent.lib .execution outcome = true)
      (undiscovered : (originalEnded agent sequence c index true
        outcome).cancellation.discovery = none) :
      Taken agent sid sequence c id .execution outcome
        (stageDiscovery agent sid (originalEnded agent sequence c index true outcome) 1)
  | interrupted {index : Nat} {process : ProcessCleanup} {outcome : OperationOutcome}
      (found : c.cancellation.processes[index]? = some process)
      (asked : process.control = .interruptRequested id) :
      Taken agent sid sequence c id .execution outcome
        (handleInterrupt agent c index process outcome)
  | terminated {index attempt : Nat} {process : ProcessCleanup} {outcome : OperationOutcome}
      (found : c.cancellation.processes[index]? = some process)
      (asked : process.control = .terminateRequested id attempt) :
      Taken agent sid sequence c id .execution outcome
        (handleTerminate agent sequence c index process id attempt outcome)
  | discoverAgain {attempt : Nat} {outcome : OperationOutcome} {c' : Cleanup}
      (current : c.cancellation.discovery = some { operationId := id, attempt })
      (noted : c' = c ∨ ∃ code message, c' = c.recordCleanupFailure id code message) :
      Taken agent sid sequence c id .execution outcome (stageDiscovery agent sid c' (attempt + 1))
  | discovered {attempt : Nat} {outcome : OperationOutcome}
      (current : c.cancellation.discovery = some { operationId := id, attempt }) :
      Taken agent sid sequence c id .execution outcome
        (stageInterrupts agent sequence
          ((c.setDiscovery none).setTargets (c.cancellation.targets.map discovered))
          (executionsFromOutcome agent.lib outcome))

variable {sid : SessionId} {sequence : EventSequence} {outcome : OperationOutcome} {c' : Cleanup}

theorem withdrawal_taken (h : handleWithdrawal c id outcome = .ok c') :
    Taken agent sid sequence c id .withdraw outcome c' := by
  unfold handleWithdrawal at h
  split at h
  · cases h
  next index hindex =>
  obtain ⟨target, found, awaits⟩ := targetForControl_ok hindex
  split at h
  · cases h
    exact .withdrawn found awaits
  next hkept =>
  have kept : confirmsWithdrawal outcome = false := by
    cases hconfirms : confirmsWithdrawal outcome with
    | false => rfl
    | true =>
      unfold confirmsWithdrawal at hconfirms
      split at hconfirms
      next withdrawn =>
        rw [hconfirms] at hkept
        exact absurd rfl hkept
      · cases hconfirms
  split at h
  · rw [found] at h
    dsimp only at h
    split at h
    next hkind =>
      cases h
      exact .keptLlm found awaits hkind kept
    next hkind =>
      cases h
      exact .keptExecution found awaits hkind kept
  · cases h

theorem llmCancellation_taken (h : handleLlmCancellation c id outcome = .ok c') :
    Taken agent sid sequence c id .llmCancellation outcome c' := by
  unfold handleLlmCancellation at h
  split at h
  · cases h
  next index hindex =>
  obtain ⟨target, found, awaits⟩ := targetForControl_ok hindex
  rw [found] at h
  split at h
  next targetId kind completed control attempt heq =>
    cases heq
    have again (failure : OperationFailure) : Taken agent sid sequence c id .llmCancellation outcome
        (if attempt < maxCleanupAttempts then
          (Cleanup.setControl { c with result := (c.result.requestLlmCancellation targetId).2 } index
            (.llmCancellationRequested (c.result.requestLlmCancellation targetId).1
              (attempt + 1))).recordCleanupFailure id failure.code failure.message
        else (c.recordCleanupFailure id failure.code failure.message).setControl index .settled) := by
      split
      · exact .llmAgain found awaits rfl
      · exact .llmSettled found awaits rfl (.inr ⟨_, _, rfl⟩)
    dsimp only at h
    split at h
    · cases h
      exact .llmSettled found awaits rfl (.inl rfl)
    · cases h
      exact .llmSettled found awaits rfl (.inl rfl)
    · cases h
      exact again _
    · cases h
      exact again _
    · cases h
  · cases h

theorem original_taken {kind : CancellationTargetKind}
    (h : handleOriginalCompletion agent sid sequence c id kind outcome = .ok c') :
    Taken agent sid sequence c id kind.operationKind outcome c' := by
  unfold handleOriginalCompletion at h
  split at h
  · split at h
    · cases h
    next index hindex =>
    obtain ⟨target, found, hnamed⟩ := getElem?_of_findIdx? hindex
    have named : target.operationId = id := by simpa using hnamed
    rw [found] at h
    split at h
    · cases h
    next hsame =>
    have same : target.kind = kind := by simpa using hsame
    dsimp only at h
    split at h
    next huncertain =>
      cases h
      obtain ⟨uncertain, hnone⟩ := huncertain
      have uncertain : isUncertain agent.lib kind outcome = true := uncertain
      have undiscovered := Option.isNone_iff_eq_none.mp hnone
      obtain rfl : kind = .execution := by
        simp only [isUncertain, Bool.and_eq_true, beq_iff_eq] at uncertain
        exact uncertain.1.1
      have taken : Taken agent sid sequence c id .execution outcome
          (stageDiscovery agent sid (originalEnded agent sequence c index
            (isUncertain agent.lib .execution outcome) outcome) 1) := by
        rw [uncertain]
        refine .originalUnknown found named same uncertain ?_
        rw [← uncertain]
        exact undiscovered
      exact taken
    next hcertain =>
      cases h
      exact .original found named same hcertain
  · cases h

theorem process_taken {index : Nat}
    (awaited : processForControl c.cancellation id = some index)
    (h : handleProcessControl agent sequence c index id outcome = .ok c') :
    Taken agent sid sequence c id .execution outcome c' := by
  obtain ⟨process, found, awaits⟩ := getElem?_of_findIdx? awaited
  unfold handleProcessControl at h
  split at h
  · rw [found] at h
    dsimp only at h
    split at h
    next requested hasked =>
      cases h
      rw [hasked] at awaits
      obtain rfl : requested = id := by simpa [ProcessCleanupControl.awaits] using awaits
      exact .interrupted found hasked
    next requested attempt hasked =>
      cases h
      rw [hasked] at awaits
      obtain rfl : requested = id := by simpa [ProcessCleanupControl.awaits] using awaits
      exact .terminated found hasked
    next hsettled =>
      rw [hsettled] at awaits
      cases awaits
  · cases h

theorem discovery_taken (current : isDiscovery c.cancellation id = true)
    (h : handleDiscovery agent sid sequence c id outcome = .ok c') :
    Taken agent sid sequence c id .execution outcome c' := by
  obtain ⟨⟨operationId, attempt⟩, hdiscovery, hnamed⟩ := (Option.any_eq_true _ _).mp current
  obtain rfl : operationId = id := by simpa using hnamed
  unfold handleDiscovery at h
  rw [hdiscovery] at h
  split at h
  · dsimp only at h
    split at h
    · cases h
      refine .discoverAgain hdiscovery ?_
      split
      · exact .inr ⟨_, _, rfl⟩
      · exact .inl rfl
    · cases h
      exact .discovered hdiscovery
  · cases h

/-- The completion of an operation during a cancellation is taken in by one of the branches. -/
theorem completion_taken {kind : OperationKind}
    (h : applyCompletion agent sid sequence c id kind outcome = .ok c') :
    Taken agent sid sequence c id kind outcome c' := by
  unfold applyCompletion at h
  split at h
  · exact withdrawal_taken h
  · exact llmCancellation_taken h
  · exact original_taken h
  · split at h
    next index hindex => exact process_taken hindex h
    · split at h
      next hcurrent => exact discovery_taken hcurrent h
      · exact original_taken h

/-! ## What a branch leaves alone -/

@[simp] theorem stageInterrupt_targets (sessionId : Option Int) (handle : Execution.ExecutionHandle) :
    (stageInterrupt agent sequence c sessionId handle).cancellation.targets =
      c.cancellation.targets := by
  unfold stageInterrupt
  split <;> rfl

@[simp] theorem stageInterrupt_discovery (sessionId : Option Int)
    (handle : Execution.ExecutionHandle) :
    (stageInterrupt agent sequence c sessionId handle).cancellation.discovery =
      c.cancellation.discovery := by
  unfold stageInterrupt
  split <;> rfl

@[simp] theorem stageInterrupts_targets (processes : List Execution.Execution) :
    (stageInterrupts agent sequence c processes).cancellation.targets = c.cancellation.targets := by
  unfold stageInterrupts
  induction processes generalizing c with
  | nil => rfl
  | cons execution processes ih =>
    rw [List.foldl_cons, ih]
    split
    · rfl
    · exact stageInterrupt_targets none execution.handle

@[simp] theorem stageInterrupts_discovery (processes : List Execution.Execution) :
    (stageInterrupts agent sequence c processes).cancellation.discovery =
      c.cancellation.discovery := by
  unfold stageInterrupts
  induction processes generalizing c with
  | nil => rfl
  | cons execution processes ih =>
    rw [List.foldl_cons, ih]
    split
    · rfl
    · exact stageInterrupt_discovery none execution.handle

@[simp] theorem originalEnded_targets (index : Nat) (uncertain : Bool) :
    (originalEnded agent sequence c index uncertain outcome).cancellation.targets =
      c.cancellation.targets.modify index (completeTarget uncertain) := by
  show (stageInterrupts agent sequence c _).cancellation.targets.modify index _ = _
  rw [stageInterrupts_targets]

@[simp] theorem originalEnded_discovery (index : Nat) (uncertain : Bool) :
    (originalEnded agent sequence c index uncertain outcome).cancellation.discovery =
      c.cancellation.discovery := stageInterrupts_discovery _

@[simp] theorem settleProcess_targets (index : Nat) (sessionId : Option Int) :
    (settleProcess c index sessionId).cancellation.targets = c.cancellation.targets := by
  cases sessionId <;> rfl

@[simp] theorem settleProcess_discovery (index : Nat) (sessionId : Option Int) :
    (settleProcess c index sessionId).cancellation.discovery = c.cancellation.discovery := by
  cases sessionId <;> rfl

@[simp] theorem handleInterrupt_targets (index : Nat) (process : ProcessCleanup) :
    (handleInterrupt agent c index process outcome).cancellation.targets =
      c.cancellation.targets := by
  unfold handleInterrupt
  split
  · exact settleProcess_targets index process.sessionId
  · rfl

@[simp] theorem handleInterrupt_discovery (index : Nat) (process : ProcessCleanup) :
    (handleInterrupt agent c index process outcome).cancellation.discovery =
      c.cancellation.discovery := by
  unfold handleInterrupt
  split
  · exact settleProcess_discovery index process.sessionId
  · rfl

/-- The records after a termination that has failed. -/
def terminateAgain (agent : Agent) (sequence : EventSequence) (c : Cleanup) (index : Nat)
    (process : ProcessCleanup) (id : OperationId) (attempt : Nat) (failure : OperationFailure) :
    Cleanup :=
  if attempt < maxCleanupAttempts then
    stageTerminate agent (c.recordCleanupFailure id failure.code failure.message) index
      process.handle (attempt + 1)
  else
    { settleProcess (c.recordCleanupFailure id failure.code failure.message) index
        process.sessionId with
      result := (settleProcess (c.recordCleanupFailure id failure.code failure.message) index
        process.sessionId).result.emitProgress (cleanupFailed process.handle attempt sequence) }

/-- A termination settles its process, or is tried once more. -/
theorem handleTerminate_cases (agent : Agent) (sequence : EventSequence) (c : Cleanup) (index : Nat)
    (process : ProcessCleanup) (id : OperationId) (attempt : Nat) (outcome : OperationOutcome) :
    handleTerminate agent sequence c index process id attempt outcome =
        settleProcess c index process.sessionId ∨
      ∃ failure, handleTerminate agent sequence c index process id attempt outcome =
        terminateAgain agent sequence c index process id attempt failure := by
  unfold handleTerminate
  dsimp only
  split
  · exact .inl rfl
  · exact .inl rfl
  · exact .inr ⟨_, rfl⟩
  · exact .inr ⟨_, rfl⟩

@[simp] theorem handleTerminate_targets (index : Nat) (process : ProcessCleanup) (attempt : Nat) :
    (handleTerminate agent sequence c index process id attempt outcome).cancellation.targets =
      c.cancellation.targets := by
  rcases handleTerminate_cases agent sequence c index process id attempt outcome with h | ⟨f, h⟩
  · rw [h, settleProcess_targets]
  · rw [h, terminateAgain]
    split
    · rfl
    · exact settleProcess_targets index process.sessionId

@[simp] theorem handleTerminate_discovery (index : Nat) (process : ProcessCleanup) (attempt : Nat) :
    (handleTerminate agent sequence c index process id attempt outcome).cancellation.discovery =
      c.cancellation.discovery := by
  rcases handleTerminate_cases agent sequence c index process id attempt outcome with h | ⟨f, h⟩
  · rw [h, settleProcess_discovery]
  · rw [h, terminateAgain]
    split
    · rfl
    · exact settleProcess_discovery index process.sessionId

end AgentPlatform.Harness.Cancellation
