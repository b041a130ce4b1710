import AgentPlatform.Harness.Handler

/-!
# What the handler reads

The handler asks its context for the operation whose completion it handles, and for the end of the
history. A context that answers these as another one does leads to the same outcome.
-/

namespace AgentPlatform.Harness

/-- While it handles the event, the handler reads of `context'` what it would read of `context`. -/
structure HarnessContext.ReadsAs (context : HarnessContext) (event : SessionEvent)
    (context' : HarnessContext) : Prop where
  history : context'.historyThroughSequence = context.historyThroughSequence
  operation : ∀ id kind status, event.kind = .operationCompleted id kind status →
    ∀ record, context.operation id = .ok record → context'.operation id = .ok record

namespace Handler

variable {agent : Agent} {context context' : HarnessContext} {event : SessionEvent}
  {state : BasicCodexState} {nextId : Uuid} {result : OutcomeBuilder BasicCodexState}
  {id : OperationId} {kind : OperationKind} {status : OperationOutcomeStatus}

theorem readOutcome_readsAs {role noun mismatch differs : String} {expected : OperationKind}
    {outcome : OperationOutcome} (reads : context.ReadsAs event context')
    (completes : event.kind = .operationCompleted id kind status)
    (h : readOutcome context role noun mismatch differs id expected status = .ok outcome) :
    readOutcome context' role noun mismatch differs id expected status = .ok outcome := by
  cases hread : context.operation id with
  | error failure =>
    rw [readOutcome, hread] at h
    cases h
  | ok record =>
    rw [readOutcome, reads.operation id kind status completes record hread]
    rwa [readOutcome, hread] at h

theorem handleExecutionCompletion_readsAs (reads : context.ReadsAs event context')
    (completes : event.kind = .operationCompleted id kind status)
    (h : handleExecutionCompletion agent state id status event context nextId = .ok result) :
    handleExecutionCompletion agent state id status event context' nextId = .ok result := by
  unfold handleExecutionCompletion at h ⊢
  obtain ⟨outcome, houtcome, h⟩ := Fallible.bind_ok h
  rw [readOutcome_readsAs reads completes houtcome, reads.history]
  exact h

theorem handleLlmCompletion_readsAs (reads : context.ReadsAs event context')
    (completes : event.kind = .operationCompleted id kind status)
    (h : handleLlmCompletion agent state id status event context nextId = .ok result) :
    handleLlmCompletion agent state id status event context' nextId = .ok result := by
  unfold handleLlmCompletion at h ⊢
  obtain ⟨⟨expected, isCompaction⟩, hexpected, h⟩ := Fallible.bind_ok h
  rw [hexpected]
  dsimp only [bind, Except.bind] at h ⊢
  split at h
  · cases h
  · rename_i hsame
    rw [if_neg hsame]
    cases houtcome : readOutcome context "completed LLM" "LLM"
        "completed operation record is not an LLM operation"
        "completion event status does not match the stored operation outcome" id .llm status with
    | error error =>
      rw [houtcome] at h
      cases h
    | ok outcome =>
      rw [readOutcome_readsAs reads completes houtcome, reads.history]
      rwa [houtcome] at h

theorem handleCancellationCompletion_readsAs {cancellation : CancellationState}
    (reads : context.ReadsAs event context')
    (completes : event.kind = .operationCompleted id kind status)
    (h : handleCancellationCompletion agent state cancellation id kind status event context nextId =
      .ok result) :
    handleCancellationCompletion agent state cancellation id kind status event context' nextId =
      .ok result := by
  unfold handleCancellationCompletion at h ⊢
  obtain ⟨outcome, houtcome, h⟩ := Fallible.bind_ok h
  rw [readOutcome_readsAs reads completes houtcome]
  exact h

theorem handleRunning_readsAs (reads : context.ReadsAs event context')
    (h : handleRunning agent state event context nextId = .ok result) :
    handleRunning agent state event context' nextId = .ok result := by
  unfold handleRunning at h ⊢
  cases hkind : event.kind with
  | userMessage message =>
    rw [hkind] at h
    dsimp only at h ⊢
    rwa [reads.history]
  | operationCompleted id kind status =>
    rw [hkind] at h
    cases kind with
    | execution => exact handleExecutionCompletion_readsAs reads hkind h
    | llm => exact handleLlmCompletion_readsAs reads hkind h
    | llmCancellation | withdraw => exact h
  | cancellationRequested reason => rwa [hkind] at h
  | waitResumed waitId reason => rwa [hkind] at h

theorem handleCancelled_readsAs {cancellation : CancellationState}
    (reads : context.ReadsAs event context')
    (h : handleCancelled agent state cancellation event context nextId = .ok result) :
    handleCancelled agent state cancellation event context' nextId = .ok result := by
  unfold handleCancelled at h ⊢
  cases hkind : event.kind with
  | operationCompleted id kind status =>
    rw [hkind] at h
    exact handleCancellationCompletion_readsAs reads hkind h
  | userMessage message => rwa [hkind] at h
  | cancellationRequested reason => rwa [hkind] at h
  | waitResumed waitId reason => rwa [hkind] at h

/-- An outcome does not depend on what else a context would answer. -/
theorem handle_readsAs (reads : context.ReadsAs event context')
    (h : handle agent state event context nextId = .ok result) :
    handle agent state event context' nextId = .ok result := by
  unfold handle at h ⊢
  dsimp only at h ⊢
  split at h
  · exact h
  · split at h
    · exact handleCancelled_readsAs reads h
    · exact handleRunning_readsAs reads h

end Handler

end AgentPlatform.Harness
