import AgentPlatform.Store.Effects
import AgentPlatform.Store.Steps

/-!
# What a call leaves alone

Enqueueing, the handler claim and everything short of its commit, waits and cleanup of the update
log move the inbox of a session; what its handlers left, its operations with their attempts, and
the completion events it holds stay as they are. What handlers left changes by a commit only.
-/

namespace AgentPlatform.Store

/-! ## Completion events -/

/-- What a completion event announces: its operation, and the payload. -/
def EventRow.completion (e : EventRow) : Option (Option OperationId × RawJson) :=
  if e.eventType = .operationCompleted then some (e.operationId, e.payload) else none

/-- The completions that a session announces, in the order of its events. -/
def Session.completions (s : Session) : List (Option OperationId × RawJson) :=
  s.events.filterMap (·.completion)

theorem Session.completions_updateEvents (s : Session) (p : EventRow → Bool)
    {f : EventRow → EventRow} (h : ∀ e, (f e).completion = e.completion) :
    (s.updateEvents p f).completions = s.completions :=
  Table.filterMap_update_of_eq h s.events

/-- Another event adds no completion. -/
theorem filterMap_completion_concat {events : List EventRow} {e : EventRow}
    (other : e.completion = none) :
    (events ++ [e]).filterMap (·.completion) = events.filterMap (·.completion) := by
  rw [List.filterMap_append, List.filterMap_cons_none other]
  exact List.append_nil _

/-! ## The inbox and the work -/

/-- The effects of handlers, the operations and their completions are the same. -/
structure Session.LeavesWork (s s' : Session) : Prop where
  id : s'.id = s.id
  effects : s'.effects = s.effects
  operations : s'.operations = s.operations
  operationAttempts : s'.operationAttempts = s.operationAttempts
  completions : s'.completions = s.completions

theorem Session.LeavesWork.refl (s : Session) : s.LeavesWork s := ⟨rfl, rfl, rfl, rfl, rfl⟩

/-- A session that differs in its inbox and its description only. -/
theorem Session.LeavesWork.of_updateEvents {s s' : Session} {p : EventRow → Bool}
    {f : EventRow → EventRow} (events : s'.events = Table.update p f s.events)
    (h : ∀ e, (f e).completion = e.completion) (id : s'.id = s.id)
    (effects : s'.effects = s.effects) (operations : s'.operations = s.operations)
    (attempts : s'.operationAttempts = s.operationAttempts) : s.LeavesWork s' where
  id := id
  effects := effects
  operations := operations
  operationAttempts := attempts
  completions := by
    rw [← s.completions_updateEvents p h]
    exact congrArg (List.filterMap (·.completion)) events

/-- A finished wait announces no completion. -/
theorem Session.finishWait_leavesWork {s s' : Session} {clock : Clock} {eventId : EventId}
    {waitId : WaitId} {sequence : EventSequence} {finish : WaitFinish}
    {finished : WaitRow → WaitRow} {e : EventRow}
    (h : s.finishWait clock eventId waitId sequence finish finished = .ok (e, s'))
    (kept : ∀ w, (finished w).effect = w.effect) : s.LeavesWork s' := by
  have heffects := Session.finishWait_effects h kept
  obtain ⟨rfl, -, rfl⟩ := Session.finishWait_ok h
  exact ⟨rfl, heffects, rfl, rfl, filterMap_completion_concat rfl⟩

/-- The calls that leave the work of a session alone. -/
def StoreCall.leavesWork : StoreCall → Bool
  | .patchSessionMetadata .. | .enqueueExternalEvent _ | .claimNextEvent .. | .renewEventClaim ..
  | .recordHandlerFailure .. | .abandonHandlerAttempt .. | .retryBlockedEvent .. | .resolveWait ..
  | .expireWait _ | .pruneUpdates .. => true
  | _ => false

theorem SessionStep.leavesWork {codec : Codec} {clock : Clock} {db : Db} {call : StoreCall}
    {reply : Reply} {s s' : Session} (step : SessionStep codec clock db call reply s s')
    (leaves : call.leavesWork = true) : s.LeavesWork s' := by
  cases step with
  | patchSessionMetadata h =>
    simp only [Session.patchMetadata] at h
    split at h <;> cases h
    exact ⟨rfl, rfl, rfl, rfl, rfl⟩
  | enqueueExternalEvent session external h =>
    simp only [Session.enqueueExternalEvent] at h
    split at h
    · split at h <;> cases h
      exact .refl s
    · simp only [Session.insertExternalEvent] at h
      split at h
      · cases h
      · rename_i hinsert
        obtain ⟨-, rfl⟩ := Session.insertEvent_ok hinsert
        cases h
        refine ⟨rfl, rfl, rfl, rfl, filterMap_completion_concat ?_⟩
        rcases external with h | h <;> simp [EventRow.completion, EventRow.new, h]
  | claimNextEvent claimable => exact .of_updateEvents rfl (fun _ => rfl) rfl rfl rfl rfl
  | renewEventClaim session h =>
    simp only [Session.renewEventClaim] at h
    split at h
    · cases h
    · split at h <;> cases h
      exact ⟨rfl, rfl, rfl, rfl, rfl⟩
  | @recordHandlerFailure _ _ _ _ _ blocked _ session h =>
    simp only [Session.recordHandlerFailure] at h
    split at h <;> cases h
    cases blocked <;> exact .of_updateEvents rfl (fun _ => rfl) rfl rfl rfl rfl
  | abandonHandlerAttempt session h =>
    simp only [Session.abandonHandlerAttempt] at h
    split at h <;> cases h
    exact .of_updateEvents rfl (fun _ => rfl) rfl rfl rfl rfl
  | retryBlockedEvent h =>
    simp only [Session.retryBlockedEvent] at h
    split at h
    · split at h <;> cases h
      exact .refl s
    · split at h <;> cases h
      exact .of_updateEvents rfl (fun _ => rfl) rfl rfl rfl rfl
  | resolveWait h =>
    simp only [Session.resolveWait] at h
    split at h
    · cases h
    · split at h
      · split at h
        · cases h
        · split at h <;> cases h
          exact .refl s
      · split at h
        · cases h
        · split at h
          · cases h
          · rename_i hfinish
            have hleaves := Session.finishWait_leavesWork hfinish fun _ => rfl
            cases h
            exact ⟨hleaves.id, hleaves.effects, hleaves.operations, hleaves.operationAttempts,
              hleaves.completions⟩
  | expireWait h =>
    simp only [Session.expireWait] at h
    split at h
    · cases h
    · split at h
      · cases h
        exact .refl s
      · split at h
        · cases h
        · rename_i hfinish
          have hleaves := Session.finishWait_leavesWork hfinish fun _ => rfl
          cases h
          exact ⟨hleaves.id, hleaves.effects, hleaves.operations, hleaves.operationAttempts,
            hleaves.completions⟩
  | pruneUpdates h =>
    simp only [Session.pruneUpdates] at h
    split at h <;> cases h <;> exact ⟨rfl, rfl, rfl, rfl, rfl⟩
  | _ => cases leaves

/-! ## What handlers left -/

/-- The id of the session and what its handlers left are the same. -/
structure Session.KeepsEffects (s s' : Session) : Prop where
  id : s'.id = s.id
  effects : s'.effects = s.effects

theorem Session.KeepsEffects.of_sansUpdates {s t s' : Session} (h : s.KeepsEffects t)
    (same : s'.sansUpdates = t.sansUpdates) : s.KeepsEffects s' where
  id := (congrArg (·.id) same).trans h.id
  effects := (Session.effects_of_sansUpdates same).trans h.effects

/-- A session whose operations were rewritten, but not what they were staged with. -/
theorem Session.KeepsEffects.of_operations {s s' : Session} {p : OperationRow → Bool}
    {f : OperationRow → OperationRow} (operations : s'.operations = Table.update p f s.operations)
    (h : ∀ o, (f o).effect = o.effect) (id : s'.id = s.id)
    (others : ({ s' with operations := s.operations } : Session).effects = s.effects) :
    s.KeepsEffects s' := by
  refine ⟨id, Eq.trans ?_ others⟩
  simp only [Session.effects, operations, Table.map_update_of_eq h]

/-- A call that commits nothing leaves what handlers left. -/
theorem SessionStep.keepsEffects {codec : Codec} {clock : Clock} {db : Db} {call : StoreCall}
    {reply : Reply} {s s' : Session} (step : SessionStep codec clock db call reply s s')
    (uncommitted : Entry.committed ⟨call, clock, reply⟩ = none) : s.KeepsEffects s' := by
  have hleaves := step.leavesWork
  cases step with
  | commitHandlerOutcome => cases uncommitted
  | claimOperation found claimable =>
    refine .of_sansUpdates ?_ (Session.claimOperation_eq ..)
    exact .of_operations rfl (fun _ => rfl) rfl rfl
  | deferOperation session h =>
    obtain ⟨o, -, -, -, -, rfl⟩ := Session.deferOperation_ok h
    exact .of_operations rfl (fun _ => rfl) rfl rfl
  | recordOperationAccepted session h =>
    obtain ⟨o, -, -, -, -, -, rfl⟩ := Session.recordOperationAccepted_ok h
    exact .of_operations rfl (fun _ => rfl) rfl rfl
  | renewOperationClaim found h =>
    obtain ⟨o, leaseMs, -, rfl⟩ := Session.renewOperationClaim_ok h
    exact .of_operations rfl (fun _ => rfl) rfl rfl
  | recordOperationRetry session h =>
    obtain ⟨o, status, -, -, -, rfl⟩ := Session.recordOperationRetry_ok h
    exact .of_operations rfl (fun _ => rfl) rfl rfl
  | recordOperationPendingResult session h =>
    obtain ⟨o, -, -, -, -, hresult⟩ := Session.recordOperationPendingResult_ok h
    refine .of_sansUpdates ?_ hresult
    exact .of_operations rfl (fun _ => rfl) rfl rfl
  | @completeWithdrawal _ _ _ _ expiresAt _ session phase kind target h =>
    obtain ⟨o, row, events, s₁, e, -, -, -, -, hwithdraw, -, -, -, hresult⟩ :=
      Session.completeWithdrawal_ok h
    have htarget : s.KeepsEffects s₁ := by
      rcases Session.withdrawTarget_ok hwithdraw with ⟨-, -, rfl⟩ | ⟨-, e₁, -, -, -, rfl⟩
      · exact ⟨rfl, rfl⟩
      · cases expiresAt <;> exact .of_operations rfl (fun _ => rfl) rfl rfl
    have hself : s₁.KeepsEffects s' := by
      refine .of_sansUpdates ?_ hresult
      cases expiresAt <;> exact .of_operations rfl (fun _ => rfl) rfl rfl
    exact ⟨hself.id.trans htarget.id, hself.effects.trans htarget.effects⟩
  | @completeOperation _ _ _ _ _ _ expiresAt _ _ session terminal h =>
    obtain ⟨o, e, -, -, -, -, -, hresult⟩ := Session.completeOperation_ok h
    refine .of_sansUpdates ?_ hresult
    cases expiresAt <;> exact .of_operations rfl (fun _ => rfl) rfl rfl
  | deleteExpiredOperationRequest h =>
    simp only [Session.deleteExpiredOperationRequest] at h
    split at h <;> cases h
    · exact .of_operations rfl (fun _ => rfl) rfl rfl
    · exact ⟨rfl, rfl⟩
  | _ => exact ⟨(hleaves rfl).id, (hleaves rfl).effects⟩

theorem SessionStep.id_eq {codec : Codec} {clock : Clock} {db : Db} {call : StoreCall}
    {reply : Reply} {s s' : Session} (step : SessionStep codec clock db call reply s s') :
    s'.id = s.id := by
  have hkept := step.keepsEffects
  cases step with
  | commitHandlerOutcome session h => exact Session.commitHandlerOutcome_id h
  | _ => exact (hkept rfl).id

/-- A call changes what handlers left by the outcome that it commits, and by nothing else. -/
theorem SessionStep.effects {codec : Codec} {clock : Clock} {db : Db} {call : StoreCall}
    {reply : Reply} {s s' : Session} (step : SessionStep codec clock db call reply s s') :
    s'.effects =
      (Entry.committed ⟨call, clock, reply⟩).toList.foldl (Effects.apply codec) s.effects := by
  have hkept := step.keepsEffects
  cases step with
  | commitHandlerOutcome session h => exact Session.commitHandlerOutcome_effects h
  | _ => exact (hkept rfl).effects

end AgentPlatform.Store
