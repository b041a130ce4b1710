import AgentPlatform.Harness.CleanupCases
import AgentPlatform.Harness.OutputReach

/-!
# The status of a cancelled session

What the records of a cancellation say in every reachable session, and what follows for the status
that an outcome sets: a completion tells whether the cleanup is complete, and the event router tells
it unless the session has no turn while its cleanup goes on.
-/

namespace AgentPlatform.Harness

open ToolExecution (planOf)

/-! ## The targets of a cancellation -/

/-- What a target's record says, given what was staged and what has ended. -/
structure TargetSound (staged : List StagedOperation) (ended : OperationId → Prop)
    (target : CancellationTarget) : Prop where
  ended : target.kind = .execution → target.originalCompleted = true → ended target.operationId
  completed : target.kind = .execution →
    (target.control = .settled ∨ target.control = .awaitingDiscovery) →
      target.originalCompleted = true
  requested : ∀ control, target.control = .withdrawalRequested control →
    ∃ o ∈ staged, o.id = control ∧ o.request = .withdraw target.operationId
  apart : target.kind = .execution → ∀ control attempt,
    target.control ≠ .llmCancellationRequested control attempt

theorem TargetSound.mono {staged staged' : List StagedOperation} {ended ended' : OperationId → Prop}
    {target : CancellationTarget} (sound : TargetSound staged ended target)
    (more : staged ⊆ staged') (later : ∀ id, ended id → ended' id) :
    TargetSound staged' ended' target where
  ended kind completed := later _ (sound.ended kind completed)
  completed := sound.completed
  requested control asked := by
    obtain ⟨o, ho, hfacts⟩ := sound.requested control asked
    exact ⟨o, more ho, hfacts⟩
  apart := sound.apart

/-- A target whose operation is one of the model. -/
theorem TargetSound.model {staged : List StagedOperation} {ended : OperationId → Prop}
    {target : CancellationTarget} (kind : target.kind = .llm)
    (requested : ∀ control, target.control = .withdrawalRequested control →
      ∃ o ∈ staged, o.id = control ∧ o.request = .withdraw target.operationId) :
    TargetSound staged ended target where
  ended h := by
    rw [kind] at h
    cases h
  completed h := by
    rw [kind] at h
    cases h
  requested := requested
  apart h := by
    rw [kind] at h
    cases h

/-- A target whose operation has ended. -/
theorem TargetSound.complete {staged : List StagedOperation} {ended : OperationId → Prop}
    {target : CancellationTarget} (sound : TargetSound staged ended target)
    (now : ended target.operationId) (uncertain : Bool) :
    TargetSound staged ended (Cancellation.completeTarget uncertain target) where
  ended _ _ := now
  completed _ _ := rfl
  requested control h := by
    unfold Cancellation.completeTarget at h
    dsimp only at h
    split at h
    · cases h
    split at h
    · cases h
    · exact sound.requested control h
  apart kind control attempt h := by
    unfold Cancellation.completeTarget at h
    dsimp only at h
    split at h
    · cases h
    split at h
    · cases h
    · exact sound.apart kind control attempt h

/-- A target behind a discovery. -/
theorem TargetSound.discovered {staged : List StagedOperation} {ended : OperationId → Prop}
    {target : CancellationTarget} (sound : TargetSound staged ended target) :
    TargetSound staged ended (Cancellation.discovered target) := by
  unfold Cancellation.discovered
  split
  next hcontrol =>
    refine ⟨sound.ended, fun kind _ => sound.completed kind (.inr hcontrol), fun _ h => ?_,
      fun _ _ _ h => ?_⟩
    · cases h
    · cases h
  · exact sound

theorem mem_modify {α : Type} {f : α → α} {xs : List α} {i : Nat} {x : α} (h : x ∈ xs.modify i f) :
    x ∈ xs ∨ ∃ y, xs[i]? = some y ∧ x = f y := by
  obtain ⟨j, hj⟩ := List.mem_iff_getElem?.mp h
  rw [List.getElem?_modify] at hj
  obtain ⟨y, hy, rfl⟩ := Option.map_eq_some_iff.mp hj
  by_cases hij : i = j
  · subst hij
    exact .inr ⟨y, hy, by simp⟩
  · refine .inl ?_
    rw [if_neg hij]
    exact List.mem_of_getElem? hy

namespace Cancellation

variable {agent : Agent} {c c' : Cleanup} {sid : SessionId} {sequence : EventSequence}
  {id : OperationId} {kind : OperationKind} {outcome : OperationOutcome}

/-- The targets of a cleanup are sound, with what it has staged beside what was staged before. -/
def TargetsSound (staged : List StagedOperation) (ended : OperationId → Prop) (c : Cleanup) : Prop :=
  ∀ target ∈ c.cancellation.targets,
    TargetSound (staged ++ c.result.outcome.operations) ended target

/-- A move stages at the end. -/
theorem operations_of_moves (moves : Cleanup.Moves c c') :
    c.result.outcome.operations <+: c'.result.outcome.operations := by
  induction moves with
  | refl => exact List.prefix_refl _
  | tail _ move ih =>
    cases move with
    | stage request => exact ih.trans (List.prefix_append _ _)
    | note | forget | report => exact ih

theorem staged_mono (moves : Cleanup.Moves c c') (staged : List StagedOperation) :
    staged ++ c.result.outcome.operations ⊆ staged ++ c'.result.outcome.operations := by
  intro o ho
  rcases List.mem_append.mp ho with h | h
  · exact List.mem_append_left _ h
  · exact List.mem_append_right _ ((operations_of_moves moves).subset h)

section

variable {staged : List StagedOperation} {ended : OperationId → Prop}

theorem TargetsSound.congr (sound : TargetsSound staged ended c) (moves : Cleanup.Moves c c')
    (targets : c'.cancellation.targets = c.cancellation.targets) :
    TargetsSound staged ended c' := by
  intro target htarget
  rw [targets] at htarget
  exact (sound target htarget).mono (staged_mono moves staged) fun _ h => h

/-- A cleanup that changes one target. -/
theorem TargetsSound.modify (sound : TargetsSound staged ended c) (moves : Cleanup.Moves c c')
    {index : Nat} {change : CancellationTarget → CancellationTarget}
    (targets : c'.cancellation.targets = c.cancellation.targets.modify index change)
    (changed : ∀ target, c.cancellation.targets[index]? = some target →
      TargetSound (staged ++ c'.result.outcome.operations) ended target →
        TargetSound (staged ++ c'.result.outcome.operations) ended (change target)) :
    TargetsSound staged ended c' := by
  have hsub := staged_mono moves staged
  intro target htarget
  rw [targets] at htarget
  rcases mem_modify htarget with hmem | ⟨before, hbefore, rfl⟩
  · exact (sound target hmem).mono hsub fun _ h => h
  · refine changed before hbefore ?_
    exact (sound before (List.mem_of_getElem? hbefore)).mono hsub fun _ h => h

/-- The completion of an operation keeps the targets sound, if a withdrawal that is confirmed has
an ended target. -/
theorem Taken.targetsSound (taken : Taken agent sid sequence c id kind outcome c')
    (sound : TargetsSound staged ended c) (quiet : c.result.outcome.operations = [])
    (moves : Cleanup.Moves c c') (now : ended id)
    (confirmed : confirmsWithdrawal outcome = true → ∀ o ∈ staged, o.id = id →
      ∀ target, o.request = .withdraw target → ended target) :
    TargetsSound staged ended c' := by
  cases taken with
  | @withdrawn index target found awaits =>
    refine sound.modify moves rfl fun before hbefore hsound => ?_
    cases hbefore.symm.trans found
    refine ⟨fun kind _ => ?_, fun _ _ => rfl, fun _ h => ?_, fun _ _ _ h => ?_⟩
    · -- only a withdrawal can be awaited of an execution
      have hcontrol : target.control = .withdrawalRequested id := by
        unfold CancellationControl.awaits at awaits
        split at awaits
        next requested hrequested =>
          rw [hrequested, beq_iff_eq.mp awaits]
        next requested attempt hrequested => exact absurd hrequested (hsound.apart kind _ _)
        · cases awaits
      obtain ⟨o, ho, hid, hrequest⟩ :=
        (sound target (List.mem_of_getElem? found)).requested id hcontrol
      rw [quiet, List.append_nil] at ho
      exact confirmed rfl o ho hid _ hrequest
    · cases h
    · cases h
  | @keptLlm index target _ found awaits kind =>
    refine sound.modify moves rfl fun before hbefore hsound => ?_
    cases hbefore.symm.trans found
    refine .model kind fun _ h => ?_
    cases h
  | @keptExecution index target _ found awaits kind =>
    refine sound.modify moves rfl fun before hbefore hsound => ?_
    cases hbefore.symm.trans found
    refine ⟨hsound.ended, fun _ h => ?_, fun _ h => ?_, fun _ _ _ h => ?_⟩
    · by_cases hcompleted : target.originalCompleted = true
      · exact hcompleted
      · rw [if_neg hcompleted] at h
        rcases h with h | h <;> cases h
    · dsimp only at h
      split at h <;> cases h
    · dsimp only at h
      split at h <;> cases h
  | @llmSettled index attempt target control _ c₁ found awaits asked noted =>
    have htargets : c₁.cancellation.targets = c.cancellation.targets := by
      rcases noted with rfl | ⟨_, _, rfl⟩ <;> rfl
    refine sound.modify moves (show c₁.cancellation.targets.modify _ _ = _ by rw [htargets])
      fun before hbefore hsound => ?_
    cases hbefore.symm.trans found
    have kind : target.kind = .llm := by
      cases hkind : target.kind with
      | llm => rfl
      | execution => exact absurd asked (hsound.apart hkind _ _)
    refine .model kind fun _ h => ?_
    cases h
  | @llmAgain index attempt target control _ _ _ found awaits asked =>
    refine sound.modify moves rfl fun before hbefore hsound => ?_
    cases hbefore.symm.trans found
    have kind : target.kind = .llm := by
      cases hkind : target.kind with
      | llm => rfl
      | execution => exact absurd asked (hsound.apart hkind _ _)
    refine .model kind fun _ h => ?_
    cases h
  | original found named | originalUnknown found named =>
    refine sound.modify moves (originalEnded_targets _ _) fun before hbefore hsound => ?_
    cases hbefore.symm.trans found
    exact hsound.complete (named ▸ now) _
  | interrupted => exact sound.congr moves (handleInterrupt_targets _ _)
  | terminated => exact sound.congr moves (handleTerminate_targets _ _ _)
  | discoverAgain _ noted =>
    refine sound.congr moves ?_
    rcases noted with rfl | ⟨_, _, rfl⟩ <;> rfl
  | discovered current =>
    intro target htarget
    rw [stageInterrupts_targets] at htarget
    obtain ⟨before, hbefore, rfl⟩ := List.mem_map.mp htarget
    exact ((sound before hbefore).mono (staged_mono moves staged) fun _ h => h).discovered

/-- The withdrawal of a target. -/
theorem withdrawTarget_sound (sound : TargetsSound staged ended c) (index : Nat) :
    TargetsSound staged ended (withdrawTarget c index) := by
  have moves := withdrawTarget_moves c index
  unfold withdrawTarget at moves ⊢
  split at moves
  · exact sound
  next target found =>
    refine sound.modify moves rfl fun before hbefore hsound => ?_
    cases hbefore.symm.trans found
    refine ⟨hsound.ended, fun _ h => ?_, fun control h => ?_, fun _ _ _ h => ?_⟩
    · rcases h with h | h <;> cases h
    · cases h
      refine ⟨{ id := c.result.nextId, request := .withdraw target.operationId }, ?_, rfl, rfl⟩
      exact List.mem_append_right _ (List.mem_append_right _ (List.mem_singleton_self _))
    · cases h

theorem withdrawTargets_sound (indices : List Nat) (sound : TargetsSound staged ended c) :
    TargetsSound staged ended (indices.foldl withdrawTarget c) := by
  induction indices generalizing c with
  | nil => exact sound
  | cons index indices ih => exact ih (withdrawTarget_sound sound index)

theorem interruptTracked_targets (tracked : List TrackedExecution) :
    (tracked.foldl (fun c tracked =>
      stageInterrupt agent sequence c (some tracked.sessionId) tracked.handle)
        c).cancellation.targets = c.cancellation.targets := by
  induction tracked generalizing c with
  | nil => rfl
  | cons first tracked ih => rw [List.foldl_cons, ih, stageInterrupt_targets]

/-- What a cancellation begins with. -/
theorem begin_sound {state : BasicCodexState} {reason : Option String} {nextId : Uuid}
    {r : OutcomeBuilder BasicCodexState}
    (h : Cancellation.begin agent state reason sequence nextId = .ok r) :
    ∃ c, TargetsSound staged ended c ∧ r = setLifecycleStatus c true := by
  unfold Cancellation.begin at h
  split at h
  · cases h
  next targets _ =>
    cases h
    refine ⟨_, ?_, rfl⟩
    -- before its withdrawal nothing is known of a target
    have hnew : TargetsSound staged ended {
        result := .new { state with activeTurn := state.activeTurn.map cancelTurn } nextId
        cancellation := {
          reason
          requestedAtSequence := sequence
          turnId := state.activeTurn.map (·.id)
          targets := targets.map newTarget
          processes := []
          discovery := none
          cleanupFailures := [] } } := by
      intro target htarget
      obtain ⟨key, -, rfl⟩ := List.mem_map.mp htarget
      refine ⟨fun _ h => ?_, fun _ h => ?_, fun _ h => ?_, fun _ _ _ h => ?_⟩
      · cases h
      · rcases h with h | h <;> cases h
      · cases h
      · cases h
    have hwithdrawn := withdrawTargets_sound (List.range targets.length) hnew
    have hinterrupted := hwithdrawn.congr
      (moves_foldl (fun c (tracked : TrackedExecution) =>
        stageInterrupt agent sequence c (some tracked.sessionId) tracked.handle)
        (fun c tracked => stageInterrupt_moves _ _ _ _) state.executions _)
      (interruptTracked_targets state.executions)
    exact hinterrupted

end

/-! ## A complete cleanup -/

/-- An operation of the model reports no process. -/
theorem executionsFromOutcome_llm {lib : Foreign} (allowed : allowedFor .llm outcome = true) :
    executionsFromOutcome lib outcome = [] := by
  obtain ⟨hkind, hfailure⟩ := Bool.and_eq_true_iff.mp allowed
  have hnone : responseOf outcome = none := by
    cases outcome with
    | succeeded result =>
      cases result with
      | llm | llmCancellation | withdraw => rfl
      | execution => cases hkind
    | failed failure | unknown failure =>
      simpa [failureOf, responseOf] using hfailure
    | cancelled => rfl
  unfold executionsFromOutcome
  rw [hnone]

theorem complete_iff {cancellation : CancellationState} :
    cancellationComplete cancellation = true ↔ cancellation.discovery = none ∧
      (∀ target ∈ cancellation.targets, targetComplete target = true) ∧
      ∀ process ∈ cancellation.processes, process.control = .settled := by
  simp [cancellationComplete, and_assoc]

/-- A complete target awaits no control. -/
theorem not_awaits_of_complete {target : CancellationTarget} (complete : targetComplete target = true)
    (id : OperationId) : target.control.awaits id = false := by
  unfold targetComplete at complete
  cases hcontrol : target.control with
  | withdrawalRequested | llmCancellationRequested =>
    rw [hcontrol] at complete
    simp at complete
  | awaitingCompletion | awaitingDiscovery | settled => rfl

theorem targetComplete_completeTarget {target : CancellationTarget}
    (complete : targetComplete target = true) :
    targetComplete (completeTarget false target) = true := by
  unfold targetComplete completeTarget at *
  dsimp only
  rw [if_neg Bool.false_ne_true]
  by_cases hawaiting : target.control = .awaitingCompletion
  · rw [if_pos hawaiting]
    rfl
  · rw [if_neg hawaiting]
    simpa [hawaiting] using complete

/-- A complete cleanup stays complete, and takes in the completions of the model only, if the
executions that it knows of have ended before. -/
theorem Taken.complete (taken : Taken agent sid sequence c id kind outcome c')
    (complete : cancellationComplete c.cancellation = true)
    (open_ : ∀ target ∈ c.cancellation.targets, target.kind = .execution →
      target.originalCompleted = true → target.operationId ≠ id)
    (settled : ∀ target ∈ c.cancellation.targets, target.kind = .execution →
      target.control = .settled → target.originalCompleted = true)
    (silent : kind = .llm → executionsFromOutcome agent.lib outcome = []) :
    cancellationComplete c'.cancellation = true := by
  obtain ⟨hdiscovery, htargets, hprocesses⟩ := complete_iff.mp complete
  have unawaited {index : Nat} {target : CancellationTarget}
      (found : c.cancellation.targets[index]? = some target) :
      target.control.awaits id = false :=
    not_awaits_of_complete (htargets target (List.mem_of_getElem? found)) id
  have unstarted {index : Nat} {target : CancellationTarget}
      (found : c.cancellation.targets[index]? = some target) (named : target.operationId = id)
      (same : target.kind = .execution) : False := by
    have hmem := List.mem_of_getElem? found
    refine open_ target hmem same ?_ named
    have hcomplete := htargets target hmem
    simp only [targetComplete, Bool.or_eq_true, Bool.and_eq_true, beq_iff_eq] at hcomplete
    rcases hcomplete with hsettled | ⟨hcompleted, -⟩
    · exact settled target hmem same hsettled
    · exact hcompleted
  cases taken with
  | withdrawn found awaits | keptLlm found awaits | keptExecution found awaits
  | llmSettled found awaits | llmAgain found awaits =>
    rw [unawaited found] at awaits
    cases awaits
  | @original originalKind index target _ found named same =>
    cases originalKind with
    | execution => exact (unstarted found named same).elim
    | llm =>
      rw [complete_iff, originalEnded_discovery, originalEnded_targets]
      refine ⟨hdiscovery, ?_, ?_⟩
      · intro changed hchanged
        rcases mem_modify hchanged with hmem | ⟨before, hbefore, rfl⟩
        · exact htargets changed hmem
        · exact targetComplete_completeTarget (htargets before (List.mem_of_getElem? hbefore))
      · unfold originalEnded
        rw [silent rfl]
        exact hprocesses
  | originalUnknown found named same => exact (unstarted found named same).elim
  | interrupted found asked | terminated found asked =>
    rw [hprocesses _ (List.mem_of_getElem? found)] at asked
    cases asked
  | discoverAgain current | discovered current =>
    rw [hdiscovery] at current
    cases current

end Cancellation

namespace Handler

variable {agent : Agent} {b r : OutcomeBuilder BasicCodexState}

/-- An outcome that neither cancels the session nor says so. -/
structure Uncancelled (b r : OutcomeBuilder BasicCodexState) : Prop where
  kept : r.state.cancellation = b.state.cancellation
  status : r.outcome.status ≠ some .cancelled

theorem Boundary.uncancelled {active : ActiveTurn} {through : HistorySequence} {sid : SessionId}
    (boundary : Boundary agent b active through sid r) : Uncancelled b r := by
  cases boundary <;> exact ⟨rfl, by rintro ⟨⟩⟩

theorem PlanRan.uncancelled {invocation : Invocation} (ran : PlanRan agent b invocation r)
    (sound : PlanSound b.state) (executes : (planOf b.state).isSome = true) : Uncancelled b r := by
  obtain ⟨plan, hplan⟩ := Option.isSome_iff_exists.mp executes
  cases ran with
  | waits schedule =>
    obtain ⟨_, _, _, schedules⟩ :=
      ToolExecution.scheduleReady_schedules hplan (sound plan hplan).1 schedule
    refine ⟨?_, by rintro ⟨⟩⟩
    rw [OutcomeBuilder.setStatus_state, schedules.state]
  | finished schedule _ _ _ _ boundary =>
    obtain ⟨_, _, _, schedules⟩ :=
      ToolExecution.scheduleReady_schedules hplan (sound plan hplan).1 schedule
    refine ⟨?_, boundary.uncancelled.status⟩
    rw [boundary.uncancelled.kept]
    unfold appendResults
    rw [appendMessages_state]
    show BasicCodexState.cancellation _ = _
    rw [OutcomeBuilder.setState_state, schedules.state]
    rfl

theorem recordResponse_cancellation (state : BasicCodexState) (response : AssistantResponse) :
    (recordResponse state response).cancellation = state.cancellation := by
  unfold recordResponse
  dsimp only
  split <;> rfl

theorem addLatestProjectionEstimate_cancellation (state : BasicCodexState) :
    (addLatestProjectionEstimate agent state).cancellation = state.cancellation := by
  unfold addLatestProjectionEstimate
  dsimp only
  split
  · rfl
  · split <;> rfl

variable {state : BasicCodexState} {event : SessionEvent} {context : HarnessContext}
  {nextId : Uuid}

/-- Only a request to cancel cancels a running session. -/
theorem Handled.uncancelled (handled : Handled agent state event context nextId r)
    (sound : PlanSound state) :
    (∃ reason, event.kind = .cancellationRequested reason ∧
        Cancellation.begin agent state reason event.sequence nextId = .ok r) ∨
      Uncancelled (.new state nextId) r := by
  have recorded_kept (response : AssistantResponse) :
      (recorded state response nextId).state.cancellation = state.cancellation :=
    recordResponse_cancellation state response
  cases handled with
  | steered => exact .inr ⟨rfl, by rintro ⟨⟩⟩
  | compactFirst | failCompacting | retry | install | compactAgain =>
    exact .inr ⟨rfl, by rintro ⟨⟩⟩
  | start =>
    refine .inr ⟨?_, by rintro ⟨⟩⟩
    exact addLatestProjectionEstimate_cancellation _
  | failAwaiting _ _ _ _ base =>
    refine .inr ⟨?_, by rintro ⟨⟩⟩
    rcases base with rfl | ⟨response, rfl⟩
    · rfl
    · exact recorded_kept response
  | @idle _ response =>
    exact .inr ⟨recorded_kept response, by rintro ⟨⟩⟩
  | @respond _ response _ _ _ _ _ _ _ _ _ boundary =>
    exact .inr ⟨boundary.uncancelled.kept.trans (recorded_kept response), boundary.uncancelled.status⟩
  | @refused _ response _ _ _ messages _ _ _ _ _ _ _ _ _ boundary =>
    refine .inr ⟨boundary.uncancelled.kept.trans ?_, boundary.uncancelled.status⟩
    unfold appendResults
    rw [appendMessages_state]
    exact recorded_kept response
  | @plan _ response _ _ plan _ _ _ _ _ planned _ ran =>
    have huncancelled := ran.uncancelled (fun p hp => by
      cases hp
      exact ToolPlan.parse_sound planned) rfl
    exact .inr ⟨huncancelled.kept.trans (recorded_kept response), huncancelled.status⟩
  | @execution _ _ state' _ _ applied ran =>
    obtain ⟨active, plan, call, progress, status, state'', hactive, hphase, -⟩ :=
      ToolExecution.applyCompletion_ok applied
    have hplan := ToolExecution.planOf_some.mpr ⟨active, hactive, hphase⟩
    obtain ⟨active', plan', completed⟩ :=
      ToolExecution.applyCompletion_completed hplan (sound plan hplan).1 applied
    have hplan' : planOf state' = some plan' := by
      rw [completed.state]
      rfl
    have hkept : state'.cancellation = state.cancellation := by
      rw [completed.state]
    have huncancelled := ran.uncancelled (fun p hp => by
      cases hplan'.symm.trans hp
      exact ⟨completed.sound, completed.settled⟩) (Option.isSome_of_mem hplan')
    exact .inr ⟨huncancelled.kept.trans hkept, huncancelled.status⟩
  | @cancel reason _ kind begun => exact .inl ⟨reason, kind, begun⟩

end Handler

/-! ## Sessions -/

namespace Session

open Handler Cancellation

variable {agent : Agent} {s t : Session} {d : Delivery}

/-- What is kept of a session that is being cancelled. -/
structure Cleaning (s : Session) (cancellation : CancellationState) : Prop where
  alive : s.state.terminalFailure = none
  idle : cancellationComplete cancellation = true → s.state.activeTurn = none
  targets : ∀ target ∈ cancellation.targets,
    TargetSound s.staged (fun id => s.isCompleted id = true) target

/-- A session that is being cancelled, if it is, is cleaned up. -/
def CleansUp (s : Session) : Prop :=
  ∀ cancellation, s.state.cancellation = some cancellation → s.Cleaning cancellation

theorem isCompleted_after {id : OperationId} (h : s.isCompleted id = true)
    (r : OutcomeBuilder BasicCodexState) : (s.after d.stimulus r).isCompleted id = true := by
  cases hstimulus : d.stimulus with
  | userMessage | cancellationRequested | waitResumed => exact h
  | completed id' outcome =>
    show (s.completed ++ [(id', outcome)]).any _ = true
    rw [List.any_append, Bool.or_eq_true]
    exact .inl h

theorem isCompleted_now {id : OperationId} {outcome : OperationOutcome}
    (hstimulus : d.stimulus = .completed id outcome) (r : OutcomeBuilder BasicCodexState) :
    (s.after d.stimulus r).isCompleted id = true := by
  rw [hstimulus]
  show (s.completed ++ [(id, outcome)]).any _ = true
  simp

/-- A withdrawal that is confirmed has an ended target. -/
theorem withdrawn_ended {o : StagedOperation} {outcome : OperationOutcome}
    (ends : s.mayEnd o outcome = true) {target : OperationId}
    (withdraws : o.request = .withdraw target) (confirms : confirmsWithdrawal outcome = true) :
    s.isCompleted target = true := by
  unfold mayEnd at ends
  rw [withdraws, Bool.and_eq_true] at ends
  have hcancelled : s.endedCancelled target = true := by simpa [confirms] using ends.2
  obtain ⟨completion, hmem, hfacts⟩ := List.any_eq_true.mp hcancelled
  exact List.any_eq_true.mpr ⟨completion, hmem, (Bool.and_eq_true_iff.mp hfacts).1⟩

/-- The lifecycle status ends the turn of a complete cleanup. -/
theorem setLifecycleStatus_over {c : Cleanup}
    (complete : cancellationComplete c.cancellation = true) :
    (setLifecycleStatus c true).state.activeTurn = none := by
  unfold setLifecycleStatus
  dsimp only
  rw [if_pos complete]
  split <;> rfl

theorem setLifecycleStatus_terminalFailure (c : Cleanup) :
    (setLifecycleStatus c true).state.terminalFailure = c.result.state.terminalFailure := by
  unfold setLifecycleStatus
  dsimp only
  split
  · split <;> rfl
  · rfl

/-- The status of a cleanup. -/
def cleanupStatus (cancellation : CancellationState) : SessionStatus :=
  if cancellationComplete cancellation then .cancelled else .cancelling

theorem setLifecycleStatus_status (c : Cleanup) :
    (setLifecycleStatus c true).outcome.status = some (cleanupStatus c.cancellation) := by
  unfold setLifecycleStatus cleanupStatus
  dsimp only
  split
  · split <;> rfl
  · rfl

theorem begin_terminalFailure {state : BasicCodexState} {reason : Option String}
    {sequence : EventSequence} {nextId : Uuid} {r : OutcomeBuilder BasicCodexState}
    (h : Cancellation.begin agent state reason sequence nextId = .ok r) :
    r.state.terminalFailure = state.terminalFailure := by
  obtain ⟨c, targets, -, moves, rfl⟩ := begin_cleanup h
  rw [setLifecycleStatus_terminalFailure, OutcomeBuilder.emitProgress_state, moves.state]
  rfl

theorem CleansUp.step (cleansUp : s.CleansUp) (reach : Reachable agent s) (step : Step agent s d t) :
    t.CleansUp := by
  obtain ⟨admitted, r, rfl, answered⟩ := step.answered
  rw [reach.dated.fillDate] at answered
  have hstaged : s.staged ⊆ s.staged ++ r.outcome.operations := List.subset_append_left _ _
  intro cancellation hcancellation
  cases answered with
  | failed ended silent =>
    have hbefore : s.state.cancellation = some cancellation := by rw [← silent.state]; exact hcancellation
    rw [(cleansUp cancellation hbefore).alive] at ended
    cases ended
  | routed live cancelled other silent =>
    have hbefore : s.state.cancellation = some cancellation := by rw [← silent.state]; exact hcancellation
    have cleaning := cleansUp cancellation hbefore
    refine ⟨?_, ?_, ?_⟩
    · show r.state.terminalFailure = none
      rw [silent.state]
      exact cleaning.alive
    · intro complete
      show r.state.activeTurn = none
      rw [silent.state]
      exact cleaning.idle complete
    · intro target htarget
      refine (cleaning.targets target htarget).mono hstaged ?_
      exact fun id h => isCompleted_after h r
  | @cleaned before id kind outcome c live cancelled completes applied =>
    have moves := applyCompletion_moves applied
    rw [show (s.after d.stimulus (setLifecycleStatus c true)).state.cancellation =
      some c.cancellation from setLifecycleStatus_cancellation c true] at hcancellation
    cases hcancellation
    obtain ⟨hstimulus, o, ho, hid, hkind, hends⟩ :=
      completes_delivered reach.kept.numbered admitted completes
    refine ⟨?_, setLifecycleStatus_over, ?_⟩
    · show (setLifecycleStatus c true).state.terminalFailure = none
      rw [setLifecycleStatus_terminalFailure, moves.state]
      exact live
    · have hbefore : TargetsSound s.staged
          (fun id => (s.after d.stimulus (setLifecycleStatus c true)).isCompleted id = true)
          { result := .new s.state s.nextId, cancellation := before } := by
        intro target htarget
        refine ((cleansUp before cancelled).targets target htarget).mono ?_ ?_
        · exact List.subset_append_left _ _
        · exact fun id h => isCompleted_after h _
      have hconfirmed : confirmsWithdrawal outcome = true → ∀ o ∈ s.staged, o.id = id →
          ∀ target, o.request = .withdraw target →
            (s.after d.stimulus (setLifecycleStatus c true)).isCompleted target = true := by
        intro confirms o' ho' hid' target withdraws
        have hsame : o' = o := by
          have hfound := reach.kept.numbered.operation_eq ho'
          rw [hid', ← hid, reach.kept.numbered.operation_eq (mem_outstanding.mp ho).1] at hfound
          exact (Option.some.inj hfound).symm
        rw [hsame] at withdraws
        exact isCompleted_after (withdrawn_ended hends withdraws confirms) _
      have hsound := (completion_taken applied).targetsSound hbefore rfl moves
        (isCompleted_now hstimulus _) hconfirmed
      intro target htarget
      refine (hsound target htarget).mono ?_ fun _ h => h
      rw [← (setLifecycleStatus_state c true).1]
      exact List.Subset.refl _
  | running live uncancelled handled =>
    rcases handled.uncancelled reach.kept.plans with ⟨reason, -, begun⟩ | kept
    · obtain ⟨c, targets, hr⟩ : ∃ c, TargetsSound s.staged
          (fun id => (s.after d.stimulus r).isCompleted id = true) c ∧
            r = setLifecycleStatus c true := begin_sound begun
      have halive := begin_terminalFailure begun
      have hrecords : r.state.cancellation = some c.cancellation := by
        rw [hr]
        exact setLifecycleStatus_cancellation c true
      cases hrecords.symm.trans hcancellation
      refine ⟨halive.trans live, ?_, ?_⟩
      · intro complete
        show r.state.activeTurn = none
        rw [hr]
        exact setLifecycleStatus_over complete
      · intro target htarget
        have hoperations : r.outcome.operations = c.result.outcome.operations := by
          rw [hr]
          exact (setLifecycleStatus_state c true).1
        show TargetSound (s.staged ++ r.outcome.operations) _ target
        rw [hoperations]
        exact targets target htarget
    · have hnone : r.state.cancellation = none := kept.kept.trans uncancelled
      cases hnone.symm.trans hcancellation

theorem Reachable.cleansUp (reach : Reachable agent s) : s.CleansUp := by
  refine reach.induct ?_ ?_
  · intro id nextId cancellation h
    cases h
  · intro s d t before cleansUp step
    exact cleansUp.step before step

/-! ## The status that is told -/

/-- An outcome that tells whether the cleanup is complete. -/
def Truthful (r : OutcomeBuilder BasicCodexState) : Prop :=
  ∃ cancellation, r.state.cancellation = some cancellation ∧
    r.outcome.status = some (cleanupStatus cancellation)

/-- The delivery is a completion, or the session's turn tells of its cleanup: a turn remains, or the
cleanup is complete. -/
def TurnTells (s : Session) (d : Delivery) : Prop :=
  ∀ cancellation, s.state.cancellation = some cancellation →
    (∃ id outcome, d.stimulus = .completed id outcome) ∨ s.state.activeTurn.isSome = true ∨
      cancellationComplete cancellation = true

/-- What is answered in a session that is being cancelled. -/
theorem cancelled_answered (reach : Reachable agent s) {cancellation : CancellationState}
    (cancelled : s.state.cancellation = some cancellation) (admitted : s.admits d.stimulus = true)
    {r : OutcomeBuilder BasicCodexState} (h : s.invoke agent d = .ok r) :
    ((∀ id outcome, d.stimulus ≠ .completed id outcome) ∧ r.state = s.state ∧
        r.outcome.status = some (routerStatus s.state)) ∨
      ∃ id kind outcome o c, d.stimulus = .completed id outcome ∧ o ∈ s.outstanding ∧ o.id = id ∧
        o.request.kind = kind ∧ s.mayEnd o outcome = true ∧
        Taken agent s.id d.sequence { result := .new s.state s.nextId, cancellation } id kind
          outcome c ∧ r = setLifecycleStatus c true := by
  have answered := handle_answered h
  rw [show fillDate s.state (s.event d).date = s.state from reach.dated.fillDate d.date] at answered
  cases answered with
  | failed ended =>
    rw [(reach.cleansUp cancellation cancelled).alive] at ended
    cases ended
  | routed live _ other silent status =>
    refine .inl ⟨?_, silent.state, status⟩
    intro id outcome hstimulus
    refine other id (s.kindOf id) outcome.status ?_
    simp only [event, hstimulus]
  | @cleaned before id kind outcome c live same completes applied =>
    cases cancelled.symm.trans same
    obtain ⟨hstimulus, o, ho, hid, hkind, hends⟩ :=
      completes_delivered reach.kept.numbered admitted completes
    exact .inr ⟨id, kind, outcome, o, c, hstimulus, ho, hid, hkind, hends,
      completion_taken applied, rfl⟩
  | running _ uncancelled =>
    cases uncancelled.symm.trans cancelled

/-- In a session that is being cancelled, an outcome tells the truth exactly when the turn does. -/
theorem truthful_iff (reach : Reachable agent s) {cancellation : CancellationState}
    (cancelled : s.state.cancellation = some cancellation) (admitted : s.admits d.stimulus = true)
    {r : OutcomeBuilder BasicCodexState} (h : s.invoke agent d = .ok r) :
    Truthful r ↔ s.TurnTells d := by
  rcases cancelled_answered reach cancelled admitted h with
    ⟨hother, hstate, hstatus⟩ | ⟨id, kind, outcome, o, c, hstimulus, -, -, -, -, -, rfl⟩
  · have hidle := (reach.cleansUp cancellation cancelled).idle
    unfold Truthful TurnTells
    rw [hstate, hstatus]
    constructor
    · rintro ⟨records, hrecords, htold⟩ records' hrecords'
      cases hrecords.symm.trans hrecords'
      have htold := Option.some.inj htold
      unfold routerStatus cleanupStatus at htold
      by_cases hturn : s.state.activeTurn.isSome = true
      · exact .inr (.inl hturn)
      · rw [if_neg hturn] at htold
        split at htold
        next complete => exact .inr (.inr complete)
        · cases htold
    · intro tells
      refine ⟨cancellation, cancelled, congrArg some ?_⟩
      unfold routerStatus cleanupStatus
      rcases tells cancellation cancelled with ⟨id, outcome, hcompleted⟩ | hturn | hcomplete
      · exact absurd hcompleted (hother id outcome)
      · have hincomplete : ¬ cancellationComplete cancellation = true := by
          intro complete
          rw [hidle complete] at hturn
          cases hturn
        rw [if_pos hturn, if_neg hincomplete]
      · rw [if_pos hcomplete, hidle hcomplete]
        rfl
  · constructor
    · intro _ _ _
      exact .inl ⟨id, outcome, hstimulus⟩
    · intro _
      exact ⟨c.cancellation, setLifecycleStatus_cancellation c true, setLifecycleStatus_status c⟩

/-- A session whose cleanup is complete stays so, and says so. -/
theorem complete_stays (reach : Reachable agent s) {cancellation : CancellationState}
    (cancelled : s.state.cancellation = some cancellation)
    (complete : cancellationComplete cancellation = true) (admitted : s.admits d.stimulus = true)
    {r : OutcomeBuilder BasicCodexState} (h : s.invoke agent d = .ok r) :
    r.outcome.status = some .cancelled ∧
      ∃ after, r.state.cancellation = some after ∧ cancellationComplete after = true := by
  have cleaning := reach.cleansUp cancellation cancelled
  rcases cancelled_answered reach cancelled admitted h with
    ⟨-, hstate, hstatus⟩ | ⟨id, kind, outcome, o, c, hstimulus, ho, hid, hkind, hends, taken, rfl⟩
  · refine ⟨?_, cancellation, ?_, complete⟩
    · rw [hstatus, routerStatus, cleaning.idle complete]
      rfl
    · rw [hstate]
      exact cancelled
  · have hcomplete : cancellationComplete c.cancellation = true := by
      refine taken.complete complete ?_ ?_ ?_
      · intro target htarget same completed heq
        have hended := (cleaning.targets target htarget).ended same completed
        rw [heq, ← hid, (mem_outstanding.mp ho).2] at hended
        cases hended
      · intro target htarget same hsettled
        exact (cleaning.targets target htarget).completed same (.inl hsettled)
      · rintro rfl
        have hallowed := (Bool.and_eq_true_iff.mp hends).1
        rw [hkind] at hallowed
        exact executionsFromOutcome_llm hallowed
    refine ⟨?_, c.cancellation, setLifecycleStatus_cancellation c true, hcomplete⟩
    rw [setLifecycleStatus_status, cleanupStatus, if_pos hcomplete]

/-- The cleanup of a session is complete. -/
def CleanedUp (s : Session) : Prop :=
  ∃ cancellation, s.state.cancellation = some cancellation ∧
    cancellationComplete cancellation = true

theorem CleanedUp.path (cleanedUp : s.CleanedUp) (reach : Reachable agent s)
    {deliveries : List Delivery} (path : StepPath (Step agent) s deliveries t) :
    Reachable agent t ∧ t.CleanedUp := by
  refine path.preserves (P := fun s => Reachable agent s ∧ s.CleanedUp) ?_ ⟨reach, cleanedUp⟩
  rintro s d t ⟨reach, cancellation, cancelled, complete⟩ step
  refine ⟨reach.step step, ?_⟩
  obtain ⟨admitted, r, hinvoke, rfl⟩ := step
  exact (complete_stays reach cancelled complete admitted hinvoke).2

/-- An outcome that says, and may say, that the session is cancelled has a complete cleanup. -/
theorem cleanedUp_of_told (reach : Reachable agent s) (admitted : s.admits d.stimulus = true)
    {r : OutcomeBuilder BasicCodexState} (h : s.invoke agent d = .ok r) (tells : s.TurnTells d)
    (told : r.outcome.status = some .cancelled) : (s.after d.stimulus r).CleanedUp := by
  have complete_of_truthful (truthful : Truthful r) : (s.after d.stimulus r).CleanedUp := by
    obtain ⟨cancellation, hrecords, hstatus⟩ := truthful
    refine ⟨cancellation, hrecords, ?_⟩
    rw [told, cleanupStatus] at hstatus
    by_cases complete : cancellationComplete cancellation = true
    · exact complete
    · rw [if_neg complete] at hstatus
      cases hstatus
  cases hcancellation : s.state.cancellation with
  | some cancellation =>
    exact complete_of_truthful ((truthful_iff reach hcancellation admitted h).mpr tells)
  | none =>
    have answered := handle_answered h
    rw [show fillDate s.state (s.event d).date = s.state from reach.dated.fillDate d.date]
      at answered
    cases answered with
    | failed _ _ status => cases status.symm.trans told
    | routed _ cancelled => cases hcancellation.symm.trans cancelled
    | cleaned _ cancelled => cases hcancellation.symm.trans cancelled
    | running _ _ handled =>
      rcases handled.uncancelled reach.kept.plans with ⟨reason, -, begun⟩ | kept
      · obtain ⟨c, -, rfl⟩ : ∃ c, TargetsSound [] (fun _ => True) c ∧
            r = setLifecycleStatus c true := begin_sound begun
        exact complete_of_truthful
          ⟨c.cancellation, setLifecycleStatus_cancellation c true, setLifecycleStatus_status c⟩
      · exact absurd told kept.status

/-- What an outcome tells of a cancellation is true exactly when the turn tells of the cleanup, and
a session that was truly said to be cancelled is said so by every later outcome. -/
theorem cancellation_status_final (agent : Agent) {s : Session} {d : Delivery}
    {r : OutcomeBuilder BasicCodexState} (reach : Reachable agent s)
    (admitted : s.admits d.stimulus = true) (h : s.invoke agent d = .ok r) :
    (s.state.cancellation.isSome = true → (Truthful r ↔ s.TurnTells d)) ∧
      (s.TurnTells d → r.outcome.status = some .cancelled →
        ∀ deliveries u d' r', StepPath (Step agent) (s.after d.stimulus r) deliveries u →
          u.admits d'.stimulus = true → u.invoke agent d' = .ok r' →
            r'.outcome.status = some .cancelled ∧ Truthful r') := by
  constructor
  · intro hsome
    obtain ⟨cancellation, hcancellation⟩ := Option.isSome_iff_exists.mp hsome
    exact truthful_iff reach hcancellation admitted h
  · intro tells told deliveries u d' r' path admitted' h'
    have reached := reach.step ⟨admitted, r, h, rfl⟩
    obtain ⟨reachU, cancellation, cancelled, complete⟩ :=
      (cleanedUp_of_told reach admitted h tells told).path reached path
    obtain ⟨hstatus, after, hrecords, hcomplete⟩ :=
      complete_stays reachU cancelled complete admitted' h'
    refine ⟨hstatus, after, hrecords, ?_⟩
    rw [hstatus, cleanupStatus, if_pos hcomplete]

/-! ## Two cancelled sessions -/

/-- The session whose request to the model is withdrawn, before it learns of it. -/
def withdrawing : Session :=
  next inputAgent (next inputAgent promptedSession (delivery 2 (.cancellationRequested none)))
    (delivery 3 (.completed 10 .cancelled))

/-- The withdrawal is confirmed. -/
def withdrawal : Delivery := delivery 4 (.completed 11 (.succeeded (.withdraw true)))

/-- What the handler makes of a delivery. -/
def resultOf (agent : Agent) (s : Session) (d : Delivery) : OutcomeBuilder BasicCodexState :=
  (s.invoke agent d).toOption.getD (.new .initial 0)

theorem resultOf_eq (h : (s.invoke agent d).isOk = true) :
    s.invoke agent d = .ok (resultOf agent s d) := Fallible.eq_ok_getD h _

theorem Reachable.next (reach : Reachable agent s) (h : (s.play agent [d]).isSome = true) :
    Reachable agent (next agent s d) := reach.step (step_next h)

theorem withdrawing_reachable : Reachable inputAgent withdrawing := by
  have hprompted : Reachable inputAgent promptedSession :=
    (Reachable.start inputAgent 3 9).next (by decide +kernel)
  have hcancelled := hprompted.next (d := delivery 2 (.cancellationRequested none)) (by decide +kernel)
  exact hcancelled.next (by decide +kernel)

theorem cancellation_status_final_withdrawn :
    (resultOf inputAgent withdrawing withdrawal).outcome.status = some .cancelled ∧
      ∀ deliveries u d' r', StepPath (Step inputAgent)
        (withdrawing.after withdrawal.stimulus (resultOf inputAgent withdrawing withdrawal))
          deliveries u → u.admits d'.stimulus = true → u.invoke inputAgent d' = .ok r' →
            r'.outcome.status = some .cancelled ∧ Truthful r' := by
  have told : (resultOf inputAgent withdrawing withdrawal).outcome.status = some .cancelled := by
    decide +kernel
  refine ⟨told, (cancellation_status_final inputAgent withdrawing_reachable (d := withdrawal)
    (by decide +kernel) (resultOf_eq (by decide +kernel))).2 ?_ told⟩
  exact fun _ _ => .inl ⟨_, _, rfl⟩

/-- The session that is idle while a process of it runs, and is cancelled. -/
def idleCancelled : Session :=
  next pagingAgent (next pagingAgent pagingRuns (delivery 4 (.completed 13 (.succeeded (.llm
    { pauseResponse none with stopReason := .stop }))))) (delivery 5 (.cancellationRequested none))

/-- A message to a session that is cancelled while it has no turn makes it cancelled before its
process has been interrupted. -/
theorem cancelled_early :
    (resultOf pagingAgent idleCancelled (delivery 6 (.userMessage (.userText "go on")))).outcome.status =
        some .cancelled ∧
      idleCancelled.outstanding.map (·.id) = [14] ∧ idleCancelled.status = .cancelling := by
  decide +kernel

end Session

end AgentPlatform.Harness
