import AgentPlatform.Harness.Cancellation
import AgentPlatform.Harness.ToolDiscipline
import AgentPlatform.Lib.Modified

/-!
# What scheduling stages

Scheduling stages one operation for each call that it submits, draws their identifiers from the
supply, and leaves the rest of the outcome alone. The calls keep their identifiers.
-/

namespace AgentPlatform.Harness

/-! ## Staging -/

/-- An outcome that grew by some staged operations, under identifiers drawn from the supply. -/
structure Stages {S : Type} (b : OutcomeBuilder S) (staged : List StagedOperation)
    (b' : OutcomeBuilder S) : Prop where
  operations : b'.outcome.operations = b.outcome.operations ++ staged
  history : b'.outcome.history = b.outcome.history
  progress : b'.outcome.progress = b.outcome.progress
  later : b.nextId ≤ b'.nextId
  drawn : ∀ o ∈ staged, b.nextId ≤ o.id ∧ o.id < b'.nextId
  distinct : (staged.map (·.id)).Nodup

namespace Stages

variable {S : Type} {b b' b'' : OutcomeBuilder S} {xs ys : List StagedOperation}

theorem none {n : Uuid} (later : b.nextId ≤ n) : Stages b [] { b with nextId := n } where
  operations := by rw [List.append_nil]
  history := rfl
  progress := rfl
  later := later
  drawn _ ho := absurd ho List.not_mem_nil
  distinct := List.Pairwise.nil

theorem push (b : OutcomeBuilder S) (request : OperationRequest) :
    Stages b [{ id := b.nextId, request }] (b.pushOperation request).2 where
  operations := rfl
  history := rfl
  progress := rfl
  later := Nat.le_succ _
  drawn o ho := by
    rw [List.mem_singleton.mp ho]
    exact ⟨Nat.le_refl _, Nat.lt_succ_self _⟩
  distinct := by simp

theorem trans (first : Stages b xs b') (second : Stages b' ys b'') : Stages b (xs ++ ys) b'' where
  operations := by rw [second.operations, first.operations, List.append_assoc]
  history := second.history.trans first.history
  progress := second.progress.trans first.progress
  later := first.later.trans second.later
  drawn o ho := by
    rcases List.mem_append.mp ho with h | h
    · have hx := first.drawn o h
      exact ⟨hx.1, hx.2.trans_le second.later⟩
    · have hy := second.drawn o h
      exact ⟨first.later.trans hy.1, hy.2⟩
  distinct := by
    rw [List.map_append, List.nodup_append]
    refine ⟨first.distinct, second.distinct, ?_⟩
    intro x hx y hy hxy
    obtain ⟨o, ho, rfl⟩ := List.mem_map.mp hx
    obtain ⟨p, hp, rfl⟩ := List.mem_map.mp hy
    have hbelow : o.id < b'.nextId := (first.drawn o ho).2
    have habove : b'.nextId ≤ p.id := (second.drawn p hp).1
    rw [hxy] at hbelow
    exact absurd hbelow (Nat.not_lt.mpr habove)

end Stages

/-- What an invocation staged so far: operations of different identifiers, drawn from the supply
that it began with. -/
structure Draws {S : Type} (nextId : Uuid) (b : OutcomeBuilder S) : Prop where
  later : nextId ≤ b.nextId
  drawn : ∀ o ∈ b.outcome.operations, nextId ≤ o.id ∧ o.id < b.nextId
  distinct : (b.outcome.operations.map (·.id)).Nodup

namespace Draws

variable {S : Type} {b b' : OutcomeBuilder S} {nextId : Uuid} {staged : List StagedOperation}

theorem new (state : S) (nextId : Uuid) : Draws nextId (.new state nextId) where
  later := Nat.le_refl _
  drawn _ ho := absurd ho List.not_mem_nil
  distinct := List.Pairwise.nil

theorem congr (draws : Draws nextId b) (operations : b'.outcome.operations = b.outcome.operations)
    (supply : b'.nextId = b.nextId) : Draws nextId b' where
  later := supply ▸ draws.later
  drawn := by
    rw [operations, supply]
    exact draws.drawn
  distinct := by
    rw [operations]
    exact draws.distinct

theorem stages (draws : Draws nextId b) (stages : Stages b staged b') : Draws nextId b' := by
  refine ⟨draws.later.trans stages.later, ?_, ?_⟩
  · intro o ho
    rw [stages.operations] at ho
    rcases List.mem_append.mp ho with h | h
    · exact ⟨(draws.drawn o h).1, (draws.drawn o h).2.trans_le stages.later⟩
    · exact ⟨draws.later.trans (stages.drawn o h).1, (stages.drawn o h).2⟩
  · rw [stages.operations, List.map_append, List.nodup_append]
    refine ⟨draws.distinct, stages.distinct, ?_⟩
    intro x hx y hy hxy
    obtain ⟨o, ho, rfl⟩ := List.mem_map.mp hx
    obtain ⟨p, hp, rfl⟩ := List.mem_map.mp hy
    have hbelow : o.id < b.nextId := (draws.drawn o ho).2
    have habove : b.nextId ≤ p.id := (stages.drawn p hp).1
    rw [hxy] at hbelow
    exact absurd hbelow (Nat.not_lt.mpr habove)

theorem push (draws : Draws nextId b) (request : OperationRequest) :
    Draws nextId (b.pushOperation request).2 := draws.stages (.push b request)

end Draws

/-! ## What a plan has submitted -/

/-- The operation that a call waits for. -/
def submittedOperation (call : ToolCallState) : Option OperationId :=
  match call.status with
  | .submitted id _ => some id
  | _ => none

namespace ToolPlanState

/-- The operations that a plan waits for. -/
def submittedOperations (plan : ToolPlanState) : List OperationId :=
  plan.calls.filterMap submittedOperation

/-- The identifiers that the model gave its calls. -/
def callIds (plan : ToolPlanState) : List String := plan.calls.map (·.callId)

@[simp] theorem setStatus_callIds (plan : ToolPlanState) (o : Nat) (status : ToolCallStatus) :
    (plan.setStatus o status).callIds = plan.callIds :=
  Modified.map_same _ _ fun _ => rfl

@[simp] theorem advance_callIds (plan : ToolPlanState) :
    plan.advanceCompletedSegments.callIds = plan.callIds := rfl

@[simp] theorem advance_submittedOperations (plan : ToolPlanState) :
    plan.advanceCompletedSegments.submittedOperations = plan.submittedOperations := rfl

end ToolPlanState

namespace ToolExecution

open ToolPlanState

section

variable {agent : Agent} {executions : List TrackedExecution} {invocation : Invocation}
  {turnId : Uuid}

theorem prepareCall_ordinal {call : ToolCallState} {ordinal : Nat} {draw : Uuid}
    {prepared : PreparedCall}
    (h : prepareCall agent executions invocation turnId call ordinal draw =
      some (.ok prepared)) : prepared.ordinal = ordinal := by
  have mapped {ε α : Type} {x : Except ε α} {f : α → PreparedCall}
      (hf : ∀ a, (f a).ordinal = ordinal) (hx : x.map f = .ok prepared) :
      prepared.ordinal = ordinal := by
    cases x with
    | error e => cases hx
    | ok a =>
      cases hx
      exact hf a
  unfold prepareCall at h
  split at h
  · simp only [Option.some.injEq] at h
    split at h
    · cases h
      rfl
    · split at h <;> cases h
      rfl
    · cases h
  · exact mapped (fun _ => rfl) (Option.some.inj h)
  · exact mapped (fun _ => rfl) (Option.some.inj h)
  · cases h
  · cases h

/-- A call for which something is prepared waits for no operation. -/
theorem prepareCall_unsubmitted {call : ToolCallState} {ordinal : Nat} {draw : Uuid}
    {prepared : Except ToolResultSnapshot PreparedCall}
    (h : prepareCall agent executions invocation turnId call ordinal draw = some prepared) :
    submittedOperation call = none := by
  cases hop : submittedOperation call with
  | none => rfl
  | some id =>
    unfold submittedOperation at hop
    split at hop
    next id progress hstatus =>
      rw [prepareCall_none.mpr (.inr ⟨id, progress, hstatus⟩)] at h
      cases h
    · cases hop

/-- What a pass has done to a plan so far: no call that waits for an operation changed, and the
prepared ones wait for none. -/
structure Round.Gathers (before : ToolPlanState) (draw : Uuid) (round : Round) : Prop where
  callIds : round.plan.callIds = before.callIds
  submitted : round.plan.submittedOperations = before.submittedOperations
  later : draw ≤ round.nextId
  prepared : ∀ p ∈ round.prepared, ∃ call, round.plan.calls[p.ordinal]? = some call ∧
    submittedOperation call = none

theorem Round.Gathers.visit {before : ToolPlanState} {draw : Uuid} {round round' : Round} {o : Nat}
    (gathers : Round.Gathers before draw round)
    (h : ToolExecution.visit agent executions invocation turnId round o = .ok round') :
    Round.Gathers before draw round' := by
  unfold ToolExecution.visit at h
  split at h
  · cases h
  next call hcall =>
  dsimp only at h
  split at h
  · cases h
    exact gathers
  split at h
  · cases h
    exact gathers
  next snapshot hsnapshot =>
    cases h
    refine ⟨?_, ?_, ?_, ?_⟩
    · exact (setStatus_callIds _ _ _).trans gathers.callIds
    · refine (Modified.filterMap_same _ _ hcall ?_).trans gathers.submitted
      exact (prepareCall_unsubmitted hsnapshot).symm
    · exact gathers.later.trans (Nat.le_succ _)
    · intro p hp
      obtain ⟨c, hc, hnone⟩ := gathers.prepared p hp
      refine ⟨_, setStatus_get _ hc, ?_⟩
      by_cases hio : p.ordinal = o
      · simp [hio, submittedOperation]
      · simpa [hio] using hnone
  next prepared hprepared =>
    cases h
    refine ⟨gathers.callIds, gathers.submitted, gathers.later.trans (Nat.le_succ _), ?_⟩
    intro p hp
    rcases List.mem_append.mp hp with hp | hp
    · exact gathers.prepared p hp
    · rw [List.mem_singleton.mp hp, prepareCall_ordinal hprepared]
      exact ⟨call, hcall, prepareCall_unsubmitted hprepared⟩

theorem Round.Gathers.pass {before : ToolPlanState} {draw : Uuid} {ordinals : List Nat}
    {round round' : Round} (gathers : Round.Gathers before draw round)
    (h : ordinals.foldlM (ToolExecution.visit agent executions invocation turnId) round =
      .ok round') : Round.Gathers before draw round' := by
  induction ordinals generalizing round with
  | nil =>
    cases h
    exact gathers
  | cons o rest ih =>
    obtain ⟨next, hnext, h⟩ := Fallible.bind_ok h
    exact ih (gathers.visit hnext) h

theorem Round.Gathers.start (plan : ToolPlanState) (draw : Uuid) :
    Round.Gathers plan draw (Round.start plan draw) where
  callIds := rfl
  submitted := rfl
  later := Nat.le_refl _
  prepared _ hp := absurd hp List.not_mem_nil

/-! ## Submitting -/

/-- What scheduling does to a plan and to the outcome: it stages executions, one for each call that
now waits for one. -/
structure Submits {S : Type} (plan : ToolPlanState) (b : OutcomeBuilder S)
    (staged : List StagedOperation) (plan' : ToolPlanState) (b' : OutcomeBuilder S) : Prop where
  stages : Stages b staged b'
  state : b'.state = b.state
  executions : ∀ o ∈ staged, o.request.kind = .execution
  callIds : plan'.callIds = plan.callIds
  submitted : plan'.submittedOperations.Perm (staged.map (·.id) ++ plan.submittedOperations)

namespace Submits

variable {S : Type} {plan plan' plan'' : ToolPlanState} {b b' b'' : OutcomeBuilder S}
  {xs ys : List StagedOperation}

theorem trans (first : Submits plan b xs plan' b') (second : Submits plan' b' ys plan'' b'') :
    Submits plan b (xs ++ ys) plan'' b'' where
  stages := first.stages.trans second.stages
  state := second.state.trans first.state
  executions o ho := by
    rcases List.mem_append.mp ho with h | h
    · exact first.executions o h
    · exact second.executions o h
  callIds := second.callIds.trans first.callIds
  submitted := by
    rw [List.map_append]
    refine second.submitted.trans ?_
    have hleft := first.submitted.append_left (ys.map (·.id))
    refine hleft.trans ?_
    rw [← List.append_assoc]
    exact (List.perm_append_comm).append_right _

/-- The calls that a pass prepared. -/
theorem all (agent : Agent) (b : OutcomeBuilder S) {prepared : List PreparedCall}
    (distinct : (prepared.map (·.ordinal)).Nodup)
    (found : ∀ p ∈ prepared, ∃ call, plan.calls[p.ordinal]? = some call ∧
      submittedOperation call = none) :
    ∃ staged, Submits plan b staged (prepared.foldl (submit agent) (plan, b)).1
      (prepared.foldl (submit agent) (plan, b)).2 := by
  induction prepared generalizing plan b with
  | nil => exact ⟨[], .none (Nat.le_refl _), rfl, by simp, rfl, by simp⟩
  | cons p rest ih =>
    rw [List.map_cons, List.nodup_cons] at distinct
    obtain ⟨call, hcall, hnone⟩ := found p List.mem_cons_self
    let request : OperationRequest := .execution agent.harness.executionConnectionId
      agent.config.machineId p.expectedGenerationId p.request
    have first : Submits plan b [{ id := b.nextId, request }]
        (submit agent (plan, b) p).1 (submit agent (plan, b) p).2 := by
      refine ⟨.push b request, rfl, ?_, setStatus_callIds _ _ _, ?_⟩
      · intro o ho
        rw [List.mem_singleton.mp ho]
        rfl
      · exact Modified.filterMap_gains _ _ hcall hnone rfl
    have hrest : ∀ q ∈ rest, ∃ call, (submit agent (plan, b) p).1.calls[q.ordinal]? = some call ∧
        submittedOperation call = none := by
      intro q hq
      obtain ⟨c, hc, hnone⟩ := found q (List.mem_cons_of_mem _ hq)
      have hne : q.ordinal ≠ p.ordinal := by
        intro heq
        exact distinct.1 (List.mem_map.mpr ⟨q, hq, heq⟩)
      refine ⟨c, ?_, hnone⟩
      have hkept := setStatus_get (o := p.ordinal) (.submitted b.nextId p.progress) hc
      rw [if_neg hne] at hkept
      exact hkept
    obtain ⟨staged, second⟩ := ih (submit agent (plan, b) p).2 distinct.2 hrest
    exact ⟨_, first.trans second⟩

end Submits

theorem scheduleLoop_submits {S : Type} {rounds : Nat} {plan plan' : ToolPlanState}
    {b b' : OutcomeBuilder S} (sound : plan.Sound)
    (h : scheduleLoop agent executions invocation turnId rounds plan b = .ok (plan', b')) :
    ∃ staged, Submits plan b staged plan' b' := by
  have still {n : Uuid} (later : b.nextId ≤ n) : Submits plan b [] plan { b with nextId := n } :=
    ⟨.none later, rfl, by simp, rfl, by simp⟩
  induction rounds generalizing plan b with
  | zero =>
    cases h
    exact ⟨[], still (Nat.le_refl _)⟩
  | succ rounds ih =>
    unfold scheduleLoop at h
    split at h
    · cases h
      exact ⟨[], still (Nat.le_refl _)⟩
    next segment hcurrent =>
    split at h
    · cases h
    next round hpass =>
    have hgathers := (Round.Gathers.start plan b.nextId).pass hpass
    have hround := (Round.Sound.start sound hcurrent b.nextId).pass (by simp) hpass
    have waits : Submits plan b [] round.plan { b with nextId := round.nextId } :=
      ⟨.none hgathers.later, rfl, by simp, hgathers.callIds, by simp [hgathers.submitted]⟩
    dsimp only at h
    split at h
    · split at h
      · -- the pass completed calls only, and another one follows
        obtain ⟨staged, hrest⟩ := ih hround.plan.advance h fun later =>
          ⟨.none later, rfl, by simp, rfl, by simp⟩
        refine ⟨_, waits.trans ⟨hrest.stages, hrest.state, hrest.executions, hrest.callIds, ?_⟩⟩
        exact hrest.submitted
      · cases h
        exact ⟨[], waits⟩
    · have hordinals : (round.prepared.map (·.ordinal)).Nodup :=
        List.pairwise_map.mpr (hround.apart.imp fun apart => apart.1)
      simp only [Except.ok.injEq] at h
      obtain ⟨staged, hall⟩ :=
        Submits.all agent { b with nextId := round.nextId } hordinals hgathers.prepared
      rw [h] at hall
      exact ⟨_, waits.trans hall⟩

/-- What `schedule_ready` does. -/
structure Schedules (b : OutcomeBuilder BasicCodexState) (active : ActiveTurn)
    (plan : ToolPlanState) (staged : List StagedOperation) (plan' : ToolPlanState)
    (b' : OutcomeBuilder BasicCodexState) : Prop where
  turn : b.state.activeTurn = some active
  phase : active.phase = .executingTools plan
  stages : Stages b staged b'
  executions : ∀ o ∈ staged, o.request.kind = .execution
  callIds : plan'.callIds = plan.callIds
  submitted : plan'.submittedOperations.Perm (staged.map (·.id) ++ plan.submittedOperations)
  state : b'.state = { b.state with
    activeTurn := some { active with phase := .executingTools plan' } }

theorem scheduleReady_schedules {b b' : OutcomeBuilder BasicCodexState} {plan : ToolPlanState}
    (hplan : planOf b.state = some plan) (sound : plan.Sound)
    (h : scheduleReady agent b invocation = .ok b') :
    ∃ active staged plan', Schedules b active plan staged plan' b' := by
  obtain ⟨active, hactive, hphase⟩ := planOf_some.mp hplan
  unfold scheduleReady at h
  rw [hactive] at h
  simp only [hphase] at h
  split at h
  · cases h
  next plan' result hloop =>
    cases h
    obtain ⟨staged, hsubmits⟩ := scheduleLoop_submits sound hloop
    have hstages := hsubmits.stages
    refine ⟨active, staged, plan', hactive, hphase, ?_, hsubmits.executions, hsubmits.callIds,
      hsubmits.submitted, ?_⟩
    · exact ⟨hstages.operations, hstages.history, hstages.progress, hstages.later, hstages.drawn,
        hstages.distinct⟩
    · rw [OutcomeBuilder.setState_state, hsubmits.state]

end

/-! ## Taking in a completion -/

/-- A state that differs in the processes it tracks only. -/
def Retracked (state state' : BasicCodexState) : Prop :=
  state' = { state with
    executions := state'.executions
    nextExecutionSessionId := state'.nextExecutionSessionId }

theorem track_retracked {state state' : BasicCodexState} {progress progress' : ShellCallState}
    {observation : ObservationWire} {turnId : Uuid}
    (h : ShellTools.track state progress observation turnId = .ok (progress', state')) :
    Retracked state state' := by
  unfold ShellTools.track at h
  split at h
  · unfold ShellTools.trackActive at h
    split at h
    · cases h
      rfl
    · split at h <;> cases h
      rfl
  · cases h
    unfold ShellTools.trackFinished
    split
    · rfl
    · split <;> rfl

theorem applyResponse_retracked (agent : Agent) (progress : ToolCallProgress)
    (response : Execution.Response) (state : BasicCodexState) (turnId : Uuid) (callId : String)
    (at_ : Int) :
    Retracked state (applyResponse agent progress response state turnId callId at_).2 := by
  have shell {progress : ShellCallState} {result : AppliedShellResult × BasicCodexState}
      (h : ShellTools.applyResponse agent.lib progress response state turnId at_ = .ok result) :
      Retracked state result.2 := by
    unfold ShellTools.applyResponse at h
    obtain ⟨observation, -, h⟩ := Fallible.bind_ok h
    obtain ⟨output, -, h⟩ := Fallible.bind_ok h
    dsimp only at h
    split at h
    · cases h
    obtain ⟨⟨tracked, state'⟩, htracked, h⟩ := Fallible.bind_ok h
    have := track_retracked htracked
    dsimp only at h
    split at h <;> cases h <;> exact this
  unfold applyResponse
  cases progress with
  | shell progress =>
    simp only
    split
    next h => exact shell h
    next h => exact shell h
    next => rfl
  | filesystem progress =>
    simp only
    split <;> rfl

theorem applyOutcome_retracked {agent : Agent} {progress : ToolCallProgress}
    {outcome : OperationOutcome} {state state' : BasicCodexState} {turnId : Uuid} {callId : String}
    {at_ : Int} {status : ToolCallStatus}
    (h : applyOutcome agent progress outcome state turnId callId at_ = .ok (status, state')) :
    Retracked state state' := by
  have response (response : Execution.Response)
      (h : applyResponse agent progress response state turnId callId at_ = (status, state')) :
      Retracked state state' := by
    have := applyResponse_retracked agent progress response state turnId callId at_
    rw [h] at this
    exact this
  unfold applyOutcome at h
  split at h
  · exact response _ (Except.ok.inj h)
  · cases h
  · split at h
    · exact response _ (Except.ok.inj h)
    · cases h
      rfl
  · split at h
    · split at h <;> cases h <;> rfl
    · cases h
      rfl
  · cases h
    rfl

/-- What `apply_completion` does in a turn that executes a plan. -/
structure Completed (state : BasicCodexState) (operationId : OperationId) (active : ActiveTurn)
    (plan plan' : ToolPlanState) (state' : BasicCodexState) : Prop where
  turn : state.activeTurn = some active
  phase : active.phase = .executingTools plan
  sound : plan'.Sound
  settled : plan'.Settled
  callIds : plan'.callIds = plan.callIds
  submitted : plan.submittedOperations.Perm (operationId :: plan'.submittedOperations)
  state : state' = { state with
    activeTurn := some { active with phase := .executingTools plan' }
    executions := state'.executions
    nextExecutionSessionId := state'.nextExecutionSessionId }

theorem applyCompletion_completed {agent : Agent} {state state' : BasicCodexState}
    {operationId : OperationId} {outcome : OperationOutcome} {at_ : Int} {plan : ToolPlanState}
    (hplan : planOf state = some plan) (sound : plan.Sound)
    (h : applyCompletion agent state operationId outcome at_ = .ok state') :
    ∃ active plan', Completed state operationId active plan plan' state' := by
  obtain ⟨active, p, call, progress, status, state'', hactive, hphase, hcall, happly, rfl⟩ :=
    applyCompletion_ok h
  obtain ⟨active', hactive', hphase'⟩ := planOf_some.mp hplan
  cases hactive.symm.trans hactive'
  cases hphase.symm.trans hphase'
  obtain ⟨hmem, hstatus⟩ := submittedCall_some hcall
  obtain ⟨i, hi⟩ := List.mem_iff_getElem?.mp hmem
  have hgoes := applyOutcome_goesOn happly
  have hended : submittedOperation { call with status } = none := by
    rcases hgoes with hdone | ⟨progress', rfl, -⟩
    · cases hs : status <;> simp_all [submittedOperation, ToolCallStatus.isCompleted]
    · rfl
  rw [sound.ordinals i call hi]
  refine ⟨active, (plan.setStatus i status).advanceCompletedSegments, hactive, hphase,
    (sound_of_goesOn sound hi hstatus hgoes).advance, advance_settled, ?_, ?_, ?_⟩
  · exact setStatus_callIds _ _ _
  · refine Modified.filterMap_loses _ _ hi ?_ hended
    simp [submittedOperation, hstatus]
  · rw [applyOutcome_retracked happly]

/-! ## What always succeeds -/

theorem visit_total (agent : Agent) (executions : List TrackedExecution) (invocation : Invocation)
    (turnId : Uuid) {round : Round} {o : Nat} (present : o < round.plan.calls.length) :
    ∃ round', visit agent executions invocation turnId round o = .ok round' ∧
      round'.plan.calls.length = round.plan.calls.length := by
  unfold visit
  rw [List.getElem?_eq_getElem present]
  dsimp only
  split
  · exact ⟨_, rfl, rfl⟩
  split
  · exact ⟨_, rfl, rfl⟩
  · exact ⟨_, rfl, setStatus_length _ _⟩
  · exact ⟨_, rfl, rfl⟩

theorem pass_total (agent : Agent) (executions : List TrackedExecution) (invocation : Invocation)
    (turnId : Uuid) {ordinals : List Nat} {round : Round}
    (present : ∀ o ∈ ordinals, o < round.plan.calls.length) :
    ∃ round', ordinals.foldlM (visit agent executions invocation turnId) round = .ok round' := by
  induction ordinals generalizing round with
  | nil => exact ⟨round, rfl⟩
  | cons o rest ih =>
    obtain ⟨next, hnext, hlength⟩ :=
      visit_total agent executions invocation turnId (present o List.mem_cons_self)
    have hpresent : ∀ q ∈ rest, q < next.plan.calls.length := by
      intro q hq
      rw [hlength]
      exact present q (List.mem_cons_of_mem _ hq)
    obtain ⟨round', hrest⟩ := ih hpresent
    exact ⟨round', by rw [List.foldlM_cons, hnext]; exact hrest⟩

theorem scheduleLoop_total {S : Type} (agent : Agent) (executions : List TrackedExecution)
    (invocation : Invocation) (turnId : Uuid) (rounds : Nat) {plan : ToolPlanState}
    (b : OutcomeBuilder S) (sound : plan.Sound) :
    ∃ result, scheduleLoop agent executions invocation turnId rounds plan b = .ok result := by
  induction rounds generalizing plan b with
  | zero => exact ⟨_, rfl⟩
  | succ rounds ih =>
    unfold scheduleLoop
    split
    · exact ⟨_, rfl⟩
    next segment hcurrent =>
    have hpresent : ∀ o ∈ segment.callOrdinals,
        o < (Round.start plan b.nextId).plan.calls.length := by
      intro o ho
      exact sound.present o (List.mem_flatMap.mpr ⟨segment, currentSegment_mem hcurrent, ho⟩)
    obtain ⟨round, hpass⟩ := pass_total agent executions invocation turnId hpresent
    have hround := (Round.Sound.start sound hcurrent b.nextId).pass (by simp) hpass
    rw [hpass]
    dsimp only
    split
    · split
      · exact ih _ hround.plan.advance
      · exact ⟨_, rfl⟩
    · exact ⟨_, rfl⟩

theorem scheduleReady_total {agent : Agent} {invocation : Invocation}
    {b : OutcomeBuilder BasicCodexState} {plan : ToolPlanState} (hplan : planOf b.state = some plan)
    (sound : plan.Sound) : ∃ b', scheduleReady agent b invocation = .ok b' := by
  obtain ⟨active, hactive, hphase⟩ := planOf_some.mp hplan
  obtain ⟨result, hloop⟩ := scheduleLoop_total agent b.state.executions invocation active.id
    (plan.calls.length + 1) b sound
  unfold scheduleReady
  rw [hactive]
  simp only [hphase, hloop]
  exact ⟨_, rfl⟩

/-- An operation that a plan waits for is found. -/
theorem submittedCall_isSome {plan : ToolPlanState} {id : OperationId}
    (h : id ∈ plan.submittedOperations) : (submittedCall plan id).isSome = true := by
  obtain ⟨call, hmem, hcall⟩ := List.mem_filterMap.mp h
  unfold submittedCall
  rw [List.findSome?_isSome_iff]
  refine ⟨call, hmem, ?_⟩
  obtain ⟨progress, hstatus⟩ : ∃ progress, call.status = .submitted id progress := by
    unfold submittedOperation at hcall
    split at hcall
    · rename_i hstatus
      cases hcall
      exact ⟨_, hstatus⟩
    · cases hcall
  simp [hstatus]

/-- The end of a submitted operation is taken in, if it is one that an execution can have. -/
theorem applyCompletion_total {agent : Agent} {state : BasicCodexState} {operationId : OperationId}
    {outcome : OperationOutcome} {at_ : Int} {plan : ToolPlanState}
    (hplan : planOf state = some plan) (awaited : operationId ∈ plan.submittedOperations)
    (allowed : succeedsAs .execution outcome = true) :
    ∃ state', applyCompletion agent state operationId outcome at_ = .ok state' := by
  obtain ⟨active, hactive, hphase⟩ := planOf_some.mp hplan
  obtain ⟨⟨found, progress⟩, hfound⟩ := Option.isSome_iff_exists.mp (submittedCall_isSome awaited)
  have happly : ∃ result, applyOutcome agent progress outcome state active.id found.callId at_ =
      .ok result := by
    unfold applyOutcome
    split
    · exact ⟨_, rfl⟩
    next result hresult =>
      cases result with
      | execution response => exact absurd rfl (hresult response)
      | llm | llmCancellation | withdraw => cases allowed
    · split <;> exact ⟨_, rfl⟩
    · split
      · split <;> exact ⟨_, rfl⟩
      · exact ⟨_, rfl⟩
    · exact ⟨_, rfl⟩
  obtain ⟨⟨status, state''⟩, happly⟩ := happly
  unfold applyCompletion
  rw [hactive]
  simp only [hphase, hfound, happly]
  exact ⟨_, rfl⟩

end ToolExecution

end AgentPlatform.Harness
