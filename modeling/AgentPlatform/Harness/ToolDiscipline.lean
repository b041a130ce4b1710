import AgentPlatform.Harness.Scheduling

/-!
# Tool plans in progress

The scheduler keeps a plan sound and never leaves it without work in flight unless it is complete;
the completion of an operation keeps it sound and ready for the scheduler. `PlanRun` is any order of
the two after any accepted response.
-/

namespace AgentPlatform.Harness.ToolExecution

open ToolPlanState

variable {agent : Agent} {executions : List TrackedExecution} {invocation : Invocation}
  {turnId : Uuid}

/-! ## A pass makes progress -/

/-- Whether no call of a plan is submitted. -/
def Idle (plan : ToolPlanState) : Prop :=
  ∀ (i : Nat) (call : ToolCallState), plan.calls[i]? = some call →
    ∀ id progress, call.status ≠ .submitted id progress

/-- What a pass over some calls of a plan has done to it. -/
structure Round.Since (before : ToolPlanState) (visited : List Nat) (round : Round) : Prop where
  segments : round.plan.segments = before.segments
  active : round.plan.activeSegment = before.activeSegment
  length : round.plan.calls.length = before.calls.length
  fewer : openCalls round.plan + (if round.completedImmediately then 1 else 0) ≤ openCalls before
  quiet : round.completedImmediately = false → round.plan = before
  waits : round.completedImmediately = false → round.prepared = [] →
    round.busy = submittedResources before
  idle : round.completedImmediately = false → round.prepared = [] → Idle before →
    ∀ o ∈ visited, before.callCompleted o = true

variable {before : ToolPlanState} {visited rest : List Nat} {o : Nat} {round round' : Round}

theorem Round.Since.start (plan : ToolPlanState) (nextId : Uuid) :
    Round.Since plan [] (Round.start plan nextId) where
  segments := rfl
  active := rfl
  length := rfl
  fewer := by simp [Round.start]
  quiet _ := rfl
  waits _ _ := rfl
  idle _ _ _ _ h := absurd h List.not_mem_nil

/-- Nothing works on a session while nothing is submitted. -/
theorem submittedResources_idle {plan : ToolPlanState} (h : Idle plan) :
    submittedResources plan = [] := by
  refine List.eq_nil_iff_forall_not_mem.mpr fun session hmem => ?_
  obtain ⟨i, call, hcall, hsession⟩ := mem_submittedResources.mp hmem
  obtain ⟨id, progress, hstatus, -⟩ := submittedSession_some.mp hsession
  exact h i call hcall id progress hstatus

theorem Round.Since.visit (since : Round.Since before visited round)
    (h : ToolExecution.visit agent executions invocation turnId round o = .ok round') :
    Round.Since before (visited ++ [o]) round' := by
  unfold ToolExecution.visit at h
  split at h
  · cases h
  next call hcall =>
  dsimp only at h
  split at h
  next hbusy =>
    cases h
    refine { since with idle := fun hquiet hnone hidle i hi => ?_ }
    -- a session is busy only if something is submitted or prepared
    rw [since.waits hquiet hnone, submittedResources_idle hidle] at hbusy
    cases hresource : resourceSessionId call <;> simp [hresource] at hbusy
  next =>
  split at h
  next hprepare =>
    cases h
    refine { since with idle := fun hquiet hnone hidle i hi => ?_ }
    rcases List.mem_append.mp hi with hi | hi
    · exact since.idle hquiet hnone hidle i hi
    · simp only [List.mem_singleton] at hi
      subst hi
      rw [since.quiet hquiet] at hcall
      rcases prepareCall_none.mp hprepare with hdone | ⟨id, progress, hstatus⟩
      · simp [ToolPlanState.callCompleted, hcall, hdone]
      · exact absurd hstatus (hidle i call hcall id progress)
  next snapshot hprepare =>
    cases h
    have hopen : call.status.isCompleted = false := by
      cases hdone : call.status.isCompleted with
      | false => rfl
      | true =>
        rw [prepareCall_none.mpr (.inl hdone)] at hprepare
        cases hprepare
    exact {
      segments := since.segments
      active := since.active
      length := by simpa using since.length
      fewer := by
        have hone := openCalls_complete hcall hopen snapshot
        have := since.fewer
        simp only [if_true]
        split at this <;> omega
      quiet := fun hquiet => by cases hquiet
      waits := fun hquiet => by cases hquiet
      idle := fun hquiet => by cases hquiet }
  next =>
    cases h
    exact {
      segments := since.segments
      active := since.active
      length := since.length
      fewer := since.fewer
      quiet := since.quiet
      waits := fun _ hnone => by simp at hnone
      idle := fun _ hnone => by simp at hnone }

theorem Round.Since.pass (since : Round.Since before visited round)
    (h : rest.foldlM (ToolExecution.visit agent executions invocation turnId) round =
      .ok round') :
    Round.Since before (visited ++ rest) round' := by
  induction rest generalizing visited round with
  | nil =>
    cases h
    simpa using since
  | cons o rest ih =>
    obtain ⟨next, hnext, h⟩ := Fallible.bind_ok h
    simpa using ih (since.visit hnext) h

/-! ## Submitting -/

/-- Submitting a call keeps a plan sound. -/
theorem Submittable.submit {plan : ToolPlanState} {segment : ToolSegment} {p : PreparedCall}
    {call : ToolCallState} (sound : plan.Sound) (hcurrent : plan.currentSegment = some segment)
    (h : Submittable plan segment p call) (id : OperationId) :
    (plan.setStatus p.ordinal (.submitted id p.progress)).Sound := by
  refine sound.setStatus h.found hcurrent h.mem rfl ?_ ?_ ?_ ?_
  · intro session hs j cj hj hcj hsj
    exact h.session session hs (mem_submittedResources.mpr ⟨j, cj, hcj, hsj⟩)
  · intro hname progress hprogress
    simp only [ToolCallStatus.inProgress, Option.some.injEq] at hprogress
    subst hprogress
    exact h.writing hname
  · intro _ hname session hs i ci hi hci hni hsi
    exact h.order hname session hs i ci hi hci hni hsi
  · intro hdone
    simp [h.open] at hdone

/-- A call that may be submitted still may after another, apart from it, was. -/
theorem Submittable.after {plan : ToolPlanState} {segment : ToolSegment} {p q : PreparedCall}
    {cp cq : ToolCallState} (hp : Submittable plan segment p cp) (hq : Submittable plan segment q cq)
    (apart : Apart p q) (id : OperationId) :
    Submittable (plan.setStatus p.ordinal (.submitted id p.progress)) segment q cq where
  found := by
    simpa [apart.1.symm] using setStatus_get (o := p.ordinal) (.submitted id p.progress) hq.found
  «open» := hq.open
  mem := hq.mem
  session session hs hmem := by
    obtain ⟨i, c', hc', hsub⟩ := mem_submittedResources.mp hmem
    obtain ⟨c, hc, rfl⟩ := get_setStatus hc'
    split at hsub
    · exact apart.2 session (by simpa [submittedSession] using hsub) hs
    · exact hq.session session hs (mem_submittedResources.mpr ⟨i, c, hc, hsub⟩)
  writing := hq.writing
  order hname session hs i ci' hi hci' hni hsi := by
    obtain ⟨ci, hci, rfl⟩ := get_setStatus hci'
    by_cases hio : i = p.ordinal
    · -- the submitted call was open, and only completed calls stand before this one
      simp only [hio, if_true] at hni hsi
      have hdone := hq.order hname session hs i ci hi hci hni hsi
      rw [hio, hp.found] at hci
      cases hci
      simp [hp.open] at hdone
    · simp only [hio, if_false] at hni hsi ⊢
      exact hq.order hname session hs i ci hi hci hni hsi

/-- What the submissions of a pass leave. -/
structure Submitted (plan plan' : ToolPlanState) (prepared : List PreparedCall) : Prop where
  sound : plan'.Sound
  segments : plan'.segments = plan.segments
  active : plan'.activeSegment = plan.activeSegment
  length : plan'.calls.length = plan.calls.length
  kept : ∀ (i : Nat) (call : ToolCallState), plan.calls[i]? = some call →
    (∃ id progress, call.status = .submitted id progress) →
    ∃ call', plan'.calls[i]? = some call' ∧ ∃ id progress, call'.status = .submitted id progress
  done : ∀ p ∈ prepared, ∃ call', plan'.calls[p.ordinal]? = some call' ∧
    ∃ id progress, call'.status = .submitted id progress

theorem submit_all (agent : Agent) {S : Type} {plan : ToolPlanState} {segment : ToolSegment}
    {prepared : List PreparedCall} (sound : plan.Sound)
    (hcurrent : plan.currentSegment = some segment)
    (hprepared : ∀ p ∈ prepared, ∃ call, Submittable plan segment p call)
    (apart : prepared.Pairwise Apart) (result : OutcomeBuilder S) :
    Submitted plan (prepared.foldl (submit agent) (plan, result)).1 prepared := by
  induction prepared generalizing plan result with
  | nil =>
    exact ⟨sound, rfl, rfl, rfl, fun i call hcall hsub => ⟨call, hcall, hsub⟩,
      fun p hp => absurd hp List.not_mem_nil⟩
  | cons p prepared ih =>
    obtain ⟨call, hp⟩ := hprepared p (by simp)
    have hrest := List.pairwise_cons.mp apart
    have := ih (hp.submit sound hcurrent result.nextId) (by simpa using hcurrent)
      (fun q hq => by
        obtain ⟨cq, hcq⟩ := hprepared q (List.mem_cons_of_mem _ hq)
        exact ⟨cq, hp.after hcq (hrest.1 q hq) result.nextId⟩)
      hrest.2
      (result.requestExecution agent.harness.executionConnectionId agent.config.machineId
        p.expectedGenerationId p.request).2
    have hsubmitted : (plan.setStatus p.ordinal (.submitted result.nextId p.progress)).calls[
        p.ordinal]? = some { call with status := .submitted result.nextId p.progress } := by
      simpa using setStatus_get (o := p.ordinal) (.submitted result.nextId p.progress) hp.found
    refine ⟨this.sound, this.segments, this.active,
      this.length.trans (setStatus_length _ _), ?_, ?_⟩
    · intro i c hc hsub
      refine this.kept i _ (setStatus_get (.submitted result.nextId p.progress) hc) ?_
      by_cases hi : i = p.ordinal
      · simp [hi]
      · simpa [hi] using hsub
    · intro q hq
      rcases List.mem_cons.mp hq with rfl | hq
      · exact this.kept q.ordinal _ hsubmitted ⟨_, _, rfl⟩
      · exact this.done q hq

/-! ## The loop -/

/-- What scheduling leaves of a plan. -/
structure Scheduled (plan plan' : ToolPlanState) : Prop where
  sound : plan'.Sound
  settled : plan'.Settled
  segments : plan'.segments = plan.segments
  length : plan'.calls.length = plan.calls.length
  idle : Idle plan' → plan'.isComplete = true

/-- A plan with a submitted call in its active segment has work left there. -/
theorem settled_of_submitted {plan : ToolPlanState} {segment : ToolSegment} {o : Nat}
    {call : ToolCallState} (hcurrent : plan.currentSegment = some segment)
    (ho : o ∈ segment.callOrdinals) (hcall : plan.calls[o]? = some call)
    (hsub : ∃ id progress, call.status = .submitted id progress) : plan.Settled := by
  intro s hs
  rw [hcurrent] at hs
  cases hs
  obtain ⟨id, progress, hstatus⟩ := hsub
  simp only [segmentCompleted, List.all_eq_false]
  exact ⟨o, ho, by simp [callCompleted, hcall, hstatus, ToolCallStatus.isCompleted]⟩

theorem scheduleLoop_spec {S : Type} {rounds : Nat} {plan plan' : ToolPlanState}
    {result result' : OutcomeBuilder S} (sound : plan.Sound) (settled : plan.Settled)
    (enough : openCalls plan < rounds)
    (h : scheduleLoop agent executions invocation turnId rounds plan result =
      .ok (plan', result')) : Scheduled plan plan' := by
  induction rounds generalizing plan result with
  | zero => omega
  | succ rounds ih =>
    unfold scheduleLoop at h
    split at h
    next hnone =>
      cases h
      exact ⟨sound, settled, rfl, rfl, fun _ => sound.complete_of_none hnone⟩
    next segment hcurrent =>
    split at h
    · cases h
    next round hpass =>
    have hround := (Round.Sound.start sound hcurrent result.nextId).pass (by simp) hpass
    have hsince := (Round.Since.start plan result.nextId).pass hpass
    dsimp only at h
    split at h
    next hempty =>
      have hnone : round.prepared = [] := by simpa using hempty
      split at h
      next himmediate =>
        -- the pass completed a call, so the rest of the rounds is still enough
        have hfewer := hsince.fewer
        simp only [himmediate, if_true] at hfewer
        have := ih hround.plan.advance advance_settled
          (show openCalls round.plan < rounds by omega) h
        exact ⟨this.sound, this.settled, this.segments.trans hsince.segments,
          this.length.trans hsince.length, this.idle⟩
      next hquiet =>
        cases h
        have hquiet : round.completedImmediately = false := by simpa using hquiet
        have hsame := hsince.quiet hquiet
        refine ⟨hround.plan, hsame ▸ settled, by rw [hsame], by rw [hsame], fun hidle => ?_⟩
        -- every call of the active segment is completed, but the segment has work left
        rw [hsame] at hidle
        have hall := hsince.idle hquiet hnone hidle
        have hopen := settled segment hcurrent
        simp only [List.nil_append] at hall
        rw [segmentCompleted, List.all_eq_true.mpr hall] at hopen
        cases hopen
    next hnonempty =>
      simp only [Except.ok.injEq] at h
      have hsubmitted := submit_all agent hround.plan hround.current
        (fun p hp => (hround.prepared p hp).2.2) hround.apart
        { result with nextId := round.nextId }
      rw [h] at hsubmitted
      have hne : round.prepared ≠ [] := by simpa using hnonempty
      obtain ⟨p, hp⟩ := List.exists_mem_of_ne_nil _ hne
      obtain ⟨call, hcall, hsub⟩ := hsubmitted.done p hp
      have hcurrent' : plan'.currentSegment = some segment := by
        have := hround.current
        simp only [currentSegment] at this ⊢
        rw [hsubmitted.segments, hsubmitted.active]
        exact this
      refine ⟨hsubmitted.sound, ?_, hsubmitted.segments.trans hsince.segments,
        hsubmitted.length.trans hsince.length, fun hidle => ?_⟩
      · exact settled_of_submitted hcurrent' (hround.prepared p hp).1 hcall hsub
      · obtain ⟨id, progress, hstatus⟩ := hsub
        exact absurd hstatus (hidle _ call hcall id progress)

/-! ## The two functions of the scheduler -/

/-- The plan that a state's turn executes. -/
def planOf (state : BasicCodexState) : Option ToolPlanState :=
  match state.activeTurn with
  | some { phase := .executingTools plan, .. } => some plan
  | _ => none

theorem planOf_some {state : BasicCodexState} {plan : ToolPlanState} :
    planOf state = some plan ↔
      ∃ active, state.activeTurn = some active ∧ active.phase = .executingTools plan := by
  unfold planOf
  constructor
  · intro h
    split at h
    next heq => cases h; exact ⟨_, heq, rfl⟩
    next => cases h
  · rintro ⟨active, hactive, hphase⟩
    obtain ⟨id, started, date, phase, steering, retry⟩ := active
    simp only at hphase
    subst hphase
    simp [hactive]

/-- What `schedule_ready` does: it schedules the plan of the active turn. -/
theorem scheduleReady_ok {result result' : OutcomeBuilder BasicCodexState}
    (h : scheduleReady agent result invocation = .ok result') :
    ∃ active plan plan' builder, result.state.activeTurn = some active ∧
      active.phase = .executingTools plan ∧
      scheduleLoop agent result.state.executions invocation active.id (plan.calls.length + 1) plan
        result = .ok (plan', builder) ∧
      result' = builder.setState { builder.state with
        activeTurn := some { active with phase := .executingTools plan' } } := by
  unfold scheduleReady at h
  split at h
  · cases h
  next active hactive =>
  split at h
  next plan hphase =>
    split at h
    · cases h
    next plan' builder hloop =>
      cases h
      exact ⟨active, plan, plan', builder, hactive, hphase, hloop, rfl⟩
  next => cases h

theorem openCalls_le (plan : ToolPlanState) : openCalls plan ≤ plan.calls.length :=
  List.countP_le_length

theorem scheduleReady_scheduled {result result' : OutcomeBuilder BasicCodexState}
    {plan : ToolPlanState} (hplan : planOf result.state = some plan) (sound : plan.Sound)
    (settled : plan.Settled) (h : scheduleReady agent result invocation = .ok result') :
    ∃ plan', planOf result'.state = some plan' ∧ Scheduled plan plan' := by
  obtain ⟨active, p, plan', builder, hactive, hphase, hloop, rfl⟩ := scheduleReady_ok h
  obtain ⟨_, hactive', hphase'⟩ := planOf_some.mp hplan
  rw [hactive] at hactive'
  cases hactive'
  rw [hphase] at hphase'
  cases hphase'
  exact ⟨plan', planOf_some.mpr ⟨_, rfl, rfl⟩,
    scheduleLoop_spec sound settled (Nat.lt_succ_of_le (openCalls_le plan)) hloop⟩

/-! ## Completions -/

theorem submittedCall_some {plan : ToolPlanState} {operationId : OperationId}
    {call : ToolCallState} {progress : ToolCallProgress}
    (h : submittedCall plan operationId = some (call, progress)) :
    call ∈ plan.calls ∧ call.status = .submitted operationId progress := by
  unfold submittedCall at h
  obtain ⟨c, hmem, hc⟩ := List.exists_of_findSome?_eq_some h
  cases hstatus : c.status with
  | submitted id p =>
    simp only [hstatus] at hc
    split at hc
    next hid =>
      simp only [Option.some.injEq, Prod.mk.injEq] at hc
      obtain ⟨rfl, rfl⟩ := hc
      exact ⟨hmem, by rw [hstatus, hid]⟩
    next => cases hc
  | pending => simp [hstatus] at hc
  | ready p => simp [hstatus] at hc
  | completed s => simp [hstatus] at hc

/-- What the end of its operation makes of a call: it is completed, or goes on in its session. -/
def GoesOn (progress : ToolCallProgress) (status : ToolCallStatus) : Prop :=
  status.isCompleted = true ∨ ∃ progress', status = .ready progress' ∧
    ∀ session, progress.sessionId = some session → progress'.sessionId = some session

theorem trackActive_session {state state' : BasicCodexState} {progress progress' : ShellCallState}
    {observation : ObservationWire} {turnId : Uuid}
    (h : ShellTools.trackActive state progress observation turnId = .ok (progress', state'))
    {session : Int} (hs : progress.sessionId = some session) :
    progress'.sessionId = some session := by
  unfold ShellTools.trackActive at h
  simp only [hs] at h
  cases h
  rfl

/-- A shell call that goes on keeps its session. -/
theorem shell_goesOn {lib : Foreign} {progress progress' : ShellCallState}
    {response : Execution.Response} {state state' : BasicCodexState} {turnId : Uuid} {at_ : Int}
    (h : ShellTools.applyResponse lib progress response state turnId at_ =
      .ok (.ready progress', state')) {session : Int} (hs : progress.sessionId = some session) :
    progress'.sessionId = some session := by
  unfold ShellTools.applyResponse at h
  obtain ⟨observation, -, h⟩ := Fallible.bind_ok h
  obtain ⟨output, -, h⟩ := Fallible.bind_ok h
  dsimp only at h
  split at h
  · cases h
  obtain ⟨⟨tracked, state''⟩, htracked, h⟩ := Fallible.bind_ok h
  have hobserved : (ShellTools.observed progress output observation).sessionId = some session := hs
  have hsession : tracked.sessionId = some session := by
    unfold ShellTools.track at htracked
    split at htracked
    · exact trackActive_session htracked hobserved
    · cases htracked
      exact hobserved
  dsimp only at h
  split at h <;> cases h
  exact hsession

theorem applyResponse_goesOn (agent : Agent) (progress : ToolCallProgress) (response : Execution.Response)
    (state : BasicCodexState) (turnId : Uuid) (callId : String) (at_ : Int) :
    GoesOn progress (applyResponse agent progress response state turnId callId at_).1 := by
  unfold applyResponse
  cases progress with
  | shell progress =>
    simp only
    split
    next progress' state' h =>
      exact .inr ⟨_, rfl, fun session hs => shell_goesOn h hs⟩
    next => exact .inl rfl
    next => exact .inl rfl
  | filesystem progress =>
    simp only
    split
    next => exact .inr ⟨_, rfl, fun session hs => by cases hs⟩
    next => exact .inl rfl
    next => exact .inl rfl

theorem applyOutcome_goesOn {progress : ToolCallProgress} {outcome : OperationOutcome}
    {state state' : BasicCodexState} {turnId : Uuid} {callId : String} {at_ : Int}
    {status : ToolCallStatus}
    (h : applyOutcome agent progress outcome state turnId callId at_ = .ok (status, state')) :
    GoesOn progress status := by
  unfold applyOutcome at h
  split at h
  next response =>
    have := applyResponse_goesOn agent progress response state turnId callId at_
    rw [Except.ok.inj h] at this
    exact this
  next => cases h
  next failure =>
    split at h
    next response _ =>
      have := applyResponse_goesOn agent progress response state turnId callId at_
      rw [Except.ok.inj h] at this
      exact this
    next => cases h; exact .inl rfl
  next failure =>
    cases progress with
    | filesystem progress =>
      simp only at h
      split at h
      next => cases h; exact .inr ⟨_, rfl, fun session hs => by cases hs⟩
      next => cases h; exact .inl rfl
      next => cases h; exact .inl rfl
    | shell progress => cases h; exact .inl rfl
  next => cases h; exact .inl rfl

/-- A submitted call may be completed, or become ready again in its session. -/
theorem sound_of_goesOn {plan : ToolPlanState} (sound : plan.Sound) {i : Nat}
    {call : ToolCallState} {id : OperationId} {progress : ToolCallProgress}
    {status : ToolCallStatus} (hcall : plan.calls[i]? = some call)
    (hstatus : call.status = .submitted id progress) (h : GoesOn progress status) :
    (plan.setStatus i status).Sound := by
  have hactive : call.status.isActive = true := by
    simp [hstatus, ToolCallStatus.isActive, ToolCallStatus.inProgress]
  obtain ⟨segment, hcurrent, hmem⟩ := sound.active_mem hcall hactive
  refine sound.setStatus hcall hcurrent hmem ?_ ?_ ?_ ?_ ?_
  · rcases h with hdone | ⟨progress', rfl, -⟩
    · cases status <;> simp_all [ToolCallStatus.isPending, ToolCallStatus.isCompleted]
    · rfl
  · intro session hs
    obtain ⟨id', p', hs', -⟩ := submittedSession_some.mp hs
    rcases h with hdone | ⟨progress', rfl, -⟩
    · simp only at hs'
      simp [hs', ToolCallStatus.isCompleted] at hdone
    · cases hs'
  · intro hname p hp
    rcases h with hdone | ⟨progress', rfl, hkeep⟩
    · cases status <;> simp_all [ToolCallStatus.inProgress, ToolCallStatus.isCompleted]
    · simp only [ToolCallStatus.inProgress, Option.some.injEq] at hp
      subst hp
      have hwriting := sound.writing i call progress hcall hname
        (by simp [hstatus, ToolCallStatus.inProgress])
      obtain ⟨session, hs⟩ := Option.isSome_iff_exists.mp hwriting.1
      rw [hkeep session hs, ← hwriting.2, hs]
      simp
  · intro _ hname session hs j cj hj hcj hnj hsj
    exact sound.writeOrder j i cj call session hj hcj hcall hnj hname hsj hs hactive
  · intro hdone
    simp [hstatus, ToolCallStatus.isCompleted] at hdone

/-- What `apply_completion` does. -/
theorem applyCompletion_ok {state state' : BasicCodexState} {operationId : OperationId}
    {outcome : OperationOutcome} {at_ : Int}
    (h : applyCompletion agent state operationId outcome at_ = .ok state') :
    ∃ active plan call progress status state'', state.activeTurn = some active ∧
      active.phase = .executingTools plan ∧
      submittedCall plan operationId = some (call, progress) ∧
      applyOutcome agent progress outcome state active.id call.callId at_ =
        .ok (status, state'') ∧
      state' = { state'' with activeTurn := some { active with
        phase := .executingTools (plan.setStatus call.ordinal status).advanceCompletedSegments } } := by
  unfold applyCompletion at h
  split at h
  · cases h
  next active hactive =>
  split at h
  next plan hphase =>
    split at h
    · cases h
    next call progress hcall =>
      split at h
      · cases h
      next status state'' happly =>
        cases h
        exact ⟨active, plan, call, progress, status, state'', hactive, hphase, hcall, happly, rfl⟩
  next => cases h

theorem applyCompletion_sound {state state' : BasicCodexState} {operationId : OperationId}
    {outcome : OperationOutcome} {at_ : Int} {plan : ToolPlanState}
    (hplan : planOf state = some plan) (sound : plan.Sound)
    (h : applyCompletion agent state operationId outcome at_ = .ok state') :
    ∃ plan', planOf state' = some plan' ∧ plan'.Sound ∧ plan'.Settled := by
  obtain ⟨active, p, call, progress, status, state'', hactive, hphase, hcall, happly, rfl⟩ :=
    applyCompletion_ok h
  obtain ⟨_, hactive', hphase'⟩ := planOf_some.mp hplan
  rw [hactive] at hactive'
  cases hactive'
  rw [hphase] at hphase'
  cases hphase'
  obtain ⟨hmem, hstatus⟩ := submittedCall_some hcall
  obtain ⟨i, hi⟩ := List.mem_iff_getElem?.mp hmem
  rw [sound.ordinals i call hi]
  exact ⟨_, planOf_some.mpr ⟨_, rfl, rfl⟩,
    (sound_of_goesOn sound hi hstatus (applyOutcome_goesOn happly)).advance, advance_settled⟩

/-! ## Plans in progress -/

/-- The states in which a plan is in progress: a response was accepted, then the scheduler ran and
operations ended in any order, and whatever else changed left the plan alone. -/
inductive PlanRun (agent : Agent) : BasicCodexState → Prop
  | accepted {state : BasicCodexState} {operationId : OperationId} {message : Message}
      {stopReason : StopReason} {plan : ToolPlanState}
      (accepted : ToolPlan.parse agent.lib operationId message stopReason = .ok (some plan))
      (saved : planOf state = some plan) : PlanRun agent state
  | scheduled {result result' : OutcomeBuilder BasicCodexState} {invocation : Invocation}
      (before : PlanRun agent result.state)
      (scheduled : scheduleReady agent result invocation = .ok result') :
      PlanRun agent result'.state
  | completed {state state' : BasicCodexState} {operationId : OperationId}
      {outcome : OperationOutcome} {at_ : Int} (before : PlanRun agent state)
      (applied : applyCompletion agent state operationId outcome at_ = .ok state') :
      PlanRun agent state'
  | other {state state' : BasicCodexState} (before : PlanRun agent state)
      (same : planOf state' = planOf state) : PlanRun agent state'

/-- A plan in progress is sound and its active segment has work left. -/
theorem PlanRun.sound {state : BasicCodexState} (run : PlanRun agent state) :
    ∃ plan, planOf state = some plan ∧ plan.Sound ∧ plan.Settled := by
  induction run with
  | accepted accepted saved =>
    obtain ⟨sound, settled⟩ := ToolPlan.parse_sound accepted
    exact ⟨_, saved, sound, settled⟩
  | scheduled _ scheduled ih =>
    obtain ⟨plan, hplan, sound, settled⟩ := ih
    obtain ⟨plan', hplan', hscheduled⟩ := scheduleReady_scheduled hplan sound settled scheduled
    exact ⟨plan', hplan', hscheduled.sound, hscheduled.settled⟩
  | completed _ applied ih =>
    obtain ⟨plan, hplan, sound, -⟩ := ih
    exact applyCompletion_sound hplan sound applied
  | other _ same ih =>
    obtain ⟨plan, hplan, sound, settled⟩ := ih
    exact ⟨plan, same.trans hplan, sound, settled⟩

/-- The discipline of a plan: segments run one after the other, an exclusive call runs alone, and
no two calls work on one process at a time or out of order. -/
structure Disciplined (plan : ToolPlanState) : Prop where
  earlier : ∀ (i : Nat) (segment : ToolSegment), plan.segments[i]? = some segment →
    i < plan.activeSegment → ∀ o ∈ segment.callOrdinals, ∀ call : ToolCallState,
      plan.calls[o]? = some call → call.status.isCompleted = true
  later : ∀ (i : Nat) (segment : ToolSegment), plan.segments[i]? = some segment →
    plan.activeSegment < i → ∀ o ∈ segment.callOrdinals, ∀ call : ToolCallState,
      plan.calls[o]? = some call → call.status.isPending = true
  exclusive : ∀ (i j : Nat) (ci cj : ToolCallState), plan.calls[i]? = some ci →
    plan.calls[j]? = some cj → ci.scheduling = .exclusive → ci.status.isActive = true →
      cj.status.isActive = true → i = j
  sessions : ∀ (i j : Nat) (ci cj : ToolCallState) (session : Int), plan.calls[i]? = some ci →
    plan.calls[j]? = some cj → submittedSession ci = some session →
      submittedSession cj = some session → i = j
  writes : ∀ (i j : Nat) (ci cj : ToolCallState) (session : Int), i < j →
    plan.calls[i]? = some ci → plan.calls[j]? = some cj → ci.name = "write_stdin" →
      cj.name = "write_stdin" → inputSessionId ci.input = some session →
      inputSessionId cj.input = some session → cj.status.isActive = true →
        ci.status.isCompleted = true

theorem disciplined_of_sound {plan : ToolPlanState} (sound : plan.Sound) : Disciplined plan where
  earlier := sound.earlier
  later := sound.later
  exclusive i j ci cj hi hj hexclusive hactive hactive' := by
    obtain ⟨s, hs, his⟩ := sound.active_mem hi hactive
    obtain ⟨t, ht, hjt⟩ := sound.active_mem hj hactive'
    rw [hs] at ht
    cases ht
    rw [sound.alone s (currentSegment_mem hs) i his ci hi hexclusive, List.mem_singleton] at hjt
    exact hjt.symm
  sessions := sound.sessions
  writes := sound.writeOrder

/-- In every state with a plan in progress the plan is disciplined, and when `schedule_ready`
returns from it with no call submitted, the plan is complete. -/
theorem tool_plans_disciplined {state : BasicCodexState} (run : PlanRun agent state) :
    ∃ plan, planOf state = some plan ∧ Disciplined plan ∧
      ∀ (result result' : OutcomeBuilder BasicCodexState) (invocation : Invocation),
        result.state = state → scheduleReady agent result invocation = .ok result' →
          ∃ plan', planOf result'.state = some plan' ∧ (Idle plan' → plan'.isComplete = true) := by
  obtain ⟨plan, hplan, sound, settled⟩ := run.sound
  refine ⟨plan, hplan, disciplined_of_sound sound, ?_⟩
  rintro result result' invocation rfl hschedule
  obtain ⟨plan', hplan', hscheduled⟩ := scheduleReady_scheduled hplan sound settled hschedule
  exact ⟨plan', hplan', hscheduled.idle⟩

/-! ## A plan of one call -/

/-- The functions of other crates, on the texts of a table and on nothing else. -/
def tableLib (texts : List (RawJson × Value)) : Foreign where
  parseJson text := match texts.find? (·.1 == text) with
    | some entry => .ok entry.2
    | none => .error "expected value at line 1 column 1"
  toRawValue _ := "null"
  messageJson _ := "null"
  definitionsJson _ := "[]"
  failureValue _ := .null
  decodeExecution _ := none
  decodeExecutions _ := none
  decodeObservation _ := .error "missing field `execution`"
  decodeBatch _ := .error "missing field `results`"
  argumentsError _ := "invalid type"
  schemaError _ _ := "\"cmd\" is a required property"
  base64Decode _ := .ok []
  base64Encode _ := ""
  sha256 _ := ""
  baseInstructions := ""
  applyPatchGrammar := ""

/-- File tools that know no call. -/
def noFileTools : FileTools where
  prepareNew _ _ := .ok none
  prepareReady _ _ := .error (ShellTools.toolError "invalid_filesystem_state" "")
  applyResponse _ _ _ _ := .error (ShellTools.toolError "invalid_filesystem_state" "")

def listCall : RawJson :=
  "\x7b\"type\":\"function_call\",\"call_id\":\"a\",\"name\":\"exec_command\"," ++
    "\"arguments\":\"\x7b\\\"cmd\\\":\\\"ls\\\"\x7d\"\x7d"

def listArguments : RawJson := "\x7b\"cmd\":\"ls\"\x7d"

/-- A harness whose model may ask to list the files. -/
def listAgent : Agent where
  lib := tableLib [(listCall, .object [("type", .string "function_call"),
      ("call_id", .string "a"), ("name", .string "exec_command"),
      ("arguments", .string listArguments)]),
    (listArguments, .object [("cmd", .string "ls")])]
  files := noFileTools
  harness := { llmConnectionId := "llm", executionConnectionId := "execution" }
  config := { accountId := 1, provider := .openai, model := .sol, reasoningEffort := .low,
              machineId := 2, cwd := "/workspace", shell := none, platform := none,
              additionalInstructions := none }

def listMessage : Message := .assistant .default .openai [listCall]

def listPlan : ToolPlanState :=
  match ToolPlan.parse listAgent.lib 7 listMessage .toolUse with
  | .ok (some plan) => plan
  | _ => { assistantOperationId := 0, calls := [], segments := [], activeSegment := 0 }

theorem listPlan_parsed :
    ToolPlan.parse listAgent.lib 7 listMessage .toolUse = .ok (some listPlan) := rfl

example : listPlan.segments = [⟨.parallelSafe, [0]⟩] := by decide +kernel

def listState : BasicCodexState :=
  { BasicCodexState.initial with activeTurn := some {
      id := 8, startedAtSequence := 1, currentDate := "2026-09-15",
      phase := .executingTools listPlan, pendingSteering := [], retry := .default } }

def listResult : OutcomeBuilder BasicCodexState :=
  (scheduleReady listAgent (.new listState 9) ⟨3, 0⟩).toOption.getD (.new listState 9)

theorem listResult_scheduled :
    scheduleReady listAgent (.new listState 9) ⟨3, 0⟩ = .ok listResult :=
  Fallible.eq_ok_getD (by decide +kernel) _

example : listResult.outcome.operations.length = 1 := by decide +kernel

/-- The call of the plan is submitted, and the plan is disciplined. -/
theorem tool_plans_disciplined_listing :
    ∃ plan, planOf listResult.state = some plan ∧ Disciplined plan ∧
      ∀ (result result' : OutcomeBuilder BasicCodexState) (invocation : Invocation),
        result.state = listResult.state → scheduleReady listAgent result invocation = .ok result' →
          ∃ plan', planOf result'.state = some plan' ∧ (Idle plan' → plan'.isComplete = true) :=
  tool_plans_disciplined (.scheduled (.accepted listPlan_parsed rfl) listResult_scheduled)

end AgentPlatform.Harness.ToolExecution
