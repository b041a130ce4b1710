import AgentPlatform.Harness.ToolDiscipline
import Mathlib.Data.List.Nodup

/-!
# The sessions of the shell tools

A process that a call leaves running is tracked under a session number. This module says what one
response does to the tracked processes, and that their numbers stay apart.
-/

namespace AgentPlatform.Harness

namespace ShellTools

/-! ## The tracked processes -/

/-- The session numbers of tracked processes. -/
def sessionIds (executions : List TrackedExecution) : List Int := executions.map (·.sessionId)

/-- The process that is tracked under a session number. -/
def trackedAs (n : Int) (executions : List TrackedExecution) : Option TrackedExecution :=
  executions.find? (·.sessionId == n)

theorem trackedAs_isSome {n : Int} {executions : List TrackedExecution} :
    (trackedAs n executions).isSome = true ↔ n ∈ sessionIds executions := by
  simp [trackedAs, sessionIds]

@[simp] theorem sessionIds_cons (e : TrackedExecution) (rest : List TrackedExecution) :
    sessionIds (e :: rest) = e.sessionId :: sessionIds rest := rfl

theorem upsertExecution_held {tracked : TrackedExecution} {executions : List TrackedExecution}
    (h : tracked.sessionId ∈ sessionIds executions) :
    sessionIds (upsertExecution tracked executions) = sessionIds executions := by
  induction executions with
  | nil => cases h
  | cons existing rest ih =>
    unfold upsertExecution
    by_cases heq : existing.sessionId = tracked.sessionId
    · simp [heq]
    · rw [if_neg heq, sessionIds_cons, sessionIds_cons, ih]
      simpa [Ne.symm heq] using h

theorem upsertExecution_new {tracked : TrackedExecution} {executions : List TrackedExecution}
    (h : tracked.sessionId ∉ sessionIds executions) :
    sessionIds (upsertExecution tracked executions) =
      sessionIds executions ++ [tracked.sessionId] := by
  induction executions with
  | nil => rfl
  | cons existing rest ih =>
    obtain ⟨hne, hrest⟩ := List.ne_and_not_mem_of_not_mem_cons h
    unfold upsertExecution
    rw [if_neg (Ne.symm hne), sessionIds_cons, ih hrest, sessionIds_cons, List.cons_append]

theorem trackedAs_upsertExecution (tracked : TrackedExecution)
    (executions : List TrackedExecution) :
    trackedAs tracked.sessionId (upsertExecution tracked executions) = some tracked := by
  induction executions with
  | nil => simp [upsertExecution, trackedAs]
  | cons existing rest ih =>
    unfold upsertExecution
    by_cases h : existing.sessionId = tracked.sessionId
    · simp [h, trackedAs]
    · simpa [h, trackedAs] using ih

@[simp] theorem sessionIds_setCursor (n : Int) (cursor : String)
    (executions : List TrackedExecution) :
    sessionIds (setCursor n cursor executions) = sessionIds executions := by
  induction executions with
  | nil => rfl
  | cons existing rest ih =>
    unfold setCursor
    split
    · rfl
    · rw [sessionIds_cons, ih, sessionIds_cons]

theorem trackedAs_setCursor (n : Int) (cursor : String) (executions : List TrackedExecution) :
    trackedAs n (setCursor n cursor executions) =
      (trackedAs n executions).map fun e => { e with cursor } := by
  induction executions with
  | nil => rfl
  | cons existing rest ih =>
    unfold setCursor
    by_cases h : existing.sessionId = n
    · simp [h, trackedAs]
    · simpa [h, trackedAs] using ih

/-! ## Session numbers -/

/-- A step that keeps the session numbers apart: new ones are drawn from the counter, which goes
past them. -/
structure Assigns (before after : BasicCodexState) : Prop where
  later : before.nextExecutionSessionId ≤ after.nextExecutionSessionId
  drawn : ∀ n ∈ sessionIds after.executions, n ∈ sessionIds before.executions ∨
    before.nextExecutionSessionId ≤ n ∧ n < after.nextExecutionSessionId
  distinct : (∀ n ∈ sessionIds before.executions, n < before.nextExecutionSessionId) →
    (sessionIds before.executions).Nodup → (sessionIds after.executions).Nodup

namespace Assigns

variable {a b c : BasicCodexState}

theorem fewer (sessions : (sessionIds b.executions).Sublist (sessionIds a.executions))
    (next : b.nextExecutionSessionId = a.nextExecutionSessionId) : Assigns a b where
  later := le_of_eq next.symm
  drawn _ hn := .inl (sessions.subset hn)
  distinct _ nodup := nodup.sublist sessions

theorem renumbered (sessions : sessionIds b.executions = sessionIds a.executions)
    (next : b.nextExecutionSessionId = a.nextExecutionSessionId) : Assigns a b :=
  fewer (sessions ▸ List.Sublist.refl _) next

theorem same (executions : b.executions = a.executions)
    (next : b.nextExecutionSessionId = a.nextExecutionSessionId) : Assigns a b :=
  renumbered (congrArg sessionIds executions) next

/-- One number is drawn. -/
theorem draw (sessions : sessionIds b.executions =
      sessionIds a.executions ++ [a.nextExecutionSessionId])
    (next : b.nextExecutionSessionId = a.nextExecutionSessionId + 1) : Assigns a b where
  later := by omega
  drawn n hn := by
    rw [sessions] at hn
    rcases List.mem_append.mp hn with hold | hnew
    · exact .inl hold
    · rw [List.mem_singleton.mp hnew]
      exact .inr ⟨le_refl _, by omega⟩
  distinct below nodup := by
    rw [sessions]
    refine nodup.append (List.nodup_singleton _) (List.disjoint_singleton.mpr ?_)
    intro hmem
    exact absurd (below _ hmem) (lt_irrefl _)

theorem congr (assigns : Assigns a b) (executions : c.executions = b.executions)
    (next : c.nextExecutionSessionId = b.nextExecutionSessionId) : Assigns a c := by
  obtain ⟨later, drawn, distinct⟩ := assigns
  rw [← next] at later drawn
  rw [← executions] at drawn distinct
  exact ⟨later, drawn, distinct⟩

end Assigns

/-- The tracked processes of a state have different numbers, below the counter. -/
structure Counted (state : BasicCodexState) : Prop where
  below : ∀ n ∈ sessionIds state.executions, n < state.nextExecutionSessionId
  distinct : (sessionIds state.executions).Nodup

theorem Counted.step {before after : BasicCodexState} (counted : Counted before)
    (assigns : Assigns before after) : Counted after where
  below n hn := by
    rcases assigns.drawn n hn with hold | ⟨-, hnew⟩
    · exact lt_of_lt_of_le (counted.below n hold) assigns.later
    · exact hnew
  distinct := assigns.distinct counted.below counted.distinct

/-! ## A response -/

/-- What `apply_response` does with a response that it accepts. -/
theorem applyResponse_ok {lib : Foreign} {progress : ShellCallState}
    {response : Execution.Response} {state state' : BasicCodexState} {turnId : Uuid} {at_ : Int}
    {result : AppliedShellResult}
    (h : applyResponse lib progress response state turnId at_ = .ok (result, state')) :
    ∃ observation output tracked,
      decodeObservation lib response progress.phase = .ok observation ∧
      appendChunks lib observation.output progress.output = .ok output ∧
      observation.execution.handle.generationId = response.generationId ∧
      track state (observed progress output observation) observation turnId =
        .ok (tracked, state') ∧
      result = if observation.hasMore ∧ tracked.pagesRead < maxOutputPagesPerCall
        then .ready { tracked with phase := .drain }
        else .completed (formatResult tracked observation at_) := by
  unfold applyResponse at h
  obtain ⟨observation, decoded, h⟩ := Fallible.bind_ok h
  obtain ⟨output, appended, h⟩ := Fallible.bind_ok h
  dsimp only at h
  split at h
  · cases h
  next generation =>
  obtain ⟨⟨tracked, state''⟩, htrack, h⟩ := Fallible.bind_ok h
  simp only [ne_eq, Decidable.not_not] at generation
  dsimp only at h
  split at h
  next hmore =>
    cases h
    exact ⟨observation, output, tracked, decoded, appended, generation, htrack,
      (if_pos hmore).symm⟩
  next hlast =>
    cases h
    exact ⟨observation, output, tracked, decoded, appended, generation, htrack,
      (if_neg hlast).symm⟩

/-- An observed process under a session number. -/
def asTracked (n : Int) (progress : ShellCallState) (observation : ObservationWire)
    (turnId : Uuid) : TrackedExecution where
  sessionId := n
  handle := observation.execution.handle
  cursor := observation.nextCursor
  ownerTurnId := turnId
  tty := progress.tty

/-- What tracking an observation does. -/
inductive Tracks (state : BasicCodexState) (progress : ShellCallState)
    (observation : ObservationWire) (turnId : Uuid) : ShellCallState → BasicCodexState → Prop
  | running {n next : Int} (active : observation.execution.state ≠ .finished)
      (session : progress.sessionId = some n ∧ next = state.nextExecutionSessionId ∨
        progress.sessionId = none ∧ n = state.nextExecutionSessionId ∧ next = n + 1) :
      Tracks state progress observation turnId { progress with sessionId := some n }
        { state with
          executions := upsertExecution (asTracked n progress observation turnId) state.executions
          nextExecutionSessionId := next }
  | untracked (ended : observation.execution.state = .finished)
      (session : progress.sessionId = none) :
      Tracks state progress observation turnId progress state
  | unread {n : Int} (ended : observation.execution.state = .finished)
      (session : progress.sessionId = some n) (more : observation.hasMore = true) :
      Tracks state progress observation turnId progress
        { state with executions := setCursor n observation.nextCursor state.executions }
  | read {n : Int} (ended : observation.execution.state = .finished)
      (session : progress.sessionId = some n) (last : observation.hasMore = false) :
      Tracks state progress observation turnId progress
        { state with executions := state.executions.filter (·.sessionId != n) }

theorem track_ok {state state' : BasicCodexState} {progress progress' : ShellCallState}
    {observation : ObservationWire} {turnId : Uuid}
    (h : track state progress observation turnId = .ok (progress', state')) :
    Tracks state progress observation turnId progress' state' := by
  unfold track at h
  split at h
  next active =>
    unfold trackActive at h
    split at h
    next n session =>
      cases h
      exact .running active (.inl ⟨session, rfl⟩)
    next session =>
      unfold allocateSessionId at h
      split at h
      next allocated hallocated =>
        split at hallocated <;> cases hallocated
        cases h
        exact .running active (.inr ⟨session, rfl, rfl⟩)
      next => cases h
  next ended =>
    simp only [ne_eq, Decidable.not_not] at ended
    cases h
    unfold trackFinished
    split
    next session => exact .untracked ended session
    next n session =>
      split
      next more => exact .unread ended session more
      next last => exact .read ended session (by simpa using last)

section

variable {state state' : BasicCodexState} {progress progress' : ShellCallState}
  {observation : ObservationWire} {turnId : Uuid}

/-- The number of a process that runs is the call's own or was just drawn. -/
theorem assigns_running {n next : Int}
    (held : ∀ n, progress.sessionId = some n → n ∈ sessionIds state.executions)
    (below : ∀ n ∈ sessionIds state.executions, n < state.nextExecutionSessionId)
    (session : progress.sessionId = some n ∧ next = state.nextExecutionSessionId ∨
      progress.sessionId = none ∧ n = state.nextExecutionSessionId ∧ next = n + 1) :
    Assigns state { state with
      executions := upsertExecution (asTracked n progress observation turnId) state.executions
      nextExecutionSessionId := next } := by
  rcases session with ⟨hsession, hnext⟩ | ⟨-, hdrawn, hnext⟩
  · exact .renumbered (upsertExecution_held (held n hsession)) hnext
  · subst hdrawn
    refine .draw (upsertExecution_new ?_) hnext
    intro hmem
    exact absurd (below _ hmem) (lt_irrefl _)

/-- The sessions after an observation. -/
theorem Tracks.assigns (tracks : Tracks state progress observation turnId progress' state')
    (counted : Counted state)
    (held : ∀ n, progress.sessionId = some n → n ∈ sessionIds state.executions) :
    Assigns state state' := by
  cases tracks with
  | running _ session => exact assigns_running held counted.below session
  | untracked => exact .same rfl rfl
  | unread => exact .renumbered (sessionIds_setCursor _ _ _) rfl
  | read => exact .fewer (List.filter_sublist.map _) rfl

/-- A session stays tracked, but for one whose process has ended and whose output is read. -/
theorem Tracks.kept (tracks : Tracks state progress observation turnId progress' state') {n : Int}
    (hn : n ∈ sessionIds state.executions) : n ∈ sessionIds state'.executions ∨
      (progress.sessionId = some n ∧ observation.hasMore = false) := by
  cases tracks with
  | @running m next _ session =>
    refine .inl ?_
    by_cases h : m ∈ sessionIds state.executions
    · rw [upsertExecution_held h]
      exact hn
    · rw [upsertExecution_new h]
      exact List.mem_append_left _ hn
  | untracked => exact .inl hn
  | unread =>
    rw [sessionIds_setCursor]
    exact .inl hn
  | @read m ended session last =>
    by_cases h : n = m
    · exact .inr ⟨h ▸ session, last⟩
    · obtain ⟨e, he, rfl⟩ := List.mem_map.mp hn
      exact .inl (List.mem_map.mpr ⟨e, List.mem_filter.mpr ⟨he, by simpa using h⟩, rfl⟩)

/-- The session that a call has after an observation: its own, or one that was just drawn. -/
theorem Tracks.session (tracks : Tracks state progress observation turnId progress' state')
    {n : Int} (hn : progress'.sessionId = some n) :
    progress.sessionId = some n ∨
      (n = state.nextExecutionSessionId ∧ n ∈ sessionIds state'.executions) := by
  cases tracks with
  | @running m next active session =>
    cases hn
    rcases session with ⟨hsession, -⟩ | ⟨-, hdrawn, -⟩
    · exact .inl hsession
    · refine .inr ⟨hdrawn, ?_⟩
      apply trackedAs_isSome.mp
      exact Option.isSome_iff_exists.mpr
        ⟨_, trackedAs_upsertExecution (asTracked n progress observation turnId) _⟩
  | untracked | unread | read => exact .inl hn

theorem prepareWrite_tracked {lib : Foreign} {call : ToolCallState}
    {executions : List TrackedExecution} {draw : Uuid} {at_ : Int}
    {operation : PreparedShellOperation}
    (h : prepareWrite lib call executions turnId at_ draw = .ok operation) {n : Int}
    (hn : operation.progress.sessionId = some n) : n ∈ sessionIds executions := by
  unfold prepareWrite at h
  obtain ⟨input, -, h⟩ := Fallible.bind_ok h
  split at h
  · cases h
  split at h
  · cases h
  next tracked htracked =>
    cases h
    cases hn
    exact List.mem_map_of_mem (List.mem_of_find?_eq_some htracked)

/-- The shell tools prepare every `write_stdin` call. -/
theorem prepareNew_write {lib : Foreign} {call : ToolCallState} {config : BasicCodexConfig}
    {executions : List TrackedExecution} {sid : SessionId} {at_ : Int} {draw : Uuid}
    {result : Option PreparedShellOperation} (hname : call.name = "write_stdin")
    (h : prepareNew lib call config executions sid turnId at_ draw = .ok result) :
    ∃ operation, result = some operation ∧
      prepareWrite lib call executions turnId at_ draw = .ok operation := by
  unfold prepareNew at h
  simp only [hname, String.reduceEq, if_false, if_true] at h
  split at h
  next operation hop =>
    cases h
    exact ⟨operation, rfl, hop⟩
  next => cases h

end

end ShellTools

end AgentPlatform.Harness
