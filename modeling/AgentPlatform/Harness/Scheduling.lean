import AgentPlatform.Harness.PlanParsing

/-!
# The discipline of tool scheduling

One pass of `schedule_ready` over the active segment, the submissions after it and the completion of
an operation each keep a plan sound, and a plan on which nothing is submitted after `schedule_ready`
is complete.
-/

namespace AgentPlatform.Harness.ToolExecution

open ToolPlanState

variable {agent : Agent}

/-! ## What a call is prepared to -/

theorem submittedSession_some {call : ToolCallState} {session : Int} :
    submittedSession call = some session ↔
      ∃ id progress, call.status = .submitted id progress ∧ progress.sessionId = some session := by
  unfold submittedSession
  constructor
  · intro h
    split at h
    next id progress hstatus => exact ⟨id, progress, hstatus, h⟩
    next => cases h
  · rintro ⟨id, progress, hstatus, h⟩
    simp [hstatus, h]

theorem mem_submittedResources {plan : ToolPlanState} {session : Int} :
    session ∈ submittedResources plan ↔
      ∃ (i : Nat) (call : ToolCallState), plan.calls[i]? = some call ∧
        submittedSession call = some session := by
  simp only [submittedResources, List.mem_filterMap]
  constructor
  · rintro ⟨call, hmem, h⟩
    obtain ⟨i, hi⟩ := List.mem_iff_getElem?.mp hmem
    exact ⟨i, call, hi, h⟩
  · rintro ⟨i, call, hi, h⟩
    exact ⟨call, List.mem_of_getElem? hi, h⟩

/-- The session that decoded `write_stdin` arguments name. -/
theorem decodeWriteStdinArgs_session {fields : JsonObject} {args : ShellTools.WriteStdinArgs}
    (h : ShellTools.decodeWriteStdinArgs (.object fields) = some args) :
    inputSessionId (.json (.object fields)) = some args.sessionId := by
  simp only [ShellTools.decodeWriteStdinArgs, Option.bind_eq_bind, Option.bind_eq_some_iff] at h
  obtain ⟨inner, hinner, session, hfield, chars, -, yieldTime, -, tokens, -, hargs⟩ := h
  cases hargs
  simp only [ShellTools.structFields] at hinner
  split at hinner
  next =>
    cases hinner
    simp only [ShellTools.field, ShellTools.decodeI32, Option.bind_eq_some_iff] at hfield
    obtain ⟨v, hv, hdecode⟩ := hfield
    split at hdecode
    next n hn =>
      split at hdecode
      next hrange =>
        cases hdecode
        simpa [inputSessionId, hv, hn] using hrange
      next => cases hdecode
    next => cases hdecode
  next => cases hinner

/-- The session of a prepared `write_stdin` operation is the one that the arguments name. -/
theorem prepareWrite_session {lib : Foreign} {call : ToolCallState}
    {executions : List TrackedExecution} {turnId draw : Uuid} {at_ : Int}
    {operation : PreparedShellOperation} {fields : JsonObject}
    (hinput : call.input = .json (.object fields))
    (h : ShellTools.prepareWrite lib call executions turnId at_ draw = .ok operation) :
    operation.progress.sessionId.isSome = true ∧
      operation.progress.sessionId = inputSessionId call.input := by
  unfold ShellTools.prepareWrite at h
  obtain ⟨input, hin, h⟩ := Fallible.bind_ok h
  simp only [ShellTools.jsonInput, hinput] at hin
  cases hin
  split at h
  · cases h
  next args hargs =>
  split at h
  · cases h
  next tracked htracked =>
  cases h
  have hsession : tracked.sessionId = args.sessionId := by simpa using List.find?_some htracked
  refine ⟨rfl, ?_⟩
  rw [hinput, decodeWriteStdinArgs_session hargs, ← hsession]

theorem prepareExec_session {lib : Foreign} {call : ToolCallState} {config : BasicCodexConfig}
    {sessionId : SessionId} {turnId draw : Uuid} {at_ : Int} {operation : PreparedShellOperation}
    (h : ShellTools.prepareExec lib call config sessionId turnId at_ draw = .ok operation) :
    operation.progress.sessionId = none := by
  unfold ShellTools.prepareExec at h
  obtain ⟨input, -, h⟩ := Fallible.bind_ok h
  split at h
  · cases h
  split at h
  · cases h
  · obtain ⟨cwd, -, h⟩ := Fallible.bind_ok h
    obtain ⟨shell, -, h⟩ := Fallible.bind_ok h
    cases h
    rfl

/-- What a prepared operation has to do with its call. -/
structure PreparedFrom (call : ToolCallState) (ordinal : Nat) (prepared : PreparedCall) : Prop where
  ordinal : prepared.ordinal = ordinal
  resource : ∀ session, prepared.progress.sessionId = some session →
    resourceSessionId call = some session
  writing : call.name = "write_stdin" → prepared.progress.sessionId.isSome = true ∧
    prepared.progress.sessionId = inputSessionId call.input

section

variable {executions : List TrackedExecution} {invocation : Invocation} {turnId : Uuid}

theorem prepareNew_shell {call : ToolCallState} {ordinal : Nat} {draw : Uuid}
    {operation : PreparedShellOperation} (hpending : call.status.isPending = true)
    (hobject : call.name = "write_stdin" → ∃ fields, call.input = .json (.object fields))
    (h : ShellTools.prepareNew agent.lib call agent.config executions
      invocation.platformSessionId turnId invocation.timestampMs draw = .ok (some operation)) :
    PreparedFrom call ordinal (fromShell ordinal operation) := by
  unfold ShellTools.prepareNew at h
  dsimp only at h
  split at h
  next hname =>
    split at h
    next op hop =>
      cases h
      have hnone := prepareExec_session hop
      refine ⟨rfl, fun session hs => ?_, fun hwrite => ?_⟩
      · simp [fromShell, ToolCallProgress.sessionId, hnone] at hs
      · simp [hname] at hwrite
    next => cases h
  next =>
    split at h
    next hname =>
      split at h
      next op hop =>
        cases h
        obtain ⟨fields, hinput⟩ := hobject hname
        obtain ⟨hsome, heq⟩ := prepareWrite_session hinput hop
        refine ⟨rfl, fun session hs => ?_, fun _ => ⟨hsome, heq⟩⟩
        have hresource : resourceSessionId call = inputSessionId call.input := by
          unfold resourceSessionId
          cases hstatus : call.status <;>
            simp_all [ToolCallStatus.isPending]
        rw [hresource, ← heq]
        exact hs
      next => cases h
    next => cases h

/-- A call that is prepared is neither submitted nor completed, and a call that is not is one of
these. -/
theorem prepareCall_none {call : ToolCallState} {ordinal : Nat} {draw : Uuid} :
    prepareCall agent executions invocation turnId call ordinal draw = none ↔
      call.status.isCompleted = true ∨ ∃ id progress, call.status = .submitted id progress := by
  unfold prepareCall
  cases hstatus : call.status with
  | pending => simp [ToolCallStatus.isCompleted]
  | ready progress => cases progress <;> simp [ToolCallStatus.isCompleted]
  | submitted id progress => simp
  | completed snapshot => simp [ToolCallStatus.isCompleted]

/-- What a call is prepared to, if it is. -/
theorem prepareCall_ok {call : ToolCallState} {ordinal : Nat} {draw : Uuid}
    {prepared : PreparedCall}
    (hobject : call.name = "write_stdin" → call.status.isPending = true →
      ∃ fields, call.input = .json (.object fields))
    (hwriting : ∀ progress, call.name = "write_stdin" → call.status.inProgress = some progress →
      progress.sessionId.isSome = true ∧ progress.sessionId = inputSessionId call.input)
    (h : prepareCall agent executions invocation turnId call ordinal draw =
      some (.ok prepared)) : PreparedFrom call ordinal prepared := by
  unfold prepareCall at h
  cases hstatus : call.status with
  | pending =>
    simp only [hstatus, Option.some.injEq] at h
    have hpending : call.status.isPending = true := by simp [hstatus, ToolCallStatus.isPending]
    split at h
    next operation hop =>
      cases h
      exact prepareNew_shell hpending (fun hname => hobject hname hpending) hop
    next hnone =>
      split at h
      next operation hop =>
        cases h
        refine ⟨rfl, fun session hs => ?_, fun hname => ?_⟩
        · simp [fromFile, ToolCallProgress.sessionId] at hs
        · -- the shell tools prepare every `write_stdin` call
          unfold ShellTools.prepareNew at hnone
          simp only [hname, String.reduceEq, if_false, if_true] at hnone
          split at hnone <;> cases hnone
      next => cases h
      next => cases h
    next => cases h
  | ready progress =>
    have hresource : resourceSessionId call = progress.sessionId := by
      simp [resourceSessionId, hstatus]
    have hinProgress : call.status.inProgress = some progress := by
      simp [hstatus, ToolCallStatus.inProgress]
    cases progress with
    | shell shell =>
      simp only [hstatus, Option.some.injEq] at h
      obtain ⟨operation, hop, rfl⟩ : ∃ operation, ShellTools.prepareReady shell = .ok operation ∧
          fromShell ordinal operation = prepared := by
        cases hr : ShellTools.prepareReady shell with
        | error failure => simp [hr, Except.map] at h
        | ok operation =>
          simp only [hr, Except.map, Except.ok.injEq] at h
          exact ⟨operation, rfl, h⟩
      have hsame : operation.progress = shell := by
        unfold ShellTools.prepareReady at hop
        split at hop
        · cases hop
        · cases hop
          rfl
      refine ⟨rfl, fun session hs => ?_, fun hname => ?_⟩
      · rw [hresource, ← hs]
        simp [fromShell, hsame]
      · simpa [fromShell, hsame] using hwriting _ hname hinProgress
    | filesystem file =>
      simp only [hstatus, Option.some.injEq] at h
      obtain ⟨operation, hop, rfl⟩ : ∃ operation,
          agent.files.prepareReady file agent.config = .ok operation ∧
          fromFile ordinal operation = prepared := by
        cases hr : agent.files.prepareReady file agent.config with
        | error failure => simp [hr, Except.map] at h
        | ok operation =>
          simp only [hr, Except.map, Except.ok.injEq] at h
          exact ⟨operation, rfl, h⟩
      refine ⟨rfl, fun session hs => ?_, fun hname => ?_⟩
      · simp [fromFile, ToolCallProgress.sessionId] at hs
      · have := (hwriting _ hname hinProgress).1
        simp [ToolCallProgress.sessionId] at this
  | submitted id progress => simp [hstatus] at h
  | completed snapshot => simp [hstatus] at h

/-- The session that a sound plan's `write_stdin` call holds is the one its arguments name. -/
theorem resource_of_write {plan : ToolPlanState} (sound : plan.Sound) {i : Nat}
    {call : ToolCallState} (hcall : plan.calls[i]? = some call) (hname : call.name = "write_stdin")
    (hopen : call.status.isCompleted = false) :
    resourceSessionId call = inputSessionId call.input := by
  unfold resourceSessionId
  cases hstatus : call.status with
  | pending => simp [hname]
  | ready progress =>
    exact (sound.writing i call progress hcall hname
      (by simp [hstatus, ToolCallStatus.inProgress])).2
  | submitted id progress =>
    exact (sound.writing i call progress hcall hname
      (by simp [hstatus, ToolCallStatus.inProgress])).2
  | completed snapshot => simp [hstatus, ToolCallStatus.isCompleted] at hopen

/-! ## Counting what is open -/

/-- How many calls of a plan are not completed. -/
def openCalls (plan : ToolPlanState) : Nat := plan.calls.countP fun call => !call.status.isCompleted

theorem countP_modify_drop {α : Type} (p : α → Bool) (f : α → α) {xs : List α} {i : Nat} {a : α}
    (hget : xs[i]? = some a) (hbefore : p a = true) (hafter : p (f a) = false) :
    (xs.modify i f).countP p + 1 = xs.countP p := by
  induction xs generalizing i with
  | nil => simp at hget
  | cons x xs ih =>
    cases i with
    | zero =>
      simp only [List.getElem?_cons_zero, Option.some.injEq] at hget
      subst hget
      simp [hbefore, hafter]
    | succ i =>
      have := ih (by simpa using hget)
      simp only [List.modify_succ_cons, List.countP_cons]
      omega

theorem openCalls_complete {plan : ToolPlanState} {o : Nat} {call : ToolCallState}
    (hcall : plan.calls[o]? = some call) (hopen : call.status.isCompleted = false)
    (snapshot : ToolResultSnapshot) :
    openCalls (plan.setStatus o (.completed snapshot)) + 1 = openCalls plan :=
  countP_modify_drop _ _ hcall (by simp [hopen]) (by simp [ToolCallStatus.isCompleted])

/-! ## One pass over the active segment -/

/-- A prepared call that may be submitted on a plan. -/
structure Submittable (plan : ToolPlanState) (segment : ToolSegment) (prepared : PreparedCall)
    (call : ToolCallState) : Prop where
  found : plan.calls[prepared.ordinal]? = some call
  «open» : call.status.isCompleted = false
  mem : prepared.ordinal ∈ segment.callOrdinals
  session : ∀ session, prepared.progress.sessionId = some session →
    session ∉ submittedResources plan
  writing : call.name = "write_stdin" → prepared.progress.sessionId.isSome = true ∧
    prepared.progress.sessionId = inputSessionId call.input
  order : call.name = "write_stdin" → ∀ session, inputSessionId call.input = some session →
    ∀ (i : Nat) (ci : ToolCallState), i < prepared.ordinal → plan.calls[i]? = some ci →
      ci.name = "write_stdin" → inputSessionId ci.input = some session →
      ci.status.isCompleted = true

/-- Two prepared calls that do not get into each other's way. -/
def Apart (p q : PreparedCall) : Prop :=
  p.ordinal ≠ q.ordinal ∧
    ∀ session, p.progress.sessionId = some session → q.progress.sessionId ≠ some session

/-- A pass over a segment whose first calls it has visited. -/
structure Round.Sound (segment : ToolSegment) (visited : List Nat) (round : Round) : Prop where
  plan : round.plan.Sound
  current : round.plan.currentSegment = some segment
  submitted : ∀ session ∈ submittedResources round.plan, session ∈ round.busy
  prepared : ∀ p ∈ round.prepared, p.ordinal ∈ visited ∧
    (∀ session, p.progress.sessionId = some session → session ∈ round.busy) ∧
    ∃ call, Submittable round.plan segment p call
  apart : round.prepared.Pairwise Apart
  waiting : ∀ o ∈ visited, ∀ call : ToolCallState, round.plan.calls[o]? = some call →
    call.name = "write_stdin" → call.status.isCompleted = true ∨
      ∀ session, inputSessionId call.input = some session → session ∈ round.busy

theorem Submittable.complete {plan : ToolPlanState} {segment : ToolSegment} {p : PreparedCall}
    {call : ToolCallState} (h : Submittable plan segment p call) {o : Nat}
    (hne : p.ordinal ≠ o) (snapshot : ToolResultSnapshot) :
    Submittable (plan.setStatus o (.completed snapshot)) segment p call where
  found := by simpa [hne] using setStatus_get (o := o) (.completed snapshot) h.found
  «open» := h.open
  mem := h.mem
  session session hs hmem := by
    obtain ⟨i, c', hc', hsub⟩ := mem_submittedResources.mp hmem
    obtain ⟨c, hc, rfl⟩ := get_setStatus hc'
    split at hsub
    · simp [submittedSession] at hsub
    · exact h.session session hs (mem_submittedResources.mpr ⟨i, c, hc, hsub⟩)
  writing := h.writing
  order hname session hs i ci' hi hci' hni hsi := by
    obtain ⟨ci, hci, rfl⟩ := get_setStatus hci'
    by_cases hio : i = o
    · simp [hio, ToolCallStatus.isCompleted]
    · simp only [hio, if_false] at hni hsi ⊢
      exact h.order hname session hs i ci hi hci hni hsi

/-- An open call before a call of the active segment stands in the active segment too. -/
theorem mem_of_open_before {plan : ToolPlanState} (sound : plan.Sound) {segment : ToolSegment}
    (hcurrent : plan.currentSegment = some segment) {i o : Nat} {call : ToolCallState}
    (ho : o ∈ segment.callOrdinals) (hio : i < o) (hcall : plan.calls[i]? = some call)
    (hopen : call.status.isCompleted = false) : i ∈ segment.callOrdinals := by
  rcases sound.covered i call hcall with hdone | hmem
  · simp [hdone] at hopen
  obtain ⟨k, s, hk, hi⟩ := mem_scheduled.mp hmem
  rcases Nat.lt_trichotomy k plan.activeSegment with hlt | heq | hgt
  · simp [sound.earlier k s hk hlt i hi call hcall] at hopen
  · rw [heq] at hk
    rw [ToolPlanState.currentSegment] at hcurrent
    rw [hk] at hcurrent
    cases hcurrent
    exact hi
  · -- the ordinals of a later segment are larger
    have hpair := (List.pairwise_flatMap.mp sound.increasing).2
    obtain ⟨ha, rfl⟩ := List.getElem?_eq_some_iff.mp hcurrent
    obtain ⟨hb, rfl⟩ := List.getElem?_eq_some_iff.mp hk
    have := List.pairwise_iff_getElem.mp hpair _ _ ha hb hgt o ho i hi
    omega

variable {segment : ToolSegment} {visited rest : List Nat} {o : Nat} {round : Round}

/-- What stands before a place of an increasing list is what is smaller. -/
theorem mem_before {xs ys : List Nat} {i o : Nat} (h : (xs ++ o :: ys).Pairwise (· < ·))
    (hi : i ∈ xs ++ o :: ys) (hio : i < o) : i ∈ xs := by
  rcases List.mem_append.mp hi with hxs | hys
  · exact hxs
  · have hle : o ≤ i := by
      rcases List.mem_cons.mp hys with rfl | hmem
      · exact Nat.le_refl _
      · exact Nat.le_of_lt (List.rel_of_pairwise_cons (List.pairwise_append.mp h).2.1 hmem)
    omega

theorem not_mem_before {xs ys : List Nat} {o : Nat} (h : (xs ++ o :: ys).Pairwise (· < ·)) :
    o ∉ xs := fun hmem =>
  Nat.lt_irrefl o ((List.pairwise_append.mp h).2.2 o hmem o (by simp))

/-- One call of the pass. -/
theorem Round.Sound.visit {round' : Round} (sound : Round.Sound segment visited round)
    (hsplit : segment.callOrdinals = visited ++ o :: rest)
    (h : ToolExecution.visit agent executions invocation turnId round o = .ok round') :
    Round.Sound segment (visited ++ [o]) round' := by
  have hincreasing := sound.plan.segment_increasing (currentSegment_mem sound.current)
  rw [hsplit] at hincreasing
  have ho : o ∈ segment.callOrdinals := by simp [hsplit]
  have hnew : o ∉ visited := not_mem_before hincreasing
  unfold ToolExecution.visit at h
  split at h
  · cases h
  next call hcall =>
  -- the call keeps its place among the visited ones when nothing happens to it
  have hkeep : (call.name = "write_stdin" → call.status.isCompleted = true ∨
      ∀ session, inputSessionId call.input = some session → session ∈ round.busy) →
      Round.Sound segment (visited ++ [o]) round := fun hwait => {
    plan := sound.plan
    current := sound.current
    submitted := sound.submitted
    prepared := fun p hp => ⟨List.mem_append_left _ (sound.prepared p hp).1,
      (sound.prepared p hp).2⟩
    apart := sound.apart
    waiting := fun i hi c hc hname => by
      rcases List.mem_append.mp hi with hi | hi
      · exact sound.waiting i hi c hc hname
      · simp only [List.mem_singleton] at hi
        subst hi
        rw [hcall] at hc
        cases hc
        exact hwait hname }
  dsimp only at h
  split at h
  next hbusy =>
    cases h
    refine hkeep fun hname => ?_
    by_cases hdone : call.status.isCompleted = true
    · exact .inl hdone
    · right
      intro session hs
      rw [resource_of_write sound.plan hcall hname (by simpa using hdone), hs] at hbusy
      simpa using hbusy
  next hfree =>
  split at h
  next hnone =>
    cases h
    refine hkeep fun hname => ?_
    rcases prepareCall_none.mp hnone with hdone | ⟨id, progress, hstatus⟩
    · exact .inl hdone
    · right
      intro session hs
      have hwriting := sound.plan.writing o call progress hcall hname
        (by simp [hstatus, ToolCallStatus.inProgress])
      refine sound.submitted session (mem_submittedResources.mpr ⟨o, call, hcall, ?_⟩)
      exact submittedSession_some.mpr ⟨id, progress, hstatus, by rw [hwriting.2, hs]⟩
  next snapshot hsnapshot =>
    cases h
    refine {
      plan := sound.plan.setStatus hcall sound.current ho rfl ?_ ?_ ?_ fun _ => rfl
      current := by simpa using sound.current
      submitted := fun session hs => ?_
      prepared := fun p hp => ?_
      apart := sound.apart
      waiting := fun i hi c' hc' hname => ?_ }
    · intro session hs
      simp [submittedSession] at hs
    · intro _ progress hprogress
      simp [ToolCallStatus.inProgress] at hprogress
    · intro hactive
      simp [ToolCallStatus.isActive, ToolCallStatus.inProgress] at hactive
    · obtain ⟨i, c', hc', hsub⟩ := mem_submittedResources.mp hs
      obtain ⟨c, hc, rfl⟩ := get_setStatus hc'
      split at hsub
      · simp [submittedSession] at hsub
      · exact sound.submitted session (mem_submittedResources.mpr ⟨i, c, hc, hsub⟩)
    · obtain ⟨hvisited, hsession, c, hc⟩ := sound.prepared p hp
      refine ⟨List.mem_append_left _ hvisited, hsession, c, hc.complete ?_ snapshot⟩
      rintro rfl
      exact hnew hvisited
    · obtain ⟨c, hc, rfl⟩ := get_setStatus hc'
      by_cases hio : i = o
      · simp [hio, ToolCallStatus.isCompleted]
      · simp only [hio, if_false] at hname ⊢
        rcases List.mem_append.mp hi with hi | hi
        · exact sound.waiting i hi c hc hname
        · exact absurd (List.mem_singleton.mp hi) hio
  next prepared hprepared =>
    cases h
    have hopen : call.status.isCompleted = false := by
      cases hdone : call.status.isCompleted with
      | false => rfl
      | true =>
        rw [prepareCall_none.mpr (.inl hdone)] at hprepared
        cases hprepared
    have hfrom := prepareCall_ok (fun hname hpending => sound.plan.objects o call hcall hname hpending)
      (fun progress hname hprogress => sound.plan.writing o call progress hcall hname hprogress)
      hprepared
    have hresource : ∀ session, resourceSessionId call = some session → session ∉ round.busy := by
      intro session hs hmem
      rw [hs] at hfree
      simp [hmem] at hfree
    have hbusy : ∀ session, prepared.progress.sessionId = some session →
        session ∉ round.busy := fun session hs => hresource session (hfrom.resource session hs)
    have hwritten : call.name = "write_stdin" →
        ∀ session, inputSessionId call.input = some session → session ∉ round.busy :=
      fun hname session hs => hresource session
        ((resource_of_write sound.plan hcall hname hopen).trans hs)
    refine {
      plan := sound.plan
      current := sound.current
      submitted := fun session hs => List.mem_append_right _ (sound.submitted session hs)
      prepared := fun p hp => ?_
      apart := ?_
      waiting := fun i hi c hc hname => ?_ }
    · rcases List.mem_append.mp hp with hp | hp
      · obtain ⟨hvisited, hsession, hc⟩ := sound.prepared p hp
        exact ⟨List.mem_append_left _ hvisited,
          fun session hs => List.mem_append_right _ (hsession session hs), hc⟩
      · simp only [List.mem_singleton] at hp
        subst hp
        refine ⟨by simp [hfrom.ordinal], fun session hs => ?_, call, ?_⟩
        · rw [hfrom.resource session hs]
          simp
        · refine {
            found := by rw [hfrom.ordinal]; exact hcall
            «open» := hopen
            mem := by rw [hfrom.ordinal]; exact ho
            session := fun session hs hmem => hbusy session hs (sound.submitted session hmem)
            writing := hfrom.writing
            order := fun hname session hs i ci hi hci hni hsi => ?_ }
          rw [hfrom.ordinal] at hi
          cases hdone : ci.status.isCompleted with
          | true => rfl
          | false =>
            have hmem := mem_of_open_before sound.plan sound.current ho hi hci hdone
            rw [hsplit] at hmem
            have hvisited := mem_before hincreasing hmem hi
            rcases sound.waiting i hvisited ci hci hni with hdone' | hwait
            · simp [hdone'] at hdone
            · exact absurd (hwait session hsi) (hwritten hname session hs)
    · refine List.pairwise_append.mpr ⟨sound.apart, by simp, fun p hp q hq => ?_⟩
      simp only [List.mem_singleton] at hq
      subst hq
      obtain ⟨hvisited, hsession, -⟩ := sound.prepared p hp
      refine ⟨?_, fun session hs hq => hbusy session hq (hsession session hs)⟩
      rw [hfrom.ordinal]
      rintro rfl
      exact hnew hvisited
    · rcases List.mem_append.mp hi with hi | hi
      · rcases sound.waiting i hi c hc hname with hdone | hwait
        · exact .inl hdone
        · exact .inr fun session hs => List.mem_append_right _ (hwait session hs)
      · simp only [List.mem_singleton] at hi
        subst hi
        rw [hcall] at hc
        cases hc
        right
        intro session hs
        rw [resource_of_write sound.plan hcall hname hopen, hs]
        simp

/-- The whole pass. -/
theorem Round.Sound.pass {round' : Round} (sound : Round.Sound segment visited round)
    (hsplit : segment.callOrdinals = visited ++ rest)
    (h : rest.foldlM (ToolExecution.visit agent executions invocation turnId) round = .ok round') :
    Round.Sound segment segment.callOrdinals round' := by
  induction rest generalizing visited round with
  | nil =>
    cases h
    rw [hsplit, List.append_nil]
    exact sound
  | cons o rest ih =>
    obtain ⟨next, hnext, h⟩ := Fallible.bind_ok h
    exact ih (sound.visit hsplit hnext) (by simp [hsplit]) h

theorem Round.Sound.start {plan : ToolPlanState} (sound : plan.Sound)
    (hcurrent : plan.currentSegment = some segment) (nextId : Uuid) :
    Round.Sound segment [] (Round.start plan nextId) where
  plan := sound
  current := hcurrent
  submitted _ hs := hs
  prepared _ hp := absurd hp List.not_mem_nil
  apart := List.Pairwise.nil
  waiting _ ho := absurd ho List.not_mem_nil

end

end AgentPlatform.Harness.ToolExecution
