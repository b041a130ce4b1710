import AgentPlatform.Harness.ToolExecution

/-!
# What holds of every tool plan

`ToolPlanState.Sound` is the invariant of a plan that the scheduler works on, and every plan that
`parse` accepts satisfies it. `ToolPlanState.Settled` says that the active segment has work left; it
holds whenever the scheduler is about to look at the plan.
-/

namespace AgentPlatform.Harness

open ToolExecution (submittedSession submittedResources inputSessionId resourceSessionId)

/-- The progress of a call that is ready or submitted. -/
def ToolCallStatus.inProgress : ToolCallStatus → Option ToolCallProgress
  | .ready progress => some progress
  | .submitted _ progress => some progress
  | _ => none

/-- Whether a call is ready or submitted. -/
def ToolCallStatus.isActive (status : ToolCallStatus) : Bool := status.inProgress.isSome

/-- A call that is neither pending nor active is completed. -/
theorem ToolCallStatus.cases_activity (status : ToolCallStatus) :
    status.isPending = true ∨ status.isActive = true ∨ status.isCompleted = true := by
  cases status <;> simp [isPending, isActive, inProgress, isCompleted]

theorem ToolCallStatus.not_active_of_pending {status : ToolCallStatus}
    (h : status.isPending = true) : status.isActive = false := by
  cases status <;> simp_all [isPending, isActive, inProgress]

theorem ToolCallStatus.not_active_of_completed {status : ToolCallStatus}
    (h : status.isCompleted = true) : status.isActive = false := by
  cases status <;> simp_all [isCompleted, isActive, inProgress]

theorem ToolCallStatus.not_completed_of_pending {status : ToolCallStatus}
    (h : status.isPending = true) : status.isCompleted = false := by
  cases status <;> simp_all [isCompleted, isPending]

namespace ToolPlanState

/-- The ordinals that stand in a segment, in the order of the segments. -/
def scheduled (plan : ToolPlanState) : List Nat := plan.segments.flatMap (·.callOrdinals)

/-- A plan as the scheduler keeps it. -/
structure Sound (plan : ToolPlanState) : Prop where
  ordinals : ∀ (i : Nat) (call : ToolCallState), plan.calls[i]? = some call → call.ordinal = i
  covered : ∀ (i : Nat) (call : ToolCallState), plan.calls[i]? = some call →
    call.status.isCompleted = true ∨ i ∈ plan.scheduled
  increasing : plan.scheduled.Pairwise (· < ·)
  present : ∀ o ∈ plan.scheduled, o < plan.calls.length
  alone : ∀ segment ∈ plan.segments, ∀ o ∈ segment.callOrdinals, ∀ call : ToolCallState,
    plan.calls[o]? = some call → call.scheduling = .exclusive → segment.callOrdinals = [o]
  objects : ∀ (i : Nat) (call : ToolCallState), plan.calls[i]? = some call → call.name = "write_stdin" →
    call.status.isPending = true → ∃ fields, call.input = .json (.object fields)
  earlier : ∀ (i : Nat) (segment : ToolSegment), plan.segments[i]? = some segment → i < plan.activeSegment →
    ∀ o ∈ segment.callOrdinals, ∀ call : ToolCallState, plan.calls[o]? = some call →
      call.status.isCompleted = true
  later : ∀ (i : Nat) (segment : ToolSegment), plan.segments[i]? = some segment → plan.activeSegment < i →
    ∀ o ∈ segment.callOrdinals, ∀ call : ToolCallState, plan.calls[o]? = some call →
      call.status.isPending = true
  sessions : ∀ (i j : Nat) (ci cj : ToolCallState) (session : Int), plan.calls[i]? = some ci → plan.calls[j]? = some cj →
    submittedSession ci = some session → submittedSession cj = some session → i = j
  writing : ∀ (i : Nat) (call : ToolCallState) (progress : ToolCallProgress), plan.calls[i]? = some call → call.name = "write_stdin" →
    call.status.inProgress = some progress →
      progress.sessionId.isSome = true ∧ progress.sessionId = inputSessionId call.input
  writeOrder : ∀ (i j : Nat) (ci cj : ToolCallState) (session : Int), i < j → plan.calls[i]? = some ci → plan.calls[j]? = some cj →
    ci.name = "write_stdin" → cj.name = "write_stdin" → inputSessionId ci.input = some session →
    inputSessionId cj.input = some session → cj.status.isActive = true →
      ci.status.isCompleted = true

/-- Whether the active segment has work left. -/
def Settled (plan : ToolPlanState) : Prop :=
  ∀ segment, plan.currentSegment = some segment → plan.segmentCompleted segment = false

variable {plan : ToolPlanState}

/-! ## Changing the status of a call -/

theorem get_setStatus {o i : Nat} {status : ToolCallStatus} {call' : ToolCallState}
    (h : (plan.setStatus o status).calls[i]? = some call') :
    ∃ call, plan.calls[i]? = some call ∧
      call' = if i = o then { call with status } else call := by
  simp only [setStatus, List.getElem?_modify, Option.map_eq_map, Option.map_eq_some_iff] at h
  obtain ⟨call, hcall, rfl⟩ := h
  refine ⟨call, hcall, ?_⟩
  by_cases hi : i = o
  · simp [hi]
  · simp [hi, Ne.symm hi]

theorem setStatus_get {o i : Nat} (status : ToolCallStatus) {call : ToolCallState}
    (h : plan.calls[i]? = some call) :
    (plan.setStatus o status).calls[i]? = some (if i = o then { call with status } else call) := by
  simp only [setStatus, List.getElem?_modify, h, Option.map_eq_map, Option.map_some,
    Option.some.injEq]
  by_cases hi : i = o
  · simp [hi]
  · simp [hi, Ne.symm hi]

@[simp] theorem setStatus_segments (o : Nat) (status : ToolCallStatus) :
    (plan.setStatus o status).segments = plan.segments := rfl

@[simp] theorem setStatus_activeSegment (o : Nat) (status : ToolCallStatus) :
    (plan.setStatus o status).activeSegment = plan.activeSegment := rfl

@[simp] theorem setStatus_scheduled (o : Nat) (status : ToolCallStatus) :
    (plan.setStatus o status).scheduled = plan.scheduled := rfl

@[simp] theorem setStatus_currentSegment (o : Nat) (status : ToolCallStatus) :
    (plan.setStatus o status).currentSegment = plan.currentSegment := rfl

@[simp] theorem setStatus_length (o : Nat) (status : ToolCallStatus) :
    (plan.setStatus o status).calls.length = plan.calls.length := by simp [setStatus]

/-! ## Where a call stands -/

theorem mem_scheduled {o : Nat} :
    o ∈ plan.scheduled ↔ ∃ (i : Nat) (segment : ToolSegment),
      plan.segments[i]? = some segment ∧ o ∈ segment.callOrdinals := by
  simp only [scheduled, List.mem_flatMap]
  constructor
  · rintro ⟨segment, hmem, ho⟩
    obtain ⟨i, hi⟩ := List.mem_iff_getElem?.mp hmem
    exact ⟨i, segment, hi, ho⟩
  · rintro ⟨i, segment, hi, ho⟩
    exact ⟨segment, List.mem_of_getElem? hi, ho⟩

theorem currentSegment_mem {segment : ToolSegment} (h : plan.currentSegment = some segment) :
    segment ∈ plan.segments := List.mem_of_getElem? h

/-- A call that is active stands in the active segment. -/
theorem Sound.active_mem (sound : plan.Sound) {i : Nat} {call : ToolCallState}
    (hcall : plan.calls[i]? = some call) (hactive : call.status.isActive = true) :
    ∃ segment, plan.currentSegment = some segment ∧ i ∈ segment.callOrdinals := by
  rcases sound.covered i call hcall with hdone | hmem
  · simp [ToolCallStatus.not_active_of_completed hdone] at hactive
  obtain ⟨k, segment, hk, hi⟩ := mem_scheduled.mp hmem
  rcases Nat.lt_trichotomy k plan.activeSegment with hlt | heq | hgt
  · have hdone := sound.earlier k segment hk hlt i hi call hcall
    simp [ToolCallStatus.not_active_of_completed hdone] at hactive
  · exact ⟨segment, by rw [currentSegment, ← heq]; exact hk, hi⟩
  · have hpending := sound.later k segment hk hgt i hi call hcall
    simp [ToolCallStatus.not_active_of_pending hpending] at hactive

/-- An ordinal of the active segment stands in no other segment. -/
theorem Sound.segment_unique (sound : plan.Sound) {i j o : Nat} {s t : ToolSegment}
    (hs : plan.segments[i]? = some s) (ht : plan.segments[j]? = some t)
    (hos : o ∈ s.callOrdinals) (hot : o ∈ t.callOrdinals) : i = j := by
  have hpair := (List.pairwise_flatMap.mp sound.increasing).2
  have hbelow : ∀ {i j : Nat} {s t : ToolSegment}, plan.segments[i]? = some s →
      plan.segments[j]? = some t → o ∈ s.callOrdinals → o ∈ t.callOrdinals → ¬ i < j := by
    intro i j s t hs ht hos hot hlt
    obtain ⟨hi, rfl⟩ := List.getElem?_eq_some_iff.mp hs
    obtain ⟨hj, rfl⟩ := List.getElem?_eq_some_iff.mp ht
    exact Nat.lt_irrefl o (List.pairwise_iff_getElem.mp hpair i j hi hj hlt o hos o hot)
  have := hbelow hs ht hos hot
  have := hbelow ht hs hot hos
  omega

/-- The ordinals of one segment increase. -/
theorem Sound.segment_increasing (sound : plan.Sound) {segment : ToolSegment}
    (h : segment ∈ plan.segments) : segment.callOrdinals.Pairwise (· < ·) :=
  (List.pairwise_flatMap.mp sound.increasing).1 segment h

/-- A complete plan has every call completed. -/
theorem isComplete_iff : plan.isComplete = true ↔
    ∀ (i : Nat) (call : ToolCallState), plan.calls[i]? = some call →
      call.status.isCompleted = true := by
  simp only [isComplete, List.all_eq_true]
  constructor
  · intro h i call hcall
    exact h call (List.mem_of_getElem? hcall)
  · intro h call hmem
    obtain ⟨i, hi⟩ := List.mem_iff_getElem?.mp hmem
    exact h i call hi

/-! ## Completing a call -/

/-- A call of the active segment may be completed, or go on with its own session. -/
theorem Sound.setStatus (sound : plan.Sound) {o : Nat} {call : ToolCallState}
    {status : ToolCallStatus} {segment : ToolSegment}
    (hcall : plan.calls[o]? = some call) (hsegment : plan.currentSegment = some segment)
    (ho : o ∈ segment.callOrdinals) (hpending : status.isPending = false)
    (hsession : ∀ session, submittedSession { call with status } = some session →
      ∀ (j : Nat) (cj : ToolCallState), j ≠ o → plan.calls[j]? = some cj → submittedSession cj ≠ some session)
    (hwriting : call.name = "write_stdin" → ∀ progress, status.inProgress = some progress →
      progress.sessionId.isSome = true ∧ progress.sessionId = inputSessionId call.input)
    (horder : status.isActive = true → call.name = "write_stdin" →
      ∀ session, inputSessionId call.input = some session → ∀ (i : Nat) (ci : ToolCallState), i < o →
        plan.calls[i]? = some ci → ci.name = "write_stdin" →
        inputSessionId ci.input = some session → ci.status.isCompleted = true)
    (hkeep : call.status.isCompleted = true → status.isCompleted = true) :
    (plan.setStatus o status).Sound where
  ordinals i call' h := by
    obtain ⟨c, hc, rfl⟩ := get_setStatus h
    have := sound.ordinals i c hc
    split <;> simpa using this
  covered i call' h := by
    obtain ⟨c, hc, rfl⟩ := get_setStatus h
    by_cases hi : i = o
    · subst hi
      right
      exact mem_scheduled.mpr ⟨_, segment, hsegment, ho⟩
    · simpa [hi] using sound.covered i c hc
  increasing := sound.increasing
  present o' h := by simpa using sound.present o' h
  alone s hs o' ho' call' h hexclusive := by
    obtain ⟨c, hc, rfl⟩ := get_setStatus h
    refine sound.alone s hs o' ho' c hc ?_
    split at hexclusive <;> exact hexclusive
  objects i call' h hname hp := by
    obtain ⟨c, hc, rfl⟩ := get_setStatus h
    by_cases hi : i = o
    · simp [hi, hpending] at hp
    · simp only [hi, if_false] at hname hp ⊢
      exact sound.objects i c hc hname hp
  earlier i s hs hi o' ho' call' h := by
    obtain ⟨c, hc, rfl⟩ := get_setStatus h
    have hdone := sound.earlier i s hs hi o' ho' c hc
    by_cases heq : o' = o
    · subst heq
      rw [hc] at hcall
      cases hcall
      simpa using hkeep hdone
    · simpa [heq] using hdone
  later i s hs hi o' ho' call' h := by
    obtain ⟨c, hc, rfl⟩ := get_setStatus h
    by_cases heq : o' = o
    · subst heq
      exact absurd (sound.segment_unique hs hsegment ho' ho) (by simp at hi; omega)
    · simpa [heq] using sound.later i s hs hi o' ho' c hc
  sessions i j ci cj session hi hj hsi hsj := by
    obtain ⟨c, hc, rfl⟩ := get_setStatus hi
    obtain ⟨d, hd, rfl⟩ := get_setStatus hj
    by_cases hio : i = o <;> by_cases hjo : j = o
    · omega
    · subst hio
      rw [hc] at hcall
      cases hcall
      simp only [if_true, hjo, if_false] at hsi hsj
      exact absurd hsj (hsession session hsi j d hjo hd)
    · subst hjo
      rw [hd] at hcall
      cases hcall
      simp only [if_true, hio, if_false] at hsi hsj
      exact absurd hsi (hsession session hsj i c hio hc)
    · simp only [hio, hjo, if_false] at hsi hsj
      exact sound.sessions i j c d session hc hd hsi hsj
  writing i call' progress h hname hprogress := by
    obtain ⟨c, hc, rfl⟩ := get_setStatus h
    by_cases hi : i = o
    · subst hi
      rw [hc] at hcall
      cases hcall
      simp only [if_true] at hname hprogress ⊢
      exact hwriting hname progress hprogress
    · simp only [hi, if_false] at hname hprogress ⊢
      exact sound.writing i c progress hc hname hprogress
  writeOrder i j ci cj session hij hi hj hni hnj hsi hsj hactive := by
    obtain ⟨c, hc, rfl⟩ := get_setStatus hi
    obtain ⟨d, hd, rfl⟩ := get_setStatus hj
    have hdone : c.status.isCompleted = true := by
      by_cases hjo : j = o
      · subst hjo
        rw [hd] at hcall
        cases hcall
        have hio : i ≠ j := by omega
        simp only [hio, if_false, if_true] at hni hnj hsi hsj hactive
        exact horder hactive hnj session hsj i c hij hc hni hsi
      · simp only [hjo, if_false] at hnj hsj hactive
        refine sound.writeOrder i j c d session hij hc hd ?_ hnj ?_ hsj hactive
        · split at hni <;> exact hni
        · split at hsi <;> exact hsi
    by_cases hio : i = o
    · subst hio
      rw [hc] at hcall
      cases hcall
      simpa using hkeep hdone
    · simpa [hio] using hdone

/-! ## Advancing -/

@[simp] theorem advance_calls : plan.advanceCompletedSegments.calls = plan.calls := rfl

@[simp] theorem advance_segments : plan.advanceCompletedSegments.segments = plan.segments := rfl

/-- After the completed segments stands one that is not completed, or none. -/
theorem advance_settled : plan.advanceCompletedSegments.Settled := by
  intro segment h
  have hget : (plan.segments.drop plan.activeSegment)[((plan.segments.drop
      plan.activeSegment).takeWhile plan.segmentCompleted).length]? = some segment := by
    rw [List.getElem?_drop]
    exact h
  suffices hlist : ∀ (p : ToolSegment → Bool) (xs : List ToolSegment),
      xs[(xs.takeWhile p).length]? = some segment → p segment = false from hlist _ _ hget
  intro p xs
  induction xs with
  | nil => simp
  | cons x xs ih =>
    by_cases hx : p x = true
    · simpa [hx] using ih
    · simp only [Bool.not_eq_true] at hx
      simp only [List.takeWhile_cons, hx, Bool.false_eq_true, if_false, List.length_nil,
        List.getElem?_cons_zero, Option.some.injEq]
      rintro rfl
      exact hx

theorem Sound.advance (sound : plan.Sound) : plan.advanceCompletedSegments.Sound where
  ordinals := sound.ordinals
  covered := sound.covered
  increasing := sound.increasing
  present := sound.present
  alone := sound.alone
  objects := sound.objects
  sessions := sound.sessions
  writing := sound.writing
  writeOrder := sound.writeOrder
  earlier i segment hs hi o ho call hcall := by
    by_cases hlt : i < plan.activeSegment
    · exact sound.earlier i segment hs hlt o ho call hcall
    · -- the segment is one of those that were passed over
      set passed := (plan.segments.drop plan.activeSegment).takeWhile plan.segmentCompleted
        with hpassed
      have hlen : i - plan.activeSegment < passed.length := by
        simp only [advanceCompletedSegments, ← hpassed] at hi
        omega
      have hget : passed[i - plan.activeSegment]? = some segment := by
        obtain ⟨rest, hrest⟩ : passed <+: plan.segments.drop plan.activeSegment :=
          List.takeWhile_prefix _
        have hplace : plan.activeSegment + (i - plan.activeSegment) = i := by omega
        have hfound : (plan.segments.drop plan.activeSegment)[i - plan.activeSegment]? = some segment := by
          rw [List.getElem?_drop, hplace]
          exact hs
        rw [← hrest] at hfound
        exact (List.getElem?_append_left hlen).symm.trans hfound
      have hall := List.mem_takeWhile_imp (List.mem_of_getElem? hget)
      simp only [segmentCompleted, List.all_eq_true] at hall
      have hdone := hall o ho
      simp only [callCompleted, advance_calls] at hdone hcall
      simpa [hcall] using hdone
  later i segment hs hi o ho call hcall := by
    refine sound.later i segment hs ?_ o ho call hcall
    simp only [advanceCompletedSegments] at hi
    omega

/-- A sound plan without an active segment is complete. -/
theorem Sound.complete_of_none (sound : plan.Sound) (h : plan.currentSegment = none) :
    plan.isComplete = true := by
  refine isComplete_iff.mpr fun i call hcall => ?_
  rcases sound.covered i call hcall with hdone | hmem
  · exact hdone
  obtain ⟨k, segment, hk, hi⟩ := mem_scheduled.mp hmem
  have hbound : plan.segments.length ≤ plan.activeSegment := List.getElem?_eq_none_iff.mp h
  have hlt := (List.getElem?_eq_some_iff.mp hk).1
  exact sound.earlier k segment hk (by omega) i hi call hcall

end ToolPlanState

end AgentPlatform.Harness
