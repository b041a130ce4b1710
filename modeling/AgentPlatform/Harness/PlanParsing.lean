import AgentPlatform.Harness.PlanInvariant

/-!
# Accepted plans

Every plan that `parse` accepts is sound and has work left in its first segment, if it has one.
-/

namespace AgentPlatform.Harness.ToolPlan

variable {lib : Foreign}

/-! ## The calls -/

/-- What `parse` knows of a call at its place. -/
structure ParsedAt (i : Nat) (call : ToolCallState) : Prop where
  ordinal : call.ordinal = i
  fresh : call.status.isPending = true ∨ call.status.isCompleted = true
  object : call.name = "write_stdin" → call.status.isPending = true →
    ∃ fields, call.input = .json (.object fields)

theorem parseFunctionInput_pending {value : Value} {descriptor : ToolDescriptor}
    (h : (parseFunctionInput lib value descriptor).2.isPending = true) :
    ∃ parsed, (parseFunctionInput lib value descriptor).1 = .json parsed ∧
      satisfies (.object (descriptor.parameters.getD [])) parsed = true := by
  unfold parseFunctionInput at h ⊢
  split at h
  · cases h
  · split at h
    · cases h
    · rename_i parsed _
      dsimp only at h ⊢
      split at h
      next hs => exact ⟨parsed, by simp [hs], hs⟩
      next => cases h

theorem parseFunctionInput_fresh (value : Value) (descriptor : ToolDescriptor) :
    (parseFunctionInput lib value descriptor).2.isPending = true ∨
      (parseFunctionInput lib value descriptor).2.isCompleted = true := by
  unfold parseFunctionInput
  split
  · exact .inr rfl
  · split
    · exact .inr rfl
    · dsimp only
      split
      · exact .inl rfl
      · exact .inr rfl

theorem parseCustomInput_fresh (value : Value) :
    (parseCustomInput value).2.isPending = true ∨
      (parseCustomInput value).2.isCompleted = true := by
  unfold parseCustomInput
  split
  · split
    · exact .inr rfl
    · exact .inl rfl
  · exact .inr rfl

theorem descriptor_writeStdin : ToolCatalog.descriptor lib "write_stdin" =
    some (ToolCatalog.functionTool "write_stdin"
      "Writes characters to an existing unified exec session and returns recent output."
      ToolCatalog.writeStdinParameters .parallelSafe) := by
  simp [ToolCatalog.descriptor, ToolCatalog.descriptors, ToolCatalog.functionTool, toolName]

/-- What an accepted call consists of. -/
theorem parseCall_ok {calls : List ToolCallState} {value : Value} {callKind : ToolCallKind}
    {call : ToolCallState} (h : parseCall lib calls value callKind = .ok call) :
    ∃ callId name descriptor, requiredNonemptyString value "call_id" = .ok callId ∧
      calls.any (·.callId == callId) = false ∧ ToolCatalog.descriptor lib name = some descriptor ∧
      descriptor.callKind = callKind ∧
      call = { callId, name, ordinal := calls.length, kind := callKind,
               input := (parseInput lib value descriptor callKind).1,
               scheduling := descriptor.scheduling,
               status := (parseInput lib value descriptor callKind).2 } := by
  unfold parseCall at h
  obtain ⟨callId, hid, h⟩ := Fallible.bind_ok h
  split at h
  · cases h
  next hnew =>
  obtain ⟨name, hname, h⟩ := Fallible.bind_ok h
  split at h
  · cases h
  next descriptor hdescriptor =>
  split at h
  · cases h
  next hkind =>
  split at h
  · cases h
  · cases h
    exact ⟨callId, name, descriptor, hid, by simpa using hnew, hdescriptor, by simpa using hkind,
      rfl⟩

theorem parsedAt_of_parseCall {calls : List ToolCallState} {value : Value}
    {callKind : ToolCallKind} {call : ToolCallState}
    (h : parseCall lib calls value callKind = .ok call) : ParsedAt calls.length call := by
  obtain ⟨callId, name, descriptor, -, -, hdescriptor, hkind, rfl⟩ := parseCall_ok h
  refine ⟨rfl, ?_, ?_⟩
  · cases callKind with
    | function => exact parseFunctionInput_fresh value descriptor
    | custom => exact parseCustomInput_fresh value
  · rintro rfl hpending
    rw [descriptor_writeStdin] at hdescriptor
    cases hdescriptor
    cases callKind with
    | function =>
      obtain ⟨parsed, hinput, hsatisfies⟩ := parseFunctionInput_pending hpending
      obtain ⟨fields, rfl⟩ := ToolCatalog.satisfies_closedObject hsatisfies
      exact ⟨fields, hinput⟩
    | custom => cases hkind

/-- What an accepted list of items gives, after the calls before it. -/
theorem parseItems_sound {items : List RawJson} {calls result : List ToolCallState}
    (h : parseItems lib items calls = .ok result)
    (before : ∀ i call, calls[i]? = some call → ParsedAt i call) :
    ∀ i call, result[i]? = some call → ParsedAt i call := by
  induction items generalizing calls with
  | nil =>
    cases h
    exact before
  | cons item items ih =>
    unfold parseItems at h
    split at h
    · cases h
    · split at h
      · exact ih h before
      · obtain ⟨call, hcall, h⟩ := Fallible.bind_ok h
        refine ih h fun i c hc => ?_
        rcases Nat.lt_or_ge i calls.length with hlt | hge
        · rw [List.getElem?_append_left hlt] at hc
          exact before i c hc
        · rw [List.getElem?_append_right hge, List.getElem?_singleton] at hc
          split at hc
          next hi =>
            cases hc
            have : i = calls.length := by omega
            exact this ▸ parsedAt_of_parseCall hcall
          next => cases hc

/-! ## The segments -/

/-- The segments of some calls. -/
structure SegmentsOf (calls : List ToolCallState) (segments : List ToolSegment) : Prop where
  flat : segments.flatMap (·.callOrdinals) = calls.map (·.ordinal)
  alike : ∀ segment ∈ segments, ∀ o ∈ segment.callOrdinals, ∃ call ∈ calls,
    call.ordinal = o ∧ call.scheduling = segment.scheduling
  alone : ∀ segment ∈ segments, segment.scheduling = .exclusive →
    ∃ o, segment.callOrdinals = [o]
  filled : ∀ segment ∈ segments, segment.callOrdinals ≠ []

/-- A segment of its own for the next call. -/
theorem SegmentsOf.single {calls : List ToolCallState} {segments : List ToolSegment}
    (h : SegmentsOf calls segments) (call : ToolCallState) :
    SegmentsOf (calls ++ [call]) (segments ++ [⟨call.scheduling, [call.ordinal]⟩]) where
  flat := by simp [h.flat]
  alike segment hmem o ho := by
    rcases List.mem_append.mp hmem with hmem | hmem
    · obtain ⟨c, hc, hco⟩ := h.alike segment hmem o ho
      exact ⟨c, List.mem_append_left _ hc, hco⟩
    · simp only [List.mem_singleton] at hmem
      subst hmem
      simp only [List.mem_singleton] at ho
      exact ⟨call, by simp, ho.symm, rfl⟩
  alone segment hmem hexclusive := by
    rcases List.mem_append.mp hmem with hmem | hmem
    · exact h.alone segment hmem hexclusive
    · simp only [List.mem_singleton] at hmem
      exact ⟨call.ordinal, by rw [hmem]⟩
  filled segment hmem := by
    rcases List.mem_append.mp hmem with hmem | hmem
    · exact h.filled segment hmem
    · simp only [List.mem_singleton] at hmem
      simp [hmem]

/-- The next parallel-safe call in the last segment, which is parallel-safe too. -/
theorem SegmentsOf.join {calls : List ToolCallState} {front : List ToolSegment}
    {ordinals : List Nat} (h : SegmentsOf calls (front ++ [⟨.parallelSafe, ordinals⟩]))
    {call : ToolCallState} (hcall : call.scheduling = .parallelSafe) :
    SegmentsOf (calls ++ [call]) (front ++ [⟨.parallelSafe, ordinals ++ [call.ordinal]⟩]) where
  flat := by
    have hflat := h.flat
    simp only [List.flatMap_append, List.flatMap_cons, List.flatMap_nil, List.append_nil,
      List.map_append, List.map_cons, List.map_nil] at hflat ⊢
    rw [← hflat, List.append_assoc]
  alike segment hmem o ho := by
    rcases List.mem_append.mp hmem with hmem | hmem
    · obtain ⟨c, hc, hco⟩ := h.alike segment (List.mem_append_left _ hmem) o ho
      exact ⟨c, List.mem_append_left _ hc, hco⟩
    · simp only [List.mem_singleton] at hmem
      subst hmem
      rcases List.mem_append.mp ho with ho | ho
      · obtain ⟨c, hc, hco⟩ := h.alike ⟨.parallelSafe, ordinals⟩ (by simp) o ho
        exact ⟨c, List.mem_append_left _ hc, hco⟩
      · simp only [List.mem_singleton] at ho
        exact ⟨call, by simp, ho.symm, hcall⟩
  alone segment hmem hexclusive := by
    rcases List.mem_append.mp hmem with hmem | hmem
    · exact h.alone segment (List.mem_append_left _ hmem) hexclusive
    · simp only [List.mem_singleton] at hmem
      subst hmem
      cases hexclusive
  filled segment hmem := by
    rcases List.mem_append.mp hmem with hmem | hmem
    · exact h.filled segment (List.mem_append_left _ hmem)
    · simp only [List.mem_singleton] at hmem
      simp [hmem]

theorem SegmentsOf.extend {calls : List ToolCallState} {segments : List ToolSegment}
    (h : SegmentsOf calls segments) (call : ToolCallState) :
    SegmentsOf (calls ++ [call]) (extendSegments segments call) := by
  unfold extendSegments
  split
  next ordinals hcall hlast =>
    obtain ⟨front, rfl⟩ := List.getLast?_eq_some_iff.mp hlast
    rw [List.dropLast_concat]
    exact h.join hcall
  next => exact h.single call

theorem buildSegments_sound (calls : List ToolCallState) :
    SegmentsOf (calls.filter (·.status.isPending)) (buildSegments calls) := by
  suffices h : ∀ rest done segments, SegmentsOf done segments →
      SegmentsOf (done ++ rest) (rest.foldl extendSegments segments) by
    exact h (calls.filter (·.status.isPending)) [] [] ⟨rfl, by simp, by simp, by simp⟩
  intro rest
  induction rest with
  | nil => simp
  | cons call rest ih =>
    intro done segments h
    have := ih (done ++ [call]) _ (h.extend call)
    simpa using this

/-! ## The plan -/

/-- Where a pending call of a list stands. -/
theorem mem_pending {calls : List ToolCallState}
    (parsed : ∀ i call, calls[i]? = some call → ParsedAt i call) {call : ToolCallState}
    (h : call ∈ calls.filter (·.status.isPending)) :
    calls[call.ordinal]? = some call ∧ call.status.isPending = true := by
  obtain ⟨hmem, hpending⟩ := List.mem_filter.mp h
  obtain ⟨i, hi⟩ := List.mem_iff_getElem?.mp hmem
  rw [(parsed i call hi).ordinal]
  exact ⟨hi, hpending⟩

/-- A plan over parsed calls is sound. -/
theorem sound_of_parsed {calls : List ToolCallState} (operationId : OperationId)
    (parsed : ∀ i call, calls[i]? = some call → ParsedAt i call) :
    ToolPlanState.Sound { assistantOperationId := operationId, calls,
                          segments := buildSegments calls, activeSegment := 0 } := by
  have hseg := buildSegments_sound calls
  have hwhere : ∀ segment ∈ buildSegments calls, ∀ o ∈ segment.callOrdinals,
      ∃ call, calls[o]? = some call ∧ call.status.isPending = true ∧
        call.scheduling = segment.scheduling := by
    intro segment hmem o ho
    obtain ⟨call, hcall, rfl, hscheduling⟩ := hseg.alike segment hmem o ho
    obtain ⟨hget, hpending⟩ := mem_pending parsed hcall
    exact ⟨call, hget, hpending, hscheduling⟩
  refine {
    ordinals := fun i call h => (parsed i call h).ordinal
    covered := fun i call h => ?_
    increasing := ?_
    present := fun o h => ?_
    alone := fun segment hmem o ho call hcall hexclusive => ?_
    objects := fun i call h => (parsed i call h).object
    earlier := fun i segment _ hi => absurd hi (Nat.not_lt_zero i)
    later := fun i segment hs _ o ho call hcall => ?_
    sessions := fun i j ci cj session hi _ hs _ => ?_
    writing := fun i call progress h _ hprogress => ?_
    writeOrder := fun i j ci cj session _ _ hj _ _ _ _ hactive => ?_ }
  · rcases (parsed i call h).fresh with hpending | hdone
    · right
      have hmem : call ∈ calls.filter (·.status.isPending) :=
        List.mem_filter.mpr ⟨List.mem_of_getElem? h, hpending⟩
      show i ∈ (buildSegments calls).flatMap (·.callOrdinals)
      rw [hseg.flat]
      exact List.mem_map.mpr ⟨call, hmem, (parsed i call h).ordinal⟩
    · exact .inl hdone
  · show ((buildSegments calls).flatMap (·.callOrdinals)).Pairwise (· < ·)
    rw [hseg.flat]
    refine List.Pairwise.sublist (List.filter_sublist.map _) ?_
    refine List.pairwise_iff_getElem.mpr fun i j hi hj hij => ?_
    simp only [List.length_map] at hi hj
    rw [List.getElem_map, List.getElem_map, (parsed i _ (List.getElem?_eq_getElem hi)).ordinal,
      (parsed j _ (List.getElem?_eq_getElem hj)).ordinal]
    exact hij
  · change o ∈ (buildSegments calls).flatMap (·.callOrdinals) at h
    obtain ⟨segment, hmem, ho⟩ := List.mem_flatMap.mp h
    obtain ⟨call, hcall, -⟩ := hwhere segment hmem o ho
    exact (List.getElem?_eq_some_iff.mp hcall).1
  · obtain ⟨c, hc, -, hscheduling⟩ := hwhere segment hmem o ho
    rw [show calls[o]? = some call from hcall] at hc
    cases hc
    obtain ⟨o', ho'⟩ := hseg.alone segment hmem (hscheduling ▸ hexclusive)
    rw [ho', List.mem_singleton] at ho
    rw [ho', ho]
  · obtain ⟨c, hc, hpending, -⟩ := hwhere segment (List.mem_of_getElem? hs) o ho
    rw [show calls[o]? = some call from hcall] at hc
    cases hc
    exact hpending
  · rcases (parsed i ci hi).fresh with h | h <;> cases hstatus : ci.status <;>
      simp_all [ToolCallStatus.isPending, ToolCallStatus.isCompleted,
        ToolExecution.submittedSession]
  · rcases (parsed i call h).fresh with h | h <;> cases hstatus : call.status <;>
      simp_all [ToolCallStatus.isPending, ToolCallStatus.isCompleted, ToolCallStatus.inProgress]
  · rcases (parsed j cj hj).fresh with h | h
    · simp [ToolCallStatus.not_active_of_pending h] at hactive
    · simp [ToolCallStatus.not_active_of_completed h] at hactive

/-- The first segment of a plan over parsed calls has work left. -/
theorem settled_of_parsed {calls : List ToolCallState} (operationId : OperationId)
    (parsed : ∀ i call, calls[i]? = some call → ParsedAt i call) :
    ToolPlanState.Settled { assistantOperationId := operationId, calls,
                            segments := buildSegments calls, activeSegment := 0 } := by
  intro segment h
  have hmem : segment ∈ buildSegments calls := List.mem_of_getElem? h
  have hseg := buildSegments_sound calls
  obtain ⟨o, ho⟩ := List.exists_mem_of_ne_nil _ (hseg.filled segment hmem)
  obtain ⟨call, hcall, rfl, -⟩ := hseg.alike segment hmem o ho
  obtain ⟨hget, hpending⟩ := mem_pending parsed hcall
  simp only [ToolPlanState.segmentCompleted, List.all_eq_false]
  refine ⟨call.ordinal, ho, ?_⟩
  simp [ToolPlanState.callCompleted, hget, ToolCallStatus.not_completed_of_pending hpending]

/-- What `parse` accepts. -/
theorem parse_ok {operationId : OperationId} {message : Message} {stopReason : StopReason}
    {plan : ToolPlanState} (h : parse lib operationId message stopReason = .ok (some plan)) :
    ∃ base provider content, message = .assistant base provider content ∧
      parseItems lib content [] = .ok plan.calls ∧ stopReason = .toolUse ∧
      plan = { assistantOperationId := operationId, calls := plan.calls,
               segments := buildSegments plan.calls, activeSegment := 0 } := by
  unfold parse at h
  split at h
  next base provider content =>
    obtain ⟨calls, hcalls, h⟩ := Fallible.bind_ok h
    split at h
    · split at h <;> cases h
    · split at h
      · cases h
      next hreason =>
        cases h
        exact ⟨base, provider, content, rfl, hcalls, by simpa using hreason, rfl⟩
  next => cases h

/-- Every accepted plan is sound and ready for the scheduler. -/
theorem parse_sound {operationId : OperationId} {message : Message} {stopReason : StopReason}
    {plan : ToolPlanState} (h : parse lib operationId message stopReason = .ok (some plan)) :
    plan.Sound ∧ plan.Settled := by
  obtain ⟨_, _, content, -, hcalls, -, hplan⟩ := parse_ok h
  have parsed : ∀ i call, plan.calls[i]? = some call → ParsedAt i call :=
    parseItems_sound hcalls (by simp)
  rw [hplan]
  exact ⟨sound_of_parsed operationId parsed, settled_of_parsed operationId parsed⟩

/-- Nothing was done yet for the calls of an accepted plan. -/
theorem parse_fresh {operationId : OperationId} {message : Message} {stopReason : StopReason}
    {plan : ToolPlanState} (h : parse lib operationId message stopReason = .ok (some plan)) {i : Nat}
    {call : ToolCallState} (hcall : plan.calls[i]? = some call) :
    call.status.isPending = true ∨ call.status.isCompleted = true := by
  obtain ⟨_, _, content, -, hcalls, -, -⟩ := parse_ok h
  have before : ∀ (i : Nat) (c : ToolCallState), ([] : List ToolCallState)[i]? = some c →
      ParsedAt i c := by
    intro i c hc
    cases hc
  exact (parseItems_sound hcalls before i call hcall).fresh

end AgentPlatform.Harness.ToolPlan
