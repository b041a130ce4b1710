import AgentPlatform.Harness.CancellationStatus
import AgentPlatform.Harness.Completions
import Mathlib.Data.List.Count

/-!
# The completions of a cancelled session

What a session that is being cancelled has in flight is what its records wait for, so whatever order
the completions come in, each finds its record, and the last one leaves the session cancelled. One
order breaks this: an execution whose withdrawal is still under way ends, and nothing is known of
its process.
-/

namespace AgentPlatform.Harness

namespace Cancellation

/-! ## What the records wait for -/

/-- An operation with its kind. -/
abbrev Key := OperationId × OperationKind

/-- The operation of a target that has not ended. -/
def owedOriginal (target : CancellationTarget) : Option Key :=
  if target.originalCompleted then none
  else some (target.operationId, target.kind.operationKind)

/-- The control operation that a target waits for. -/
def owedControl (target : CancellationTarget) : Option Key :=
  match target.control with
  | .withdrawalRequested control => some (control, .withdraw)
  | .llmCancellationRequested control _ => some (control, .llmCancellation)
  | _ => none

/-- The control operation that a process waits for. -/
def owedProcess (process : ProcessCleanup) : Option Key :=
  match process.control with
  | .interruptRequested control => some (control, .execution)
  | .terminateRequested control _ => some (control, .execution)
  | .settled => none

/-- The discovery that is under way. -/
def owedDiscovery (discovery : Option ProcessDiscovery) : List Key :=
  (discovery.map fun discovery => (discovery.operationId, OperationKind.execution)).toList

/-- The operations that the records of a cancellation wait for. -/
def owed (cancellation : CancellationState) : List Key :=
  cancellation.targets.filterMap owedOriginal ++ cancellation.targets.filterMap owedControl ++
    cancellation.processes.filterMap owedProcess ++ owedDiscovery cancellation.discovery

variable {agent : Agent} {c c' c'' : Cleanup} {sid : SessionId} {sequence : EventSequence}
  {id : OperationId} {kind : OperationKind} {outcome : OperationOutcome}

/-- A part of a cleanup that takes in some operations and waits for those that it stages. -/
def Exchanges (c c' : Cleanup) (taken : List Key) : Prop :=
  ∃ staged, stagedKeys c'.result = stagedKeys c.result ++ staged ∧
    (taken ++ owed c'.cancellation).Perm (owed c.cancellation ++ staged)

theorem Exchanges.refl (c : Cleanup) : Exchanges c c [] :=
  ⟨[], (List.append_nil _).symm, by rw [List.append_nil]; exact .refl _⟩

theorem Exchanges.trans {taken taken' : List Key} (first : Exchanges c c' taken)
    (rest : Exchanges c' c'' taken') : Exchanges c c'' (taken ++ taken') := by
  obtain ⟨staged, hstaged, hperm⟩ := first
  obtain ⟨staged', hstaged', hperm'⟩ := rest
  refine ⟨staged ++ staged', ?_, ?_⟩
  · rw [hstaged', hstaged, List.append_assoc]
  · rw [List.append_assoc]
    refine (hperm'.append_left taken).trans ?_
    rw [← List.append_assoc, ← List.append_assoc]
    exact hperm.append_right staged'

/-- What follows takes in nothing. -/
theorem Exchanges.andThen {taken : List Key} (first : Exchanges c c' taken)
    (rest : Exchanges c' c'' []) : Exchanges c c'' taken := by
  have both := first.trans rest
  rwa [List.append_nil] at both

/-- A change of the records alone. -/
theorem exchanges_records {taken : List Key} (operations : stagedKeys c'.result = stagedKeys c.result)
    (perm : (taken ++ owed c'.cancellation).Perm (owed c.cancellation)) : Exchanges c c' taken :=
  ⟨[], by rw [operations, List.append_nil], by rw [List.append_nil]; exact perm⟩

theorem stagedKeys_push (b : OutcomeBuilder BasicCodexState) (request : OperationRequest) :
    stagedKeys (b.pushOperation request).2 = stagedKeys b ++ [(b.nextId, request.kind)] := by
  show (b.outcome.operations ++ [_]).map _ = _
  rw [List.map_append]
  rfl

/-! ## Changes of one record -/

/-- A target that changes is exchanged for what it becomes. -/
theorem owed_modify_target {cancellation : CancellationState} {index : Nat}
    {target : CancellationTarget} (found : cancellation.targets[index]? = some target)
    (change : CancellationTarget → CancellationTarget) :
    ((owedOriginal target).toList ++ (owedControl target).toList ++
      owed { cancellation with targets := cancellation.targets.modify index change }).Perm
    ((owedOriginal (change target)).toList ++ (owedControl (change target)).toList ++
      owed cancellation) := by
  have hoperation := Modified.filterMap_exchanges owedOriginal change found
  have hcontrol := Modified.filterMap_exchanges owedControl change found
  rw [List.perm_iff_count]
  intro key
  have h₁ := hoperation.count_eq key
  have h₂ := hcontrol.count_eq key
  simp only [owed, List.count_append] at h₁ h₂ ⊢
  omega

/-- A process that changes is exchanged for what it becomes. -/
theorem owed_modify_process {cancellation : CancellationState} {index : Nat}
    {process : ProcessCleanup} (found : cancellation.processes[index]? = some process)
    (change : ProcessCleanup → ProcessCleanup) :
    ((owedProcess process).toList ++
      owed { cancellation with processes := cancellation.processes.modify index change }).Perm
    ((owedProcess (change process)).toList ++ owed cancellation) := by
  have hprocess := Modified.filterMap_exchanges owedProcess change found
  rw [List.perm_iff_count]
  intro key
  have h := hprocess.count_eq key
  simp only [owed, List.count_append] at h ⊢
  omega

/-- A discovery is exchanged for the next. -/
theorem owed_setDiscovery (cancellation : CancellationState) (discovery : Option ProcessDiscovery) :
    (owedDiscovery cancellation.discovery ++ owed { cancellation with discovery }).Perm
      (owedDiscovery discovery ++ owed cancellation) := by
  rw [List.perm_iff_count]
  intro key
  simp only [owed, List.count_append]
  omega

/-! ## Staging -/

theorem stageInterrupt_exchanges (sessionId : Option Int) (handle : Execution.ExecutionHandle) :
    Exchanges c (stageInterrupt agent sequence c sessionId handle) [] := by
  unfold stageInterrupt
  split
  · exact .refl c
  · refine ⟨[(c.result.nextId, .execution)], stagedKeys_push _ _, ?_⟩
    show (owed { c.cancellation with processes := c.cancellation.processes ++ [_] }).Perm _
    rw [List.perm_iff_count]
    intro key
    simp only [owed, List.filterMap_append, List.count_append]
    have hnew : ([{ sessionId, handle, control := .interruptRequested c.result.nextId }] :
        List ProcessCleanup).filterMap owedProcess = [(c.result.nextId, .execution)] := rfl
    show _ + (_ + List.count key (List.filterMap owedProcess
      [{ sessionId, handle, control := .interruptRequested c.result.nextId }])) + _ = _
    rw [hnew]
    omega

theorem stageInterrupts_exchanges (processes : List Execution.Execution) :
    Exchanges c (stageInterrupts agent sequence c processes) [] := by
  unfold stageInterrupts
  induction processes generalizing c with
  | nil => exact .refl c
  | cons execution processes ih =>
    rw [List.foldl_cons]
    split
    · exact ih
    · exact (stageInterrupt_exchanges none execution.handle).trans ih

theorem stageTerminate_exchanges {index attempt : Nat} {process : ProcessCleanup} {key : Key}
    (found : c.cancellation.processes[index]? = some process)
    (awaited : owedProcess process = some key) (handle : Execution.ExecutionHandle) :
    Exchanges c (stageTerminate agent c index handle attempt) [key] := by
  refine ⟨[(c.result.nextId, .execution)], stagedKeys_push _ _, ?_⟩
  have hperm := owed_modify_process found fun process =>
    { process with control := .terminateRequested c.result.nextId attempt }
  rw [awaited] at hperm
  exact hperm.trans List.perm_append_comm

theorem settleProcess_exchanges {index : Nat} {process : ProcessCleanup} {key : Key}
    (found : c.cancellation.processes[index]? = some process)
    (awaited : owedProcess process = some key) (sessionId : Option Int) :
    Exchanges c (settleProcess c index sessionId) [key] := by
  have hperm := owed_modify_process found fun process => { process with control := .settled }
  rw [awaited] at hperm
  cases sessionId <;> exact exchanges_records rfl hperm

theorem stageDiscovery_exchanges (attempt : Nat) :
    Exchanges c (stageDiscovery agent sid c attempt) (owedDiscovery c.cancellation.discovery) := by
  refine ⟨[(c.result.nextId, .execution)], stagedKeys_push _ _, ?_⟩
  have hperm := owed_setDiscovery c.cancellation (some { operationId := c.result.nextId, attempt })
  exact hperm.trans List.perm_append_comm

/-- What a target waits for. -/
def owedTarget (target : CancellationTarget) : List Key :=
  (owedOriginal target).toList ++ (owedControl target).toList

/-- A target that changes while operations are staged for it. -/
theorem setTargets_exchanges {index : Nat} {target : CancellationTarget} {taken staged : List Key}
    (found : c.cancellation.targets[index]? = some target)
    (change : CancellationTarget → CancellationTarget) (result : OutcomeBuilder BasicCodexState)
    (operations : stagedKeys result = stagedKeys c.result ++ staged)
    (perm : (owedTarget target ++ staged).Perm (taken ++ owedTarget (change target))) :
    Exchanges c (Cleanup.setTargets { c with result } (c.cancellation.targets.modify index change))
      taken := by
  refine ⟨staged, operations, ?_⟩
  have hperm := owed_modify_target found change
  show (taken ++ owed { c.cancellation with
    targets := c.cancellation.targets.modify index change }).Perm _
  rw [List.perm_iff_count]
  intro key
  have h := perm.count_eq key
  have h' := hperm.count_eq key
  simp only [owedTarget, List.count_append] at h h' ⊢
  omega

theorem withdrawTarget_exchanges {index : Nat}
    (quiet : ∀ target, c.cancellation.targets[index]? = some target → owedControl target = none) :
    Exchanges c (withdrawTarget c index) [] := by
  unfold withdrawTarget
  split
  · exact .refl c
  next target found =>
    refine setTargets_exchanges found _ _ (stagedKeys_push c.result (.withdraw target.operationId)) ?_
    show ((owedOriginal target).toList ++ (owedControl target).toList ++ _).Perm _
    rw [quiet target found, Option.toList_none, List.append_nil]
    exact .refl _

/-! ## Completions -/

theorem mem_owed_control {cancellation : CancellationState} {index : Nat}
    {target : CancellationTarget} (found : cancellation.targets[index]? = some target) {key : Key}
    (awaited : owedControl target = some key) : key ∈ owed cancellation := by
  unfold owed
  refine List.mem_append_left _ (List.mem_append_left _ (List.mem_append_right _ ?_))
  exact List.mem_filterMap.mpr ⟨target, List.mem_of_getElem? found, awaited⟩

/-- What a target that awaits an operation waits for. -/
theorem owedControl_of_awaits {target : CancellationTarget} (awaits : target.control.awaits id = true) :
    (target.control = .withdrawalRequested id ∧ owedControl target = some (id, .withdraw)) ∨
      ∃ attempt, target.control = .llmCancellationRequested id attempt ∧
        owedControl target = some (id, .llmCancellation) := by
  unfold CancellationControl.awaits at awaits
  split at awaits
  next requested hcontrol =>
    obtain rfl := beq_iff_eq.mp awaits
    exact .inl ⟨hcontrol, by rw [owedControl, hcontrol]⟩
  next requested attempt hcontrol =>
    obtain rfl := beq_iff_eq.mp awaits
    exact .inr ⟨attempt, hcontrol, by rw [owedControl, hcontrol]⟩
  · cases awaits

/-- The target of a completed operation has no control operation more or less than before, unless
its withdrawal is forgotten. -/
theorem owedControl_completeTarget {target : CancellationTarget} {uncertain : Bool}
    (kept : uncertain = true → owedControl target = none) :
    owedControl (completeTarget uncertain target) = owedControl target := by
  cases uncertain with
  | true =>
    rw [kept rfl]
    rfl
  | false =>
    unfold owedControl completeTarget
    dsimp only
    rw [if_neg Bool.false_ne_true]
    by_cases hawaiting : target.control = .awaitingCompletion
    · rw [if_pos hawaiting, hawaiting]
    · rw [if_neg hawaiting]

/-- A target that waits for its control operation no longer. -/
theorem perm_released {target target' : CancellationTarget} {key : Key}
    (original : owedOriginal target' = owedOriginal target)
    (before : owedControl target = some key) (after : owedControl target' = none) :
    (owedTarget target ++ []).Perm ([key] ++ owedTarget target') := by
  rw [owedTarget, owedTarget, original, before, after, List.append_nil, Option.toList_none,
    List.append_nil]
  exact List.perm_append_comm

/-- A target that waits for the next control operation. -/
theorem perm_replaced {target target' : CancellationTarget} {key key' : Key}
    (original : owedOriginal target' = owedOriginal target)
    (before : owedControl target = some key) (after : owedControl target' = some key') :
    (owedTarget target ++ [key']).Perm ([key] ++ owedTarget target') := by
  rw [owedTarget, owedTarget, original, before, after]
  exact (List.perm_append_comm).append_right _

theorem recordCleanupFailure_exchanges (c : Cleanup) (id : OperationId) (code message : String) :
    Exchanges c (c.recordCleanupFailure id code message) [] :=
  exchanges_records rfl (.refl _)

theorem noted_exchanges
    (noted : c' = c ∨ ∃ code message, c' = c.recordCleanupFailure id code message) :
    Exchanges c c' [] := by
  rcases noted with rfl | ⟨code, message, rfl⟩
  · exact .refl c'
  · exact recordCleanupFailure_exchanges c id code message

theorem terminateAgain_exchanges {index attempt : Nat} {process : ProcessCleanup} {key : Key}
    (found : c.cancellation.processes[index]? = some process)
    (awaited : owedProcess process = some key) (failure : OperationFailure) :
    Exchanges c (terminateAgain agent sequence c index process id attempt failure) [key] := by
  have recorded := recordCleanupFailure_exchanges c id failure.code failure.message
  unfold terminateAgain
  split
  · have found' : (c.recordCleanupFailure id failure.code
        failure.message).cancellation.processes[index]? = some process := found
    exact recorded.trans (stageTerminate_exchanges found' awaited process.handle)
  · have found' : (c.recordCleanupFailure id failure.code
        failure.message).cancellation.processes[index]? = some process := found
    have settled := settleProcess_exchanges found' awaited process.sessionId
    exact (recorded.trans settled).andThen (exchanges_records rfl (.refl _))

/-- A target behind a discovery waits for what it waited for. -/
theorem owed_discovered (targets : List CancellationTarget) :
    (targets.map discovered).filterMap owedOriginal = targets.filterMap owedOriginal ∧
      (targets.map discovered).filterMap owedControl = targets.filterMap owedControl := by
  have hsame (target : CancellationTarget) :
      owedOriginal (discovered target) = owedOriginal target ∧
        owedControl (discovered target) = owedControl target := by
    unfold discovered
    by_cases hawaiting : target.control = .awaitingDiscovery
    · rw [if_pos hawaiting]
      exact ⟨rfl, by rw [owedControl, owedControl, hawaiting]⟩
    · rw [if_neg hawaiting]
      exact ⟨rfl, rfl⟩
  rw [List.filterMap_map, List.filterMap_map]
  constructor
  · exact List.filterMap_congr fun target _ => (hsame target).1
  · exact List.filterMap_congr fun target _ => (hsame target).2

/-- What is known of a completion and of the records that take it in. -/
structure Expected (cancellation : CancellationState) (id : OperationId)
    (kind : OperationKind) (outcome : OperationOutcome) : Prop where
  awaited : (id, kind) ∈ owed cancellation
  single : ∀ other, (id, other) ∈ owed cancellation → other = kind
  unended : ∀ target ∈ cancellation.targets, target.operationId = id →
    target.originalCompleted = false
  confirmed : confirmsWithdrawal outcome = true → ∀ target ∈ cancellation.targets,
    target.control = .withdrawalRequested id → target.originalCompleted = true
  apart : ∀ target ∈ cancellation.targets, target.kind = .execution → ∀ control attempt,
    target.control ≠ .llmCancellationRequested control attempt

/-- An execution whose withdrawal is under way does not end with its process unknown. -/
def Orderly (lib : Foreign) (cancellation : CancellationState) (id : OperationId)
    (outcome : OperationOutcome) : Prop :=
  ∀ target ∈ cancellation.targets, target.operationId = id → target.kind = .execution →
    isUncertain lib .execution outcome = true → ∀ control,
      target.control ≠ .withdrawalRequested control

/-- A target whose end leaves its process unknown waits for no control operation. -/
theorem Expected.quiet {cancellation : CancellationState} {index : Nat}
    {target : CancellationTarget} (expected : Expected cancellation id kind outcome)
    (orderly : Orderly agent.lib cancellation id outcome)
    (found : cancellation.targets[index]? = some target) (named : target.operationId = id)
    (same : target.kind = .execution) (uncertain : isUncertain agent.lib .execution outcome = true) :
    owedControl target = none := by
  have hmem := List.mem_of_getElem? found
  cases hcontrol : target.control with
  | withdrawalRequested control =>
    exact absurd hcontrol (orderly target hmem named same uncertain control)
  | llmCancellationRequested control attempt =>
    exact absurd hcontrol (expected.apart target hmem same control attempt)
  | awaitingCompletion | awaitingDiscovery | settled => rw [owedControl, hcontrol]

theorem originalEnded_exchanges {index : Nat} {target : CancellationTarget} {uncertain : Bool}
    (found : c.cancellation.targets[index]? = some target) (named : target.operationId = id)
    (unended : target.originalCompleted = false)
    (kept : uncertain = true → owedControl target = none) :
    Exchanges c (originalEnded agent sequence c index uncertain outcome)
      [(id, target.kind.operationKind)] := by
  have interrupted : Exchanges c
      (stageInterrupts agent sequence c (executionsFromOutcome agent.lib outcome)) [] :=
    stageInterrupts_exchanges _
  have found' : (stageInterrupts agent sequence c
      (executionsFromOutcome agent.lib outcome)).cancellation.targets[index]? = some target := by
    rw [stageInterrupts_targets]
    exact found
  refine interrupted.trans ?_
  refine setTargets_exchanges found' (completeTarget uncertain) _ (List.append_nil _).symm ?_
  have hbefore : owedOriginal target = some (id, target.kind.operationKind) := by
    rw [owedOriginal, unended, named]
    rfl
  rw [List.append_nil, owedTarget, owedTarget, owedControl_completeTarget kept, hbefore]
  exact .refl _

/-- The completion of an operation that the records wait for is exchanged for what it makes them
wait for. -/
theorem Taken.exchanges (taken : Taken agent sid sequence c id kind outcome c')
    (expected : Expected c.cancellation id kind outcome)
    (orderly : Orderly agent.lib c.cancellation id outcome) : Exchanges c c' [(id, kind)] := by
  cases taken with
  | @withdrawn index target found awaits =>
    have hmem := List.mem_of_getElem? found
    rcases owedControl_of_awaits awaits with ⟨hcontrol, howed⟩ | ⟨_, -, howed⟩
    · refine setTargets_exchanges found _ c.result (List.append_nil _).symm ?_
      have hcompleted := expected.confirmed rfl target hmem hcontrol
      rw [owedTarget, owedOriginal, if_pos hcompleted, howed]
      exact .refl _
    · cases expected.single _ (mem_owed_control found howed)
  | @keptLlm index target _ found awaits =>
    rcases owedControl_of_awaits awaits with ⟨-, howed⟩ | ⟨_, -, howed⟩
    · refine setTargets_exchanges found _ _
        (stagedKeys_push c.result (.llmCancellation target.operationId)) ?_
      exact perm_replaced rfl howed rfl
    · cases expected.single _ (mem_owed_control found howed)
  | @keptExecution index target _ found awaits =>
    rcases owedControl_of_awaits awaits with ⟨-, howed⟩ | ⟨_, -, howed⟩
    · refine setTargets_exchanges found _ c.result (List.append_nil _).symm ?_
      refine perm_released rfl howed ?_
      by_cases hcompleted : target.originalCompleted = true
      · simp [owedControl, hcompleted]
      · simp [owedControl, hcompleted]
    · cases expected.single _ (mem_owed_control found howed)
  | @llmSettled index attempt target control _ c₁ found awaits asked noted =>
    rcases owedControl_of_awaits awaits with ⟨-, howed⟩ | ⟨_, -, howed⟩
    · cases expected.single _ (mem_owed_control found howed)
    · have found' : c₁.cancellation.targets[index]? = some target := by
        rcases noted with rfl | ⟨_, _, rfl⟩ <;> exact found
      refine (noted_exchanges noted).trans ?_
      refine setTargets_exchanges found' _ c₁.result (List.append_nil _).symm ?_
      exact perm_released rfl howed rfl
  | @llmAgain index attempt target control _ _ _ found awaits asked =>
    rcases owedControl_of_awaits awaits with ⟨-, howed⟩ | ⟨_, -, howed⟩
    · cases expected.single _ (mem_owed_control found howed)
    · refine Exchanges.andThen ?_ (recordCleanupFailure_exchanges _ id _ _)
      refine setTargets_exchanges found _ _
        (stagedKeys_push c.result (.llmCancellation target.operationId)) ?_
      exact perm_replaced rfl howed rfl
  | @original kind index target _ found named same certain =>
    have hunended := expected.unended target (List.mem_of_getElem? found) named
    rw [← same]
    refine originalEnded_exchanges found named hunended fun uncertain => ?_
    have hkind : target.kind = .execution := by
      simp only [isUncertain, Bool.and_eq_true, beq_iff_eq] at uncertain
      exact uncertain.1.1
    rw [hkind] at uncertain
    exact expected.quiet orderly found named hkind uncertain
  | @originalUnknown index target _ found named same uncertain undiscovered =>
    have hunended := expected.unended target (List.mem_of_getElem? found) named
    have ended : Exchanges c (originalEnded agent sequence c index true outcome)
        [(id, target.kind.operationKind)] :=
      originalEnded_exchanges found named hunended fun _ =>
        expected.quiet orderly found named same uncertain
    rw [same] at ended
    have discovers : Exchanges (originalEnded agent sequence c index true outcome)
        (stageDiscovery agent sid (originalEnded agent sequence c index true outcome) 1)
        (owedDiscovery (originalEnded agent sequence c index true
          outcome).cancellation.discovery) := stageDiscovery_exchanges 1
    rw [undiscovered] at discovers
    exact ended.trans discovers
  | @interrupted index process _ found asked =>
    have howed : owedProcess process = some (id, .execution) := by rw [owedProcess, asked]
    unfold handleInterrupt
    split
    · exact settleProcess_exchanges found howed _
    · exact stageTerminate_exchanges found howed _
  | @terminated index attempt process _ found asked =>
    have howed : owedProcess process = some (id, .execution) := by rw [owedProcess, asked]
    rcases handleTerminate_cases agent sequence c index process id attempt outcome with h | ⟨f, h⟩
    · rw [h]
      exact settleProcess_exchanges found howed process.sessionId
    · rw [h]
      exact terminateAgain_exchanges found howed f
  | @discoverAgain attempt _ c₁ current noted =>
    have hcurrent : c₁.cancellation.discovery = some { operationId := id, attempt } := by
      rcases noted with rfl | ⟨_, _, rfl⟩ <;> exact current
    refine (noted_exchanges noted).trans ?_
    have discovers : Exchanges c₁ (stageDiscovery agent sid c₁ (attempt + 1))
        (owedDiscovery c₁.cancellation.discovery) := stageDiscovery_exchanges (attempt + 1)
    rw [hcurrent] at discovers
    exact discovers
  | @discovered attempt _ current =>
    have hperm := owed_setDiscovery c.cancellation none
    rw [current] at hperm
    obtain ⟨horiginal, hcontrol⟩ := owed_discovered c.cancellation.targets
    have hsame : owed { c.cancellation with
        discovery := none, targets := c.cancellation.targets.map Cancellation.discovered } =
          owed { c.cancellation with discovery := none } := by
      simp only [owed, horiginal, hcontrol]
    have settled : Exchanges c
        ((c.setDiscovery none).setTargets
          (c.cancellation.targets.map Cancellation.discovered))
        [(id, .execution)] := by
      refine exchanges_records rfl ?_
      show ([(id, OperationKind.execution)] ++ owed { c.cancellation with
        discovery := none, targets := c.cancellation.targets.map Cancellation.discovered }).Perm _
      rw [hsame]
      exact hperm
    exact settled.andThen (stageInterrupts_exchanges _)

/-! ## What is recorded -/

/-- What the records say of the operations that have ended. -/
structure Recorded (ended : OperationId → Prop) (cancellation : CancellationState) : Prop where
  ended : ∀ target ∈ cancellation.targets, target.originalCompleted = true →
    ended target.operationId
  discovers : ∀ target ∈ cancellation.targets, target.control = .awaitingDiscovery →
    cancellation.discovery.isSome = true

section

variable {ended : OperationId → Prop} {cancellation cancellation' : CancellationState}

theorem Recorded.mono {ended' : OperationId → Prop} (recorded : Recorded ended cancellation)
    (later : ∀ id, ended id → ended' id) : Recorded ended' cancellation where
  ended target htarget completed := later _ (recorded.ended target htarget completed)
  discovers := recorded.discovers

theorem Recorded.congr (recorded : Recorded ended cancellation)
    (targets : cancellation'.targets = cancellation.targets)
    (discovery : cancellation.discovery.isSome = true → cancellation'.discovery.isSome = true) :
    Recorded ended cancellation' where
  ended := by
    rw [targets]
    exact recorded.ended
  discovers target htarget awaiting := by
    rw [targets] at htarget
    exact discovery (recorded.discovers target htarget awaiting)

/-- A change of one target. -/
theorem Recorded.modify (recorded : Recorded ended cancellation) {index : Nat}
    {target : CancellationTarget} {change : CancellationTarget → CancellationTarget}
    (found : cancellation.targets[index]? = some target)
    (targets : cancellation'.targets = cancellation.targets.modify index change)
    (discovery : cancellation.discovery.isSome = true → cancellation'.discovery.isSome = true)
    (completed : (change target).originalCompleted = true → ended (change target).operationId)
    (awaiting : (change target).control = .awaitingDiscovery → cancellation'.discovery.isSome = true) :
    Recorded ended cancellation' := by
  constructor
  · intro after hafter hcompleted
    rw [targets] at hafter
    rcases mem_modify hafter with hmem | ⟨before, hbefore, rfl⟩
    · exact recorded.ended after hmem hcompleted
    · cases hbefore.symm.trans found
      exact completed hcompleted
  · intro after hafter hawaiting
    rw [targets] at hafter
    rcases mem_modify hafter with hmem | ⟨before, hbefore, rfl⟩
    · exact discovery (recorded.discovers after hmem hawaiting)
    · cases hbefore.symm.trans found
      exact awaiting hawaiting

/-- The completion of an operation leaves records that say what has ended. -/
theorem Taken.recorded (taken : Taken agent sid sequence c id kind outcome c')
    (recorded : Recorded ended c.cancellation) (expected : Expected c.cancellation id kind outcome)
    (now : ended id) : Recorded ended c'.cancellation := by
  cases taken with
  | @withdrawn index target found awaits =>
    have hmem := List.mem_of_getElem? found
    refine recorded.modify found rfl (fun h => h) (fun _ => ?_) (fun h => by cases h)
    rcases owedControl_of_awaits awaits with ⟨hcontrol, -⟩ | ⟨_, -, howed⟩
    · exact recorded.ended target hmem (expected.confirmed rfl target hmem hcontrol)
    · cases expected.single _ (mem_owed_control found howed)
  | @keptLlm index target _ found =>
    refine recorded.modify found rfl (fun h => h) ?_ (fun h => by cases h)
    exact recorded.ended target (List.mem_of_getElem? found)
  | @keptExecution index target _ found =>
    refine recorded.modify found rfl (fun h => h) ?_ (fun h => ?_)
    · exact recorded.ended target (List.mem_of_getElem? found)
    · dsimp only at h
      split at h <;> cases h
  | @llmSettled index attempt target control _ c₁ found awaits asked noted =>
    have hsame : c₁.cancellation.targets = c.cancellation.targets ∧
        c₁.cancellation.discovery = c.cancellation.discovery := by
      rcases noted with rfl | ⟨_, _, rfl⟩ <;> exact ⟨rfl, rfl⟩
    have recorded₁ : Recorded ended c₁.cancellation :=
      recorded.congr hsame.1 fun h => by rw [hsame.2]; exact h
    have found₁ : c₁.cancellation.targets[index]? = some target := by
      rw [hsame.1]
      exact found
    refine recorded₁.modify found₁ rfl (fun h => h) ?_ (fun h => by cases h)
    exact recorded₁.ended target (List.mem_of_getElem? found₁)
  | @llmAgain index attempt target _ _ _ _ found =>
    refine recorded.modify found rfl (fun h => h) ?_ (fun h => by cases h)
    exact recorded.ended target (List.mem_of_getElem? found)
  | @original kind index target _ found named same certain =>
    refine recorded.modify found (originalEnded_targets _ _) ?_ (fun _ => ?_) (fun h => ?_)
    · rw [originalEnded_discovery]
      exact fun h => h
    · show ended target.operationId
      rw [named]
      exact now
    · -- a target that begins to wait for a discovery finds one under way
      by_cases huncertain : isUncertain agent.lib kind outcome = true
      · rw [Option.isSome_iff_ne_none]
        intro hnone
        exact certain ⟨huncertain, Option.isNone_iff_eq_none.mpr hnone⟩
      · rw [originalEnded_discovery]
        unfold completeTarget at h
        dsimp only at h
        rw [if_neg huncertain] at h
        split at h
        · cases h
        · exact recorded.discovers target (List.mem_of_getElem? found) h
  | @originalUnknown index target _ found named same uncertain undiscovered =>
    refine recorded.modify found (originalEnded_targets _ _) (fun _ => rfl) (fun _ => ?_)
      (fun _ => rfl)
    show ended target.operationId
    rw [named]
    exact now
  | interrupted =>
    refine recorded.congr (handleInterrupt_targets _ _) fun h => ?_
    rw [handleInterrupt_discovery]
    exact h
  | terminated =>
    refine recorded.congr (handleTerminate_targets _ _ _) fun h => ?_
    rw [handleTerminate_discovery]
    exact h
  | discoverAgain current noted =>
    refine recorded.congr ?_ fun _ => rfl
    rcases noted with rfl | ⟨_, _, rfl⟩ <;> rfl
  | discovered current =>
    have htargets (target : CancellationTarget) :
        (Cancellation.discovered target).operationId = target.operationId ∧
          (Cancellation.discovered target).originalCompleted = target.originalCompleted ∧
            (Cancellation.discovered target).control ≠ .awaitingDiscovery := by
      unfold Cancellation.discovered
      split
      · exact ⟨rfl, rfl, fun h => by cases h⟩
      next hother => exact ⟨rfl, rfl, hother⟩
    constructor
    · intro target htarget completed
      rw [stageInterrupts_targets] at htarget
      obtain ⟨before, hbefore, rfl⟩ := List.mem_map.mp htarget
      rw [(htargets before).2.1] at completed
      rw [(htargets before).1]
      exact recorded.ended before hbefore completed
    · intro target htarget awaiting
      rw [stageInterrupts_targets] at htarget
      obtain ⟨before, hbefore, rfl⟩ := List.mem_map.mp htarget
      exact absurd awaiting (htargets before).2.2

end

/-! ## Beginning -/

theorem exchanges_foldl {α : Type} (f : Cleanup → α → Cleanup) (hf : ∀ c a, Exchanges c (f c a) [])
    (items : List α) (c : Cleanup) : Exchanges c (items.foldl f c) [] := by
  induction items generalizing c with
  | nil => exact .refl c
  | cons a items ih => exact (hf c a).andThen (ih (f c a))

theorem withdrawTarget_targets (c : Cleanup) (index : Nat) {other : Nat} (apart : other ≠ index) :
    (withdrawTarget c index).cancellation.targets[other]? = c.cancellation.targets[other]? := by
  unfold withdrawTarget
  split
  · rfl
  · show (c.cancellation.targets.modify index _)[other]? = _
    simp [apart.symm]

/-- Withdrawing each target once. -/
theorem withdrawTargets_exchanges {indices : List Nat} (distinct : indices.Nodup)
    (quiet : ∀ index ∈ indices, ∀ target, c.cancellation.targets[index]? = some target →
      owedControl target = none) : Exchanges c (indices.foldl withdrawTarget c) [] := by
  induction indices generalizing c with
  | nil => exact .refl c
  | cons index indices ih =>
    obtain ⟨hnot, hdistinct⟩ := List.nodup_cons.mp distinct
    have first := withdrawTarget_exchanges (quiet index List.mem_cons_self)
    refine first.andThen (ih hdistinct fun other hother target found => ?_)
    have hapart : other ≠ index := fun heq => hnot (heq ▸ hother)
    rw [withdrawTarget_targets c index hapart] at found
    exact quiet other (List.mem_cons_of_mem _ hother) target found

/-- The targets of a cancellation are what the turn refers to. -/
theorem inFlight_referenced {state : BasicCodexState}
    {targets : List (OperationId × CancellationTargetKind)} (h : inFlight state = .ok targets) :
    targets.map (fun target => (target.1, target.2.operationKind)) = referenced state := by
  unfold inFlight at h
  split at h
  next hturn =>
    cases h
    exact (referenced_none hturn).symm
  next active hactive =>
    split at h
    next awaiting hphase =>
      cases h
      exact (referenced_awaiting hactive hphase).symm
    next compaction hphase =>
      cases h
      exact (referenced_compacting hactive hphase).symm
    next plan hphase =>
      cases h
      rw [referenced_executing hactive hphase]
      show _ = (plan.calls.filterMap submittedOperation).map _
      rw [List.map_filterMap, List.map_filterMap]
      refine List.filterMap_congr fun call _ => ?_
      unfold submittedOperation
      cases call.status <;> rfl
    · cases h

/-- Nothing has ended before a cancellation begins. -/
theorem withdrawTarget_recorded (recorded : Recorded (fun _ => False) c.cancellation) (index : Nat) :
    Recorded (fun _ => False) (withdrawTarget c index).cancellation := by
  unfold withdrawTarget
  split
  · exact recorded
  next target found =>
    refine recorded.modify found rfl (fun h => h) ?_ (fun h => by cases h)
    exact recorded.ended target (List.mem_of_getElem? found)

theorem withdrawTargets_recorded (indices : List Nat)
    (recorded : Recorded (fun _ => False) c.cancellation) :
    Recorded (fun _ => False) (indices.foldl withdrawTarget c).cancellation := by
  induction indices generalizing c with
  | nil => exact recorded
  | cons index indices ih => exact ih (withdrawTarget_recorded recorded index)

theorem interruptTracked_discovery (agent : Agent) (sequence : EventSequence) (c : Cleanup)
    (tracked : List TrackedExecution) : (tracked.foldl (fun c tracked =>
      stageInterrupt agent sequence c (some tracked.sessionId) tracked.handle)
        c).cancellation.discovery = c.cancellation.discovery := by
  induction tracked generalizing c with
  | nil => rfl
  | cons first tracked ih => rw [List.foldl_cons, ih, stageInterrupt_discovery]

/-- The records before the first withdrawal. -/
def started (state : BasicCodexState) (reason : Option String) (sequence : EventSequence)
    (nextId : Uuid) (targets : List (OperationId × CancellationTargetKind)) : Cleanup where
  result := .new { state with activeTurn := state.activeTurn.map cancelTurn } nextId
  cancellation := {
    reason
    requestedAtSequence := sequence
    turnId := state.activeTurn.map (·.id)
    targets := targets.map newTarget
    processes := []
    discovery := none
    cleanupFailures := [] }

section

variable {state : BasicCodexState} {reason : Option String} {nextId : Uuid}

theorem owed_started (targets : List (OperationId × CancellationTargetKind)) :
    owed (started state reason sequence nextId targets).cancellation =
      targets.map fun target => (target.1, target.2.operationKind) := by
  show (targets.map newTarget).filterMap owedOriginal ++
    (targets.map newTarget).filterMap owedControl ++ [] ++ [] = _
  have hcontrol : (targets.map newTarget).filterMap owedControl = [] := by
    rw [List.filterMap_map]
    exact List.filterMap_eq_nil_iff.mpr fun _ _ => rfl
  rw [hcontrol, List.append_nil, List.append_nil, List.append_nil, List.filterMap_map]
  exact congrFun (List.filterMap_eq_map (f := fun target => (target.1, target.2.operationKind))) targets

/-- A cancellation begins with what the turn refers to, and waits for it and for what it stages. -/
theorem begin_exchanges {r : OutcomeBuilder BasicCodexState}
    (h : Cancellation.begin agent state reason sequence nextId = .ok r) :
    ∃ c, r = setLifecycleStatus c true ∧
      (owed c.cancellation).Perm (referenced state ++ stagedKeys c.result) ∧
      Recorded (fun _ => False) c.cancellation := by
  unfold Cancellation.begin at h
  split at h
  · cases h
  next targets htargets =>
    cases h
    refine ⟨_, rfl, ?_, ?_⟩
    · have hwithdrawn : Exchanges (started state reason sequence nextId targets)
          ((List.range targets.length).foldl withdrawTarget
            (started state reason sequence nextId targets)) [] := by
        refine withdrawTargets_exchanges List.nodup_range fun index _ target found => ?_
        obtain ⟨key, -, rfl⟩ := List.mem_map.mp (List.mem_of_getElem? found)
        rfl
      have hinterrupted := hwithdrawn.andThen (exchanges_foldl (fun c (tracked : TrackedExecution) =>
        stageInterrupt agent sequence c (some tracked.sessionId) tracked.handle)
        (fun c tracked => stageInterrupt_exchanges _ _) state.executions _)
      obtain ⟨staged, hstaged, hperm⟩ := hinterrupted
      rw [owed_started, inFlight_referenced htargets] at hperm
      have hkeys : stagedKeys (started state reason sequence nextId targets).result = [] := rfl
      rw [hkeys, List.nil_append] at hstaged
      rw [← hstaged] at hperm
      exact hperm
    · have hnew : Recorded (fun _ => False)
          (started state reason sequence nextId targets).cancellation := by
        constructor
        · intro target htarget completed
          obtain ⟨key, -, rfl⟩ := List.mem_map.mp htarget
          cases completed
        · intro target htarget awaiting
          obtain ⟨key, -, rfl⟩ := List.mem_map.mp htarget
          cases awaiting
      have hwithdrawn := withdrawTargets_recorded (List.range targets.length) hnew
      refine hwithdrawn.congr (interruptTracked_targets state.executions) fun h => ?_
      have hdiscovery := interruptTracked_discovery agent sequence
        ((List.range targets.length).foldl withdrawTarget
          (started state reason sequence nextId targets)) state.executions
      exact (congrArg Option.isSome hdiscovery).trans h

end

/-! ## Every completion finds its record -/

/-- What waits for an operation. -/
theorem owed_cases {cancellation : CancellationState} {key : Key} (h : key ∈ owed cancellation) :
    (∃ target ∈ cancellation.targets, owedOriginal target = some key) ∨
      (∃ target ∈ cancellation.targets, owedControl target = some key) ∨
        (∃ process ∈ cancellation.processes, owedProcess process = some key) ∨
          key ∈ owedDiscovery cancellation.discovery := by
  unfold owed at h
  rcases List.mem_append.mp h with h | h
  · rcases List.mem_append.mp h with h | h
    · rcases List.mem_append.mp h with h | h
      · exact .inl (List.mem_filterMap.mp h)
      · exact .inr (.inl (List.mem_filterMap.mp h))
    · exact .inr (.inr (.inl (List.mem_filterMap.mp h)))
  · exact .inr (.inr (.inr h))

theorem mem_owed_original {cancellation : CancellationState} {target : CancellationTarget}
    (mem : target ∈ cancellation.targets) {key : Key} (awaited : owedOriginal target = some key) :
    key ∈ owed cancellation := by
  unfold owed
  refine List.mem_append_left _ (List.mem_append_left _ (List.mem_append_left _ ?_))
  exact List.mem_filterMap.mpr ⟨target, mem, awaited⟩

theorem owedOriginal_some {target : CancellationTarget} {key : Key}
    (h : owedOriginal target = some key) :
    target.originalCompleted = false ∧ key = (target.operationId, target.kind.operationKind) := by
  unfold owedOriginal at h
  split at h
  · cases h
  next hopen =>
    cases h
    exact ⟨Bool.eq_false_iff.mpr hopen, rfl⟩

theorem owedControl_some {target : CancellationTarget} (h : owedControl target = some (id, kind)) :
    target.control.awaits id = true ∧ (kind = .withdraw ∨ kind = .llmCancellation) := by
  unfold owedControl at h
  split at h
  next control hcontrol =>
    cases h
    rw [hcontrol]
    exact ⟨beq_self_eq_true id, .inl rfl⟩
  next control attempt hcontrol =>
    cases h
    rw [hcontrol]
    exact ⟨beq_self_eq_true id, .inr rfl⟩
  · cases h

theorem owedProcess_some {process : ProcessCleanup} (h : owedProcess process = some (id, kind)) :
    process.control.awaits id = true ∧ kind = .execution := by
  unfold owedProcess at h
  split at h
  next control hcontrol =>
    cases h
    rw [hcontrol]
    exact ⟨beq_self_eq_true id, rfl⟩
  next control attempt hcontrol =>
    cases h
    rw [hcontrol]
    exact ⟨beq_self_eq_true id, rfl⟩
  · cases h

theorem owedDiscovery_some {discovery : Option ProcessDiscovery}
    (h : (id, kind) ∈ owedDiscovery discovery) :
    ∃ attempt, discovery = some { operationId := id, attempt } ∧ kind = .execution := by
  cases discovery with
  | none => cases h
  | some discovery =>
    obtain ⟨operationId, attempt⟩ := discovery
    cases List.mem_singleton.mp h
    exact ⟨attempt, rfl, rfl⟩

theorem operationKind_ne (kind : CancellationTargetKind) :
    kind.operationKind ≠ .withdraw ∧ kind.operationKind ≠ .llmCancellation := by
  cases kind <;> exact ⟨fun h => (by cases h), fun h => (by cases h)⟩

theorem operationKind_inj {kind kind' : CancellationTargetKind}
    (h : kind.operationKind = kind'.operationKind) : kind = kind' := by
  cases kind <;> cases kind' <;> first | rfl | cases h

theorem targetForControl_total {cancellation : CancellationState} {target : CancellationTarget}
    (mem : target ∈ cancellation.targets) (awaits : target.control.awaits id = true) :
    ∃ index, targetForControl cancellation id = .ok index := by
  unfold targetForControl
  cases hfind : cancellation.targets.findIdx? fun target => target.control.awaits id with
  | some index => exact ⟨index, rfl⟩
  | none =>
    rw [List.findIdx?_eq_none_iff] at hfind
    rw [hfind target mem] at awaits
    cases awaits

/-- A control operation of a target is one that it waits for. -/
theorem control_of_owed {cancellation : CancellationState}
    (awaited : (id, kind) ∈ owed cancellation) (control : kind = .withdraw ∨ kind = .llmCancellation) :
    ∃ target ∈ cancellation.targets, target.control.awaits id = true := by
  rcases owed_cases awaited with ⟨target, -, h⟩ | ⟨target, hmem, h⟩ | ⟨process, -, h⟩ | h
  · obtain ⟨-, heq⟩ := owedOriginal_some h
    obtain ⟨-, hkind⟩ := Prod.mk.inj heq
    rw [hkind] at control
    rcases control with hcontrol | hcontrol
    · exact absurd hcontrol (operationKind_ne target.kind).1
    · exact absurd hcontrol (operationKind_ne target.kind).2
  · exact ⟨target, hmem, (owedControl_some h).1⟩
  · rw [(owedProcess_some h).2] at control
    rcases control with h | h <;> cases h
  · obtain ⟨_, -, hkind⟩ := owedDiscovery_some h
    rw [hkind] at control
    rcases control with h | h <;> cases h

theorem handleWithdrawal_total (awaited : (id, .withdraw) ∈ owed c.cancellation)
    (allowed : succeedsAs .withdraw outcome = true) :
    ∃ c', handleWithdrawal c id outcome = .ok c' := by
  obtain ⟨target, hmem, awaits⟩ := control_of_owed awaited (.inl rfl)
  obtain ⟨index, hindex⟩ := targetForControl_total hmem awaits
  obtain ⟨target, found, -⟩ := targetForControl_ok hindex
  unfold handleWithdrawal
  rw [hindex]
  dsimp only
  split
  · exact ⟨_, rfl⟩
  · rw [if_pos allowed, found]
    dsimp only
    cases target.kind <;> exact ⟨_, rfl⟩

theorem handleLlmCancellation_total (expected : Expected c.cancellation id .llmCancellation outcome)
    (allowed : succeedsAs .llmCancellation outcome = true) :
    ∃ c', handleLlmCancellation c id outcome = .ok c' := by
  obtain ⟨target, hmem, awaits⟩ := control_of_owed expected.awaited (.inr rfl)
  obtain ⟨index, hindex⟩ := targetForControl_total hmem awaits
  obtain ⟨⟨targetId, targetKind, completed, control⟩, found, awaits⟩ := targetForControl_ok hindex
  rcases owedControl_of_awaits awaits with ⟨-, howed⟩ | ⟨attempt, hcontrol, -⟩
  · cases expected.single _ (mem_owed_control found howed)
  · dsimp only at hcontrol
    rw [hcontrol] at found
    unfold handleLlmCancellation
    rw [hindex]
    dsimp only
    rw [found]
    dsimp only
    cases outcome with
    | succeeded result =>
      cases result with
      | llmCancellation => exact ⟨_, rfl⟩
      | llm | execution | withdraw => cases allowed
    | cancelled | failed | unknown => exact ⟨_, rfl⟩

/-- The operation of a target is taken in as the end of the target. -/
theorem handleOriginalCompletion_total (targetKind : CancellationTargetKind)
    {target : CancellationTarget} (mem : target ∈ c.cancellation.targets)
    (awaited : owedOriginal target = some (id, targetKind.operationKind))
    (expected : Expected c.cancellation id targetKind.operationKind outcome)
    (allowed : succeedsAs targetKind.operationKind outcome = true) :
    ∃ c', handleOriginalCompletion agent sid sequence c id targetKind outcome = .ok c' := by
  obtain ⟨-, hkey⟩ := owedOriginal_some awaited
  have hnamed : target.operationId = id := (Prod.mk.inj hkey).1.symm
  unfold handleOriginalCompletion
  rw [if_pos allowed]
  cases hfind : c.cancellation.targets.findIdx? (·.operationId == id) with
  | none =>
    rw [List.findIdx?_eq_none_iff] at hfind
    have hother := hfind target mem
    rw [hnamed, beq_self_eq_true] at hother
    cases hother
  | some index =>
    obtain ⟨first, found, hfirst⟩ := getElem?_of_findIdx? hfind
    have hfirst : first.operationId = id := beq_iff_eq.mp hfirst
    have hfirstMem := List.mem_of_getElem? found
    have howed : owedOriginal first = some (id, first.kind.operationKind) := by
      rw [owedOriginal, expected.unended first hfirstMem hfirst, hfirst]
      rfl
    have hsame : first.kind = targetKind :=
      operationKind_inj (expected.single _ (mem_owed_original hfirstMem howed))
    dsimp only
    rw [found, Option.any_some, hsame, bne_self_eq_false, if_neg Bool.false_ne_true]
    split <;> exact ⟨_, rfl⟩

theorem handleProcessControl_total {index : Nat}
    (awaited : processForControl c.cancellation id = some index)
    (allowed : succeedsAs .execution outcome = true) :
    ∃ c', handleProcessControl agent sequence c index id outcome = .ok c' := by
  obtain ⟨process, found, -⟩ := getElem?_of_findIdx? awaited
  unfold handleProcessControl
  rw [if_pos allowed, found]
  dsimp only
  cases process.control <;> exact ⟨_, rfl⟩

theorem handleDiscovery_total (current : isDiscovery c.cancellation id = true)
    (allowed : succeedsAs .execution outcome = true) :
    ∃ c', handleDiscovery agent sid sequence c id outcome = .ok c' := by
  obtain ⟨discovery, hdiscovery, -⟩ := (Option.any_eq_true _ _).mp current
  unfold handleDiscovery
  rw [if_pos allowed, hdiscovery]
  dsimp only
  split <;> exact ⟨_, rfl⟩

/-- The completion of an operation that the records wait for is taken in. -/
theorem applyCompletion_total (expected : Expected c.cancellation id kind outcome)
    (allowed : succeedsAs kind outcome = true) :
    ∃ c', applyCompletion agent sid sequence c id kind outcome = .ok c' := by
  unfold applyCompletion
  cases kind with
  | withdraw => exact handleWithdrawal_total expected.awaited allowed
  | llmCancellation => exact handleLlmCancellation_total expected allowed
  | llm =>
    rcases owed_cases expected.awaited with ⟨target, hmem, h⟩ | ⟨target, -, h⟩ | ⟨process, -, h⟩ | h
    · exact handleOriginalCompletion_total .llm hmem h expected allowed
    · rcases (owedControl_some h).2 with h | h <;> cases h
    · cases (owedProcess_some h).2
    · obtain ⟨_, -, hkind⟩ := owedDiscovery_some h
      cases hkind
  | execution =>
    dsimp only
    cases hprocess : processForControl c.cancellation id with
    | some index => exact handleProcessControl_total hprocess allowed
    | none =>
      dsimp only
      by_cases hcurrent : isDiscovery c.cancellation id = true
      · rw [if_pos hcurrent]
        exact handleDiscovery_total hcurrent allowed
      · rw [if_neg hcurrent]
        rcases owed_cases expected.awaited with
          ⟨target, hmem, h⟩ | ⟨target, -, h⟩ | ⟨process, hmem, h⟩ | h
        · exact handleOriginalCompletion_total .execution hmem h expected allowed
        · rcases (owedControl_some h).2 with h | h <;> cases h
        · rw [processForControl, List.findIdx?_eq_none_iff] at hprocess
          have hawaits := (owedProcess_some h).1
          rw [hprocess process hmem] at hawaits
          cases hawaits
        · obtain ⟨attempt, hdiscovery, -⟩ := owedDiscovery_some h
          rw [isDiscovery, hdiscovery, Option.any_some, beq_self_eq_true] at hcurrent
          exact absurd rfl hcurrent

/-- Records that wait for nothing are complete. -/
theorem complete_of_owed_nil {ended : OperationId → Prop} {cancellation : CancellationState}
    (recorded : Recorded ended cancellation) (nothing : owed cancellation = []) :
    cancellationComplete cancellation = true := by
  unfold owed at nothing
  rw [List.append_eq_nil_iff, List.append_eq_nil_iff, List.append_eq_nil_iff] at nothing
  obtain ⟨⟨⟨horiginal, hcontrol⟩, hprocess⟩, hdiscovery⟩ := nothing
  rw [List.filterMap_eq_nil_iff] at horiginal hcontrol hprocess
  have hnone : cancellation.discovery = none := by
    cases hcurrent : cancellation.discovery with
    | none => rfl
    | some discovery =>
      rw [hcurrent] at hdiscovery
      cases hdiscovery
  refine complete_iff.mpr ⟨hnone, ?_, ?_⟩
  · intro target htarget
    have hended := horiginal target htarget
    have hquiet := hcontrol target htarget
    have hcompleted : target.originalCompleted = true := by
      unfold owedOriginal at hended
      split at hended
      next h => exact h
      · cases hended
    unfold targetComplete
    rw [hcompleted]
    cases hstate : target.control with
    | awaitingCompletion | settled => rfl
    | awaitingDiscovery =>
      have hsome := recorded.discovers target htarget hstate
      rw [hnone] at hsome
      cases hsome
    | withdrawalRequested control | llmCancellationRequested control attempt =>
      rw [owedControl, hstate] at hquiet
      cases hquiet
  · intro process hmem
    have hquiet := hprocess process hmem
    cases hstate : process.control with
    | settled => rfl
    | interruptRequested control | terminateRequested control attempt =>
      rw [owedProcess, hstate] at hquiet
      cases hquiet

end Cancellation

/-! ## Runs -/

namespace Session

open Handler Cancellation

variable {agent : Agent} {s t : Session} {d : Delivery}

/-- A delivery in which no execution whose withdrawal is under way ends with its process unknown. -/
def OrderlyAt (agent : Agent) (s : Session) (d : Delivery) : Prop :=
  ∀ cancellation id outcome, s.state.cancellation = some cancellation →
    d.stimulus = .completed id outcome → Orderly agent.lib cancellation id outcome

/-- A session that some such deliveries lead to. -/
def OrderlyReachable (agent : Agent) (s : Session) : Prop :=
  ∃ id nextId deliveries,
    StepPath (fun s d t => Step agent s d t ∧ s.OrderlyAt agent d) (start id nextId) deliveries s

/-- What a session that is being cancelled has in flight, and what its records say. -/
structure Owing (s : Session) (cancellation : CancellationState) : Prop where
  owes : s.inFlight.Perm (owed cancellation)
  recorded : Recorded (fun id => s.isCompleted id = true) cancellation

/-- What is known of the completion of an operation in flight. -/
theorem Owing.expected {cancellation : CancellationState} (owing : s.Owing cancellation)
    (reach : Reachable agent s) (cancelled : s.state.cancellation = some cancellation)
    {o : StagedOperation} {outcome : OperationOutcome} (ho : o ∈ s.outstanding)
    (ends : s.mayEnd o outcome = true) :
    Expected cancellation o.id o.request.kind outcome := by
  obtain ⟨hstaged, hopen⟩ := mem_outstanding.mp ho
  have hflies : (o.id, o.request.kind) ∈ s.inFlight := List.mem_map.mpr ⟨o, ho, rfl⟩
  refine ⟨owing.owes.mem_iff.mp hflies, ?_, ?_, ?_, ?_⟩
  · intro other hother
    obtain ⟨o', ho', heq⟩ := List.mem_map.mp (owing.owes.mem_iff.mpr hother)
    obtain ⟨hid, hkind⟩ := Prod.mk.inj heq
    have hfound := reach.kept.numbered.operation_eq (mem_outstanding.mp ho').1
    rw [hid, reach.kept.numbered.operation_eq hstaged] at hfound
    cases hfound
    exact hkind.symm
  · intro target htarget hnamed
    rw [Bool.eq_false_iff]
    intro completed
    have hended := owing.recorded.ended target htarget completed
    rw [hnamed, hopen] at hended
    cases hended
  · intro confirms target htarget hasked
    -- a confirmed withdrawal comes after the end of its target
    obtain ⟨o', ho', hid, hwithdraws⟩ :=
      ((reach.cleansUp cancellation cancelled).targets target htarget).requested o.id hasked
    have hfound := reach.kept.numbered.operation_eq ho'
    rw [hid, reach.kept.numbered.operation_eq hstaged] at hfound
    cases hfound
    have hended := withdrawn_ended ends hwithdraws confirms
    cases hcompleted : target.originalCompleted with
    | true => rfl
    | false =>
      have howed : owedOriginal target = some (target.operationId, target.kind.operationKind) := by
        rw [owedOriginal, hcompleted]
        rfl
      obtain ⟨p, hp, heq⟩ :=
        List.mem_map.mp (owing.owes.mem_iff.mpr (mem_owed_original htarget howed))
      have hrunning := (mem_outstanding.mp hp).2
      rw [(Prod.mk.inj heq).1, hended] at hrunning
      cases hrunning
  · intro target htarget
    exact ((reach.cleansUp cancellation cancelled).targets target htarget).apart

/-- What follows for a cleanup that takes in a completion. -/
theorem perm_of_exchanges {flies owes owes' staged : List Key} {key : Key} (mem : key ∈ flies)
    (before : flies.Perm owes) (exchanged : ([key] ++ owes').Perm (owes ++ staged)) :
    (flies.erase key ++ staged).Perm owes' := by
  have hflies := List.perm_cons_erase mem
  have hboth : (key :: (flies.erase key ++ staged)).Perm (key :: owes') := by
    have hleft := (hflies.symm.trans before).append_right staged
    exact hleft.trans exchanged.symm
  exact hboth.cons_inv

theorem Owing.step {cancellation : CancellationState} (reach : Reachable agent s)
    (owing : ∀ cancellation, s.state.cancellation = some cancellation → s.Owing cancellation)
    (step : Step agent s d t) (orderly : s.OrderlyAt agent d)
    (cancelled : t.state.cancellation = some cancellation) : t.Owing cancellation := by
  obtain ⟨admitted, r, rfl, answered⟩ := step.answered
  have hdraws := answered.draws (by
    intro plan hplan
    rw [planOf_fillDate] at hplan
    exact reach.kept.plans plan hplan)
  rw [reach.dated.fillDate] at answered
  have hother (other : ∀ id outcome, d.stimulus ≠ .completed id outcome) :
      (s.after d.stimulus r).inFlight = s.inFlight ++ stagedKeys r :=
    inFlight_after_other reach.kept.numbered hdraws other
  cases answered with
  | failed ended silent =>
    have hbefore : s.state.cancellation = some cancellation := by
      rw [← silent.state]
      exact cancelled
    rw [(reach.cleansUp cancellation hbefore).alive] at ended
    cases ended
  | routed live _ other silent =>
    have hbefore : s.state.cancellation = some cancellation := by
      rw [← silent.state]
      exact cancelled
    have before := owing cancellation hbefore
    have hquiet : ∀ id outcome, d.stimulus ≠ .completed id outcome := by
      intro id outcome hstimulus
      refine other id (s.kindOf id) outcome.status ?_
      simp only [event, hstimulus]
    refine ⟨?_, before.recorded.mono fun id h => isCompleted_after h r⟩
    rw [hother hquiet, show stagedKeys r = [] by rw [stagedKeys, silent.operations]; rfl,
      List.append_nil]
    exact before.owes
  | @cleaned before id kind outcome c live same completes applied =>
    rw [show (s.after d.stimulus (setLifecycleStatus c true)).state.cancellation =
      some c.cancellation from setLifecycleStatus_cancellation c true] at cancelled
    cases cancelled
    have howing := owing before same
    obtain ⟨hstimulus, o, ho, rfl, rfl, hends⟩ :=
      completes_delivered reach.kept.numbered admitted completes
    have expected := howing.expected reach same ho hends
    have taken := completion_taken applied
    refine ⟨?_, ?_⟩
    · obtain ⟨staged, hstaged, hperm⟩ :=
        taken.exchanges expected (orderly before o.id outcome same hstimulus)
      have hmem : (o.id, o.request.kind) ∈ s.inFlight := List.mem_map.mpr ⟨o, ho, rfl⟩
      have hafter : (s.after (.completed o.id outcome) (setLifecycleStatus c true)).inFlight.Perm
          (s.inFlight.erase (o.id, o.request.kind) ++ stagedKeys (setLifecycleStatus c true)) :=
        inFlight_after_completed reach.kept.numbered hdraws (List.perm_cons_erase hmem)
      rw [hstimulus]
      refine hafter.trans ?_
      have hkeys : stagedKeys (setLifecycleStatus c true) = staged := by
        rw [stagedKeys, (setLifecycleStatus_state c true).1]
        exact hstaged
      rw [hkeys]
      exact perm_of_exchanges hmem howing.owes hperm
    · refine taken.recorded ?_ expected (isCompleted_now hstimulus _)
      exact howing.recorded.mono fun id h => isCompleted_after h _
  | running live uncancelled handled =>
    rcases handled.uncancelled reach.kept.plans with ⟨reason, hkind, begun⟩ | kept
    · obtain ⟨c, hr, hperm, hrecorded⟩ := begin_exchanges begun
      have hrecords : r.state.cancellation = some c.cancellation := by
        rw [hr]
        exact setLifecycleStatus_cancellation c true
      cases hrecords.symm.trans cancelled
      have hquiet : ∀ id outcome, d.stimulus ≠ .completed id outcome := by
        intro id outcome hstimulus
        simp only [event, hstimulus] at hkind
        cases hkind
      have hkeys : stagedKeys r = stagedKeys c.result := by
        unfold stagedKeys
        rw [hr, (setLifecycleStatus_state c true).1]
      refine ⟨?_, hrecorded.mono fun id h => h.elim⟩
      rw [hother hquiet, hkeys]
      exact ((reach.correlated ⟨live, uncancelled⟩).append_right _).trans hperm.symm
    · have hnone : r.state.cancellation = none := kept.kept.trans uncancelled
      cases hnone.symm.trans cancelled

/-- An invocation that cancels a running session sets its lifecycle status. -/
theorem begins_of_cancelled (reach : Reachable agent s) (uncancelled : s.state.cancellation = none)
    {r : OutcomeBuilder BasicCodexState} (h : s.invoke agent d = .ok r)
    (cancelled : r.state.cancellation.isSome = true) :
    ∃ c, r = setLifecycleStatus c true := by
  have unchanged (same : r.state.cancellation = s.state.cancellation) : False := by
    rw [same, uncancelled] at cancelled
    cases cancelled
  have answered := handle_answered h
  rw [show fillDate s.state (s.event d).date = s.state from reach.dated.fillDate d.date] at answered
  cases answered with
  | failed _ silent | routed _ _ _ silent => exact (unchanged (by rw [silent.state])).elim
  | cleaned _ before => cases uncancelled.symm.trans before
  | running _ _ handled =>
    rcases handled.uncancelled reach.kept.plans with ⟨reason, -, begun⟩ | kept
    · obtain ⟨c, targets, -, -, hr⟩ := begin_cleanup begun
      exact ⟨_, hr⟩
    · exact (unchanged kept.kept).elim

/-- A session whose cleanup is complete is cancelled. -/
theorem Reachable.told (reach : Reachable agent s) : ∀ cancellation,
    s.state.cancellation = some cancellation → cancellationComplete cancellation = true →
      s.status = .cancelled := by
  refine reach.induct (P := fun s => ∀ cancellation, s.state.cancellation = some cancellation →
    cancellationComplete cancellation = true → s.status = .cancelled) ?_ ?_
  · intro id nextId cancellation h
    cases h
  · intro s d t reach told step cancellation cancelled complete
    obtain ⟨admitted, r, hinvoke, rfl⟩ := step
    have cancelled : r.state.cancellation = some cancellation := cancelled
    -- a cleanup that has just become complete says so
    have now {c : Cleanup} (hr : r = setLifecycleStatus c true) :
        r.outcome.status = some .cancelled := by
      rw [hr, setLifecycleStatus_cancellation] at cancelled
      cases cancelled
      rw [hr, setLifecycleStatus_status, cleanupStatus, if_pos complete]
    have hstatus : r.outcome.status = some .cancelled := by
      cases hbefore : s.state.cancellation with
      | some before =>
        rcases cancelled_answered reach hbefore admitted hinvoke with
          ⟨-, hstate, -⟩ | ⟨_, _, _, _, c, -, -, -, -, -, -, hr⟩
        · rw [hstate, hbefore] at cancelled
          cases cancelled
          exact (complete_stays reach hbefore complete admitted hinvoke).1
        · exact now hr
      | none =>
        obtain ⟨c, hr⟩ := begins_of_cancelled reach hbefore hinvoke (by rw [cancelled]; rfl)
        exact now hr
    show r.outcome.status.getD s.status = .cancelled
    rw [hstatus]
    rfl

theorem OrderlyReachable.owing (reach : OrderlyReachable agent s) :
    Reachable agent s ∧ ∀ cancellation, s.state.cancellation = some cancellation →
      s.Owing cancellation := by
  obtain ⟨id, nextId, deliveries, path⟩ := reach
  refine path.preserves (P := fun s => Reachable agent s ∧ ∀ cancellation,
    s.state.cancellation = some cancellation → s.Owing cancellation) ?_ ⟨.start agent id nextId, ?_⟩
  · rintro s d t ⟨reach, owing⟩ ⟨step, orderly⟩
    exact ⟨reach.step step, fun _ cancelled => Owing.step reach owing step orderly cancelled⟩
  · intro cancellation h
    cases h

/-- The completion of an operation in a session that is being cancelled. -/
theorem invoke_cancelled (reach : Reachable agent s) {cancellation : CancellationState}
    (cancelled : s.state.cancellation = some cancellation) {id : OperationId} {kind : OperationKind}
    {outcome : OperationOutcome} {c : Cleanup}
    (completes : Completes (s.event d) (s.context d.stimulus) id kind outcome)
    (applied : applyCompletion agent (s.event d).sessionId (s.event d).sequence
      { result := .new s.state s.nextId, cancellation } id kind outcome = .ok c) :
    s.invoke agent d = .ok (setLifecycleStatus c true) := by
  have hdated : fillDate s.state (s.event d).date = s.state := reach.dated.fillDate d.date
  unfold invoke handle
  dsimp only
  rw [hdated, (reach.cleansUp cancellation cancelled).alive]
  dsimp only
  rw [cancelled]
  dsimp only
  unfold handleCancelled
  rw [completes.delivered]
  dsimp only
  unfold handleCancellationCompletion
  rw [Fallible.ok_bind (readOutcome_of_completes completes ..), Fallible.ok_bind applied]
  rfl

/-- In a session that is being cancelled, the completions may come in any order, as long as no
execution whose withdrawal is under way ends with its process unknown: what is in flight is what
the records wait for, the completion of each operation is taken in, and behind the last one the
session is cancelled. -/
theorem cancellation_completions (agent : Agent) {s : Session} (reach : OrderlyReachable agent s)
    {cancellation : CancellationState} (cancelled : s.state.cancellation = some cancellation) :
    s.inFlight.Perm (owed cancellation) ∧
      (∀ d id outcome, d.stimulus = .completed id outcome → s.admits d.stimulus = true →
        ∃ t, Step agent s d t) ∧
      (s.outstanding = [] → cancellationComplete cancellation = true ∧ s.status = .cancelled) := by
  obtain ⟨reached, owing⟩ := reach.owing
  have owing := owing cancellation cancelled
  refine ⟨owing.owes, ?_, ?_⟩
  · intro d id outcome hstimulus admitted
    have completes := completes_of_admitted reached.kept.numbered hstimulus admitted
    obtain ⟨-, o, ho, hid, hkind, hends⟩ :=
      completes_delivered reached.kept.numbered admitted completes
    have expected := owing.expected reached cancelled ho hends
    rw [hid, hkind] at expected
    have hallowed := (Bool.and_eq_true_iff.mp (Bool.and_eq_true_iff.mp hends).1).1
    rw [hkind] at hallowed
    obtain ⟨c, happly⟩ : ∃ c, applyCompletion agent (s.event d).sessionId (s.event d).sequence
        { result := .new s.state s.nextId, cancellation } id (s.kindOf id) outcome = .ok c :=
      applyCompletion_total expected hallowed
    exact ⟨_, admitted, _, invoke_cancelled reached cancelled completes happly, rfl⟩
  · intro nothing
    have howed : owed cancellation = [] := by
      have hempty : s.inFlight = [] := by rw [inFlight, nothing, List.map_nil]
      have hperm := owing.owes
      rw [hempty] at hperm
      exact hperm.nil_eq.symm
    have hcomplete := complete_of_owed_nil owing.recorded howed
    exact ⟨hcomplete, reached.told cancellation cancelled hcomplete⟩

/-! ## A cancelled call -/

/-- An outcome that is known is in order. -/
theorem orderlyAt_of_known
    (known : ∀ id outcome, d.stimulus = .completed id outcome → outcome.status ≠ .unknown) :
    s.OrderlyAt agent d := by
  intro cancellation id outcome _ hstimulus target _ _ _ uncertain
  simp only [isUncertain, Bool.and_eq_true, beq_iff_eq] at uncertain
  exact absurd uncertain.1.2 (known id outcome hstimulus)

theorem OrderlyReachable.next (reach : OrderlyReachable agent s)
    (h : (s.play agent [d]).isSome = true)
    (known : ∀ id outcome, d.stimulus = .completed id outcome → outcome.status ≠ .unknown) :
    OrderlyReachable agent (next agent s d) := by
  obtain ⟨id, nextId, deliveries, path⟩ := reach
  refine ⟨id, nextId, deliveries ++ [d], path.append (.single ⟨step_next h, ?_⟩)⟩
  exact orderlyAt_of_known known

/-- The session that lists files, and is cancelled meanwhile. -/
def listingCancelled : Session :=
  next pagingAgent pagingAsked (delivery 3 (.cancellationRequested none))

/-- The listing is cancelled, and then its withdrawal is confirmed. -/
def listingEnded : Session :=
  next pagingAgent (next pagingAgent listingCancelled (delivery 4 (.completed 12 .cancelled)))
    (delivery 5 (.completed 13 (.succeeded (.withdraw true))))

theorem listingCancelled_orderly : OrderlyReachable pagingAgent listingCancelled := by
  have hstart : OrderlyReachable pagingAgent (start 3 9) := ⟨3, 9, [], .nil _⟩
  have hstarted : OrderlyReachable pagingAgent pagingStarted := by
    refine hstart.next (by decide +kernel) fun _ _ h => ?_
    cases h
  have hasked : OrderlyReachable pagingAgent pagingAsked := by
    refine hstarted.next (by decide +kernel) fun _ _ h => ?_
    cases h
    decide
  refine hasked.next (by decide +kernel) fun _ _ h => ?_
  cases h

theorem listingEnded_orderly : OrderlyReachable pagingAgent listingEnded := by
  have hended := listingCancelled_orderly.next (d := delivery 4 (.completed 12 .cancelled))
    (by decide +kernel) (fun _ _ h => by
      cases h
      decide)
  refine hended.next (by decide +kernel) fun _ _ h => ?_
  cases h
  decide

theorem cancellation_completions_listing :
    (∃ cancellation, listingCancelled.state.cancellation = some cancellation ∧
      listingCancelled.inFlight.Perm (owed cancellation) ∧
      ∃ t, Step pagingAgent listingCancelled (delivery 4 (.completed 12 .cancelled)) t) ∧
    ∃ cancellation, listingEnded.state.cancellation = some cancellation ∧
      cancellationComplete cancellation = true ∧ listingEnded.status = .cancelled := by
  constructor
  · obtain ⟨cancellation, hcancellation⟩ := Option.isSome_iff_exists.mp
      (show listingCancelled.state.cancellation.isSome = true by decide +kernel)
    obtain ⟨howes, htaken, -⟩ :=
      cancellation_completions pagingAgent listingCancelled_orderly hcancellation
    refine ⟨cancellation, hcancellation, howes, ?_⟩
    exact htaken _ 12 .cancelled rfl (by decide +kernel)
  · obtain ⟨cancellation, hcancellation⟩ := Option.isSome_iff_exists.mp
      (show listingEnded.state.cancellation.isSome = true by decide +kernel)
    obtain ⟨-, -, hlast⟩ := cancellation_completions pagingAgent listingEnded_orderly hcancellation
    refine ⟨cancellation, hcancellation, hlast ?_⟩
    exact List.isEmpty_iff.mp (by decide +kernel)

/-- The listing ends with its process unknown while its withdrawal is under way. -/
def listingUnknown : Session :=
  next pagingAgent listingCancelled (delivery 4 (.completed 12 (.unknown
    { source := .gateway, code := "unavailable", message := "the runtime is gone",
      executionResponse := none })))

/-- The withdrawal that such an end forgets is in flight, and its completion is refused. -/
theorem withdrawal_refused : listingUnknown.inFlight = [(13, .withdraw), (14, .execution)] ∧
    listingUnknown.admits (.completed 13 (.succeeded (.withdraw false))) = true ∧
    (listingUnknown.invoke pagingAgent
      (delivery 5 (.completed 13 (.succeeded (.withdraw false))))).isOk = false := by
  decide +kernel

end Session

end AgentPlatform.Harness
