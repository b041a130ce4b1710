import AgentPlatform.Harness.Submissions
import AgentPlatform.Harness.PatchCalls

/-!
# The identities of actions

A process is started, written to or interrupted under an identity that the runtime knows the action
by, and so is a file changed. The identity is made of the turn, the digest of the call's identifier
and the kind of the action, so that one call's action has one identity however often it is asked
for.

**What a call sends** (`Sends`). Every identity in a request that is submitted for a call is one of
that call. The mutations of a patch get theirs when they are planned and keep them in the plan.
-/

namespace AgentPlatform.Harness

open Execution (Payload)

/-! ## Identities -/

/-- What a tool call has the runtime do under an identity. A mutation has its place in its batch. -/
inductive Action where
  | start
  | interrupt
  | input
  | mutation (index : Nat)
deriving DecidableEq, Repr

namespace Action

def text : Action → String
  | .start => "start"
  | .interrupt => "interrupt"
  | .input => "input"
  | .mutation index => "file:" ++ toString index

/-- The tool whose calls do this. -/
def tool : Action → String
  | .start => "exec_command"
  | .interrupt => "write_stdin"
  | .input => "write_stdin"
  | .mutation _ => "apply_patch"

/-- Actions of one text are of one tool. -/
theorem tool_eq {a b : Action} (h : a.text = b.text) : a.tool = b.tool := by
  have differ {index : Nat} {text : String} (hfirst : text.toList.head? ≠ some 'f') :
      "file:" ++ toString index ≠ text := by
    rintro rfl
    rw [String.toList_append] at hfirst
    exact hfirst rfl
  cases a with
  | mutation index =>
    cases b with
    | mutation => rfl
    | start | interrupt | input => exact absurd h (differ (by decide))
  | start | interrupt | input =>
    cases b with
    | mutation index => exact absurd h.symm (differ (by decide))
    | start | interrupt | input => first | rfl | exact absurd h (by decide)

end Action

/-- The identity of an action of a tool call. -/
def actionId (lib : Foreign) (turnId : Uuid) (callId : String) (action : Action) : String :=
  ShellTools.stableActionId lib turnId callId action.text

theorem mutationId_eq (lib : Foreign) (turnId : Uuid) (callId : String) (index : Nat) :
    FilesystemTools.mutationId lib turnId callId index =
      actionId lib turnId callId (.mutation index) := by
  apply String.toList_inj.mp
  simp only [FilesystemTools.mutationId, actionId, ShellTools.stableActionId, Action.text,
    String.toList_append, List.append_assoc]
  rfl

/-- The digests are digits: a digest is told from what follows it. -/
def Digests (lib : Foreign) : Prop := ∀ text, ':' ∉ (lib.sha256 text).toList

/-- Where the separator is in neither of two words, the words before it are told from what follows. -/
theorem separated_inj {α : Type} {sep : α} {xs ys xs' ys' : List α} (hxs : sep ∉ xs) (hys : sep ∉ ys)
    (h : xs ++ sep :: xs' = ys ++ sep :: ys') : xs = ys ∧ xs' = ys' := by
  induction xs generalizing ys with
  | nil =>
    cases ys with
    | nil => exact ⟨rfl, (List.cons.inj h).2⟩
    | cons y ys => exact absurd (List.mem_cons.mpr (.inl (List.cons.inj h).1)) hys
  | cons x xs ih =>
    cases ys with
    | nil => exact absurd (List.mem_cons.mpr (.inl (List.cons.inj h).1.symm)) hxs
    | cons y ys =>
      obtain ⟨rfl, hrest⟩ := List.cons.inj h
      obtain ⟨rfl, rfl⟩ := ih (fun hx => hxs (List.mem_cons_of_mem _ hx))
        (fun hy => hys (List.mem_cons_of_mem _ hy)) hrest
      exact ⟨rfl, rfl⟩

theorem toText_digits (id : Uuid) : ':' ∉ id.toText.toList := by
  intro hmem
  have hdigit : (':' : Char).isDigit = true := by
    apply Nat.isDigit_of_mem_toDigits (by decide : 0 < 10) (Nat.le_refl 10)
    rw [← Nat.toList_repr]
    exact hmem
  exact absurd hdigit (by decide)

/-- An identity says the turn, the digest and the text of the action. -/
theorem actionId_inj {lib : Foreign} (digests : Digests lib) {turnId turnId' : Uuid}
    {callId callId' : String} {action action' : Action}
    (h : actionId lib turnId callId action = actionId lib turnId' callId' action') :
    turnId = turnId' ∧ lib.sha256 callId = lib.sha256 callId' ∧ action.text = action'.text := by
  have hlist := congrArg String.toList h
  simp only [actionId, ShellTools.stableActionId, String.toList_append, List.append_assoc] at hlist
  have hturn := List.append_cancel_left hlist
  obtain ⟨hturn, hrest⟩ := separated_inj (toText_digits turnId) (toText_digits turnId') hturn
  obtain ⟨hdigest, haction⟩ := separated_inj (digests callId) (digests callId') hrest
  exact ⟨Uuid.toText_injective (String.toList_inj.mp hturn), String.toList_inj.mp hdigest,
    String.toList_inj.mp haction⟩

/-! ## What a request sends -/

/-- The identity that an operation sends, in its place. -/
def operationActions (index : Nat) : Execution.Operation → List (Action × String)
  | .start params => [(.start, params.startId)]
  | .writeInput _ inputId _ => [(.input, inputId)]
  | .interrupt _ operationId => [(.interrupt, operationId)]
  | .writeFile params => [(.mutation index, params.mutationId)]
  | .removeFile params => [(.mutation index, params.mutationId)]
  | _ => []

/-- The identities that a request sends. -/
def actions : Payload → List (Action × String)
  | .single operation => operationActions 0 operation
  | .batch _ _ operations =>
    (operations.mapIdx fun index item => operationActions index item.operation).flatten

/-- The identities that a staged request sends. -/
def requestActions : OperationRequest → List (Action × String)
  | .execution _ _ _ request => actions request
  | _ => []

theorem mem_actions_batch {mode : Execution.BatchMode} {codes : List String}
    {operations : List Execution.BatchOperation} {x : Action × String} :
    x ∈ actions (.batch mode codes operations) ↔
      ∃ (i : Nat) (item : Execution.BatchOperation), operations[i]? = some item ∧
        x ∈ operationActions i item.operation := by
  rw [actions, List.mem_flatten]
  constructor
  · rintro ⟨ids, hids, hx⟩
    obtain ⟨i, hi, rfl⟩ := List.mem_mapIdx.mp hids
    exact ⟨i, _, List.getElem?_eq_getElem hi, hx⟩
  · rintro ⟨i, item, hitem, hx⟩
    obtain ⟨hi, rfl⟩ := List.getElem?_eq_some_iff.mp hitem
    exact ⟨_, List.mem_mapIdx.mpr ⟨i, hi, rfl⟩, hx⟩

/-- Reads send no identity. -/
theorem actions_reads (mode : Execution.BatchMode) (codes : List String) (word : String)
    {operations : List Execution.Operation}
    (reads : ∀ operation ∈ operations, FilesystemTools.isRead operation = true) :
    actions (.batch mode codes (FilesystemTools.batchOperations word operations)) = [] := by
  refine List.eq_nil_iff_forall_not_mem.mpr fun x hx => ?_
  obtain ⟨i, item, hitem, hx⟩ := mem_actions_batch.mp hx
  rw [FilesystemTools.batchOperations, List.getElem?_mapIdx] at hitem
  obtain ⟨operation, hoperation, rfl⟩ := Option.map_eq_some_iff.mp hitem
  have hread := reads operation (List.mem_of_getElem? hoperation)
  cases operation with
  | readFile => cases hx
  | start | observe | writeInput | interrupt | terminate | list | writeFile | removeFile =>
    cases hread

theorem isRead_of_mem {α : Type} {config : BasicCodexConfig} {path : α → String} {items : List α} :
    ∀ operation ∈ items.map (fun item => FilesystemTools.readOperation config (path item)),
      FilesystemTools.isRead operation = true := by
  intro operation hoperation
  obtain ⟨item, -, rfl⟩ := List.mem_map.mp hoperation
  rfl

/-! ## What a call sends -/

/-- The identity of a mutation. -/
def mutationIdOf : PatchMutation → String
  | .write mutationId _ _ _ _ => mutationId
  | .remove mutationId _ _ => mutationId

/-- Mutations that have the identities of a call, each in its place. -/
def Named (lib : Foreign) (turnId : Uuid) (callId : String) (mutations : List PatchMutation) : Prop :=
  ∀ (i : Nat) (mutation : PatchMutation), mutations[i]? = some mutation →
    mutationIdOf mutation = actionId lib turnId callId (.mutation i)

/-- What may become of a call that was asked for: one that was refused at once does nothing more,
and the mutations of a patch have the identities of its call. -/
structure MayBe (lib : Foreign) (turnId : Uuid) (asked : ToolCallState) (status : ToolCallStatus) :
    Prop where
  live : status.isCompleted = false → asked.status.isCompleted = false
  patch : ∀ patch, status.inProgress = some (.filesystem (.applyPatch patch)) →
    asked.name = "apply_patch" ∧ Named lib turnId asked.callId patch.mutations

theorem MayBe.completed {lib : Foreign} {turnId : Uuid} {asked : ToolCallState}
    {status : ToolCallStatus} (done : status.isCompleted = true) : MayBe lib turnId asked status where
  live hopen := by
    rw [done] at hopen
    cases hopen
  patch _ hpatch := by
    cases status with
    | completed => cases hpatch
    | pending | ready | submitted => cases done

/-- A call of a plan and the call that was asked for. -/
structure Runs (lib : Foreign) (turnId : Uuid) (asked call : ToolCallState) : Prop where
  callId : call.callId = asked.callId
  name : call.name = asked.name
  status : MayBe lib turnId asked call.status

/-- A request that sends identities of a call, for actions of the call's tool. -/
def Sends (lib : Foreign) (turnId : Uuid) (asked : ToolCallState)
    (sent : List (Action × String)) : Prop :=
  ∀ x ∈ sent, x.2 = actionId lib turnId asked.callId x.1 ∧ x.1.tool = asked.name

theorem Sends.nil {lib : Foreign} {turnId : Uuid} {asked : ToolCallState} :
    Sends lib turnId asked [] := by
  intro x hx
  cases hx

theorem Sends.single {lib : Foreign} {turnId : Uuid} {asked : ToolCallState} {action : Action}
    (named : action.tool = asked.name) :
    Sends lib turnId asked [(action, actionId lib turnId asked.callId action)] := by
  intro x hx
  rw [List.mem_singleton.mp hx]
  exact ⟨rfl, named⟩

section

variable {lib : Foreign} {turnId : Uuid} {config : BasicCodexConfig} {draw : Uuid}
  {asked call : ToolCallState}

theorem prepareExec_sends {sid : SessionId} {startedAtMs : Int}
    {operation : PreparedShellOperation} (runs : Runs lib turnId asked call)
    (tool : call.name = "exec_command")
    (h : ShellTools.prepareExec lib call config sid turnId startedAtMs draw = .ok operation) :
    Sends lib turnId asked (actions operation.request) := by
  unfold ShellTools.prepareExec at h
  obtain ⟨input, -, h⟩ := Fallible.bind_ok h
  split at h
  · cases h
  split at h
  · cases h
  obtain ⟨cwd, -, h⟩ := Fallible.bind_ok h
  obtain ⟨shell, -, h⟩ := Fallible.bind_ok h
  cases h
  rw [runs.callId]
  exact .single (runs.name.symm.trans tool).symm

theorem prepareWrite_sends {executions : List TrackedExecution} {startedAtMs : Int}
    {operation : PreparedShellOperation} (runs : Runs lib turnId asked call)
    (tool : call.name = "write_stdin")
    (h : ShellTools.prepareWrite lib call executions turnId startedAtMs draw = .ok operation) :
    Sends lib turnId asked (actions operation.request) := by
  have interrupts : Action.interrupt.tool = asked.name := (runs.name.symm.trans tool).symm
  have writes : Action.input.tool = asked.name := interrupts
  unfold ShellTools.prepareWrite at h
  obtain ⟨input, -, h⟩ := Fallible.bind_ok h
  split at h
  · cases h
  split at h
  · cases h
  cases h
  rw [runs.callId]
  unfold ShellTools.writeRequest
  dsimp only
  split
  · exact .nil
  · split
    · exact .single interrupts
    · exact .single writes

/-- What is submitted for a call sends identities of the call, and may become of it. -/
structure Submission (lib : Foreign) (turnId : Uuid) (asked : ToolCallState) (request : Payload)
    (progress : ToolCallProgress) : Prop where
  live : asked.status.isCompleted = false
  sends : Sends lib turnId asked (actions request)
  patch : ∀ patch, progress = .filesystem (.applyPatch patch) →
    asked.name = "apply_patch" ∧ Named lib turnId asked.callId patch.mutations

theorem Submission.mayBe {request : Payload} {progress : ToolCallProgress}
    (submission : Submission lib turnId asked request progress) (id : OperationId) :
    MayBe lib turnId asked (.submitted id progress) where
  live _ := submission.live
  patch patch hpatch := submission.patch patch (Option.some.inj hpatch)

theorem mutations_sends {state : ApplyPatchState} (named : asked.name = "apply_patch")
    (ids : Named lib turnId asked.callId state.mutations) (mode : Execution.BatchMode)
    (codes : List String) :
    Sends lib turnId asked
      (actions (.batch mode codes (FilesystemTools.mutationOperations config state))) := by
  intro x hx
  obtain ⟨i, item, hitem, hx⟩ := mem_actions_batch.mp hx
  rw [FilesystemTools.mutationOperations, FilesystemTools.batchOperations, List.getElem?_mapIdx,
    List.getElem?_map] at hitem
  obtain ⟨operation, hoperation, rfl⟩ := Option.map_eq_some_iff.mp hitem
  obtain ⟨mutation, hmutation, rfl⟩ := Option.map_eq_some_iff.mp hoperation
  have hid := ids i mutation hmutation
  cases mutation <;>
  · cases List.mem_singleton.mp hx
    exact ⟨hid, named.symm⟩

/-! ### Submissions -/

theorem prepareNew_submission {agent : Agent} {executions : List TrackedExecution}
    {invocation : Invocation} {operation : PreparedShellOperation}
    (runs : Runs agent.lib turnId asked call) (pending : call.status = .pending)
    (h : ShellTools.prepareNew agent.lib call agent.config executions
      invocation.platformSessionId turnId invocation.timestampMs draw = .ok (some operation)) :
    Submission agent.lib turnId asked operation.request (.shell operation.progress) := by
  refine ⟨runs.status.live (by rw [pending]; rfl), ?_, fun patch hpatch => by cases hpatch⟩
  unfold ShellTools.prepareNew at h
  dsimp only at h
  split at h
  next tool =>
    split at h
    next prepared =>
      cases h
      exact prepareExec_sends runs tool prepared
    · cases h
  · split at h
    next tool =>
      split at h
      next prepared =>
        cases h
        exact prepareWrite_sends runs tool prepared
      · cases h
    · cases h

theorem prepareApplyPatch_submission {operation : PreparedFileOperation}
    (runs : Runs lib turnId asked call) (pending : call.status = .pending)
    (tool : call.name = "apply_patch")
    (h : FilesystemTools.prepareApplyPatch call config = .ok operation) :
    Submission lib turnId asked operation.request (.filesystem operation.progress) := by
  unfold FilesystemTools.prepareApplyPatch at h
  split at h
  · cases h
  split at h
  · cases h
  obtain ⟨patch, -, h⟩ := Fallible.bind_ok h
  obtain ⟨paths, -, h⟩ := Fallible.bind_ok h
  cases h
  refine ⟨runs.status.live (by rw [pending]; rfl), ?_, ?_⟩
  · rw [actions_reads _ _ _ isRead_of_mem]
    exact .nil
  · rintro state ⟨⟩
    refine ⟨runs.name.symm.trans tool, ?_⟩
    intro i mutation hmutation
    cases hmutation

theorem prepareViewImage_submission {operation : PreparedFileOperation}
    (runs : Runs lib turnId asked call) (pending : call.status = .pending)
    (h : FilesystemTools.prepareViewImage lib call config = .ok operation) :
    Submission lib turnId asked operation.request (.filesystem operation.progress) := by
  unfold FilesystemTools.prepareViewImage at h
  split at h
  · cases h
  split at h
  · cases h
  obtain ⟨-, -, h⟩ := Fallible.bind_ok h
  obtain ⟨detail, -, h⟩ := Fallible.bind_ok h
  cases h
  refine ⟨runs.status.live (by rw [pending]; rfl), .nil, ?_⟩
  rintro state ⟨⟩

theorem prepareFile_submission {operation : PreparedFileOperation}
    (runs : Runs lib turnId asked call) (pending : call.status = .pending)
    (h : FilesystemTools.prepareNew lib call config = .ok (some operation)) :
    Submission lib turnId asked operation.request (.filesystem operation.progress) := by
  unfold FilesystemTools.prepareNew at h
  split at h
  next =>
    cases hview : FilesystemTools.prepareViewImage lib call config with
    | error failure =>
      rw [hview] at h
      cases h
    | ok prepared =>
      rw [hview] at h
      cases h
      exact prepareViewImage_submission runs pending hview
  · split at h
    next tool =>
      cases hpatch : FilesystemTools.prepareApplyPatch call config with
      | error failure =>
        rw [hpatch] at h
        cases h
      | ok prepared =>
        rw [hpatch] at h
        cases h
        exact prepareApplyPatch_submission runs pending tool hpatch
    · cases h

theorem prepareReadyFile_submission {progress : FileToolState} {operation : PreparedFileOperation}
    (runs : Runs lib turnId asked call) (ready : call.status = .ready (.filesystem progress))
    (h : FilesystemTools.prepareReady progress config = .ok operation) :
    Submission lib turnId asked operation.request (.filesystem operation.progress) := by
  have live := runs.status.live (by rw [ready]; rfl)
  cases progress with
  | viewImage image => cases h
  | applyPatch state =>
    obtain ⟨named, ids⟩ := runs.status.patch state (by rw [ready]; rfl)
    unfold FilesystemTools.prepareReady at h
    dsimp only at h
    split at h
    · cases h
      refine ⟨live, mutations_sends named ids _ _, ?_⟩
      rintro state' ⟨⟩
      exact ⟨named, ids⟩
    · cases h
      refine ⟨live, ?_, ?_⟩
      · rw [FilesystemTools.reconciliationOperations, actions_reads _ _ _ isRead_of_mem]
        exact .nil
      · rintro state' ⟨⟩
        exact ⟨named, ids⟩
    · cases h

/-- What the scheduler prepares for a call may be submitted for it. -/
theorem prepareCall_submission {agent : Agent} {fl : FilesystemTools.FileLib}
    (files : agent.files = FilesystemTools.tools agent.lib fl) {executions : List TrackedExecution}
    {invocation : Invocation} {ordinal : Nat} {prepared : ToolExecution.PreparedCall}
    (runs : Runs agent.lib turnId asked call)
    (h : ToolExecution.prepareCall agent executions invocation turnId call ordinal draw =
      some (.ok prepared)) :
    Submission agent.lib turnId asked prepared.request prepared.progress := by
  unfold ToolExecution.prepareCall at h
  split at h
  next pending =>
    have h := Option.some.inj h
    split at h
    next operation hshell =>
      cases h
      exact prepareNew_submission runs pending hshell
    next =>
      split at h
      next operation hfile =>
        cases h
        rw [files] at hfile
        exact prepareFile_submission runs pending hfile
      · cases h
      · cases h
    next => cases h
  next progress ready =>
    have h := Option.some.inj h
    unfold ShellTools.prepareReady at h
    split at h <;> cases h
    refine ⟨runs.status.live (by rw [ready]; rfl), .nil, ?_⟩
    rintro state ⟨⟩
  next progress ready =>
    rw [files] at h
    cases hready : FilesystemTools.prepareReady progress agent.config with
    | error failure =>
      have h := Option.some.inj h
      change (FilesystemTools.prepareReady progress agent.config).map _ = _ at h
      rw [hready] at h
      cases h
    | ok operation =>
      have h := Option.some.inj h
      change (FilesystemTools.prepareReady progress agent.config).map _ = _ at h
      rw [hready] at h
      cases h
      exact prepareReadyFile_submission runs ready hready
  · cases h
  · cases h

/-! ### The end of an operation -/

theorem planTouched_named {fl : FilesystemTools.FileLib} {callId : String}
    {initial files : FilesystemTools.Files} (touched : List String)
    {mutations : List PatchMutation} (named : Named lib turnId callId mutations) :
    Named lib turnId callId
      (FilesystemTools.planTouched lib fl turnId callId initial files touched mutations) := by
  induction touched generalizing mutations with
  | nil => exact named
  | cons path touched ih =>
    rw [FilesystemTools.planTouched]
    apply ih
    intro i mutation hmutation
    rcases Nat.lt_or_ge i mutations.length with hi | hi
    · rw [List.getElem?_append_left hi] at hmutation
      exact named i mutation hmutation
    · rw [List.getElem?_append_right hi, ← List.head?_drop] at hmutation
      have hmem := List.mem_of_mem_drop (List.mem_of_mem_head? hmutation)
      have hfirst : i = mutations.length := by
        have hlength := List.getElem?_eq_some_iff.mp ((List.head?_drop ..).symm.trans hmutation)
        obtain ⟨hlt, -⟩ := hlength
        have hone : (FilesystemTools.mutationOf fl (FilesystemTools.mutationId lib turnId callId
            mutations.length) path (initial path) (files path)).toList.length ≤ 1 := by
          cases FilesystemTools.mutationOf fl _ path (initial path) (files path) <;> simp
        omega
      rw [Option.mem_toList] at hmem
      rw [hfirst, ← mutationId_eq]
      unfold FilesystemTools.mutationOf at hmem
      split at hmem
      · split at hmem
        · cases hmem
        · cases hmem
          rfl
      · cases hmem
        rfl
      · cases hmem

theorem planMutations_named {fl : FilesystemTools.FileLib} {patch : ParsedPatch}
    {reads : List (Option FilesystemTools.FileVersion)} {callId : String}
    {mutations : List PatchMutation} {summary : List PatchSummary}
    (h : FilesystemTools.planMutations lib fl patch reads turnId callId =
      some (.ok (mutations, summary))) : Named lib turnId callId mutations := by
  unfold FilesystemTools.planMutations at h
  split at h
  · cases h
  dsimp only at h
  split at h
  · cases h
  · cases h
  next plan hplan =>
    cases h
    apply planTouched_named
    intro i mutation hmutation
    cases hmutation

variable {id : OperationId}

/-- The response to a request of the file tools leaves the mutations of a patch, or plans them. -/
theorem applyFileResponse_mayBe {fl : FilesystemTools.FileLib} {progress progress' : FileToolState}
    {response : Execution.Response} (runs : Runs lib turnId asked call)
    (submitted : call.status = .submitted id (.filesystem progress))
    (h : FilesystemTools.applyResponse lib fl progress response turnId call.callId =
      some (.ok (.ready progress'))) : MayBe lib turnId asked (.ready (.filesystem progress')) := by
  have live := runs.status.live (by rw [submitted]; rfl)
  refine ⟨fun _ => live, ?_⟩
  rintro patch ⟨⟩
  cases progress with
  | viewImage image =>
    change some (FilesystemTools.applyViewImage lib fl image response) = _ at h
    unfold FilesystemTools.applyViewImage at h
    obtain ⟨value, -, h⟩ := Fallible.bind_ok (Option.some.inj h)
    obtain ⟨file, -, h⟩ := Fallible.bind_ok h
    split at h
    · cases h
    obtain ⟨data, -, h⟩ := Fallible.bind_ok h
    obtain ⟨image, -, h⟩ := Fallible.bind_ok h
    obtain ⟨published, -, h⟩ := Fallible.bind_ok h
    split at h <;> cases h
  | applyPatch state =>
    obtain ⟨named, ids⟩ := runs.status.patch state (by rw [submitted]; rfl)
    refine ⟨named, ?_⟩
    change FilesystemTools.applyPatchResponse lib fl state response turnId call.callId = _ at h
    unfold FilesystemTools.applyPatchResponse at h
    split at h
    · split at h
      · cases h
      split at h
      · cases h
      split at h
      · cases h
      · cases h
      next mutations summary planned =>
        split at h
        · cases h
        · cases h
          rw [← runs.callId]
          exact planMutations_named planned
    · obtain ⟨values, -, h⟩ := Fallible.bind_ok (Option.some.inj h)
      obtain ⟨-, -, h⟩ := Fallible.bind_ok h
      cases h
    · obtain ⟨reads, -, h⟩ := Fallible.bind_ok (Option.some.inj h)
      split at h <;> cases h

theorem applyResponse_mayBe {agent : Agent} {fl : FilesystemTools.FileLib}
    (files : agent.files = FilesystemTools.tools agent.lib fl) {progress : ToolCallProgress}
    (response : Execution.Response) (state : BasicCodexState) (at_ : Int)
    (runs : Runs agent.lib turnId asked call) (submitted : call.status = .submitted id progress) :
    MayBe agent.lib turnId asked
      (ToolExecution.applyResponse agent progress response state turnId call.callId at_).1 := by
  have live := runs.status.live (by rw [submitted]; rfl)
  unfold ToolExecution.applyResponse
  cases progress with
  | shell progress =>
    dsimp only
    split
    · refine ⟨fun _ => live, ?_⟩
      rintro patch ⟨⟩
    · exact .completed rfl
    · exact .completed rfl
  | filesystem progress =>
    dsimp only
    rw [files]
    split
    next progress' h =>
      have happlied : FilesystemTools.applyResponse agent.lib fl progress response turnId
          call.callId = some (.ok (.ready progress')) := by
        change (FilesystemTools.applyResponse agent.lib fl progress response turnId
          call.callId).getD _ = _ at h
        cases hresult : FilesystemTools.applyResponse agent.lib fl progress response turnId
            call.callId with
        | none =>
          rw [hresult] at h
          cases h
        | some result =>
          rw [hresult] at h
          exact congrArg some h
      exact applyFileResponse_mayBe runs submitted happlied
    · exact .completed rfl
    · exact .completed rfl

/-- The end of an operation leaves a call that may still send its own identities. -/
theorem applyOutcome_mayBe {agent : Agent} {fl : FilesystemTools.FileLib}
    (files : agent.files = FilesystemTools.tools agent.lib fl) {progress : ToolCallProgress}
    {outcome : OperationOutcome} {state state' : BasicCodexState} {status : ToolCallStatus}
    {at_ : Int} (runs : Runs agent.lib turnId asked call)
    (submitted : call.status = .submitted id progress)
    (h : ToolExecution.applyOutcome agent progress outcome state turnId call.callId at_ =
      .ok (status, state')) : MayBe agent.lib turnId asked status := by
  have response (response : Execution.Response) (h : ToolExecution.applyResponse agent progress
      response state turnId call.callId at_ = (status, state')) :
      MayBe agent.lib turnId asked status := by
    have mayBe := applyResponse_mayBe files response state at_ runs submitted
    rw [h] at mayBe
    exact mayBe
  unfold ToolExecution.applyOutcome at h
  split at h
  · exact response _ (Except.ok.inj h)
  · cases h
  · split at h
    · exact response _ (Except.ok.inj h)
    · cases h
      exact .completed rfl
  next failure =>
    cases progress with
    | shell progress =>
      cases h
      exact .completed rfl
    | filesystem progress =>
      dsimp only at h
      split at h
      next progress' hunknown =>
        cases h
        refine ⟨fun _ => runs.status.live (by rw [submitted]; rfl), ?_⟩
        rintro patch ⟨⟩
        cases progress with
        | viewImage image => cases hunknown
        | applyPatch state =>
          unfold applyFileUnknown at hunknown
          dsimp only at hunknown
          split at hunknown
          · cases hunknown
            exact runs.status.patch state (by rw [submitted]; rfl)
          · cases hunknown
      · cases h
        exact .completed rfl
      · cases h
        exact .completed rfl
  · cases h
    exact .completed rfl

end

/-! ## Plans -/

/-- A plan whose calls are those that were asked for. -/
def PlanRuns (lib : Foreign) (turnId : Uuid) (asked : List ToolCallState) (plan : ToolPlanState) :
    Prop :=
  ∀ (i : Nat) (call : ToolCallState), plan.calls[i]? = some call →
    ∃ a, asked[i]? = some a ∧ Runs lib turnId a call

theorem PlanRuns.setStatus {lib : Foreign} {turnId : Uuid} {asked : List ToolCallState}
    {plan : ToolPlanState} (runs : PlanRuns lib turnId asked plan) {o : Nat}
    {status : ToolCallStatus}
    (mayBe : ∀ a, asked[o]? = some a → MayBe lib turnId a status) :
    PlanRuns lib turnId asked (plan.setStatus o status) := by
  intro i call' hcall'
  obtain ⟨call, hcall, rfl⟩ := ToolPlanState.get_setStatus hcall'
  obtain ⟨a, ha, run⟩ := runs i call hcall
  refine ⟨a, ha, ?_⟩
  split
  next hi =>
    subst hi
    exact ⟨run.callId, run.name, mayBe a ha⟩
  next => exact run

/-- The operations that a plan waits for were drawn from the supply. -/
def PlanBelow (plan : ToolPlanState) (nextId : Uuid) : Prop :=
  ∀ (i : Nat) (call : ToolCallState) (id : OperationId), plan.calls[i]? = some call →
    submittedOperation call = some id → id < nextId

theorem PlanBelow.later {plan : ToolPlanState} {nextId nextId' : Uuid}
    (below : PlanBelow plan nextId) (later : nextId ≤ nextId') : PlanBelow plan nextId' :=
  fun i call id hcall hid => (below i call id hcall hid).trans_le later

theorem PlanBelow.setStatus {plan : ToolPlanState} {nextId : Uuid} (below : PlanBelow plan nextId)
    {o : Nat} {status : ToolCallStatus}
    (drawn : ∀ id progress, status = .submitted id progress → id < nextId) :
    PlanBelow (plan.setStatus o status) nextId := by
  intro i call' id hcall' hid
  obtain ⟨call, hcall, rfl⟩ := ToolPlanState.get_setStatus hcall'
  split at hid
  next =>
    unfold submittedOperation at hid
    split at hid
    next hstatus =>
      cases hid
      exact drawn _ _ hstatus
    · cases hid
  next => exact below i call id hcall hid

/-- A plan on its way, with the operations that an invocation staged for it so far. -/
structure CarriesPlan {S : Type} (lib : Foreign) (turnId : Uuid) (asked : List ToolCallState)
    (response : OperationId) (plan : ToolPlanState) (b : OutcomeBuilder S) : Prop where
  response : plan.assistantOperationId = response
  runs : PlanRuns lib turnId asked plan
  below : PlanBelow plan b.nextId
  drawn : ∀ o ∈ b.outcome.operations, o.id < b.nextId
  sent : ∀ o ∈ b.outcome.operations, ∀ (i : Nat) (call : ToolCallState),
    plan.calls[i]? = some call → submittedOperation call = some o.id →
      ∃ a, asked[i]? = some a ∧ a.status.isCompleted = false ∧
        Sends lib turnId a (requestActions o.request)

section

variable {agent : Agent} {fl : FilesystemTools.FileLib} {turnId : Uuid} {asked : List ToolCallState}
  {response : OperationId} {executions : List TrackedExecution} {invocation : Invocation}

/-- What is known of a prepared call: it may be submitted for the call in its place. -/
def Prepares (lib : Foreign) (turnId : Uuid) (asked : List ToolCallState)
    (p : ToolExecution.PreparedCall) : Prop :=
  ∀ a, asked[p.ordinal]? = some a → Submission lib turnId a p.request p.progress

theorem CarriesPlan.submit {S : Type} {plan : ToolPlanState} {b : OutcomeBuilder S}
    {p : ToolExecution.PreparedCall} (carries : CarriesPlan agent.lib turnId asked response plan b)
    (prepares : Prepares agent.lib turnId asked p) :
    CarriesPlan agent.lib turnId asked response (ToolExecution.submit agent (plan, b) p).1
      (ToolExecution.submit agent (plan, b) p).2 := by
  have later : b.nextId ≤ b.nextId + 1 := Nat.le_succ _
  have below : PlanBelow (plan.setStatus p.ordinal (.submitted b.nextId p.progress))
      (b.nextId + 1) := by
    apply (carries.below.later later).setStatus
    rintro id progress ⟨⟩
    exact Nat.lt_succ_self _
  refine ⟨carries.response, ?_, below, ?_, ?_⟩
  · exact carries.runs.setStatus fun a ha => (prepares a ha).mayBe _
  · intro o ho
    rcases List.mem_append.mp ho with ho | ho
    · exact (carries.drawn o ho).trans_le later
    · rw [List.mem_singleton.mp ho]
      exact Nat.lt_succ_self _
  · intro o ho i call' hcall' hid
    obtain ⟨call, hcall, rfl⟩ := ToolPlanState.get_setStatus hcall'
    rcases List.mem_append.mp ho with ho | ho
    · split at hid
      next =>
        -- the call waits for the new operation, and the old ones have smaller identifiers
        have hnew : b.nextId = o.id := Option.some.inj hid
        exact absurd (carries.drawn o ho) (hnew ▸ Nat.lt_irrefl _)
      next => exact carries.sent o ho i call hcall hid
    · cases List.mem_singleton.mp ho
      split at hid
      next hi =>
        subst hi
        obtain ⟨a, ha, -⟩ := carries.runs _ call hcall
        exact ⟨a, ha, (prepares a ha).live, (prepares a ha).sends⟩
      next => exact absurd (carries.below i call _ hcall hid) (Nat.lt_irrefl _)

theorem CarriesPlan.submits {S : Type} {plan : ToolPlanState} {b : OutcomeBuilder S}
    {prepared : List ToolExecution.PreparedCall}
    (carries : CarriesPlan agent.lib turnId asked response plan b)
    (prepares : ∀ p ∈ prepared, Prepares agent.lib turnId asked p) :
    CarriesPlan agent.lib turnId asked response
      (prepared.foldl (ToolExecution.submit agent) (plan, b)).1
      (prepared.foldl (ToolExecution.submit agent) (plan, b)).2 := by
  induction prepared generalizing plan b with
  | nil => exact carries
  | cons p rest ih =>
    have first := carries.submit (prepares p List.mem_cons_self)
    exact ih first fun q hq => prepares q (List.mem_cons_of_mem _ hq)

/-- A later supply changes nothing. -/
theorem CarriesPlan.supply {S : Type} {plan : ToolPlanState} {b : OutcomeBuilder S} {nextId : Uuid}
    (carries : CarriesPlan agent.lib turnId asked response plan b) (later : b.nextId ≤ nextId) :
    CarriesPlan agent.lib turnId asked response plan { b with nextId } where
  response := carries.response
  runs := carries.runs
  below := carries.below.later later
  drawn o ho := (carries.drawn o ho).trans_le later
  sent := carries.sent

/-- A call that is completed waits for nothing. -/
theorem CarriesPlan.complete {S : Type} {plan : ToolPlanState} {b : OutcomeBuilder S}
    (carries : CarriesPlan agent.lib turnId asked response plan b) (o : Nat)
    (snapshot : ToolResultSnapshot) :
    CarriesPlan agent.lib turnId asked response (plan.setStatus o (.completed snapshot)) b := by
  refine ⟨carries.response, ?_, ?_, carries.drawn, ?_⟩
  · exact carries.runs.setStatus fun a ha => .completed rfl
  · apply carries.below.setStatus
    rintro id progress ⟨⟩
  · intro op hop i call' hcall' hid
    obtain ⟨call, hcall, rfl⟩ := ToolPlanState.get_setStatus hcall'
    split at hid
    next => cases hid
    next => exact carries.sent op hop i call hcall hid

/-- A plan during a pass, with the calls that the pass prepared. -/
structure RoundCarriesPlan {S : Type} (lib : Foreign) (turnId : Uuid) (asked : List ToolCallState)
    (response : OperationId) (b : OutcomeBuilder S) (round : ToolExecution.Round) : Prop where
  carries : CarriesPlan lib turnId asked response round.plan { b with nextId := round.nextId }
  prepared : ∀ p ∈ round.prepared, Prepares lib turnId asked p

theorem RoundCarriesPlan.visit {S : Type} {b : OutcomeBuilder S} {round round' : ToolExecution.Round}
    {o : Nat} (during : RoundCarriesPlan agent.lib turnId asked response b round)
    (files : agent.files = FilesystemTools.tools agent.lib fl)
    (h : ToolExecution.visit agent executions invocation turnId round o = .ok round') :
    RoundCarriesPlan agent.lib turnId asked response b round' := by
  have drawn := during.carries.supply (Nat.le_succ round.nextId)
  unfold ToolExecution.visit at h
  split at h
  · cases h
  next call hcall =>
  dsimp only at h
  split at h
  · cases h
    exact during
  split at h
  · cases h
    exact during
  next snapshot hsnapshot =>
    cases h
    exact ⟨drawn.complete o snapshot, during.prepared⟩
  next prepared hprepared =>
    cases h
    refine ⟨drawn, ?_⟩
    intro p hp
    rcases List.mem_append.mp hp with hp | hp
    · exact during.prepared p hp
    · cases List.mem_singleton.mp hp
      intro a ha
      rw [ToolExecution.prepareCall_ordinal hprepared] at ha
      obtain ⟨a', ha', run⟩ := during.carries.runs o call hcall
      cases ha.symm.trans ha'
      exact prepareCall_submission files run hprepared

theorem RoundCarriesPlan.pass {S : Type} {b : OutcomeBuilder S} {ordinals : List Nat}
    {round round' : ToolExecution.Round}
    (during : RoundCarriesPlan agent.lib turnId asked response b round)
    (files : agent.files = FilesystemTools.tools agent.lib fl)
    (h : ordinals.foldlM (ToolExecution.visit agent executions invocation turnId) round =
      .ok round') : RoundCarriesPlan agent.lib turnId asked response b round' := by
  induction ordinals generalizing round with
  | nil =>
    cases h
    exact during
  | cons o rest ih =>
    obtain ⟨next, hnext, h⟩ := Fallible.bind_ok h
    exact ih (during.visit files hnext) h

/-- Scheduling sends for each call that it submits the identities of that call. -/
theorem scheduleLoop_carries {S : Type} {rounds : Nat} {plan plan' : ToolPlanState}
    {b b' : OutcomeBuilder S} (carries : CarriesPlan agent.lib turnId asked response plan b)
    (files : agent.files = FilesystemTools.tools agent.lib fl)
    (h : ToolExecution.scheduleLoop agent executions invocation turnId rounds plan b =
      .ok (plan', b')) : CarriesPlan agent.lib turnId asked response plan' b' := by
  induction rounds generalizing plan b with
  | zero =>
    cases h
    exact carries
  | succ rounds ih =>
    unfold ToolExecution.scheduleLoop at h
    split at h
    · cases h
      exact carries
    split at h
    · cases h
    next round hpass =>
    have start : RoundCarriesPlan agent.lib turnId asked response b (.start plan b.nextId) :=
      ⟨carries, by simp [ToolExecution.Round.start]⟩
    have passed := start.pass files hpass
    obtain ⟨hresponse, hruns, hbelow, hdrawn, hsent⟩ := passed.carries
    dsimp only at h
    split at h
    · split at h
      · have advanced : CarriesPlan agent.lib turnId asked response
            round.plan.advanceCompletedSegments { b with nextId := round.nextId } :=
          ⟨hresponse, hruns, hbelow, hdrawn, hsent⟩
        exact ih advanced h
      · cases h
        exact passed.carries
    · have submitted := passed.carries.submits passed.prepared
      rw [Except.ok.inj h] at submitted
      exact submitted

/-- What scheduling leaves of a turn that runs a plan. -/
theorem scheduleReady_carries {b b' : OutcomeBuilder BasicCodexState} {active active' : ActiveTurn}
    {plan plan' : ToolPlanState} (files : agent.files = FilesystemTools.tools agent.lib fl)
    (turn : b.state.activeTurn = some active) (phase : active.phase = .executingTools plan)
    (carries : CarriesPlan agent.lib active.id asked response plan b)
    (h : ToolExecution.scheduleReady agent b invocation = .ok b')
    (turn' : b'.state.activeTurn = some active') (phase' : active'.phase = .executingTools plan') :
    active'.id = active.id ∧ CarriesPlan agent.lib active.id asked response plan' b' := by
  obtain ⟨active₀, plan₀, plan₁, builder, hactive, hphase, hloop, rfl⟩ :=
    ToolExecution.scheduleReady_ok h
  cases turn.symm.trans hactive
  cases phase.symm.trans hphase
  cases turn'
  cases phase'
  obtain ⟨hresponse, hruns, hbelow, hdrawn, hsent⟩ := scheduleLoop_carries carries files hloop
  exact ⟨rfl, hresponse, hruns, hbelow, hdrawn, hsent⟩

/-- The end of an operation keeps a plan to the calls that were asked for. -/
theorem applyCompletion_runs {state state' : BasicCodexState} {active : ActiveTurn}
    {plan : ToolPlanState} {id : OperationId} {outcome : OperationOutcome} {at_ : Int}
    {nextId : Uuid} (files : agent.files = FilesystemTools.tools agent.lib fl)
    (turn : state.activeTurn = some active) (phase : active.phase = .executingTools plan)
    (sound : plan.Sound) (runs : PlanRuns agent.lib active.id asked plan)
    (below : PlanBelow plan nextId)
    (h : ToolExecution.applyCompletion agent state id outcome at_ = .ok state') :
    ∃ plan', state'.activeTurn = some { active with phase := .executingTools plan' } ∧
      CarriesPlan agent.lib active.id asked plan.assistantOperationId plan'
        (OutcomeBuilder.new state' nextId) := by
  obtain ⟨active', plan', call, progress, status, state'', hactive, hphase, hcall, houtcome, rfl⟩ :=
    ToolExecution.applyCompletion_ok h
  cases turn.symm.trans hactive
  cases phase.symm.trans hphase
  obtain ⟨hmem, hstatus⟩ := ToolExecution.submittedCall_some hcall
  obtain ⟨i, hi⟩ := List.mem_iff_getElem?.mp hmem
  have hgoes := ToolExecution.applyOutcome_goesOn houtcome
  refine ⟨_, rfl, rfl, ?_, ?_, ?_, ?_⟩
  · have kept : PlanRuns agent.lib active.id asked (plan.setStatus call.ordinal status) := by
      apply runs.setStatus
      intro a ha
      obtain ⟨a', ha', run⟩ := runs i call hi
      rw [sound.ordinals i call hi] at ha
      cases ha.symm.trans ha'
      exact applyOutcome_mayBe files run hstatus houtcome
    exact kept
  · have kept : PlanBelow (plan.setStatus call.ordinal status) nextId := by
      apply below.setStatus
      rintro id' progress' rfl
      rcases hgoes with hdone | ⟨progress'', hready, -⟩
      · cases hdone
      · cases hready
    exact kept
  · intro o ho
    cases ho
  · intro o ho
    cases ho

end

end AgentPlatform.Harness
