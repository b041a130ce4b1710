import AgentPlatform.Harness.PatchPlan
import Mathlib.Logic.Relation

/-!
# One call of `apply_patch`

A call reads the files of its patch, submits the mutations as one batch, and reads again if nobody
knows what came of them (`CallStep`). What was submitted and how it ended stays in the run
(`Exchange`), so that the result of the call can be compared with it.

**What a result says.** Results of a batch are matched with its operations by their place, not by
their `request_id`, and the results of the mutations are not counted. A success is what it says as
long as the results name the operations that they are of (`Exchange.Named`).
-/

namespace AgentPlatform.Harness.FilesystemTools

open Execution ToolExecution
open ShellTools (toolError toolErrorWithDetails)

/-! ## Runs of a call -/

/-- A harness with the file tools. -/
def withFiles (agent : Agent) (fl : FileLib) : Agent := { agent with files := tools agent.lib fl }

/-- A request of a call that has ended. -/
structure Exchange where
  progress : ToolCallProgress
  request : Payload
  outcome : OperationOutcome

/-- A call on its way, with the request that it awaits. -/
structure CallRun where
  status : ToolCallStatus
  exchanges : List Exchange
  awaited : Option Payload

def CallRun.start : CallRun := ⟨.pending, [], none⟩

/-- The requests that were submitted. -/
def CallRun.requests (run : CallRun) : List Payload :=
  run.exchanges.map (·.request) ++ run.awaited.toList

/-- The response that the end of an execution brings. -/
def responseOf : OperationOutcome → Option Response
  | .succeeded (.execution response) => some response
  | .failed failure => failure.executionResponse
  | _ => none

variable (agent : Agent) (fl : FileLib) (call : ToolCallState) (turnId : Uuid)

/-- A call is submitted, ends before it is, or takes in the end of what it submitted. -/
inductive CallStep : CallRun → CallRun → Prop
  | submits {run : CallRun} {executions : List TrackedExecution} {invocation : Invocation}
      {ordinal : Nat} {draw : Uuid} {prepared : PreparedCall} (operationId : OperationId)
      (h : prepareCall (withFiles agent fl) executions invocation turnId
        { call with status := run.status } ordinal draw = some (.ok prepared)) :
      CallStep run { run with
        status := .submitted operationId prepared.progress
        awaited := some prepared.request }
  | ends {run : CallRun} {executions : List TrackedExecution} {invocation : Invocation}
      {ordinal : Nat} {draw : Uuid} {snapshot : ToolResultSnapshot}
      (h : prepareCall (withFiles agent fl) executions invocation turnId
        { call with status := run.status } ordinal draw = some (.error snapshot)) :
      CallStep run { run with status := .completed snapshot }
  | answered {run : CallRun} {operationId : OperationId} {progress : ToolCallProgress}
      {request : Payload} {outcome : OperationOutcome} {state state' : BasicCodexState}
      {completedAtMs : Int} {status : ToolCallStatus}
      (submitted : run.status = .submitted operationId progress)
      (awaited : run.awaited = some request)
      (returns : ∀ file response, progress = .filesystem file → responseOf outcome = some response →
        (applyResponse agent.lib fl file response turnId call.callId).isSome)
      (h : applyOutcome (withFiles agent fl) progress outcome state turnId call.callId
        completedAtMs = .ok (status, state')) :
      CallStep run {
        status
        exchanges := run.exchanges ++ [⟨progress, request, outcome⟩]
        awaited := none }

/-- What can come of a call. -/
def CallReached (run : CallRun) : Prop :=
  Relation.ReflTransGen (CallStep agent fl call turnId) .start run

/-! ## What was done -/

def isRead : Operation → Bool
  | .readFile _ => true
  | _ => false

/-- A request that only reads. -/
def readsOnly : Payload → Bool
  | .single operation => isRead operation
  | .batch _ _ operations => operations.all fun o => isRead o.operation

/-- A request to write or remove a file. -/
def isMutation : Operation → Bool
  | .writeFile _ => true
  | .removeFile _ => true
  | _ => false

def mutates : Payload → Bool
  | .single operation => isMutation operation
  | .batch _ _ operations => operations.any fun o => isMutation o.operation

/-- The progress of a patch. -/
abbrev patching (state : ApplyPatchState) : ToolCallProgress := .filesystem (.applyPatch state)

/-- The results that an outcome brings of a batch. -/
def resultsOf (lib : Foreign) (outcome : OperationOutcome) : Option (List BatchItem) :=
  (responseOf outcome).bind fun response => (batchResults lib response).toOption

def IsOk (item : BatchItem) : Prop := ∃ result, item.outcome = .ok result

/-- A result that shows a file as a mutation was to leave it. -/
def Shows (lib : Foreign) (fl : FileLib) (mutation : PatchMutation) (item : BatchItem) : Prop :=
  ∃ current, decodeRead lib fl item = .ok current ∧ isDesired mutation current = true

def IsUnknown (outcome : OperationOutcome) : Prop := ∃ failure, outcome = .unknown failure

/-- The answer to the mutations of a plan has an Ok result for each of them. -/
structure Applied (state : ApplyPatchState) (e : Exchange) : Prop where
  progress : e.progress = patching state
  phase : state.phase = .mutating
  results : ∃ items, resultsOf agent.lib e.outcome = some items ∧
    ∀ o ∈ mutationOperations agent.config state, ∃ item ∈ items,
      item.requestId = o.requestId ∧ IsOk item

/-- The mutations of a plan ended unknown, and the reads after them show each file as it was to
be. -/
structure Reconciled (state : ApplyPatchState) (e e' : Exchange) : Prop where
  progress : e.progress = patching state
  phase : state.phase = .mutating
  unknown : IsUnknown e.outcome
  progress' : e'.progress = patching { state with phase := .reconciling }
  results : ∃ items, resultsOf agent.lib e'.outcome = some items ∧
    ∀ (i : Nat) (mutation : PatchMutation), state.mutations[i]? = some mutation → ∃ item ∈ items,
      item.requestId = "read-" ++ toString i ∧ Shows agent.lib fl mutation item

/-- The exchanges have what a success says. -/
def Done (exchanges : List Exchange) : Prop :=
  (∃ state, ∃ e ∈ exchanges, Applied agent state e) ∨
    ∃ state e e', [e, e'].Sublist exchanges ∧ Reconciled agent fl state e e'

/-- A call that never says more than was done. -/
structure ClaimsOnlyDone (run : CallRun) : Prop where
  once : (run.requests.filter mutates).length ≤ 1
  /-- After mutations that ended unknown there are only reads. -/
  careful : (run.exchanges.Pairwise fun e e' =>
      mutates e.request = true → IsUnknown e.outcome → readsOnly e'.request = true) ∧
    ∀ e ∈ run.exchanges, mutates e.request = true → IsUnknown e.outcome →
      ∀ request ∈ run.awaited, readsOnly request = true
  result : ∀ snapshot, run.status = .completed snapshot →
    snapshot.outcome = .success ∧ Done agent fl run.exchanges ∨
      ∃ error, snapshot.outcome = .error error

/-- The results of a batch name the operations that they are of, as far as a success rests on
them: results of mutations that are all Ok name every mutation, and results of reads that show, one
after the other, what the mutations were to leave are named like the reads. -/
def Exchange.Named (e : Exchange) : Prop :=
  ∀ state items, e.progress = patching state → resultsOf agent.lib e.outcome = some items →
    (state.phase = .mutating → (∀ item ∈ items, IsOk item) →
      ∀ o ∈ mutationOperations agent.config state, ∃ item ∈ items,
        item.requestId = o.requestId) ∧
    (state.phase = .reconciling → List.Forall₂ (Shows agent.lib fl) state.mutations items →
      items.map (·.requestId) =
        (reconciliationOperations agent.config state).map (·.requestId))

/-! ## Errors -/

def Refuses (snapshot : ToolResultSnapshot) : Prop := ∃ error, snapshot.outcome = .error error

/-- A computation whose failures are error results. -/
def Refusing {α : Type} (x : Except ToolResultSnapshot α) : Prop :=
  ∀ snapshot, x = .error snapshot → Refuses snapshot

theorem Refusing.ok {α : Type} (a : α) : Refusing (.ok a) := by
  intro snapshot h
  cases h

theorem Refusing.error {α : Type} {snapshot : ToolResultSnapshot} (h : Refuses snapshot) :
    Refusing (.error snapshot : Except ToolResultSnapshot α) := by
  intro snapshot' h'
  cases h'
  exact h

theorem refuses_toolError (name message : String) : Refuses (toolError name message) := ⟨_, rfl⟩

theorem refuses_withDetails (name message : String) (details : Value) :
    Refuses (toolErrorWithDetails name message details) := ⟨_, rfl⟩

theorem Refusing.bind {α β : Type} {x : Except ToolResultSnapshot α}
    {f : α → Except ToolResultSnapshot β} (first : Refusing x) (rest : ∀ a, Refusing (f a)) :
    Refusing (x >>= f) := by
  cases x with
  | error snapshot =>
    intro snapshot' h
    cases h
    exact first snapshot rfl
  | ok a => exact rest a

theorem Refusing.map {α β : Type} {x : Except ToolResultSnapshot α} (f : α → β)
    (h : Refusing x) : Refusing (x.map f) := by
  cases x with
  | error snapshot =>
    intro snapshot' h'
    cases h'
    exact h snapshot rfl
  | ok a => exact .ok _

theorem refusing_mapError {ε α : Type} (x : Except ε α) {f : ε → ToolResultSnapshot}
    (h : ∀ failure, Refuses (f failure)) : Refusing (x.mapError f) := by
  cases x with
  | error failure => exact .error (h failure)
  | ok a => exact .ok a

theorem refusing_mapM {α β : Type} {f : α → Except ToolResultSnapshot β} (h : ∀ a, Refusing (f a))
    (items : List α) : Refusing (items.mapM f) := by
  induction items with
  | nil => exact .ok []
  | cons item items ih =>
    rw [List.mapM_cons]
    exact (h item).bind fun b => ih.bind fun bs => .ok _

variable {lib : Foreign} {fl}

theorem batchResults_refusing (response : Response) : Refusing (batchResults lib response) := by
  apply Refusing.bind
  · unfold singleResult
    split
    · exact .ok _
    · exact .error (refuses_toolError _ _)
  · intro value
    exact refusing_mapError _ fun _ => refuses_toolError _ _

theorem decodeRead_refusing (item : BatchItem) : Refusing (decodeRead lib fl item) := by
  unfold decodeRead
  split
  · apply Refusing.bind (refusing_mapError _ fun _ => refuses_toolError _ _)
    intro file
    apply Refusing.bind (refusing_mapError _ fun _ => refuses_toolError _ _)
    intro data
    exact .ok _
  · split
    · exact .ok _
    · exact .error (refuses_toolError _ _)
  · exact .error (refuses_toolError _ _)

theorem decodeReadBatch_refusing (response : Response) (paths : List String) :
    Refusing (decodeReadBatch lib fl response paths) := by
  apply (batchResults_refusing response).bind
  intro items
  split
  · exact .error (refuses_toolError _ _)
  · exact refusing_mapM decodeRead_refusing items

theorem collectPaths_refusing (paths rest : List String) : Refusing (collectPaths paths rest) := by
  induction rest generalizing paths with
  | nil => exact .ok _
  | cons path rest ih =>
    apply Refusing.bind (refusing_mapError _ fun _ => refuses_toolError _ _)
    intro _
    exact ih _

theorem patchPaths_refusing (patch : ParsedPatch) : Refusing (patchPaths patch) := by
  apply (collectPaths_refusing [] _).bind
  intro paths
  split
  · exact .error (refuses_toolError _ _)
  · exact .ok _

theorem prepareApplyPatch_refusing (call : ToolCallState) (config : BasicCodexConfig) :
    Refusing (prepareApplyPatch call config) := by
  unfold prepareApplyPatch
  split
  · exact .error (refuses_toolError _ _)
  · split
    · exact .error (refuses_toolError _ _)
    · apply Refusing.bind (refusing_mapError _ fun _ => refuses_toolError _ _)
      intro patch
      apply (patchPaths_refusing patch).bind
      intro paths
      exact .ok _

theorem placeChunks_refusing (path : String) (lines : List String) (cursor : Nat)
    (chunks : List PatchChunk) : Refusing (placeChunks path lines cursor chunks) := by
  induction chunks generalizing cursor with
  | nil => exact .ok _
  | cons chunk chunks ih =>
    have hcontext : Refusing (seekContext path lines chunk cursor) := by
      unfold seekContext
      split
      · exact .ok _
      · split
        · exact .ok _
        · exact .error (refuses_toolError _ _)
    have hchunk : Refusing (placeChunk path lines cursor chunk) := by
      unfold placeChunk
      split
      next hfailed => exact .error (hcontext _ hfailed)
      · split
        · exact .ok _
        · split
          · exact .error (refuses_toolError _ _)
          · exact .ok _
    unfold placeChunks
    split
    next hfailed => exact .error (hchunk _ hfailed)
    · split
      next hfailed => exact .error (ih _ _ hfailed)
      · exact .ok _

theorem updatedText_refuses {files : Files} {path : String} {chunks : List PatchChunk}
    {snapshot : ToolResultSnapshot} (h : updatedText files path chunks = some (.error snapshot)) :
    Refuses snapshot := by
  unfold updatedText at h
  split at h
  next hfailed =>
    cases h
    unfold requireFile at hfailed
    split at hfailed
    · cases hfailed
    · cases hfailed
      exact refuses_toolError _ _
  · split at h
    · cases h
      exact refuses_toolError _ _
    · unfold applyChunks at h
      dsimp only at h
      split at h
      next hfailed =>
        cases h
        exact placeChunks_refusing _ _ _ _ _ hfailed
      · obtain ⟨text, _, heq⟩ := Option.map_eq_some_iff.mp h
        cases heq

theorem planHunk_refuses {plan : Planning} {hunk : PatchHunk} {snapshot : ToolResultSnapshot}
    (h : planHunk fl plan hunk = some (.error snapshot)) : Refuses snapshot := by
  cases hunk with
  | add path content => cases h
  | delete path =>
    simp only [planHunk, requireFile] at h
    split at h
    next hfailed =>
      cases h
      split at hfailed
      · cases hfailed
      · cases hfailed
        exact refuses_toolError _ _
    · cases h
  | update path movePath chunks =>
    simp only [planHunk] at h
    split at h
    · cases h
    next hfailed =>
      cases h
      exact updatedText_refuses hfailed
    · split at h <;> cases h

theorem planHunks_refuses {hunks : List PatchHunk} {plan : Planning}
    {snapshot : ToolResultSnapshot} (h : planHunks fl hunks plan = some (.error snapshot)) :
    Refuses snapshot := by
  induction hunks generalizing plan with
  | nil => cases h
  | cons hunk hunks ih =>
    unfold planHunks at h
    cases hhunk : planHunk fl plan hunk with
    | none =>
      rw [hhunk] at h
      cases h
    | some result =>
      cases result with
      | error snapshot' =>
        rw [hhunk] at h
        cases h
        exact planHunk_refuses hhunk
      | ok plan' =>
        rw [hhunk] at h
        exact ih h

theorem planMutations_refuses {patch : ParsedPatch} {reads : List (Option FileVersion)}
    {callId : String} {snapshot : ToolResultSnapshot} {turnId : Uuid}
    (h : planMutations lib fl patch reads turnId callId = some (.error snapshot)) :
    Refuses snapshot := by
  unfold planMutations at h
  split at h
  next hfailed =>
    cases h
    exact patchPaths_refusing _ _ hfailed
  · dsimp only at h
    split at h
    · cases h
    next hfailed =>
      cases h
      exact planHunks_refuses hfailed
    · cases h

/-! ## The three phases -/

variable {agent} {state : ApplyPatchState} {response : Response} {callId : String}
  {result : Except ToolResultSnapshot AppliedFileResult}

/-- Reads are answered by a plan or refused. -/
theorem reading_answered {turnId : Uuid} (hphase : state.phase = .reading)
    (h : applyPatchResponse lib fl state response turnId callId = some result) :
    (∃ state', result = .ok (.ready (.applyPatch state')) ∧ state'.phase = .mutating) ∨
      ∃ snapshot, result = .error snapshot ∧ Refuses snapshot := by
  simp only [applyPatchResponse, hphase] at h
  split at h
  next hfailed =>
    cases h
    exact .inr ⟨_, rfl, patchPaths_refusing _ _ hfailed⟩
  · split at h
    next hfailed =>
      cases h
      exact .inr ⟨_, rfl, decodeReadBatch_refusing _ _ _ hfailed⟩
    · split at h
      · cases h
      next hfailed =>
        cases h
        exact .inr ⟨_, rfl, planMutations_refuses hfailed⟩
      · split at h
        · cases h
          exact .inr ⟨_, rfl, refuses_toolError _ _⟩
        · cases h
          exact .inl ⟨_, rfl, rfl⟩

theorem checkApplied_ok {summary : List PatchSummary} {applied : List Value}
    {items : List BatchItem} (h : checkApplied summary applied items = .ok ()) :
    ∀ item ∈ items, IsOk item := by
  induction items generalizing applied with
  | nil => exact List.forall_mem_nil _
  | cons item items ih =>
    simp only [checkApplied] at h
    split at h
    next value hok => exact List.forall_mem_cons.mpr ⟨⟨value, hok⟩, ih h⟩
    · cases h
    · cases h

theorem checkApplied_refusing (summary : List PatchSummary) (applied : List Value)
    (items : List BatchItem) : Refusing (checkApplied summary applied items) := by
  induction items generalizing applied with
  | nil => exact .ok _
  | cons item items ih =>
    unfold checkApplied
    split
    · exact ih _
    · exact .error (refuses_withDetails _ _ _)
    · exact .error (refuses_withDetails _ _ _)

/-- Mutations are answered by a success if every result is Ok. -/
theorem mutating_answered {turnId : Uuid} (hphase : state.phase = .mutating)
    (h : applyPatchResponse lib fl state response turnId callId = some result) :
    (∃ items, batchResults lib response = .ok items ∧ (∀ item ∈ items, IsOk item) ∧
        result = .ok (.completed (patchSuccess state false))) ∨
      ∃ snapshot, result = .error snapshot ∧ Refuses snapshot := by
  simp only [applyPatchResponse, hphase, Option.some.injEq] at h
  cases hitems : batchResults lib response with
  | error snapshot =>
    rw [hitems] at h
    cases h
    exact .inr ⟨_, rfl, batchResults_refusing _ _ hitems⟩
  | ok items =>
    rw [hitems] at h
    cases hchecked : checkApplied state.summary [] items with
    | error snapshot =>
      rw [Fallible.ok_bind rfl, hchecked] at h
      cases h
      exact .inr ⟨_, rfl, checkApplied_refusing _ _ _ _ hchecked⟩
    | ok _ =>
      rw [Fallible.ok_bind rfl, hchecked] at h
      cases h
      exact .inl ⟨items, rfl, checkApplied_ok hchecked, rfl⟩

theorem mapM_ok {α β ε : Type} {f : α → Except ε β} {items : List α} {values : List β}
    (h : items.mapM f = .ok values) : List.Forall₂ (fun a b => f a = .ok b) items values := by
  induction items generalizing values with
  | nil =>
    cases h
    exact .nil
  | cons item items ih =>
    rw [List.mapM_cons] at h
    obtain ⟨value, hvalue, h⟩ := Fallible.bind_ok h
    obtain ⟨rest, hrest, h⟩ := Fallible.bind_ok h
    cases h
    exact .cons hvalue (ih hrest)

/-- Reads of which each shows what the mutation at its place was to leave. -/
theorem forall₂_shows {mutations : List PatchMutation} {items : List BatchItem}
    {reads : List (Option FileVersion)} (hlength : items.length = mutations.length)
    (hreads : items.mapM (decodeRead lib fl) = .ok reads)
    (hdesired : ((mutations.zip reads).all fun (mutation, current) =>
      isDesired mutation current) = true) :
    List.Forall₂ (Shows lib fl) mutations items := by
  have hdecoded := mapM_ok hreads
  clear hreads
  induction hdecoded generalizing mutations with
  | nil =>
    rw [List.length_eq_zero_iff.mp hlength.symm]
    exact .nil
  | @cons item current items reads hitem _ ih =>
    cases mutations with
    | nil => cases hlength
    | cons mutation mutations =>
      rw [List.zip_cons_cons, List.all_cons, Bool.and_eq_true] at hdesired
      exact .cons ⟨current, hitem, hdesired.1⟩ (ih (Nat.succ.inj hlength) hdesired.2)

/-- Reads after unknown mutations are answered by a success if they show what was meant. -/
theorem reconciling_answered {turnId : Uuid} (hphase : state.phase = .reconciling)
    (h : applyPatchResponse lib fl state response turnId callId = some result) :
    (∃ items, batchResults lib response = .ok items ∧
        List.Forall₂ (Shows lib fl) state.mutations items ∧
        result = .ok (.completed (patchSuccess state true))) ∨
      ∃ snapshot, result = .error snapshot ∧ Refuses snapshot := by
  simp only [applyPatchResponse, hphase, Option.some.injEq] at h
  cases hreads : decodeReadBatch lib fl response (state.mutations.map mutationPath) with
  | error snapshot =>
    rw [hreads] at h
    cases h
    exact .inr ⟨_, rfl, decodeReadBatch_refusing _ _ _ hreads⟩
  | ok reads =>
    rw [hreads, Fallible.ok_bind rfl] at h
    by_cases hdesired : ((state.mutations.zip reads).all fun (mutation, current) =>
        isDesired mutation current) = true
    · rw [if_pos hdesired] at h
      cases h
      obtain ⟨items, hitems, hbatch⟩ := Fallible.bind_ok hreads
      by_cases hlength : items.length ≠ (state.mutations.map mutationPath).length
      · rw [if_pos hlength] at hbatch
        cases hbatch
      · rw [if_neg hlength] at hbatch
        rw [not_not, List.length_map] at hlength
        exact .inl ⟨items, hitems, forall₂_shows hlength hbatch hdesired, rfl⟩
    · rw [if_neg hdesired] at h
      cases h
      exact .inr ⟨_, rfl, refuses_withDetails _ _ _⟩

/-! ## One step -/

/-- The status of a call after a response. -/
def statusAfter : Except ToolResultSnapshot AppliedFileResult → ToolCallStatus
  | .ok (.ready progress) => .ready (.filesystem progress)
  | .ok (.completed snapshot) => .completed snapshot
  | .error snapshot => .completed snapshot

theorem applyOutcome_of_response {turnId : Uuid} {outcome : OperationOutcome}
    (harness : BasicCodexState) (completedAtMs : Int)
    (hresponse : responseOf outcome = some response)
    (hresult : applyPatchResponse agent.lib fl state response turnId callId = some result) :
    applyOutcome (withFiles agent fl) (patching state) outcome harness turnId callId
      completedAtMs = .ok (statusAfter result, harness) := by
  have happlied : ToolExecution.applyResponse (withFiles agent fl) (patching state) response harness
      turnId callId completedAtMs = (statusAfter result, harness) := by
    have htools : (withFiles agent fl).files.applyResponse (.applyPatch state) response turnId callId =
        result := by
      simp only [withFiles, tools, applyResponse, hresult, Option.getD_some]
    simp only [ToolExecution.applyResponse, htools]
    cases result with
    | error snapshot => rfl
    | ok applied => cases applied <;> rfl
  cases outcome with
  | succeeded operation =>
    cases operation with
    | execution response' =>
      cases hresponse
      exact congrArg Except.ok happlied
    | _ => cases hresponse
  | failed failure =>
    simp only [responseOf] at hresponse
    simp only [applyOutcome, hresponse, happlied]
  | cancelled => cases hresponse
  | unknown failure => cases hresponse

/-- What the end of its operation makes of a patch call: what its phase makes of a response, reads
of what came of mutations that ended unknown, or an error. -/
theorem applyOutcome_patching {turnId : Uuid} {outcome : OperationOutcome}
    {harness harness' : BasicCodexState} {completedAtMs : Int} {status : ToolCallStatus}
    (returns : ∀ file response, patching state = .filesystem file →
      responseOf outcome = some response →
        (applyResponse agent.lib fl file response turnId callId).isSome)
    (h : applyOutcome (withFiles agent fl) (patching state) outcome harness turnId callId
      completedAtMs = .ok (status, harness')) :
    (∃ response result, responseOf outcome = some response ∧
        applyPatchResponse agent.lib fl state response turnId callId = some result ∧
        status = statusAfter result) ∨
      (IsUnknown outcome ∧ state.phase = .mutating ∧
        status = .ready (patching { state with phase := .reconciling })) ∨
      ∃ snapshot, status = .completed snapshot ∧ Refuses snapshot := by
  cases hresponse : responseOf outcome with
  | some response =>
    left
    obtain ⟨result, hresult⟩ := Option.isSome_iff_exists.mp (returns _ response rfl hresponse)
    rw [applyOutcome_of_response harness completedAtMs hresponse hresult] at h
    exact ⟨response, result, rfl, hresult, (Prod.mk.inj (Except.ok.inj h)).1.symm⟩
  | none =>
    right
    cases outcome with
    | succeeded operation =>
      cases operation with
      | execution response => cases hresponse
      | _ => cases h
    | failed failure =>
      simp only [responseOf] at hresponse
      simp only [applyOutcome, hresponse, Except.ok.injEq, Prod.mk.injEq] at h
      exact .inr ⟨_, h.1.symm, refuses_withDetails _ _ _⟩
    | cancelled =>
      cases h
      exact .inr ⟨_, rfl, refuses_toolError _ _⟩
    | unknown failure =>
      by_cases hphase : state.phase = .mutating
      · simp only [applyOutcome, applyFileUnknown, hphase, if_true, Except.ok.injEq,
          Prod.mk.injEq] at h
        exact .inl ⟨⟨failure, rfl⟩, hphase, h.1.symm⟩
      · simp only [applyOutcome, applyFileUnknown, hphase, if_false, Except.ok.injEq,
          Prod.mk.injEq] at h
        exact .inr ⟨_, h.1.symm, refuses_withDetails _ _ _⟩

theorem readsOnly_reads (mode : BatchMode) (codes : List String) (config : BasicCodexConfig)
    (word : String) (paths : List String) :
    readsOnly (.batch mode codes (batchOperations word (paths.map (readOperation config)))) =
      true := by
  unfold readsOnly
  rw [List.all_eq_true]
  intro o ho
  obtain ⟨path, _, heq⟩ := List.mem_map.mp (mem_batchOperations ho)
  rw [← heq]
  rfl

/-- A pending patch call is prepared by the file tools. -/
theorem prepareCall_pending_eq {executions : List TrackedExecution} {invocation : Invocation}
    {turnId : Uuid} {ordinal : Nat} {draw : Uuid} (named : call.name = "apply_patch") :
    prepareCall (withFiles agent fl) executions invocation turnId
        { call with status := .pending } ordinal draw =
      some ((prepareApplyPatch { call with status := .pending } agent.config).map
        (fromFile ordinal)) := by
  have hshell : ∀ lib config executions session turn at_ draw,
      ShellTools.prepareNew lib { call with status := .pending } config executions session turn at_
        draw = .ok none := by
    intros
    unfold ShellTools.prepareNew
    dsimp only
    rw [if_neg (by rw [named]; decide), if_neg (by rw [named]; decide)]
  have hfile : (withFiles agent fl).files.prepareNew { call with status := .pending }
      (withFiles agent fl).config =
        (prepareApplyPatch { call with status := .pending } agent.config).map some := by
    show prepareNew agent.lib { call with status := .pending } agent.config = _
    unfold prepareNew
    dsimp only
    rw [if_neg (by rw [named]; decide), if_pos named]
  simp only [prepareCall, hshell, hfile]
  cases prepareApplyPatch { call with status := .pending } agent.config <;> rfl

/-- A pending call reads the files of its patch, or is refused. -/
theorem prepareCall_pending {executions : List TrackedExecution} {invocation : Invocation}
    {turnId : Uuid} {ordinal : Nat} {draw : Uuid} {prepared : Except ToolResultSnapshot PreparedCall}
    (named : call.name = "apply_patch")
    (h : prepareCall (withFiles agent fl) executions invocation turnId
      { call with status := .pending } ordinal draw = some prepared) :
    (∃ p state, prepared = .ok p ∧ p.progress = patching state ∧ state.phase = .reading ∧
        readsOnly p.request = true) ∨
      ∃ snapshot, prepared = .error snapshot ∧ Refuses snapshot := by
  rw [prepareCall_pending_eq call named] at h
  cases hprepared : prepareApplyPatch { call with status := .pending } agent.config with
  | error snapshot =>
    rw [hprepared] at h
    cases h
    exact .inr ⟨_, rfl, prepareApplyPatch_refusing _ _ _ hprepared⟩
  | ok operation =>
    rw [hprepared] at h
    cases h
    left
    unfold prepareApplyPatch at hprepared
    split at hprepared
    · cases hprepared
    · split at hprepared
      · cases hprepared
      · obtain ⟨patch, _, hprepared⟩ := Fallible.bind_ok hprepared
        obtain ⟨paths, _, hprepared⟩ := Fallible.bind_ok hprepared
        cases hprepared
        exact ⟨_, _, rfl, rfl, rfl, readsOnly_reads _ _ _ _ _⟩

/-! ## Runs -/

/-- The first request reads. The second is the only one that may mutate, and a third, if the second
ended unknown, reads again. -/
def Orderly : List Exchange → Option Payload → Prop
  | [], awaited => ∀ request ∈ awaited, readsOnly request = true
  | [first], _ => readsOnly first.request = true
  | [first, second], awaited => readsOnly first.request = true ∧
      ∀ request ∈ awaited, IsUnknown second.outcome ∧ readsOnly request = true
  | [first, second, third], none => readsOnly first.request = true ∧
      IsUnknown second.outcome ∧ readsOnly third.request = true
  | _, _ => False

variable (agent fl)

/-- How far a call is: each phase with what was done before it, and each way to end. -/
inductive Stage : CallRun → Prop
  | pending : Stage .start
  | reading {id : OperationId} {state : ApplyPatchState} {request : Payload}
      (phase : state.phase = .reading) : Stage ⟨.submitted id (patching state), [], some request⟩
  | planned {state : ApplyPatchState} {first : Exchange} (phase : state.phase = .mutating) :
      Stage ⟨.ready (patching state), [first], none⟩
  | mutating {id : OperationId} {state : ApplyPatchState} {first : Exchange} {request : Payload}
      (phase : state.phase = .mutating) :
      Stage ⟨.submitted id (patching state), [first], some request⟩
  | doubtful {state : ApplyPatchState} {first second : Exchange} (phase : state.phase = .mutating)
      (progress : second.progress = patching state) (unknown : IsUnknown second.outcome) :
      Stage ⟨.ready (patching { state with phase := .reconciling }), [first, second], none⟩
  | reconciling {id : OperationId} {state : ApplyPatchState} {first second : Exchange}
      {request : Payload} (phase : state.phase = .mutating)
      (progress : second.progress = patching state) (unknown : IsUnknown second.outcome) :
      Stage ⟨.submitted id (patching { state with phase := .reconciling }), [first, second],
        some request⟩
  | refused {snapshot : ToolResultSnapshot} {exchanges : List Exchange}
      (refuses : Refuses snapshot) : Stage ⟨.completed snapshot, exchanges, none⟩
  | applied {snapshot : ToolResultSnapshot} {state : ApplyPatchState} {first second : Exchange}
      {items : List BatchItem} (success : snapshot.outcome = .success)
      (phase : state.phase = .mutating) (progress : second.progress = patching state)
      (results : resultsOf agent.lib second.outcome = some items)
      (ok : ∀ item ∈ items, IsOk item) : Stage ⟨.completed snapshot, [first, second], none⟩
  | reconciled {snapshot : ToolResultSnapshot} {state : ApplyPatchState}
      {first second third : Exchange} {items : List BatchItem}
      (success : snapshot.outcome = .success) (phase : state.phase = .mutating)
      (progress : second.progress = patching state) (unknown : IsUnknown second.outcome)
      (progress' : third.progress = patching { state with phase := .reconciling })
      (results : resultsOf agent.lib third.outcome = some items)
      (shown : List.Forall₂ (Shows agent.lib fl) state.mutations items) :
      Stage ⟨.completed snapshot, [first, second, third], none⟩

/-- What holds of every run. -/
structure RunSound (run : CallRun) : Prop where
  orderly : Orderly run.exchanges run.awaited
  stage : Stage agent fl run

variable {agent fl}

theorem resultsOf_eq {outcome : OperationOutcome} {items : List BatchItem}
    (hresponse : responseOf outcome = some response) (hitems : batchResults lib response = .ok items) :
    resultsOf lib outcome = some items := by
  unfold resultsOf
  rw [hresponse, Option.bind_some, hitems]
  rfl

/-- What a call submits next: reads for a pending call, the mutations of a plan, or reads again. -/
theorem RunSound.submits {run : CallRun} (sound : RunSound agent fl run)
    {executions : List TrackedExecution} {invocation : Invocation} {turnId : Uuid} {ordinal : Nat}
    {draw : Uuid} {prepared : PreparedCall} (named : call.name = "apply_patch")
    (h : prepareCall (withFiles agent fl) executions invocation turnId
      { call with status := run.status } ordinal draw = some (.ok prepared)) (id : OperationId) :
    RunSound agent fl { run with
      status := .submitted id prepared.progress
      awaited := some prepared.request } := by
  obtain ⟨orderly, stage⟩ := sound
  cases stage with
  | pending =>
    rcases prepareCall_pending call named h with ⟨p, state, heq, hprogress, hphase, hreads⟩ |
      ⟨_, heq, _⟩
    · cases heq
      rw [hprogress]
      refine ⟨?_, .reading hphase⟩
      rintro _ ⟨⟩
      exact hreads
    · cases heq
  | reading _ => cases h
  | @planned state first phase =>
    have hready : prepareReady (.applyPatch state) agent.config = .ok {
        request := .batch .sequential [] (mutationOperations agent.config state)
        expectedGenerationId := state.generationId
        progress := .applyPatch state } := by
      simp only [prepareReady, phase]
    have hprepared : (prepareReady (.applyPatch state) agent.config).map (fromFile ordinal) =
        .ok prepared := Option.some.inj h
    rw [hready] at hprepared
    cases hprepared
    exact ⟨orderly, .mutating phase⟩
  | mutating _ => cases h
  | @doubtful state first second phase progress unknown =>
    have hprepared : (prepareReady (.applyPatch { state with phase := .reconciling })
        agent.config).map (fromFile ordinal) = .ok prepared := Option.some.inj h
    cases hprepared
    refine ⟨⟨orderly.1, ?_⟩, .reconciling phase progress unknown⟩
    rintro _ ⟨⟩
    refine ⟨unknown, ?_⟩
    have hpaths : state.mutations.map (fun m => readOperation agent.config (mutationPath m)) =
        (state.mutations.map mutationPath).map (readOperation agent.config) := by
      rw [List.map_map]
      rfl
    show readsOnly (.batch _ _ (batchOperations _ _)) = true
    rw [hpaths]
    exact readsOnly_reads _ _ _ _ _
  | reconciling _ _ _ => cases h
  | refused _ => cases h
  | applied _ _ _ _ _ => cases h
  | reconciled _ _ _ _ _ _ _ => cases h

/-- A call that ends before it is submitted is refused. -/
theorem RunSound.ends {run : CallRun} (sound : RunSound agent fl run)
    {executions : List TrackedExecution} {invocation : Invocation} {turnId : Uuid} {ordinal : Nat}
    {draw : Uuid} {snapshot : ToolResultSnapshot} (named : call.name = "apply_patch")
    (h : prepareCall (withFiles agent fl) executions invocation turnId
      { call with status := run.status } ordinal draw = some (.error snapshot)) :
    RunSound agent fl { run with status := .completed snapshot } := by
  obtain ⟨orderly, stage⟩ := sound
  cases stage with
  | pending =>
    rcases prepareCall_pending call named h with ⟨_, _, heq, _⟩ | ⟨_, heq, refuses⟩
    · cases heq
    · cases heq
      exact ⟨orderly, .refused refuses⟩
  | reading _ => cases h
  | @planned state first phase =>
    have hprepared : (prepareReady (.applyPatch state) agent.config).map (fromFile ordinal) =
        .error snapshot := Option.some.inj h
    simp only [prepareReady, phase] at hprepared
    cases hprepared
  | mutating _ => cases h
  | doubtful _ _ _ =>
    have hprepared := Option.some.inj h
    cases hprepared
  | reconciling _ _ _ => cases h
  | refused _ => cases h
  | applied _ _ _ _ _ => cases h
  | reconciled _ _ _ _ _ _ _ => cases h

/-- The end of what a call submitted takes it to its next phase or to its end. -/
theorem RunSound.answered {run : CallRun} (sound : RunSound agent fl run) {turnId : Uuid}
    {id : OperationId} {progress : ToolCallProgress} {request : Payload}
    {outcome : OperationOutcome} {harness harness' : BasicCodexState} {completedAtMs : Int}
    {status : ToolCallStatus} (submitted : run.status = .submitted id progress)
    (awaited : run.awaited = some request)
    (returns : ∀ file response, progress = .filesystem file → responseOf outcome = some response →
      (applyResponse agent.lib fl file response turnId call.callId).isSome)
    (h : applyOutcome (withFiles agent fl) progress outcome harness turnId call.callId
      completedAtMs = .ok (status, harness')) :
    RunSound agent fl {
      status
      exchanges := run.exchanges ++ [⟨progress, request, outcome⟩]
      awaited := none } := by
  obtain ⟨orderly, stage⟩ := sound
  cases stage with
  | pending => cases submitted
  | reading phase =>
    cases submitted
    cases awaited
    have first : readsOnly request = true := orderly request rfl
    rcases applyOutcome_patching returns h with ⟨response, result, _, hresult, rfl⟩ |
      ⟨_, hphase, _⟩ | ⟨snapshot, rfl, refuses⟩
    · rcases reading_answered phase hresult with ⟨state', rfl, hphase'⟩ | ⟨snapshot, rfl, refuses⟩
      · exact ⟨first, .planned hphase'⟩
      · exact ⟨first, .refused refuses⟩
    · rw [phase] at hphase
      cases hphase
    · exact ⟨first, .refused refuses⟩
  | planned _ => cases submitted
  | @mutating _ state first _ phase =>
    cases submitted
    cases awaited
    have hordered : Orderly [first, ⟨patching state, request, outcome⟩] none := by
      refine ⟨orderly, ?_⟩
      intro _ hnone
      cases hnone
    rcases applyOutcome_patching returns h with ⟨response, result, hresponse, hresult, rfl⟩ |
      ⟨unknown, _, rfl⟩ | ⟨snapshot, rfl, refuses⟩
    · rcases mutating_answered phase hresult with ⟨items, hitems, ok, rfl⟩ | ⟨snapshot, rfl, refuses⟩
      · exact ⟨hordered, .applied rfl phase rfl (resultsOf_eq hresponse hitems) ok⟩
      · exact ⟨hordered, .refused refuses⟩
    · exact ⟨hordered, .doubtful phase rfl unknown⟩
    · exact ⟨hordered, .refused refuses⟩
  | doubtful _ _ _ => cases submitted
  | @reconciling _ state first second _ phase before unknown =>
    cases submitted
    cases awaited
    obtain ⟨hfirst, hsecond⟩ := orderly
    have hordered : Orderly [first, second,
        ⟨patching { state with phase := .reconciling }, request, outcome⟩] none :=
      ⟨hfirst, hsecond request rfl⟩
    rcases applyOutcome_patching returns h with ⟨response, result, hresponse, hresult, rfl⟩ |
      ⟨_, hphase, _⟩ | ⟨snapshot, rfl, refuses⟩
    · rcases reconciling_answered rfl hresult with ⟨items, hitems, shown, rfl⟩ |
        ⟨snapshot, rfl, refuses⟩
      · exact ⟨hordered, .reconciled rfl phase before unknown rfl (resultsOf_eq hresponse hitems)
          shown⟩
      · exact ⟨hordered, .refused refuses⟩
    · cases hphase
    · exact ⟨hordered, .refused refuses⟩
  | refused _ => cases submitted
  | applied _ _ _ _ _ => cases submitted
  | reconciled _ _ _ _ _ _ _ => cases submitted

theorem CallReached.sound {run : CallRun} {turnId : Uuid} (named : call.name = "apply_patch")
    (reached : CallReached agent fl call turnId run) : RunSound agent fl run := by
  induction reached with
  | refl =>
    refine ⟨?_, .pending⟩
    rintro _ ⟨⟩
  | tail _ step ih =>
    cases step with
    | submits id h => exact ih.submits call named h id
    | ends h => exact ih.ends call named h
    | answered submitted awaited returns h => exact ih.answered call submitted awaited returns h

/-! ## What a result says -/

theorem mutates_of_readsOnly {request : Payload} (h : readsOnly request = true) :
    mutates request = false := by
  have hread : ∀ operation : Operation, isRead operation = true → isMutation operation = false := by
    intro operation hop
    cases operation <;> first | rfl | cases hop
  cases request with
  | single operation => exact hread operation h
  | batch mode codes operations =>
    unfold mutates
    rw [List.any_eq_false]
    intro o ho
    rw [hread o.operation (List.all_eq_true.mp h o ho)]
    decide

/-- The requests of an orderly call: at most one of them mutates. -/
theorem Orderly.once {exchanges : List Exchange} {awaited : Option Payload}
    (orderly : Orderly exchanges awaited) :
    ((exchanges.map (·.request) ++ awaited.toList).filter mutates).length ≤ 1 := by
  have hone : ∀ (request : Payload) (rest : List Payload), readsOnly request = true →
      (request :: rest).filter mutates = rest.filter mutates := by
    intro request rest hreads
    exact List.filter_cons_of_neg (by simp [mutates_of_readsOnly hreads])
  have hshort : ∀ request : Payload, ([request].filter mutates).length ≤ 1 := by
    intro request
    exact List.length_filter_le _ _
  rcases exchanges with _ | ⟨first, _ | ⟨second, _ | ⟨third, _ | ⟨fourth, rest⟩⟩⟩⟩
  · cases awaited with
    | none => exact Nat.zero_le _
    | some request => exact hshort request
  · cases awaited with
    | none => exact hshort first.request
    | some request =>
      show ([first.request, request].filter mutates).length ≤ 1
      rw [hone _ _ orderly]
      exact hshort request
  · obtain ⟨hfirst, hawaited⟩ := orderly
    cases awaited with
    | none =>
      show ([first.request, second.request].filter mutates).length ≤ 1
      rw [hone _ _ hfirst]
      exact hshort second.request
    | some request =>
      show ([first.request, second.request, request].filter mutates).length ≤ 1
      rw [hone _ _ hfirst, List.filter_cons, hone _ _ (hawaited request rfl).2]
      split
      · exact Nat.le_refl 1
      · exact Nat.zero_le 1
  · cases awaited with
    | none =>
      obtain ⟨hfirst, _, hthird⟩ := orderly
      show ([first.request, second.request, third.request].filter mutates).length ≤ 1
      rw [hone _ _ hfirst, List.filter_cons, hone _ _ hthird]
      split
      · exact Nat.le_refl 1
      · exact Nat.zero_le 1
    | some request => exact orderly.elim
  · cases awaited <;> exact orderly.elim

/-- Behind mutations that ended unknown an orderly call only reads. -/
theorem Orderly.careful {exchanges : List Exchange} {awaited : Option Payload}
    (orderly : Orderly exchanges awaited) :
    (exchanges.Pairwise fun e e' =>
        mutates e.request = true → IsUnknown e.outcome → readsOnly e'.request = true) ∧
      ∀ e ∈ exchanges, mutates e.request = true → IsUnknown e.outcome →
        ∀ request ∈ awaited, readsOnly request = true := by
  have hreads : ∀ e : Exchange, readsOnly e.request = true → ∀ {p : Prop},
      mutates e.request = true → p := by
    intro e hread p hmutates
    rw [mutates_of_readsOnly hread] at hmutates
    cases hmutates
  rcases exchanges with _ | ⟨first, _ | ⟨second, _ | ⟨third, _ | ⟨fourth, rest⟩⟩⟩⟩
  · exact ⟨.nil, List.forall_mem_nil _⟩
  · refine ⟨List.pairwise_singleton _ _, ?_⟩
    rw [List.forall_mem_singleton]
    exact hreads first orderly
  · obtain ⟨hfirst, hawaited⟩ := orderly
    refine ⟨List.pairwise_pair.mpr (hreads first hfirst), ?_⟩
    rw [List.forall_mem_cons, List.forall_mem_singleton]
    refine ⟨hreads first hfirst, ?_⟩
    intro _ _ request hrequest
    exact (hawaited request hrequest).2
  · cases awaited with
    | none =>
      obtain ⟨hfirst, _, hthird⟩ := orderly
      refine ⟨?_, ?_⟩
      · rw [List.pairwise_cons, List.pairwise_pair]
        refine ⟨?_, fun _ _ => hthird⟩
        intro e _
        exact hreads first hfirst
      · intro e _ _ _ request hrequest
        cases hrequest
    | some request => exact orderly.elim
  · cases awaited <;> exact orderly.elim

/-- The reads of a reconciliation are named by their place. -/
theorem reconciliationOperations_name {config : BasicCodexConfig} {i : Nat}
    {mutation : PatchMutation} (h : state.mutations[i]? = some mutation) :
    ((reconciliationOperations config state).map (·.requestId))[i]? =
      some ("read-" ++ toString i) := by
  simp [reconciliationOperations, batchOperations, h]

/-- A success of a call whose results are named is what was done. -/
theorem Stage.says {run : CallRun} (stage : Stage agent fl run)
    (names : ∀ e ∈ run.exchanges, e.Named agent fl) {snapshot : ToolResultSnapshot}
    (completed : run.status = .completed snapshot) :
    snapshot.outcome = .success ∧ Done agent fl run.exchanges ∨
      ∃ error, snapshot.outcome = .error error := by
  cases stage with
  | pending => cases completed
  | reading _ => cases completed
  | planned _ => cases completed
  | mutating _ => cases completed
  | doubtful _ _ _ => cases completed
  | reconciling _ _ _ => cases completed
  | refused refuses =>
    cases completed
    exact .inr refuses
  | @applied _ state first second items success phase progress results ok =>
    cases completed
    refine .inl ⟨success, .inl ⟨state, second, by simp, progress, phase, items, results, ?_⟩⟩
    intro o ho
    have named := (names second (by simp) state items progress results).1 phase ok
    obtain ⟨item, hitem, hid⟩ := named o ho
    exact ⟨item, hitem, hid, ok item hitem⟩
  | @reconciled _ state first second third items success phase progress unknown progress' results
      shown =>
    cases completed
    have pair : [second, third].Sublist [first, second, third] := List.sublist_cons_self _ _
    refine .inl ⟨success, .inr ⟨state, second, third, pair, progress, phase, unknown, progress',
      items, results, ?_⟩⟩
    intro i mutation hmutation
    have named := (names third (by simp) _ items progress' results).2 rfl shown
    have hname := @reconciliationOperations_name _ agent.config _ _ hmutation
    obtain ⟨hi, hget⟩ := List.getElem?_eq_some_iff.mp hmutation
    have hitem : i < items.length := shown.length_eq ▸ hi
    refine ⟨items[i], List.getElem_mem hitem, ?_, ?_⟩
    · have hids := congrArg (fun ids => ids[i]?) named
      rw [List.getElem?_map, List.getElem?_eq_getElem hitem] at hids
      exact Option.some.inj (hids.trans hname)
    · have hshows := shown.get hi hitem
      rwa [List.get_eq_getElem, hget] at hshows

/-- Every run of a call whose results are named says only what was done. -/
theorem patch_calls_claim_only_done {run : CallRun} {turnId : Uuid}
    (named : call.name = "apply_patch") (reached : CallReached agent fl call turnId run)
    (names : ∀ e ∈ run.exchanges, e.Named agent fl) : ClaimsOnlyDone agent fl run := by
  have sound := reached.sound call named
  refine ⟨sound.orderly.once, sound.orderly.careful, ?_⟩
  intro snapshot completed
  exact sound.stage.says names completed

/-! ### A call that adds a file -/

/-- A result of a batch, of those that are Ok and those of missing files. -/
def decodeItem (value : Value) : Except String BatchItem :=
  match value.get "request_id", value.get "status" with
  | some (.string requestId), some (.string status) =>
    if status = "ok" then .ok ⟨requestId, .ok ((value.get "result").getD .null)⟩
    else .ok ⟨requestId, .error notFound "no such file"⟩
  | _, _ => .error "missing field `request_id`"

def lineAgent : Agent := { listAgent with
  lib := { listAgent.lib with
    decodeBatch := fun value =>
      match value.get "results" with
      | some (.array items) => items.mapM decodeItem
      | _ => .error "missing field `results`" } }

def lineCall : ToolCallState where
  callId := "call"
  name := "apply_patch"
  ordinal := 0
  kind := .custom
  input := .text "*** Begin Patch\n*** Add File: a\n+x\n*** End Patch"
  scheduling := .exclusive
  status := .pending

/-- An answer to a batch. -/
def batchAnswer (items : List Value) : Response where
  generationId := 3
  outcome := .ok (.object [("succeeded", .bool true), ("results", .array items)])

def missingFile : Value :=
  .object [("request_id", .string "read-0"), ("status", .string "error"),
    ("error", .object [("code", .string "not_found"), ("message", .string "no such file")])]

def writtenFile : Value :=
  .object [("request_id", .string "mutation-0"), ("status", .string "ok"),
    ("result", .object [])]

def lineReading : ApplyPatchState :=
  { lineState with phase := .reading, generationId := none, mutations := [], summary := [] }

def lineRead : Exchange where
  progress := patching lineReading
  request := .batch .parallel [notFound]
    (batchOperations "read-" [readOperation lineAgent.config "a"])
  outcome := .succeeded (.execution (batchAnswer [missingFile]))

def lineWritten (items : List Value) : Exchange where
  progress := patching lineState
  request := .batch .sequential [] (mutationOperations lineAgent.config lineState)
  outcome := .succeeded (.execution (batchAnswer items))

def lineRun (items : List Value) : CallRun where
  status := .completed (patchSuccess lineState false)
  exchanges := [lineRead, lineWritten items]
  awaited := none

theorem lineRun_reached {items : List Value}
    (h : applyPatchResponse lineAgent.lib lineLib lineState (batchAnswer items) 1 "call" =
      some (.ok (.completed (patchSuccess lineState false)))) :
    CallReached lineAgent lineLib lineCall 1 (lineRun items) := by
  have hprepared : prepareApplyPatch lineCall lineAgent.config = .ok {
      request := lineRead.request
      expectedGenerationId := none
      progress := .applyPatch lineReading } := by
    unfold prepareApplyPatch
    simp only [lineCall]
    rw [if_neg (by decide), linePatch_parsed]
    rfl
  have submitted : CallStep lineAgent lineLib lineCall 1 .start
      ⟨.submitted 10 lineRead.progress, [], some lineRead.request⟩ := by
    have hprepare : prepareCall (withFiles lineAgent lineLib) [] ⟨1, 0⟩ 1
        { lineCall with status := .pending } 0 5 = some (.ok {
          ordinal := 0
          request := lineRead.request
          expectedGenerationId := none
          progress := lineRead.progress }) := by
      rw [prepareCall_pending_eq lineCall rfl]
      show some ((prepareApplyPatch lineCall lineAgent.config).map (fromFile 0)) = _
      rw [hprepared]
      rfl
    exact @CallStep.submits lineAgent lineLib lineCall 1 .start [] ⟨1, 0⟩ 0 5 _ 10 hprepare
  have read : CallStep lineAgent lineLib lineCall 1
      ⟨.submitted 10 lineRead.progress, [], some lineRead.request⟩
      ⟨.ready (patching lineState), [lineRead], none⟩ := by
    have hresult : applyPatchResponse lineAgent.lib lineLib lineReading (batchAnswer [missingFile]) 1
        "call" = some (.ok (.ready (.applyPatch lineState))) := rfl
    refine .answered rfl rfl ?_ (applyOutcome_of_response default 0 rfl hresult)
    rintro _ _ ⟨⟩ ⟨⟩
    exact Option.isSome_of_eq_some hresult
  have resubmitted : CallStep lineAgent lineLib lineCall 1
      ⟨.ready (patching lineState), [lineRead], none⟩
      ⟨.submitted 11 (patching lineState), [lineRead], some (lineWritten items).request⟩ := by
    have hprepare : prepareCall (withFiles lineAgent lineLib) [] ⟨1, 0⟩ 1
        { lineCall with status := .ready (patching lineState) } 0 6 = some (.ok {
          ordinal := 0
          request := (lineWritten items).request
          expectedGenerationId := some 3
          progress := patching lineState }) := rfl
    exact @CallStep.submits lineAgent lineLib lineCall 1 ⟨.ready (patching lineState), [lineRead], none⟩
      [] ⟨1, 0⟩ 0 6 _ 11 hprepare
  have answered : CallStep lineAgent lineLib lineCall 1
      ⟨.submitted 11 (patching lineState), [lineRead], some (lineWritten items).request⟩
      (lineRun items) := by
    refine .answered rfl rfl ?_ (applyOutcome_of_response default 0 rfl h)
    rintro _ _ ⟨⟩ ⟨⟩
    exact Option.isSome_of_eq_some h
  exact (((Relation.ReflTransGen.refl.tail submitted).tail read).tail resubmitted).tail answered

/-- The file is written, and the call says so. -/
theorem patch_calls_claim_only_done_line :
    CallReached lineAgent lineLib lineCall 1 (lineRun [writtenFile]) ∧
      ClaimsOnlyDone lineAgent lineLib (lineRun [writtenFile]) := by
  have reached : CallReached lineAgent lineLib lineCall 1 (lineRun [writtenFile]) :=
    lineRun_reached rfl
  refine ⟨reached, patch_calls_claim_only_done lineCall rfl reached ?_⟩
  intro e he state items progress results
  rcases List.mem_pair.mp he with rfl | rfl
  · cases progress
    constructor <;>
    · intro h
      cases h
  · cases progress
    refine ⟨?_, by intro h; cases h⟩
    intro _ _ o ho
    cases results
    rw [List.mem_singleton.mp ho]
    exact ⟨_, List.mem_singleton_self _, rfl⟩

/-- An answer without results is taken for a success of every mutation. -/
theorem patch_calls_claim_only_done_short :
    ¬∀ (agent : Agent) (fl : FileLib) (call : ToolCallState) (turnId : Uuid) (run : CallRun),
      call.name = "apply_patch" → CallReached agent fl call turnId run →
        ClaimsOnlyDone agent fl run := by
  intro h
  have claims := h lineAgent lineLib lineCall 1 (lineRun []) rfl (lineRun_reached rfl)
  rcases claims.result _ rfl with ⟨_, ⟨state, e, he, applied⟩ | ⟨state, e, e', pair, reconciled⟩⟩ |
    ⟨error, herror⟩
  · obtain ⟨progress, phase, items, results, hitems⟩ := applied
    rcases List.mem_pair.mp he with rfl | rfl
    · cases progress
      cases phase
    · cases progress
      cases results
      obtain ⟨item, hitem, _⟩ := hitems _ (List.mem_singleton_self _)
      cases hitem
  · have hlength := pair.length_le
    have hpair : [e, e'] = [lineRead, lineWritten []] := pair.eq_of_length rfl
    have hfirst : e = lineRead := (List.cons.inj hpair).1
    have progress := reconciled.progress
    rw [hfirst] at progress
    cases progress
    cases reconciled.phase
  · cases herror

end AgentPlatform.Harness.FilesystemTools
