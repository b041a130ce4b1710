import AgentPlatform.Harness.PatchGrammar
import AgentPlatform.Harness.ToolDiscipline

/-!
# What a patch plan means

A patch is planned on the files that were read: the hunks change virtual files, and each touched
file that ends up different is written or removed, if it is still what was read. Here the plan is
compared with the hunks applied one after the other to the files themselves (`patchMeaning`).

The runtime is modelled as far as it makes a sequential batch of mutations (`runBatch`): in order,
each if its precondition holds of the file as it is then.
-/

namespace AgentPlatform.Harness.FilesystemTools

open Execution

/-! ## The files of a machine -/

/-- What the files contain, of those that exist. -/
abbrev Contents := String → Option ByteArray

/-- The files after an update wrote a file, at its own path or at another one instead. A file moved
onto itself is rewritten. -/
def updated (contents : Contents) (path : String) (movePath : Option String) (data : ByteArray) :
    Contents :=
  fun file =>
    if file = movePath.getD path then some data
    else if file = path then none
    else contents file

/-- A hunk applied to the files, unless it fails. -/
def hunkMeaning (contents : Contents) : PatchHunk → Option Contents
  | .add path content => some (Function.update contents path (some content.toUTF8))
  | .delete path => (contents path).map fun _ => Function.update contents path none
  | .update path movePath chunks => do
    let data ← contents path
    let source ← String.fromUTF8? data
    let text ← (applyChunks path source chunks).bind Except.toOption
    return updated contents path movePath text.toUTF8

/-- The hunks applied one after the other. -/
def patchMeaning (contents : Contents) (hunks : List PatchHunk) : Option Contents :=
  hunks.foldlM hunkMeaning contents

/-- What the runtime makes of requests: the bytes of base64 text, and the digest that it reports
and compares. -/
structure Runtime where
  decode : String → Option ByteArray
  digest : ByteArray → String

variable (runtime : Runtime)

/-- Whether a precondition holds of a file. -/
def holds (file : Option ByteArray) : FilePrecondition → Bool
  | .missing => file.isNone
  | .sha256 sha256 => file.any fun data => runtime.digest data == sha256

/-- Whether an operation's precondition holds. -/
def admits (contents : Contents) : Operation → Bool
  | .writeFile params => holds runtime (contents params.path) params.precondition
  | .removeFile params => holds runtime (contents params.path) params.precondition
  | _ => true

/-- An operation of a sequential batch. -/
def runOperation (contents : Contents) (operation : Operation) : Option Contents :=
  if admits runtime contents operation then
    match operation with
    | .writeFile params =>
      (runtime.decode params.dataBase64).map fun data =>
        Function.update contents params.path (some data)
    | .removeFile params => some (Function.update contents params.path none)
    | _ => some contents
  else none

/-- A sequential batch in which no operation fails. -/
def runBatch (contents : Contents) (operations : List BatchOperation) : Option Contents :=
  operations.foldlM (fun contents o => runOperation runtime contents o.operation) contents

/-! ## Paths -/

variable {paths touched : List String} {path : String} {patch : ParsedPatch} {hunk : PatchHunk}
  {hunks : List PatchHunk}

@[simp] theorem mem_touch {p : String} : p ∈ touch paths path ↔ p ∈ paths ∨ p = path := by
  unfold touch
  by_cases h : path ∈ paths
  · rw [if_pos (by simpa using h)]
    constructor
    · exact .inl
    · rintro (hp | rfl)
      · exact hp
      · exact h
  · rw [if_neg (by simpa using h)]
    simp

theorem nodup_touch (h : paths.Nodup) : (touch paths path).Nodup := by
  unfold touch
  by_cases hmem : path ∈ paths
  · rw [if_pos (by simpa using hmem)]
    exact h
  · rw [if_neg (by simpa using hmem)]
    rw [List.nodup_append]
    refine ⟨h, List.nodup_singleton _, ?_⟩
    intro a ha b hb
    rw [List.mem_singleton] at hb
    rintro rfl
    exact hmem (hb ▸ ha)

/-- The paths that a patch names, each once. -/
def patchNames (patch : ParsedPatch) : List String := (patch.hunks.flatMap hunkPaths).foldl touch []

theorem mem_foldl_touch {p : String} {rest : List String} :
    p ∈ rest.foldl touch paths ↔ p ∈ paths ∨ p ∈ rest := by
  induction rest generalizing paths with
  | nil => simp
  | cons path rest ih =>
    rw [List.foldl_cons, ih, mem_touch, List.mem_cons, or_assoc]

theorem nodup_foldl_touch {rest : List String} (h : paths.Nodup) : (rest.foldl touch paths).Nodup := by
  induction rest generalizing paths with
  | nil => exact h
  | cons path rest ih => exact ih (nodup_touch h)

theorem mem_patchNames {p : String} :
    p ∈ patchNames patch ↔ ∃ hunk ∈ patch.hunks, p ∈ hunkPaths hunk := by
  unfold patchNames
  rw [mem_foldl_touch]
  simp

theorem patchNames_nodup (patch : ParsedPatch) : (patchNames patch).Nodup :=
  nodup_foldl_touch List.nodup_nil

theorem collectPaths_valid {rest : List String}
    (h : ∀ path ∈ rest, validatePatchPath path = .ok ()) :
    collectPaths paths rest = .ok (rest.foldl touch paths) := by
  induction rest generalizing paths with
  | nil => rfl
  | cons path rest ih =>
    have hvalid : validatePath path = .ok () := by
      unfold validatePath
      rw [h path List.mem_cons_self]
      rfl
    unfold collectPaths
    rw [hvalid]
    exact ih fun p hp => h p (List.mem_cons_of_mem _ hp)

/-- A hunk whose paths the parser accepted. -/
def ValidHunk (hunk : PatchHunk) : Prop := ∀ path ∈ hunkPaths hunk, validatePatchPath path = .ok ()

theorem patchPaths_eq (h : ∀ hunk ∈ patch.hunks, ValidHunk hunk) :
    patchPaths patch =
      if maxPatchPaths < (patchNames patch).length then
        .error (ShellTools.toolError "patch_too_large"
          ("apply_patch affects more than " ++ toString maxPatchPaths ++ " paths"))
      else .ok (patchNames patch) := by
  unfold patchPaths
  rw [collectPaths_valid]
  · rfl
  · intro path hpath
    obtain ⟨hunk, hhunk, hmem⟩ := List.mem_flatMap.mp hpath
    exact h hunk hhunk path hmem

/-! ## The virtual files -/

variable {lib : Foreign} {fl : FileLib} {contents contents' : Contents} {files : Files}
  {plan plan' : Planning} {names : List String}

/-- Virtual files that are versions of what the files of some names contain. -/
def Represents (fl : FileLib) (names : List String) (files : Files) (contents : Contents) : Prop :=
  ∀ path ∈ names, files path = (contents path).map (version fl)

theorem Represents.update (h : Represents fl names files contents) (path : String)
    (data : Option ByteArray) :
    Represents fl names (Function.update files path (data.map (version fl)))
      (Function.update contents path data) := by
  intro p hp
  by_cases heq : p = path
  · subst heq
    simp
  · rw [Function.update_of_ne heq, Function.update_of_ne heq]
    exact h p hp

theorem updated_none (contents : Contents) (path : String) (data : ByteArray) :
    updated contents path none data = Function.update contents path (some data) := by
  funext file
  unfold updated
  by_cases heq : file = path
  · subst heq
    simp
  · simp [heq]

theorem updated_some (contents : Contents) (path destination : String) (data : ByteArray) :
    updated contents path (some destination) data =
      Function.update (Function.update contents path none) destination (some data) := by
  funext file
  unfold updated
  by_cases hdestination : file = destination
  · subst hdestination
    simp
  · rw [Function.update_of_ne hdestination]
    by_cases hpath : file = path
    · subst hpath
      simp [hdestination]
    · simp [hdestination, hpath]

/-- The text of an update on the virtual files is the text on the files. -/
theorem updatedText_eq (h : Represents fl names files contents) (hpath : path ∈ names)
    (chunks : List PatchChunk) (text : String) :
    updatedText files path chunks = some (.ok text) ↔
      ((contents path).bind String.fromUTF8?).bind
          (fun source => (applyChunks path source chunks).bind Except.toOption) = some text := by
  unfold updatedText requireFile
  rw [h path hpath]
  cases hdata : contents path with
  | none => simp
  | some data =>
    simp only [Option.map_some, Option.bind_some, version]
    cases hsource : String.fromUTF8? data with
    | none => simp
    | some source =>
      simp only [Option.bind_some]
      cases happlied : applyChunks path source chunks with
      | none => simp
      | some result =>
        cases result with
        | error failure => simp [Except.toOption]
        | ok text' => simp [Except.toOption]

/-- The paths of a hunk in the order in which they are touched. -/
def touchedBy : PatchHunk → List String
  | .add path _ => [path]
  | .delete path => [path]
  | .update path movePath _ => movePath.toList ++ [path]

theorem mem_touchedBy {p : String} : p ∈ touchedBy hunk ↔ p ∈ hunkPaths hunk := by
  cases hunk with
  | add path content => exact Iff.rfl
  | delete path => exact Iff.rfl
  | update path movePath chunks =>
    unfold touchedBy hunkPaths
    rw [List.mem_append, List.mem_singleton, List.mem_cons, or_comm]

/-- Two computations that succeed together, with results in a relation. -/
structure Agree {α β : Type} (planned : Option (Except ToolResultSnapshot α)) (meant : Option β)
    (related : α → β → Prop) : Prop where
  sound : ∀ a, planned = some (.ok a) → ∃ b, meant = some b ∧ related a b
  complete : ∀ b, meant = some b → ∃ a, planned = some (.ok a)

theorem Agree.both {α β : Type} {related : α → β → Prop} {a : α} {b : β} (h : related a b) :
    Agree (some (.ok a)) (some b) related where
  sound _ ha := by
    cases ha
    exact ⟨b, rfl, h⟩
  complete _ _ := ⟨a, rfl⟩

theorem Agree.neither {α β : Type} {related : α → β → Prop}
    {planned : Option (Except ToolResultSnapshot α)} (h : ∀ a, planned ≠ some (.ok a)) :
    Agree planned (none : Option β) related where
  sound a ha := absurd ha (h a)
  complete _ hb := by cases hb

/-- What a planned hunk did: to the virtual files what it did to the files, and nothing to the files
that it does not name. -/
structure HunkPlanned (fl : FileLib) (names : List String) (plan : Planning) (contents : Contents)
    (hunk : PatchHunk) (plan' : Planning) (contents' : Contents) : Prop where
  represents : Represents fl names plan'.files contents'
  touched : plan'.touched = (touchedBy hunk).foldl touch plan.touched
  others : ∀ p, p ∉ hunkPaths hunk → plan'.files p = plan.files p ∧ contents' p = contents p

theorem planHunk_add (h : Represents fl names plan.files contents) (content : String) :
    Agree (planHunk fl plan (.add path content)) (hunkMeaning contents (.add path content))
      (HunkPlanned fl names plan contents (.add path content)) := by
  refine .both ⟨h.update path (some content.toUTF8), rfl, ?_⟩
  intro p hp
  have hne : p ≠ path := by simpa [hunkPaths] using hp
  exact ⟨Function.update_of_ne hne _ _, Function.update_of_ne hne _ _⟩

theorem planHunk_delete (h : Represents fl names plan.files contents) (hpath : path ∈ names) :
    Agree (planHunk fl plan (.delete path)) (hunkMeaning contents (.delete path))
      (HunkPlanned fl names plan contents (.delete path)) := by
  have hread := h path hpath
  cases hdata : contents path with
  | none =>
    rw [hdata] at hread
    simp only [planHunk, hunkMeaning, requireFile, hread, hdata, Option.map_none]
    exact .neither (by simp)
  | some data =>
    rw [hdata] at hread
    simp only [planHunk, hunkMeaning, requireFile, hread, hdata, Option.map_some]
    refine .both ⟨h.update path none, rfl, ?_⟩
    intro p hp
    have hne : p ≠ path := by simpa [hunkPaths] using hp
    exact ⟨Function.update_of_ne hne _ _, Function.update_of_ne hne _ _⟩

theorem hunkMeaning_update (contents : Contents) (path : String) (movePath : Option String)
    (chunks : List PatchChunk) :
    hunkMeaning contents (.update path movePath chunks) =
      (((contents path).bind String.fromUTF8?).bind
        fun source => (applyChunks path source chunks).bind Except.toOption).map
          fun text => updated contents path movePath text.toUTF8 := by
  simp only [hunkMeaning, Option.bind_eq_bind, Option.pure_def]
  cases contents path with
  | none => rfl
  | some data =>
    simp only [Option.bind_some]
    cases String.fromUTF8? data with
    | none => rfl
    | some source =>
      simp only [Option.bind_some]
      cases (applyChunks path source chunks).bind Except.toOption with
      | none => rfl
      | some text => rfl

theorem planHunk_update (h : Represents fl names plan.files contents) (hpath : path ∈ names)
    (movePath : Option String) (chunks : List PatchChunk) :
    Agree (planHunk fl plan (.update path movePath chunks))
      (hunkMeaning contents (.update path movePath chunks))
      (HunkPlanned fl names plan contents (.update path movePath chunks)) := by
  have htext := updatedText_eq h hpath chunks
  rw [hunkMeaning_update]
  cases hresult : ((contents path).bind String.fromUTF8?).bind
      (fun source => (applyChunks path source chunks).bind Except.toOption) with
  | none =>
    refine .neither ?_
    intro plan' hplan
    simp only [planHunk] at hplan
    split at hplan
    · cases hplan
    · cases hplan
    next text hupdated =>
      have hsome := (htext text).mp hupdated
      rw [hresult] at hsome
      cases hsome
  | some text =>
    have hupdated := (htext text).mpr hresult
    rw [Option.map_some]
    cases movePath with
    | none =>
      simp only [planHunk, hupdated, updated_none]
      refine .both ⟨h.update path (some text.toUTF8), rfl, ?_⟩
      intro p hp
      have hne : p ≠ path := by simpa [hunkPaths] using hp
      exact ⟨Function.update_of_ne hne _ _, Function.update_of_ne hne _ _⟩
    | some destination =>
      simp only [planHunk, hupdated, updated_some]
      refine .both ⟨(h.update path none).update destination (some text.toUTF8), rfl, ?_⟩
      intro p hp
      have hne : p ≠ path ∧ p ≠ destination := by simpa [hunkPaths] using hp
      dsimp only
      rw [Function.update_of_ne hne.2, Function.update_of_ne hne.1, Function.update_of_ne hne.2,
        Function.update_of_ne hne.1]
      exact ⟨rfl, rfl⟩

/-- A planned hunk does to the virtual files what it means for the files. -/
theorem planHunk_agrees (h : Represents fl names plan.files contents)
    (hnames : ∀ p ∈ hunkPaths hunk, p ∈ names) :
    Agree (planHunk fl plan hunk) (hunkMeaning contents hunk)
      (HunkPlanned fl names plan contents hunk) := by
  cases hunk with
  | add path content => exact planHunk_add h content
  | delete path => exact planHunk_delete h (hnames path List.mem_cons_self)
  | update path movePath chunks =>
    exact planHunk_update h (hnames path List.mem_cons_self) movePath chunks

/-- What a planned patch did. -/
structure PatchPlanned (fl : FileLib) (names : List String) (plan : Planning) (contents : Contents)
    (hunks : List PatchHunk) (plan' : Planning) (contents' : Contents) : Prop where
  represents : Represents fl names plan'.files contents'
  touched : plan'.touched = (hunks.flatMap touchedBy).foldl touch plan.touched
  others : ∀ p, (∀ hunk ∈ hunks, p ∉ hunkPaths hunk) →
    plan'.files p = plan.files p ∧ contents' p = contents p

theorem planHunks_agrees (h : Represents fl names plan.files contents)
    (hnames : ∀ hunk ∈ hunks, ∀ p ∈ hunkPaths hunk, p ∈ names) :
    Agree (planHunks fl hunks plan) (patchMeaning contents hunks)
      (PatchPlanned fl names plan contents hunks) := by
  induction hunks generalizing plan contents with
  | nil => exact .both ⟨h, rfl, fun _ _ => ⟨rfl, rfl⟩⟩
  | cons hunk hunks ih =>
    obtain ⟨hsound, hcomplete⟩ := planHunk_agrees h (hnames hunk List.mem_cons_self)
    have hrest : ∀ hunk ∈ hunks, ∀ p ∈ hunkPaths hunk, p ∈ names :=
      fun hunk' hmem => hnames hunk' (List.mem_cons_of_mem _ hmem)
    unfold planHunks patchMeaning
    rw [List.foldlM_cons]
    cases hmeant : hunkMeaning contents hunk with
    | none =>
      refine .neither ?_
      intro plan' hplan
      split at hplan
      next middle hmiddle =>
        obtain ⟨_, hsome, _⟩ := hsound middle hmiddle
        rw [hmeant] at hsome
        cases hsome
      next stopped hstopped =>
        exact hstopped plan' hplan
    | some contents₁ =>
      obtain ⟨plan₁, hplan₁⟩ := hcomplete contents₁ hmeant
      obtain ⟨contents₂, hsome, planned⟩ := hsound plan₁ hplan₁
      rw [hmeant] at hsome
      cases hsome
      rw [hplan₁]
      obtain ⟨hsound', hcomplete'⟩ := ih planned.represents hrest
      refine ⟨?_, hcomplete'⟩
      intro plan' hplan'
      obtain ⟨contents', hcontents', later⟩ := hsound' plan' hplan'
      refine ⟨contents', hcontents', later.represents, ?_, ?_⟩
      · rw [later.touched, planned.touched, List.flatMap_cons, List.foldl_append]
      · intro p hp
        have hlater := later.others p fun hunk' hmem => hp hunk' (List.mem_cons_of_mem _ hmem)
        have hfirst := planned.others p (hp hunk List.mem_cons_self)
        exact ⟨hlater.1.trans hfirst.1, hlater.2.trans hfirst.2⟩

/-! ## The mutations -/

variable {runtime}

/-- The runtime as the file tools rely on it: it decodes what they encode, it reports the digests
that they compute, and a digest stands for its bytes. -/
structure Runtime.Honest (runtime : Runtime) (fl : FileLib) : Prop where
  decode_encode : ∀ data, runtime.decode (fl.encode data) = some data
  digest_eq : runtime.digest = fl.digest
  noCollision : Function.Injective fl.digest

variable {config : BasicCodexConfig} {turnId : Uuid} {callId : String}

theorem mutationOf_none (honest : runtime.Honest fl) {id : String} {before after : Option ByteArray}
    (h : mutationOf fl id path (before.map (version fl)) (after.map (version fl)) = none) :
    before = after := by
  cases after with
  | none =>
    cases before with
    | none => rfl
    | some before => cases h
  | some after =>
    simp only [Option.map_some, mutationOf, version, Option.map_map] at h
    split at h
    next heq =>
      cases before with
      | none => cases heq
      | some before =>
        rw [honest.noCollision (Option.some.inj heq)]
    · cases h

theorem holds_precondition (honest : runtime.Honest fl) (before : Option ByteArray) :
    holds runtime before (precondition ((before.map (version fl)).map (·.sha256))) = true := by
  cases before with
  | none => rfl
  | some before =>
    simp [precondition, holds, version, honest.digest_eq]

/-- A mutation is of its file, and made where the file is as it was read it makes it as it was
planned. -/
theorem mutationOf_some (config : BasicCodexConfig) (honest : runtime.Honest fl) {id : String}
    {before after : Option ByteArray} {m : PatchMutation}
    (h : mutationOf fl id path (before.map (version fl)) (after.map (version fl)) = some m) :
    mutationPath m = path ∧
      ∀ c : Contents, c path = before →
        admits runtime c (mutationOperation config m) = true ∧
        runOperation runtime c (mutationOperation config m) =
          some (Function.update c path after) := by
  cases after with
  | some after =>
    simp only [Option.map_some, mutationOf] at h
    split at h
    · cases h
    · cases h
      refine ⟨rfl, ?_⟩
      intro c hc
      have hadmits : admits runtime c (mutationOperation config (.write id path
          (fl.encode (version fl after).data) (version fl after).sha256
          ((before.map (version fl)).map (·.sha256)))) = true := by
        simp only [admits, mutationOperation, hc]
        exact holds_precondition honest before
      refine ⟨hadmits, ?_⟩
      unfold runOperation
      rw [if_pos hadmits]
      simp [mutationOperation, version, honest.decode_encode]
  | none =>
    cases before with
    | none => cases h
    | some before =>
      cases h
      refine ⟨rfl, ?_⟩
      intro c hc
      have hadmits : admits runtime c (mutationOperation config (.remove id path
          (version fl before).sha256)) = true := by
        simp only [admits, mutationOperation, hc]
        exact holds_precondition honest (some before)
      refine ⟨hadmits, ?_⟩
      unfold runOperation
      rw [if_pos hadmits]
      rfl

/-- Mutations of files that make them what they are to be. -/
structure Makes (runtime : Runtime) (config : BasicCodexConfig) (contents target : Contents)
    (touched : List String) (mutations : List PatchMutation) : Prop where
  paths : (mutations.map mutationPath).Sublist touched
  admitted : ∀ m ∈ mutations, admits runtime contents (mutationOperation config m) = true
  run : ∀ c : Contents, (∀ p ∈ touched, c p = contents p) →
    (mutations.map (mutationOperation config)).foldlM (runOperation runtime) c =
      some fun p => if p ∈ touched then target p else c p

theorem planTouched_makes (lib : Foreign) (config : BasicCodexConfig) (turnId : Uuid)
    (callId : String) (honest : runtime.Honest fl) {initial : Files} {target : Contents}
    (hinitial : Represents fl names initial contents) (hfiles : Represents fl names files target)
    (hnames : ∀ p ∈ touched, p ∈ names) (hnodup : touched.Nodup) (mutations : List PatchMutation) :
    ∃ later, planTouched lib fl turnId callId initial files touched mutations = mutations ++ later ∧
      Makes runtime config contents target touched later := by
  induction touched generalizing mutations with
  | nil =>
    refine ⟨[], by simp [planTouched], List.Sublist.refl _, by simp, ?_⟩
    intro c _
    simp
  | cons path touched ih =>
    obtain ⟨hpath, hnodup⟩ := List.nodup_cons.mp hnodup
    have hrest := ih (fun p hp => hnames p (List.mem_cons_of_mem _ hp)) hnodup
    have hbefore := hinitial path (hnames path List.mem_cons_self)
    have hafter := hfiles path (hnames path List.mem_cons_self)
    unfold planTouched
    rw [hbefore, hafter]
    cases hmutation : mutationOf fl (mutationId lib turnId callId mutations.length) path
        ((contents path).map (version fl)) ((target path).map (version fl)) with
    | none =>
      have hsame := mutationOf_none honest hmutation
      obtain ⟨later, hlater, makes⟩ := hrest mutations
      refine ⟨later, by simpa using hlater, makes.paths.cons _, makes.admitted, ?_⟩
      intro c hc
      rw [makes.run c fun p hp => hc p (List.mem_cons_of_mem _ hp)]
      congr 1
      funext p
      by_cases heq : p = path
      · subst heq
        simp [hpath, hc p List.mem_cons_self, hsame]
      · simp [heq]
    | some m =>
      obtain ⟨hmpath, hmake⟩ := mutationOf_some config honest hmutation
      obtain ⟨later, hlater, makes⟩ := hrest (mutations ++ [m])
      refine ⟨m :: later, by simpa using hlater, ?_, ?_, ?_⟩
      · rw [List.map_cons, hmpath]
        exact makes.paths.cons_cons _
      · intro m' hm'
        rcases List.mem_cons.mp hm' with rfl | hm'
        · exact (hmake contents rfl).1
        · exact makes.admitted m' hm'
      · intro c hc
        have hfirst := (hmake c (hc path List.mem_cons_self)).2
        rw [List.map_cons, List.foldlM_cons, hfirst]
        have hkept : ∀ p ∈ touched, Function.update c path (target path) p = contents p := by
          intro p hp
          have hne : p ≠ path := by
            rintro rfl
            exact hpath hp
          rw [Function.update_of_ne hne]
          exact hc p (List.mem_cons_of_mem _ hp)
        show (later.map (mutationOperation config)).foldlM (runOperation runtime)
          (Function.update c path (target path)) = _
        rw [makes.run _ hkept]
        congr 1
        funext p
        by_cases heq : p = path
        · subst heq
          simp [hpath]
        · simp [heq]

theorem runBatch_mapIdx (name : Nat → Operation → BatchOperation)
    (hname : ∀ index o, (name index o).operation = o) (operations : List Operation) (c : Contents) :
    runBatch runtime c (operations.mapIdx name) = operations.foldlM (runOperation runtime) c := by
  unfold runBatch
  induction operations generalizing name c with
  | nil => rfl
  | cons o operations ih =>
    rw [List.mapIdx_cons, List.foldlM_cons, List.foldlM_cons, hname]
    cases runOperation runtime c o with
    | none => rfl
    | some c' => exact ih _ (fun index => hname (index + 1)) c'

theorem mem_batchOperations {word : String} {operations : List Operation} {o : BatchOperation}
    (h : o ∈ batchOperations word operations) : o.operation ∈ operations := by
  unfold batchOperations at h
  obtain ⟨index, hindex, rfl⟩ := List.mem_mapIdx.mp h
  exact List.getElem_mem hindex

/-! ## Parsed patches -/

theorem moveLine_valid {lines rest : List String} {destination : String}
    (h : moveLine lines = .ok (some destination, rest)) :
    validatePatchPath destination = .ok () := by
  cases lines with
  | nil => cases h
  | cons line lines =>
    simp only [moveLine] at h
    split at h
    · cases h
    · obtain ⟨⟨⟩, hvalid, h⟩ := Fallible.bind_ok h
      cases h
      exact hvalid

theorem parseHunk_valid {line : String} {lines rest : List String}
    (h : parseHunk line lines = .ok (hunk, rest)) : ValidHunk hunk := by
  unfold parseHunk at h
  split at h
  next path _ =>
    obtain ⟨⟨⟩, hvalid, h⟩ := Fallible.bind_ok h
    obtain ⟨⟨added, rest'⟩, _, h⟩ := Fallible.bind_ok h
    dsimp only at h
    split at h
    · cases h
    · cases h
      intro p hp
      rw [List.mem_singleton.mp hp]
      exact hvalid
  · split at h
    next path _ =>
      obtain ⟨⟨⟩, hvalid, h⟩ := Fallible.bind_ok h
      cases h
      intro p hp
      rw [List.mem_singleton.mp hp]
      exact hvalid
    · split at h
      next path _ =>
        obtain ⟨⟨⟩, hvalid, h⟩ := Fallible.bind_ok h
        obtain ⟨⟨movePath, moved⟩, hmove, h⟩ := Fallible.bind_ok h
        obtain ⟨⟨chunks, rest'⟩, _, h⟩ := Fallible.bind_ok h
        dsimp only at h
        split at h
        · cases h
        · cases h
          intro p hp
          rcases List.mem_cons.mp hp with rfl | hp
          · exact hvalid
          · cases movePath with
            | none => cases hp
            | some destination =>
              rw [List.mem_singleton.mp hp]
              exact moveLine_valid hmove
      · cases h

theorem parseHunks_valid {fuel : Nat} {lines : List String} (h : parseHunks fuel lines = .ok hunks) :
    ∀ hunk ∈ hunks, ValidHunk hunk := by
  induction fuel generalizing lines hunks with
  | zero =>
    cases lines with
    | nil =>
      cases h
      simp
    | cons line lines => cases h
  | succ fuel ih =>
    cases lines with
    | nil =>
      cases h
      simp
    | cons line lines =>
      simp only [parseHunks] at h
      split at h
      · cases h
      next hunk rest hhunk =>
        cases hrest : parseHunks fuel rest with
        | error failure =>
          rw [hrest] at h
          cases h
        | ok later =>
          rw [hrest] at h
          cases h
          rw [List.forall_mem_cons]
          exact ⟨parseHunk_valid hhunk, ih hrest⟩

/-- The paths of a parsed patch are accepted wherever they are checked again. -/
theorem parsePatch_valid {input : String} (h : parsePatch input = .ok patch) :
    ∀ hunk ∈ patch.hunks, ValidHunk hunk := by
  simp only [parsePatch] at h
  split at h
  · cases h
  · split at h
    · cases h
    · split at h
      · cases h
      next hunks hhunks =>
        split at h
        · cases h
        · cases h
          exact parseHunks_valid hhunks

/-! ## The plan -/

/-- What the reads of a patch's files report. -/
def readsOf (fl : FileLib) (patch : ParsedPatch) (contents : Contents) :
    List (Option FileVersion) :=
  (patchNames patch).map fun path => (contents path).map (version fl)

theorem lookup_zip_map {β : Type} (f : String → β) (h : path ∈ names) :
    (names.zip (names.map f)).lookup path = some (f path) := by
  induction names with
  | nil => cases h
  | cons name names ih =>
    rw [List.map_cons, List.zip_cons_cons, List.lookup_cons]
    by_cases heq : path = name
    · subst heq
      simp
    · have hne : (path == name) = false := by simpa using heq
      rw [hne]
      exact ih ((List.mem_cons.mp h).resolve_left heq)

theorem initialFiles_represents (fl : FileLib) (patch : ParsedPatch) (contents : Contents) :
    Represents fl (patchNames patch) (initialFiles (patchNames patch) (readsOf fl patch contents))
      contents := by
  intro path hpath
  unfold initialFiles readsOf
  rw [lookup_zip_map _ hpath]
  rfl

/-- Mutations that make files what they are to be, in one batch of which no operation fails. -/
structure BatchMakes (runtime : Runtime) (config : BasicCodexConfig) (contents contents' : Contents)
    (patch : ParsedPatch) (state : ApplyPatchState) : Prop where
  preconditions : ∀ o ∈ mutationOperations config state, admits runtime contents o.operation = true
  run : runBatch runtime contents (mutationOperations config state) = some contents'
  once : (state.mutations.map mutationPath).Nodup
  others : ∀ path ∉ patchNames patch, contents' path = contents path

theorem planMutations_eq (hvalid : ∀ hunk ∈ patch.hunks, ValidHunk hunk)
    (hpaths : ¬maxPatchPaths < (patchNames patch).length) (reads : List (Option FileVersion)) :
    planMutations lib fl patch reads turnId callId =
      (planHunks fl patch.hunks (.start (initialFiles (patchNames patch) reads))).map fun planned =>
        planned.map fun plan =>
          (planTouched lib fl turnId callId (initialFiles (patchNames patch) reads) plan.files
            plan.touched [], plan.summary) := by
  unfold planMutations
  rw [patchPaths_eq hvalid, if_neg hpaths]
  dsimp only
  split
  next h => rw [h]; rfl
  next h => rw [h]; rfl
  next h => rw [h]; rfl

theorem planMutations_paths (hvalid : ∀ hunk ∈ patch.hunks, ValidHunk hunk)
    (reads : List (Option FileVersion)) (h : maxPatchPaths < (patchNames patch).length)
    (planned : List PatchMutation × List PatchSummary) :
    planMutations lib fl patch reads turnId callId ≠ some (.ok planned) := by
  unfold planMutations
  rw [patchPaths_eq hvalid, if_pos h]
  intro hplanned
  cases hplanned

/-- The hunks of a patch on what was read of its files. -/
theorem readHunks_agrees (fl : FileLib) (patch : ParsedPatch) (contents : Contents) :
    Agree (planHunks fl patch.hunks
        (.start (initialFiles (patchNames patch) (readsOf fl patch contents))))
      (patchMeaning contents patch.hunks)
      (PatchPlanned fl (patchNames patch)
        (.start (initialFiles (patchNames patch) (readsOf fl patch contents))) contents
        patch.hunks) := by
  apply planHunks_agrees (initialFiles_represents fl patch contents)
  intro hunk hhunk p hp
  exact mem_patchNames.mpr ⟨hunk, hhunk, hp⟩

theorem mem_touchedHunks {p : String} :
    p ∈ (patch.hunks.flatMap touchedBy).foldl touch [] ↔ p ∈ patchNames patch := by
  rw [mem_foldl_touch, mem_patchNames, List.mem_flatMap]
  simp only [List.not_mem_nil, false_or, mem_touchedBy]

/-- The mutations of a plan make the files what the hunks mean. -/
theorem planMutations_makes (honest : runtime.Honest fl)
    (hvalid : ∀ hunk ∈ patch.hunks, ValidHunk hunk) {state : ApplyPatchState}
    {summary : List PatchSummary}
    (h : planMutations lib fl patch (readsOf fl patch contents) turnId callId =
      some (.ok (state.mutations, summary))) :
    ∃ contents', patchMeaning contents patch.hunks = some contents' ∧
      BatchMakes runtime config contents contents' patch state := by
  have hpaths : ¬maxPatchPaths < (patchNames patch).length := by
    intro hmany
    exact planMutations_paths hvalid _ hmany _ h
  rw [planMutations_eq hvalid hpaths] at h
  obtain ⟨result, hresult, h⟩ := Option.map_eq_some_iff.mp h
  cases result with
  | error failure => cases h
  | ok plan =>
    obtain ⟨contents', hmeant, planned⟩ := (readHunks_agrees fl patch contents).sound plan hresult
    have htouched : ∀ p, p ∈ plan.touched ↔ p ∈ patchNames patch := by
      intro p
      rw [planned.touched]
      exact mem_touchedHunks
    have hnodup : plan.touched.Nodup := by
      rw [planned.touched]
      exact nodup_foldl_touch List.nodup_nil
    have hothers : ∀ path ∉ patchNames patch, contents' path = contents path := by
      intro path hpath
      refine (planned.others path ?_).2
      intro hunk hhunk hmem
      exact hpath (mem_patchNames.mpr ⟨hunk, hhunk, hmem⟩)
    obtain ⟨later, hlater, makes⟩ := planTouched_makes lib config turnId callId honest
      (initialFiles_represents fl patch contents) planned.represents (fun p hp => (htouched p).mp hp) hnodup []
    have hmutations : state.mutations = later := by
      have heq := Except.ok.inj h
      rw [← (Prod.mk.inj heq).1, hlater, List.nil_append]
    subst hmutations
    refine ⟨contents', hmeant, ?_, ?_, makes.paths.nodup hnodup, hothers⟩
    · intro o ho
      obtain ⟨m, hm, heq⟩ := List.mem_map.mp (mem_batchOperations ho)
      rw [← heq]
      exact makes.admitted m hm
    · unfold mutationOperations batchOperations
      rw [runBatch_mapIdx _ (fun _ _ => rfl), makes.run contents (fun _ _ => rfl)]
      congr 1
      funext p
      by_cases hp : p ∈ patchNames patch
      · rw [if_pos ((htouched p).mpr hp)]
      · rw [if_neg (fun hmem => hp ((htouched p).mp hmem)), hothers p hp]

/-- A plan fails exactly if there are too many files or some hunk fails. -/
theorem planMutations_fails_iff (hvalid : ∀ hunk ∈ patch.hunks, ValidHunk hunk) :
    (∀ planned, planMutations lib fl patch (readsOf fl patch contents) turnId callId ≠
        some (.ok planned)) ↔
      maxPatchPaths < (patchNames patch).length ∨ patchMeaning contents patch.hunks = none := by
  have agrees := readHunks_agrees fl patch contents
  by_cases hpaths : maxPatchPaths < (patchNames patch).length
  · constructor
    · intro _
      exact .inl hpaths
    · intro _
      exact planMutations_paths hvalid _ hpaths
  · rw [planMutations_eq hvalid hpaths]
    cases hmeant : patchMeaning contents patch.hunks with
    | none =>
      constructor
      · intro _
        exact .inr rfl
      · intro _ planned hplanned
        obtain ⟨result, hresult, h⟩ := Option.map_eq_some_iff.mp hplanned
        cases result with
        | error failure => cases h
        | ok plan =>
          obtain ⟨_, hsome, _⟩ := agrees.sound plan hresult
          rw [hmeant] at hsome
          cases hsome
    | some contents' =>
      obtain ⟨plan, hplan⟩ := agrees.complete contents' hmeant
      constructor
      · intro hfails
        rw [hplan] at hfails
        exact absurd rfl (hfails _)
      · rintro (hmany | hnone)
        · exact absurd hmany hpaths
        · cases hnone

/-- A plan that fails is answered by no mutation. -/
theorem failed_plan_mutates_nothing {state : ApplyPatchState} {response : Response}
    {reads : List (Option FileVersion)} {names : List String}
    (hphase : state.phase = .reading) (hpaths : patchPaths state.patch = .ok names)
    (hreads : decodeReadBatch lib fl response names = .ok reads)
    (hfails : ∀ planned, planMutations lib fl state.patch reads turnId callId ≠ some (.ok planned))
    (progress : FileToolState) :
    applyPatchResponse lib fl state response turnId callId ≠ some (.ok (.ready progress)) := by
  intro h
  simp only [applyPatchResponse, hphase, hpaths, hreads] at h
  split at h
  · cases h
  · cases h
  next mutations summary hplanned => exact absurd hplanned (hfails _)

/-- A patch of too many files is answered by no mutation either. -/
theorem large_patch_mutates_nothing {state : ApplyPatchState} {response : Response}
    (hphase : state.phase = .reading) (hvalid : ∀ hunk ∈ state.patch.hunks, ValidHunk hunk)
    (hmany : maxPatchPaths < (patchNames state.patch).length) (progress : FileToolState) :
    applyPatchResponse lib fl state response turnId callId ≠ some (.ok (.ready progress)) := by
  have hpaths := patchPaths_eq hvalid
  rw [if_pos hmany] at hpaths
  intro h
  simp only [applyPatchResponse, hphase, hpaths] at h
  cases h

/-- What the plan of a parsed patch means, on files with any contents: the batch of a plan makes
the files what the hunks make of them, one after the other; a plan fails if some hunk does, or for
too many files; and then the reads are not answered by a batch. -/
theorem patch_plans_mean_hunks {input : String} (honest : runtime.Honest fl)
    (parsed : parsePatch input = .ok patch) (contents : Contents) :
    (∀ (state : ApplyPatchState) (summary : List PatchSummary),
        planMutations lib fl patch (readsOf fl patch contents) turnId callId =
            some (.ok (state.mutations, summary)) →
          ∃ contents', patchMeaning contents patch.hunks = some contents' ∧
            BatchMakes runtime config contents contents' patch state) ∧
      ((∀ planned, planMutations lib fl patch (readsOf fl patch contents) turnId callId ≠
          some (.ok planned)) ↔
        maxPatchPaths < (patchNames patch).length ∨ patchMeaning contents patch.hunks = none) ∧
      ∀ (state : ApplyPatchState) (response : Response), state.patch = patch →
        state.phase = .reading →
        decodeReadBatch lib fl response (patchNames patch) = .ok (readsOf fl patch contents) →
        (∀ planned, planMutations lib fl patch (readsOf fl patch contents) turnId callId ≠
          some (.ok planned)) →
        ∀ progress, applyPatchResponse lib fl state response turnId callId ≠
          some (.ok (.ready progress)) := by
  have hvalid := parsePatch_valid parsed
  refine ⟨fun state summary => planMutations_makes honest hvalid, planMutations_fails_iff hvalid, ?_⟩
  rintro state response rfl hphase hreads hfails progress
  by_cases hmany : maxPatchPaths < (patchNames state.patch).length
  · exact large_patch_mutates_nothing hphase hvalid hmany progress
  · refine failed_plan_mutates_nothing hphase ?_ hreads hfails progress
    rw [patchPaths_eq hvalid, if_neg hmany]

/-! ### An added file -/

def lineData : ByteArray := "x\n".toUTF8

/-- Bytes as text, after a mark. -/
def markedText (data : ByteArray) : String := String.ofList ('#' :: data.data.toList.map Char.ofUInt8)

/-- Base64 and SHA-256 of one line, and of other bytes something as good. -/
def lineLib : FileLib where
  encode data := if data.data = lineData.data then "eAo=" else markedText data
  digest data :=
    if data.data = lineData.data then "73cb3858a687a8494ca3323053016282f3dad39d42cf62ca4e79dda2aac7d9ac"
    else markedText data
  decodeReadFile _ := .error "missing field `data_base64`"
  guessFormat _ := .error "The image format could not be determined"
  loadImage _ := .error "The image format could not be determined"
  writePng _ _ := .error "The image format could not be determined"
  publishAsset _ _ := .error "no assets"

def lineRuntime : Runtime where
  decode text :=
    if text = "eAo=" then some lineData
    else some ⟨(text.toList.tail.map Char.toUInt8).toArray⟩
  digest := lineLib.digest

theorem markedText_bytes (data : ByteArray) :
    (markedText data).toList.tail.map Char.toUInt8 = data.data.toList := by
  unfold markedText
  rw [String.toList_ofList, List.tail_cons, List.map_map]
  conv_rhs => rw [← List.map_id data.data.toList]
  apply List.map_congr_left
  intro byte _
  show byte.toUInt32.toUInt8 = byte
  exact UInt8.toUInt8_toUInt32 byte

theorem markedText_ne (data : ByteArray) {text : String} (h : text.toList.head? ≠ some '#') :
    markedText data ≠ text := by
  rintro rfl
  exact h (by rw [markedText, String.toList_ofList]; rfl)

theorem lineRuntime_honest : lineRuntime.Honest lineLib where
  decode_encode data := by
    unfold lineRuntime lineLib
    by_cases hline : data.data = lineData.data
    · simp [ByteArray.ext hline]
    · simp only [if_neg hline]
      rw [if_neg (markedText_ne data (by decide)), markedText_bytes]
  digest_eq := rfl
  noCollision := by
    intro data data' heq
    unfold lineLib at heq
    by_cases hline : data.data = lineData.data <;> by_cases hline' : data'.data = lineData.data <;>
      simp only [hline, hline', if_true, if_false] at heq
    · exact ByteArray.ext (hline.trans hline'.symm)
    · exact absurd heq.symm (markedText_ne data' (by decide))
    · exact absurd heq (markedText_ne data (by decide))
    · have hbytes := markedText_bytes data
      rw [heq, markedText_bytes] at hbytes
      exact ByteArray.ext (Array.ext' hbytes.symm)

theorem linePatch_parsed :
    parsePatch "*** Begin Patch\n*** Add File: a\n+x\n*** End Patch" =
      .ok ⟨[.add "a" "x\n"]⟩ := by
  rfl

def lineState : ApplyPatchState where
  phase := .mutating
  patch := ⟨[.add "a" "x\n"]⟩
  generationId := some 3
  mutations := [.write (mutationId ToolExecution.listAgent.lib 1 "call" 0) "a" "eAo="
    "73cb3858a687a8494ca3323053016282f3dad39d42cf62ca4e79dda2aac7d9ac" none]
  summary := [⟨"A", "a"⟩]

theorem patch_plans_mean_hunks_line :
    ∃ contents', patchMeaning (fun _ => none) lineState.patch.hunks = some contents' ∧
      BatchMakes lineRuntime ToolExecution.listAgent.config (fun _ => none) contents'
        lineState.patch lineState := by
  have hplan : planMutations ToolExecution.listAgent.lib lineLib lineState.patch
      (readsOf lineLib lineState.patch fun _ => none) 1 "call" =
        some (.ok (lineState.mutations, lineState.summary)) := rfl
  exact (patch_plans_mean_hunks lineRuntime_honest linePatch_parsed fun _ => none).1 lineState
    lineState.summary hplan

/-! ### Too many files -/

def fileName (n : Nat) : SomeText :=
  ⟨String.ofList (List.replicate (n + 1) 'a'), by
    simp [List.replicate_succ, ← String.toList_inj], by simp [String.toList_ofList]⟩

def addedFile (n : Nat) : HunkTree := .add (fileName n) plainLine []

/-- A patch that adds 33 files. -/
def manyFiles : PatchTree where
  first := addedFile 0
  rest := (List.range 32).map fun n => addedFile (n + 1)
  finalLf := true

theorem manyFiles_hunks : manyFiles.hunks = (List.range 33).map addedFile := by
  rfl

theorem manyFiles_plain : manyFiles.Plain := by
  constructor
  · intro hunk hhunk
    rw [manyFiles_hunks] at hhunk
    obtain ⟨n, _, rfl⟩ := List.mem_map.mp hhunk
    show PlainName (fileName n)
    unfold PlainName fileName
    rw [String.toList_ofList]
    intro hnul
    exact absurd (List.eq_of_mem_replicate hnul) (by decide)
  · intro line hline
    unfold PatchTree.body at hline
    rw [manyFiles_hunks] at hline
    obtain ⟨hunk, hhunk, hline⟩ := List.mem_flatMap.mp hline
    obtain ⟨n, _, rfl⟩ := List.mem_map.mp hhunk
    unfold EndsInReturn
    simp only [addedFile, HunkTree.lines, List.map_cons, List.map_nil, List.mem_cons,
      List.not_mem_nil, or_false] at hline
    rcases hline with rfl | rfl
    · have hname : (fileName n).val.toList = List.replicate n 'a' ++ ['a'] := by
        rw [← List.replicate_succ']
        exact String.toList_ofList
      rw [String.toList_append, hname, ← List.append_assoc, List.getLast?_concat]
      decide
    · decide

/-- The hunks of `manyFiles`. -/
def manyHunks : List PatchHunk := manyFiles.hunks.map HunkTree.parsed

theorem manyHunks_many : maxPatchPaths < (patchNames ⟨manyHunks⟩).length := by
  have hnodup : ((List.range 33).map fun n => (fileName n).val).Nodup := by
    apply List.Nodup.map_on _ List.nodup_range
    intro n _ m _ heq
    have hlength := congrArg String.length heq
    simpa [fileName] using hlength
  have hsubset : ((List.range 33).map fun n => (fileName n).val) ⊆ patchNames ⟨manyHunks⟩ := by
    intro path hpath
    obtain ⟨n, hn, rfl⟩ := List.mem_map.mp hpath
    refine mem_patchNames.mpr ⟨(addedFile n).parsed, ?_, List.mem_singleton_self _⟩
    unfold manyHunks
    rw [manyFiles_hunks]
    exact List.mem_map_of_mem (List.mem_map_of_mem hn)
  have hlength := (hnodup.subperm hsubset).length_le
  rw [List.length_map, List.length_range] at hlength
  unfold maxPatchPaths
  omega

theorem patchMeaning_adds (numbers : List Nat) (contents : Contents) :
    patchMeaning contents ((numbers.map addedFile).map HunkTree.parsed) ≠ none := by
  induction numbers generalizing contents with
  | nil =>
    intro h
    cases h
  | cons n numbers ih => exact ih _

/-- No hunk of the patch fails, but its plan does. -/
theorem patch_plans_mean_hunks_many :
    ¬∀ (runtime : Runtime) (fl : FileLib) (lib : Foreign) (input : String) (patch : ParsedPatch)
        (contents : Contents) (turnId : Uuid) (callId : String), runtime.Honest fl →
        parsePatch input = .ok patch →
        ((∀ planned, planMutations lib fl patch (readsOf fl patch contents) turnId callId ≠
            some (.ok planned)) ↔
          patchMeaning contents patch.hunks = none) := by
  intro h
  have hparsed : parsePatch manyFiles.text = .ok ⟨manyHunks⟩ := parsePatch_text manyFiles_plain
  have hfails := (h lineRuntime lineLib ToolExecution.listAgent.lib manyFiles.text ⟨manyHunks⟩ (fun _ => none) 1
    "call" lineRuntime_honest hparsed).mp (planMutations_paths (parsePatch_valid hparsed) _
      manyHunks_many)
  unfold manyHunks at hfails
  rw [manyFiles_hunks] at hfails
  exact patchMeaning_adds _ _ hfails

end AgentPlatform.Harness.FilesystemTools
