import AgentPlatform.Harness.ToolExecution
import AgentPlatform.Harness.Images
import AgentPlatform.Lib.Splice

/-!
# The file tools

`filesystem_tools.rs`: `apply_patch` and `view_image`. A patch is parsed, the files that it names
are read, its hunks are applied to what was read, and what changed is written back in one batch. A
batch whose outcome is unknown is followed by a second read.

A program that can panic answers `none` where it does.
-/

namespace AgentPlatform.Harness.FilesystemTools

open Execution ShellTools

/-- `MAX_FILE_BYTES`. -/
def maxFileBytes : Nat := 5 * 1024 * 1024

/-- `MAX_PATCH_BYTES`. -/
def maxPatchBytes : Nat := 1024 * 1024

/-- `MAX_PATCH_PATHS`. -/
def maxPatchPaths : Nat := 32

/-! ## Texts -/

/-- `str::strip_prefix`. -/
def stripPrefix (start text : String) : Option String :=
  (start.toList.isPrefixOf? text.toList).map String.ofList

/-- `str::starts_with`. -/
def startsWith (start text : String) : Bool := start.toList.isPrefixOf text.toList

/-- `line.strip_suffix('\r').unwrap_or(line)`, of the line's characters. -/
def stripReturn (line : List Char) : List Char :=
  if line.getLast? = some '\r' then line.dropLast else line

/-- `str::lines`: a line ends with `\n` or `\r\n`, and the last one need not. -/
def linesOf (text : String) : List (List Char) :=
  let parts := text.toList.splitOn '\n'
  let ended := parts.dropLast.map stripReturn
  match parts.getLast? with
  | none | some [] => ended
  | some last => ended ++ [last]

def trimEnd (text : String) : String := String.ofList (text.toList.rdropWhile isWhitespace)

def trim (text : String) : String :=
  String.ofList ((text.toList.dropWhile isWhitespace).rdropWhile isWhitespace)

/-! ## Parsing a patch -/

/-- `validate_patch_path`. -/
def validatePatchPath (path : String) : Except String Unit :=
  if path.isEmpty || path.toList.contains '\x00' then
    .error "patch paths must be nonempty and contain no NUL bytes"
  else .ok ()

/-- The loop over the lines of an added file: what was added, and what follows. -/
def addedLines : List String → Except String (List String × List String)
  | [] => .ok ([], [])
  | line :: lines =>
    if startsWith "*** " line then .ok ([], line :: lines)
    else
      match stripPrefix "+" line with
      | none => .error ("add-file line must begin with `+`: " ++ line)
      | some content => (addedLines lines).map fun (added, rest) => (content :: added, rest)

def startChunk (context : Option String) : PatchChunk :=
  { context, oldLines := [], newLines := [], endOfFile := false }

/-- Whether a chunk changes anything. -/
def hasChanges (chunk : PatchChunk) : Bool :=
  !chunk.oldLines.isEmpty || !chunk.newLines.isEmpty

/-- `chunks.push(current)`, of a chunk that changes something. -/
def pushChunk (chunks : List PatchChunk) (current : PatchChunk) : List PatchChunk :=
  if hasChanges current then chunks ++ [current] else chunks

/-- One line of an update, into the chunks and the current one. -/
def updateLine (chunks : List PatchChunk) (current : PatchChunk) (change : String) :
    Except String (List PatchChunk × PatchChunk) :=
  if change = "@@" ∨ startsWith "@@ " change then
    .ok (pushChunk chunks current, startChunk (stripPrefix "@@ " change))
  else if change = "*** End of File" then .ok (chunks, { current with endOfFile := true })
  else
    match stripPrefix "+" change with
    | some value => .ok (chunks, { current with newLines := current.newLines ++ [value] })
    | none =>
      match stripPrefix "-" change with
      | some value => .ok (chunks, { current with oldLines := current.oldLines ++ [value] })
      | none =>
        match stripPrefix " " change with
        | some value =>
          .ok (chunks, { current with
            oldLines := current.oldLines ++ [value]
            newLines := current.newLines ++ [value] })
        | none => .error ("invalid update line `" ++ change ++ "`")

/-- The loop over the lines of an update: its chunks, and what follows. -/
def updateLines (chunks : List PatchChunk) (current : PatchChunk) :
    List String → Except String (List PatchChunk × List String)
  | [] => .ok (pushChunk chunks current, [])
  | line :: lines =>
    if startsWith "*** " line ∧ line ≠ "*** End of File" then
      .ok (pushChunk chunks current, line :: lines)
    else
      match updateLine chunks current line with
      | .error failure => .error failure
      | .ok (chunks, current) => updateLines chunks current lines

/-- The destination that may follow the header of an update. -/
def moveLine : List String → Except String (Option String × List String)
  | [] => .ok (none, [])
  | line :: lines =>
    match stripPrefix "*** Move to: " line with
    | none => .ok (none, line :: lines)
    | some destination => do
      validatePatchPath destination
      return (some destination, lines)

/-- One hunk from its header on, and what follows. -/
def parseHunk (line : String) (lines : List String) : Except String (PatchHunk × List String) :=
  match stripPrefix "*** Add File: " line with
  | some path => do
    validatePatchPath path
    let (added, rest) ← addedLines lines
    if added.isEmpty then .error ("add-file hunk for " ++ path ++ " has no content")
    else return (.add path ("\n".intercalate added ++ "\n"), rest)
  | none =>
    match stripPrefix "*** Delete File: " line with
    | some path => do
      validatePatchPath path
      return (.delete path, lines)
    | none =>
      match stripPrefix "*** Update File: " line with
      | some path => do
        validatePatchPath path
        let (movePath, lines) ← moveLine lines
        let (chunks, rest) ← updateLines [] (startChunk none) lines
        if chunks.isEmpty ∧ movePath.isNone then
          .error ("update hunk for " ++ path ++ " has no changes")
        else return (.update path movePath chunks, rest)
      | none => .error ("unexpected patch line `" ++ line ++ "`")

/-- The loop over the hunks, for as many as there are lines. -/
def parseHunks : Nat → List String → Except String (List PatchHunk)
  | _, [] => .ok []
  | 0, line :: _ => .error ("unexpected patch line `" ++ line ++ "`")
  | fuel + 1, line :: lines =>
    match parseHunk line lines with
    | .error failure => .error failure
    | .ok (hunk, rest) => (parseHunks fuel rest).map (hunk :: ·)

/-- `parse_patch`. -/
def parsePatch (input : String) : Except String ParsedPatch :=
  let lines := (linesOf input).map fun line => String.ofList (stripReturn line)
  if lines.head? ≠ some "*** Begin Patch" then
    .error "patch must begin with `*** Begin Patch`"
  else if lines.getLast? ≠ some "*** End Patch" then
    .error "patch must end with `*** End Patch`"
  else
    let body := lines.tail.dropLast
    match parseHunks body.length body with
    | .error failure => .error failure
    | .ok hunks =>
      if hunks.isEmpty then .error "patch contains no file hunks" else .ok ⟨hunks⟩

/-! ## Applying chunks -/

/-- The comparisons of `seek`, the strictest first. -/
def comparisons : List (String → String → Bool) :=
  [fun left right => left == right,
    fun left right => trimEnd left == trimEnd right,
    fun left right => trim left == trim right]

/-- Whether a pattern stands at an index of the lines, by a comparison. -/
def standsAt (comparison : String → String → Bool) (lines pattern : List String)
    (index : Nat) : Bool :=
  (((lines.drop index).take pattern.length).zip pattern).all fun (left, right) =>
    comparison left right

/-- `seek`. -/
def seek (lines pattern : List String) (start : Nat) (eof : Bool) : Option Nat :=
  if pattern.isEmpty then some (min start lines.length)
  else if lines.length < pattern.length then none
  else
    let finalStart := lines.length - pattern.length
    let searchStart := if eof then finalStart else min start finalStart
    comparisons.findSome? fun comparison =>
      (List.range' searchStart (finalStart + 1 - searchStart)).find?
        (standsAt comparison lines pattern)

/-- A text without the empty line at its end, if it has one. -/
def dropEmptyLast (lines : List String) : List String :=
  if lines.getLast? = some "" then lines.dropLast else lines

/-- What `apply_chunks` records of a chunk: the range of lines that it matched and the lines that
replace them. The source keeps the line of the context only as the place where the search goes on,
and of the matched lines only their number. -/
structure Replacement where
  contextLine : Option Nat
  start : Nat
  oldLines : List String
  newLines : List String
deriving DecidableEq, Repr

/-- What the replacement does to the lines. -/
def Replacement.edit (r : Replacement) : Splice.Edit String :=
  ⟨r.start, r.oldLines.length, r.newLines⟩

/-- Where a chunk's old lines are found, and its lines as they were matched. Lines that are found
nowhere are looked for again without an empty last one. -/
def seekOld (lines : List String) (chunk : PatchChunk) (cursor : Nat) :
    Option (Nat × List String × List String) :=
  match seek lines chunk.oldLines cursor chunk.endOfFile with
  | some start => some (start, chunk.oldLines, chunk.newLines)
  | none =>
    if chunk.oldLines.getLast? = some "" then
      (seek lines chunk.oldLines.dropLast cursor chunk.endOfFile).map fun start =>
        (start, chunk.oldLines.dropLast, dropEmptyLast chunk.newLines)
    else none

/-- Where the search for a chunk's lines begins: after its context, if it has one. -/
def seekContext (path : String) (lines : List String) (chunk : PatchChunk) (cursor : Nat) :
    Except ToolResultSnapshot (Option Nat × Nat) :=
  match chunk.context with
  | none => .ok (none, cursor)
  | some context =>
    match seek lines [context] cursor false with
    | some index => .ok (some index, index + 1)
    | none => .error (toolError "patch_context_not_found"
        ("Failed to find context '" ++ context ++ "' in " ++ path))

/-- One round of the loop of `apply_chunks`: the replacement of a chunk, and where the next search
begins. Added lines without old ones go to the end. -/
def placeChunk (path : String) (lines : List String) (cursor : Nat) (chunk : PatchChunk) :
    Except ToolResultSnapshot (Replacement × Nat) :=
  match seekContext path lines chunk cursor with
  | .error failure => .error failure
  | .ok (contextLine, cursor) =>
    if chunk.oldLines.isEmpty then
      .ok (⟨contextLine, lines.length, [], chunk.newLines⟩, cursor)
    else
      match seekOld lines chunk cursor with
      | none => .error (toolError "patch_context_not_found"
          ("Failed to find expected lines in " ++ path ++ ":\n" ++
            "\n".intercalate chunk.oldLines))
      | some (start, oldLines, newLines) =>
        .ok (⟨contextLine, start, oldLines, newLines⟩, start + oldLines.length)

/-- The loop of `apply_chunks`. -/
def placeChunks (path : String) (lines : List String) :
    Nat → List PatchChunk → Except ToolResultSnapshot (List Replacement)
  | _, [] => .ok []
  | cursor, chunk :: chunks =>
    match placeChunk path lines cursor chunk with
    | .error failure => .error failure
    | .ok (replacement, cursor) =>
      match placeChunks path lines cursor chunks with
      | .error failure => .error failure
      | .ok replacements => .ok (replacement :: replacements)

/-- The lines of a text: what `split('\n')` gives, without the empty part after the last line. -/
def sourceLines (source : String) : List String :=
  dropEmptyLast ((source.toList.splitOn '\n').map String.ofList)

/-- The lines as a text, each ended. -/
def joinLines (lines : List String) : String := "\n".intercalate (lines ++ [""])

/-- `apply_chunks`. The replacements are made from the last to the first. -/
def applyChunks (path source : String) (chunks : List PatchChunk) :
    Option (Except ToolResultSnapshot String) :=
  let lines := sourceLines source
  match placeChunks path lines 0 chunks with
  | .error failure => some (.error failure)
  | .ok replacements =>
    (Splice.spliceBackwards (replacements.map Replacement.edit) lines).map (.ok ∘ joinLines)

/-! ## Planning the mutations -/

/-- `FileVersion`. -/
structure FileVersion where
  data : ByteArray
  sha256 : String

/-- `ReadFileWire`, with what is used of its metadata. -/
structure ReadFileWire where
  path : String
  isFile : Bool
  dataBase64 : String
  sha256 : String
deriving DecidableEq, Repr

/-- `ImageFormat`: the formats that are passed on as they are, and the others. -/
inductive ImageFormat where
  | png
  | jpeg
  | gif
  | webP
  | other
deriving DecidableEq, Repr

/-- `PublishedAsset`. -/
structure PublishedAsset where
  url : String
  sha256 : String
  sizeBytes : Nat
deriving DecidableEq, Repr

/-- The functions of other crates that the file tools call beside those of the whole harness, and
the platform's bucket for images. -/
structure FileLib where
  /-- `STANDARD.encode`, of bytes. -/
  encode : ByteArray → String
  /-- The hexadecimal digits of the SHA-256 of bytes. -/
  digest : ByteArray → String
  /-- `serde_json::from_value::<ReadFileWire>`. -/
  decodeReadFile : Value → Except String ReadFileWire
  /-- `image::guess_format`. -/
  guessFormat : ByteArray → Except String ImageFormat
  /-- `image::load_from_memory`, for the width and the height. -/
  loadImage : ByteArray → Except String (Nat × Nat)
  /-- An image as PNG, reduced to a size if one is given. -/
  writePng : ByteArray → Option (Nat × Nat) → Except String ByteArray
  /-- `publish_asset`, of a content type and bytes. -/
  publishAsset : String → ByteArray → Except String PublishedAsset

/-- `virtual_files`: the version of each file, of those that exist. -/
abbrev Files := String → Option FileVersion

/-- The paths of a hunk. -/
def hunkPaths : PatchHunk → List String
  | .add path _ => [path]
  | .delete path => [path]
  | .update path movePath _ => path :: movePath.toList

/-- `validate_path`. -/
def validatePath (path : String) : Except ToolResultSnapshot Unit :=
  (validatePatchPath path).mapError (toolError "invalid_path")

/-- `touch`, and the loop of `patch_paths` for one path. -/
def touch (paths : List String) (path : String) : List String :=
  if paths.contains path then paths else paths ++ [path]

/-- The loop of `patch_paths`. -/
def collectPaths : List String → List String → Except ToolResultSnapshot (List String)
  | paths, [] => .ok paths
  | paths, path :: rest => do
    validatePath path
    collectPaths (touch paths path) rest

/-- `patch_paths`. -/
def patchPaths (patch : ParsedPatch) : Except ToolResultSnapshot (List String) := do
  let paths ← collectPaths [] (patch.hunks.flatMap hunkPaths)
  if maxPatchPaths < paths.length then
    .error (toolError "patch_too_large"
      ("apply_patch affects more than " ++ toString maxPatchPaths ++ " paths"))
  else return paths

/-- `require_file`. -/
def requireFile (files : Files) (path : String) : Except ToolResultSnapshot FileVersion :=
  match files path with
  | some file => .ok file
  | none => .error (toolError "patch_target_not_found"
      ("Failed to read file to update " ++ path ++ ": file does not exist"))

/-- `version`. -/
def version (fl : FileLib) (data : ByteArray) : FileVersion := ⟨data, fl.digest data⟩

/-- What the loop over the hunks keeps. -/
structure Planning where
  files : Files
  touched : List String
  summary : List PatchSummary

def Planning.start (files : Files) : Planning := { files, touched := [], summary := [] }

/-- The text that an update makes of a file. -/
def updatedText (files : Files) (path : String) (chunks : List PatchChunk) :
    Option (Except ToolResultSnapshot String) :=
  match requireFile files path with
  | .error failure => some (.error failure)
  | .ok source =>
    match String.fromUTF8? source.data with
    | none => some (.error (toolError "invalid_patch_target"
        ("Failed to read file to update " ++ path ++ ": file is not valid UTF-8")))
    | some source => applyChunks path source chunks

/-- One round of the loop over the hunks. -/
def planHunk (fl : FileLib) (plan : Planning) (hunk : PatchHunk) :
    Option (Except ToolResultSnapshot Planning) :=
  match hunk with
  | .add path content => some (.ok {
      files := Function.update plan.files path (some (version fl content.toUTF8))
      touched := touch plan.touched path
      summary := plan.summary ++ [⟨"A", path⟩] })
  | .delete path =>
    match requireFile plan.files path with
    | .error failure => some (.error failure)
    | .ok _ => some (.ok {
        files := Function.update plan.files path none
        touched := touch plan.touched path
        summary := plan.summary ++ [⟨"D", path⟩] })
  | .update path movePath chunks =>
    match updatedText plan.files path chunks with
    | none => none
    | some (.error failure) => some (.error failure)
    | some (.ok updated) =>
      match movePath with
      | some destination => some (.ok {
          files := Function.update (Function.update plan.files path none) destination
            (some (version fl updated.toUTF8))
          touched := touch (touch plan.touched destination) path
          summary := plan.summary ++ [⟨"M", path ++ " -> " ++ destination⟩] })
      | none => some (.ok {
          files := Function.update plan.files path (some (version fl updated.toUTF8))
          touched := touch plan.touched path
          summary := plan.summary ++ [⟨"M", path⟩] })

/-- The loop over the hunks. -/
def planHunks (fl : FileLib) : List PatchHunk → Planning → Option (Except ToolResultSnapshot Planning)
  | [], plan => some (.ok plan)
  | hunk :: hunks, plan =>
    match planHunk fl plan hunk with
    | some (.ok plan) => planHunks fl hunks plan
    | stopped => stopped

/-- The identifier of a mutation. -/
def mutationId (lib : Foreign) (turnId : Uuid) (callId : String) (index : Nat) : String :=
  "basic-codex:" ++ turnId.toText ++ ":" ++ lib.sha256 callId ++ ":file:" ++ toString index

/-- What has to be done to a file that was one version and is to be another. -/
def mutationOf (fl : FileLib) (mutationId path : String) :
    Option FileVersion → Option FileVersion → Option PatchMutation
  | before, some after =>
    if before.map (·.sha256) = some after.sha256 then none
    else some (.write mutationId path (fl.encode after.data) after.sha256 (before.map (·.sha256)))
  | some before, none => some (.remove mutationId path before.sha256)
  | none, none => none

/-- The loop over the paths that were touched. -/
def planTouched (lib : Foreign) (fl : FileLib) (turnId : Uuid) (callId : String)
    (initial files : Files) : List String → List PatchMutation → List PatchMutation
  | [], mutations => mutations
  | path :: touched, mutations =>
    planTouched lib fl turnId callId initial files touched <|
      mutations ++ (mutationOf fl (mutationId lib turnId callId mutations.length) path
        (initial path) (files path)).toList

/-- The files of a read batch. -/
def initialFiles (paths : List String) (reads : List (Option FileVersion)) : Files :=
  fun path => ((paths.zip reads).lookup path).join

/-- `plan_mutations`. -/
def planMutations (lib : Foreign) (fl : FileLib) (patch : ParsedPatch)
    (reads : List (Option FileVersion)) (turnId : Uuid) (callId : String) :
    Option (Except ToolResultSnapshot (List PatchMutation × List PatchSummary)) :=
  match patchPaths patch with
  | .error failure => some (.error failure)
  | .ok paths =>
    let initial := initialFiles paths reads
    match planHunks fl patch.hunks (.start initial) with
    | none => none
    | some (.error failure) => some (.error failure)
    | some (.ok plan) =>
      some (.ok (planTouched lib fl turnId callId initial plan.files plan.touched [], plan.summary))

/-! ## Batches -/

/-- `mutation_path`. -/
def mutationPath : PatchMutation → String
  | .write _ path _ _ _ => path
  | .remove _ path _ => path

/-- `precondition`. -/
def precondition : Option String → FilePrecondition
  | some sha256 => .sha256 sha256
  | none => .missing

/-- The operation of a mutation. -/
def mutationOperation (config : BasicCodexConfig) : PatchMutation → Operation
  | .write mutationId path dataBase64 _ expectedSha256 => .writeFile {
      mutationId
      cwd := some config.cwd
      path
      dataBase64
      createParentDirectories := true
      precondition := precondition expectedSha256 }
  | .remove mutationId path expectedSha256 => .removeFile {
      mutationId
      cwd := some config.cwd
      path
      precondition := .sha256 expectedSha256 }

/-- A read of a file. -/
def readOperation (config : BasicCodexConfig) (path : String) : Operation :=
  .readFile { cwd := some config.cwd, path, maxBytes := some maxFileBytes }

/-- Operations in a batch, each named by its place. -/
def batchOperations (word : String) (operations : List Operation) : List BatchOperation :=
  operations.mapIdx fun index operation => ⟨word ++ toString index, operation⟩

/-- `mutation_operations`. -/
def mutationOperations (config : BasicCodexConfig) (state : ApplyPatchState) :
    List BatchOperation :=
  batchOperations "mutation-" (state.mutations.map (mutationOperation config))

/-- `reconciliation_operations`. -/
def reconciliationOperations (config : BasicCodexConfig) (state : ApplyPatchState) :
    List BatchOperation :=
  batchOperations "read-" (state.mutations.map fun m => readOperation config (mutationPath m))

/-- `ErrorCode::NotFound`. -/
def notFound : String := "NotFound"

/-- `prepare_ready`. -/
def prepareReady (progress : FileToolState) (config : BasicCodexConfig) :
    Except ToolResultSnapshot PreparedFileOperation :=
  match progress with
  | .viewImage _ => .error (toolError "invalid_filesystem_state"
      "view_image cannot require another filesystem operation")
  | .applyPatch state =>
    match state.phase with
    | .mutating => .ok {
        request := .batch .sequential [] (mutationOperations config state)
        expectedGenerationId := state.generationId
        progress }
    | .reconciling => .ok {
        request := .batch .parallel [notFound] (reconciliationOperations config state)
        expectedGenerationId := none
        progress }
    | .reading => .error (toolError "invalid_filesystem_state"
        "initial patch reads were already submitted")

/-! ## New calls -/

/-- `prepare_apply_patch`. -/
def prepareApplyPatch (call : ToolCallState) (config : BasicCodexConfig) :
    Except ToolResultSnapshot PreparedFileOperation :=
  match call.input with
  | .json _ => .error (toolError "invalid_tool_arguments"
      "apply_patch requires freeform patch text")
  | .text input => do
    if maxPatchBytes < input.utf8ByteSize then
      .error (toolError "patch_too_large" "apply_patch input exceeds the 1 MiB limit")
    else
      let patch ← (parsePatch input).mapError fun message =>
        toolError "invalid_patch" ("Invalid patch: " ++ message)
      let paths ← patchPaths patch
      return {
        request := .batch .parallel [notFound]
          (batchOperations "read-" (paths.map (readOperation config)))
        expectedGenerationId := none
        progress := .applyPatch {
          phase := .reading
          patch
          generationId := none
          mutations := []
          summary := [] } }

/-- The detail that `view_image` arguments ask for. -/
def detailOf : Option String → Except ToolResultSnapshot ImageDetailChoice
  | none => .ok .high
  | some value =>
    if value = "high" then .ok .high
    else if value = "original" then .ok .original
    else .error (toolError "invalid_tool_arguments"
      ("view_image detail must be `high` or `original`, got `" ++ value ++ "`"))

/-- `ViewImageArgs`, as it decodes. -/
def decodeViewImageArgs (value : Value) : Option (String × Option String) := do
  let fields ← structFields ["path", "detail"] value
  let path ← field fields "path" Value.asStr
  let detail ← fieldOr fields "detail" none (decodeOption Value.asStr)
  return (path, detail)

/-- `prepare_view_image`. -/
def prepareViewImage (lib : Foreign) (call : ToolCallState) (config : BasicCodexConfig) :
    Except ToolResultSnapshot PreparedFileOperation :=
  match call.input with
  | .text _ => .error (toolError "invalid_tool_arguments" "view_image requires JSON arguments")
  | .json value =>
    match decodeViewImageArgs value with
    | none => .error (toolError "invalid_tool_arguments"
        ("invalid view_image arguments: " ++ lib.argumentsError value))
    | some (path, detail) => do
      validatePath path
      let detail ← detailOf detail
      return {
        request := .single (readOperation config path)
        expectedGenerationId := none
        progress := .viewImage { path, detail } }

/-- `prepare_new`. -/
def prepareNew (lib : Foreign) (call : ToolCallState) (config : BasicCodexConfig) :
    Except ToolResultSnapshot (Option PreparedFileOperation) :=
  if call.name = "view_image" then (prepareViewImage lib call config).map some
  else if call.name = "apply_patch" then (prepareApplyPatch call config).map some
  else .ok none

/-! ## Responses -/

/-- The error that the runtime answers a file operation with. -/
def filesystemError (code message : String) : ToolResultSnapshot :=
  toolError ("filesystem_" ++ code).toLower message

/-- `single_result`. -/
def singleResult (response : Response) : Except ToolResultSnapshot Value :=
  match response.outcome with
  | .ok result => .ok result
  | .error code message => .error (filesystemError code message)

/-- `batch_results`. -/
def batchResults (lib : Foreign) (response : Response) :
    Except ToolResultSnapshot (List BatchItem) := do
  let value ← singleResult response
  (lib.decodeBatch value).mapError fun failure =>
    toolError "invalid_execution_response" ("invalid filesystem batch response: " ++ failure)

/-- One result of a batch of reads. -/
def decodeRead (lib : Foreign) (fl : FileLib) (item : BatchItem) :
    Except ToolResultSnapshot (Option FileVersion) :=
  match item.outcome with
  | .ok result => do
    let file ← (fl.decodeReadFile result).mapError fun failure =>
      toolError "invalid_execution_response" ("invalid filesystem read response: " ++ failure)
    let data ← (lib.base64Decode file.dataBase64).mapError fun failure =>
      toolError "invalid_execution_response"
        ("filesystem file bytes are invalid base64: " ++ failure)
    return some ⟨⟨data.toArray⟩, file.sha256⟩
  | .error code message =>
    if code = notFound then .ok none else .error (filesystemError code message)
  | .skipped reason => .error (toolError "filesystem_read_skipped" reason)

/-- `decode_read_batch`. -/
def decodeReadBatch (lib : Foreign) (fl : FileLib) (response : Response) (paths : List String) :
    Except ToolResultSnapshot (List (Option FileVersion)) := do
  let results ← batchResults lib response
  if results.length ≠ paths.length then
    .error (toolError "invalid_execution_response"
      "filesystem read batch returned an unexpected number of results")
  else results.mapM (decodeRead lib fl)

def numberValue (n : Nat) : Value := .number (.posInt (UInt64.ofNat n))

/-- `serde_json::to_value` of a summary. -/
def summaryValue (summary : List PatchSummary) : Value :=
  .array (summary.map fun item =>
    .object [("action", .string item.action), ("path", .string item.path)])

/-- `patch_success`. -/
def patchSuccess (state : ApplyPatchState) (reconciled : Bool) : ToolResultSnapshot where
  content := [.text ("Success. Updated the following files:" ++
    String.join (state.summary.map fun item => "\n" ++ item.action ++ " " ++ item.path)) none]
  outcome := .success
  details := some (.object [("changes", summaryValue state.summary),
    ("reconciled_after_unknown", .bool reconciled)])

/-- The loop over the results of the mutations. -/
def checkApplied (summary : List PatchSummary) :
    List Value → List BatchItem → Except ToolResultSnapshot Unit
  | _, [] => .ok ()
  | applied, item :: items =>
    match item.outcome with
    | .ok result => checkApplied summary (applied ++ [result]) items
    | .error code message => .error (toolErrorWithDetails ("filesystem_" ++ code).toLower
        ("apply_patch failed: " ++ message)
        (.object [("applied", .array applied),
          ("failed_index", numberValue applied.length), ("summary", summaryValue summary)]))
    | .skipped reason => .error (toolErrorWithDetails "patch_partially_applied"
        ("apply_patch stopped after an earlier mutation failed: " ++ reason)
        (.object [("applied", .array applied),
          ("skipped_index", numberValue applied.length), ("summary", summaryValue summary)]))

/-- Whether a file is as a mutation was to leave it. -/
def isDesired (mutation : PatchMutation) (current : Option FileVersion) : Bool :=
  match mutation with
  | .write _ _ _ desiredSha256 _ => current.any (·.sha256 == desiredSha256)
  | .remove .. => current.isNone

/-- `apply_patch_response`. -/
def applyPatchResponse (lib : Foreign) (fl : FileLib) (state : ApplyPatchState)
    (response : Response) (turnId : Uuid) (callId : String) :
    Option (Except ToolResultSnapshot AppliedFileResult) :=
  match state.phase with
  | .reading =>
    match patchPaths state.patch with
    | .error failure => some (.error failure)
    | .ok paths =>
      match decodeReadBatch lib fl response paths with
      | .error failure => some (.error failure)
      | .ok reads =>
        match planMutations lib fl state.patch reads turnId callId with
        | none => none
        | some (.error failure) => some (.error failure)
        | some (.ok (mutations, summary)) =>
          if mutations.isEmpty then
            some (.error (toolError "empty_patch" "No files were modified."))
          else
            some (.ok (.ready (.applyPatch { state with
              phase := .mutating
              generationId := some response.generationId
              mutations
              summary })))
  | .mutating => some <| do
    let values ← batchResults lib response
    checkApplied state.summary [] values
    return .completed (patchSuccess state false)
  | .reconciling => some <| do
    let reads ← decodeReadBatch lib fl response (state.mutations.map mutationPath)
    if (state.mutations.zip reads).all fun (mutation, current) => isDesired mutation current then
      return .completed (patchSuccess state true)
    else
      .error (toolErrorWithDetails "filesystem_unknown"
        "apply_patch outcome is unknown and the intended final state could not be confirmed"
        (.object [("summary", summaryValue state.summary)]))

/-! ## Images -/

/-- `mime`. -/
def mime : ImageFormat → String
  | .png => "image/png"
  | .jpeg => "image/jpeg"
  | .gif => "image/gif"
  | .webP => "image/webp"
  | .other => "image/png"

/-- `PreparedImage`. -/
structure PreparedImage where
  bytes : ByteArray
  mime : String
  sourceWidth : Nat
  sourceHeight : Nat
  width : Nat
  height : Nat

/-- `prepare_image`. An image of its size that is in a known format is passed on as it is. -/
def prepareImage (fl : FileLib) (bytes : ByteArray) (detail : ImageDetailChoice) :
    Except String PreparedImage := do
  let format ← fl.guessFormat bytes
  let (sourceWidth, sourceHeight) ← fl.loadImage bytes
  let limits := Images.limitsOf detail
  let width := Images.fitted limits sourceWidth sourceHeight
  let height := Images.fitted limits sourceHeight sourceWidth
  let resized : Bool := (width, height) ≠ (sourceWidth, sourceHeight)
  let (prepared, mime) ←
    if !resized && format ≠ .other then pure (bytes, mime format)
    else do
      let output ← fl.writePng bytes (if resized then some (width, height) else none)
      pure (output, "image/png")
  if maxFileBytes < prepared.size then .error "prepared image exceeds the 5 MiB limit"
  else return { bytes := prepared, mime, sourceWidth, sourceHeight, width, height }

/-- The contract's detail of a choice, and its word. -/
def imageDetail : ImageDetailChoice → ImageDetail × String
  | .high => (.high, "high")
  | .original => (.original, "original")

/-- `apply_view_image`. -/
def applyViewImage (lib : Foreign) (fl : FileLib) (state : ViewImageState) (response : Response) :
    Except ToolResultSnapshot AppliedFileResult := do
  let value ← singleResult response
  let file ← (fl.decodeReadFile value).mapError fun failure =>
    toolError "invalid_execution_response" ("invalid filesystem read response: " ++ failure)
  if file.isFile = false then .error (toolError "invalid_image" "image path is not a file")
  else
    let data ← (lib.base64Decode file.dataBase64).mapError fun failure =>
      toolError "invalid_execution_response" ("image bytes are not valid base64: " ++ failure)
    let prepared ← (prepareImage fl ⟨data.toArray⟩ state.detail).mapError fun message =>
      toolError "invalid_image" ("unable to process image: " ++ message)
    let published ← (fl.publishAsset prepared.mime prepared.bytes).mapError fun message =>
      toolError "image_upload_failed" ("unable to publish image for model input: " ++ message)
    if !startsWith "http://" published.url && !startsWith "https://" published.url then
      .error (toolError "image_upload_failed" "image bucket returned a non-HTTP URL")
    else
      let (detail, word) := imageDetail state.detail
      return .completed {
        content := [.image published.url (some detail) none]
        outcome := .success
        details := some (.object [
          ("path", .string state.path),
          ("resolved_path", .string file.path),
          ("sha256", .string file.sha256),
          ("published_sha256", .string published.sha256),
          ("published_size_bytes", numberValue published.sizeBytes),
          ("source_width", numberValue prepared.sourceWidth),
          ("source_height", numberValue prepared.sourceHeight),
          ("width", numberValue prepared.width),
          ("height", numberValue prepared.height),
          ("detail", .string word)]) }

/-! ## The tools -/

/-- `apply_response`. -/
def applyResponse (lib : Foreign) (fl : FileLib) (progress : FileToolState) (response : Response)
    (turnId : Uuid) (callId : String) : Option (Except ToolResultSnapshot AppliedFileResult) :=
  match progress with
  | .viewImage state => some (applyViewImage lib fl state response)
  | .applyPatch state => applyPatchResponse lib fl state response turnId callId

/-- The file tools of a harness. A response whose handling panics is answered by no outcome, so
that what stands in its place here is in no run. -/
def tools (lib : Foreign) (fl : FileLib) : FileTools where
  prepareNew := prepareNew lib
  prepareReady := prepareReady
  applyResponse progress response turnId callId :=
    (applyResponse lib fl progress response turnId callId).getD
      (.error (toolError "panicked" ""))

end AgentPlatform.Harness.FilesystemTools
