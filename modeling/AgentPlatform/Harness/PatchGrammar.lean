import AgentPlatform.Harness.FilesystemTools

/-!
# The patch grammar and its parser

`apply_patch.lark`, the grammar that the tool catalog advertises, as derivations and their texts,
and what `parse_patch` makes of them. Every text of the grammar is parsed (with the provisos that
`Plain` lists), into the hunks of its derivation.

**What a chunk keeps of an update** is proved line for line in `chunksFrom`: the parser collects
lines until the next context, and drops a context that no line follows.
-/

namespace AgentPlatform.Harness.FilesystemTools

/-! ## Derivations -/

/-- What `/(.*)/` derives. -/
abbrev LineText := { text : String // '\n' ∉ text.toList }

/-- What `/(.+)/` derives. -/
abbrev SomeText := { text : String // text ≠ "" ∧ '\n' ∉ text.toList }

/-- The sign of a `change_line`. -/
inductive Sign where
  | added
  | removed
  | kept
deriving DecidableEq, Repr

def Sign.text : Sign → String
  | added => "+"
  | removed => "-"
  | kept => " "

/-- A `change_context` or a `change_line`. A context is a bare `@@` or has a text. -/
inductive ChangeItem where
  | context (text : Option SomeText)
  | line (sign : Sign) (text : LineText)

/-- `change`. -/
structure Change where
  first : ChangeItem
  rest : List ChangeItem
  eofLine : Bool

def Change.items (change : Change) : List ChangeItem := change.first :: change.rest

/-- `hunk`. -/
inductive HunkTree where
  | add (filename : SomeText) (first : LineText) (rest : List LineText)
  | delete (filename : SomeText)
  | update (filename : SomeText) (move : Option SomeText) (change : Option Change)

/-- `start`. -/
structure PatchTree where
  first : HunkTree
  rest : List HunkTree
  /-- Whether the last `LF` is there. -/
  finalLf : Bool

def PatchTree.hunks (tree : PatchTree) : List HunkTree := tree.first :: tree.rest

/-! ## Texts -/

def ChangeItem.text : ChangeItem → String
  | .context none => "@@"
  | .context (some text) => "@@ " ++ text.val
  | .line sign text => sign.text ++ text.val

def Change.lines (change : Change) : List String :=
  change.items.map ChangeItem.text ++ if change.eofLine then ["*** End of File"] else []

/-- The lines of a hunk. Each is followed by `LF`. -/
def HunkTree.lines : HunkTree → List String
  | .add filename first rest =>
    ("*** Add File: " ++ filename.val) :: (first :: rest).map fun text => "+" ++ text.val
  | .delete filename => ["*** Delete File: " ++ filename.val]
  | .update filename move change =>
    ("*** Update File: " ++ filename.val) ::
      ((move.map fun destination => "*** Move to: " ++ destination.val).toList ++
        (change.map Change.lines).getD [])

def PatchTree.body (tree : PatchTree) : List String := tree.hunks.flatMap HunkTree.lines

/-- The text that a derivation derives. -/
def PatchTree.text (tree : PatchTree) : String :=
  String.join (("*** Begin Patch" :: tree.body).map (· ++ "\n")) ++ "*** End Patch" ++
    if tree.finalLf then "\n" else ""

/-! ## Plain texts -/

def EndsInReturn (text : String) : Prop := text.toList.getLast? = some '\r'

/-- A filename without NUL. -/
def PlainName (filename : SomeText) : Prop := '\x00' ∉ filename.val.toList

def ChangeItem.isLine : ChangeItem → Bool
  | .line .. => true
  | .context _ => false

/-- The provisos on a hunk: no filename contains NUL, and an update has a move line or at least one
change line. -/
def HunkTree.Plain : HunkTree → Prop
  | .add filename _ _ => PlainName filename
  | .delete filename => PlainName filename
  | .update filename move change =>
    PlainName filename ∧ (∀ destination ∈ move, PlainName destination) ∧
      (move.isSome ∨ ∃ c ∈ change, c.items.any ChangeItem.isLine = true)

/-- The provisos on a derivation: those on its hunks, and that no line ends in a carriage return. -/
structure PatchTree.Plain (tree : PatchTree) : Prop where
  hunks : ∀ hunk ∈ tree.hunks, hunk.Plain
  noReturn : ∀ line ∈ tree.body, ¬EndsInReturn line

/-- A line, for examples. -/
def plainLine : LineText := ⟨"x", by decide⟩

/-! ## Lines -/

variable {lines rest : List String} {line text : String}

theorem splitOn_ended (hline : '\n' ∉ line.toList) (later : String) :
    (line ++ "\n" ++ later).toList.splitOn '\n' = line.toList :: later.toList.splitOn '\n' := by
  have htext : (line ++ "\n" ++ later).toList = line.toList ++ '\n' :: later.toList := by
    simp [String.toList_append]
  rw [htext, List.splitOn_append_cons_self, List.splitOn_eq_singleton hline, List.singleton_append]

theorem splitOn_join (hlines : ∀ line ∈ lines, '\n' ∉ line.toList) (later : String) :
    (String.join (lines.map (· ++ "\n")) ++ later).toList.splitOn '\n' =
      lines.map String.toList ++ later.toList.splitOn '\n' := by
  induction lines with
  | nil => simp
  | cons line lines ih =>
    rw [List.forall_mem_cons] at hlines
    rw [List.map_cons, String.join_cons, String.append_assoc, splitOn_ended hlines.1,
      ih hlines.2]
    rfl

theorem stripReturn_of_not (h : ¬EndsInReturn line) : stripReturn line.toList = line.toList := by
  unfold stripReturn
  exact if_neg h

theorem map_stripReturn (h : ∀ line ∈ lines, ¬EndsInReturn line) :
    (lines.map String.toList).map stripReturn = lines.map String.toList := by
  rw [List.map_map]
  apply List.map_congr_left
  intro line hline
  exact stripReturn_of_not (h line hline)

/-- The lines of a text are those that it was made of. -/
theorem linesOf_join (hlines : ∀ line ∈ lines, '\n' ∉ line.toList)
    (hreturn : ∀ line ∈ lines, ¬EndsInReturn line) (hlast : '\n' ∉ text.toList)
    (hlastReturn : ¬EndsInReturn text) (hne : text.toList ≠ []) (ended : Bool) :
    linesOf (String.join (lines.map (· ++ "\n")) ++ text ++ if ended then "\n" else "") =
      (lines ++ [text]).map String.toList := by
  have hparts : (String.join (lines.map (· ++ "\n")) ++ text ++
      if ended then "\n" else "").toList.splitOn '\n' =
        lines.map String.toList ++ text.toList :: if ended then [[]] else [] := by
    rw [String.append_assoc, splitOn_join hlines]
    cases ended with
    | false => simp [List.splitOn_eq_singleton hlast]
    | true =>
      have hended := splitOn_ended hlast ""
      rw [String.append_empty] at hended
      rw [if_pos rfl, hended]
      rfl
  unfold linesOf
  simp only [hparts]
  cases ended with
  | false =>
    rw [if_neg (by decide), List.dropLast_concat, List.getLast?_concat, map_stripReturn hreturn]
    cases htext : text.toList with
    | nil => exact absurd htext hne
    | cons c cs => simp [htext]
  | true =>
    have hshape : lines.map String.toList ++ text.toList :: [[]] =
        (lines ++ [text]).map String.toList ++ [[]] := by simp
    have hreturns : ∀ line ∈ lines ++ [text], ¬EndsInReturn line := by
      intro line hline
      rcases List.mem_append.mp hline with hline | hline
      · exact hreturn line hline
      · rw [List.mem_singleton.mp hline]
        exact hlastReturn
    rw [if_pos rfl, hshape, List.dropLast_concat, List.getLast?_concat, map_stripReturn hreturns]

/-! ## Line starts -/

/-- Whether two texts differ at a place that both have. -/
def differ : List Char → List Char → Bool
  | a :: as, b :: bs => a != b || differ as bs
  | _, _ => false

theorem isPrefixOf?_differ {as bs : List Char} (h : differ as bs = true) (cs : List Char) :
    as.isPrefixOf? (bs ++ cs) = none := by
  induction as generalizing bs with
  | nil => cases h
  | cons a as ih =>
    cases bs with
    | nil => cases h
    | cons b bs =>
      rw [List.cons_append, List.isPrefixOf?]
      by_cases heq : a = b
      · subst heq
        have hrest : differ as bs = true := by simpa [differ] using h
        simp [ih hrest]
      · simp [heq]

theorem stripPrefix_append (start text : String) : stripPrefix start (start ++ text) = some text := by
  unfold stripPrefix
  rw [String.toList_append, List.isPrefixOf?_eq_some_iff_append_eq.mpr rfl]
  simp

theorem stripPrefix_differ {start begin_ : String} (h : differ start.toList begin_.toList = true)
    (text : String) : stripPrefix start (begin_ ++ text) = none := by
  unfold stripPrefix
  rw [String.toList_append, isPrefixOf?_differ h]
  rfl

theorem startsWith_append (start text : String) : startsWith start (start ++ text) = true := by
  unfold startsWith
  rw [← List.isSome_isPrefixOf?_eq_isPrefixOf, String.toList_append,
    List.isPrefixOf?_eq_some_iff_append_eq.mpr rfl]
  rfl

theorem startsWith_differ {start begin_ : String} (h : differ start.toList begin_.toList = true)
    (text : String) : startsWith start (begin_ ++ text) = false := by
  unfold startsWith
  rw [← List.isSome_isPrefixOf?_eq_isPrefixOf, String.toList_append, isPrefixOf?_differ h]
  rfl

theorem ne_of_differ {other begin_ : String} (h : differ other.toList begin_.toList = true)
    (text : String) : begin_ ++ text ≠ other := by
  intro heq
  have hnone := isPrefixOf?_differ h text.toList
  rw [← String.toList_append, heq,
    List.isPrefixOf?_eq_some_iff_append_eq.mpr (List.append_nil other.toList)] at hnone
  cases hnone

/-! ## One line of an update -/

/-- A change line in a chunk. -/
def addLine (current : PatchChunk) (sign : Sign) (text : String) : PatchChunk :=
  match sign with
  | .added => { current with newLines := current.newLines ++ [text] }
  | .removed => { current with oldLines := current.oldLines ++ [text] }
  | .kept => { current with
      oldLines := current.oldLines ++ [text]
      newLines := current.newLines ++ [text] }

variable {chunks : List PatchChunk} {current : PatchChunk}

theorem updateLine_context (text : Option SomeText) :
    updateLine chunks current (ChangeItem.context text).text =
      .ok (pushChunk chunks current, startChunk (text.map (·.val))) := by
  cases text with
  | none => rfl
  | some text =>
    unfold updateLine ChangeItem.text
    rw [if_pos (.inr (startsWith_append _ _)), stripPrefix_append]
    rfl

theorem updateLine_line (sign : Sign) (text : LineText) :
    updateLine chunks current (ChangeItem.line sign text).text =
      .ok (chunks, addLine current sign text.val) := by
  have hcontext : ¬(sign.text ++ text.val = "@@" ∨
      startsWith "@@ " (sign.text ++ text.val) = true) := by
    cases sign <;>
      exact fun h => h.elim (ne_of_differ (by decide) _)
        (by rw [startsWith_differ (by decide)]; decide)
  have heof : sign.text ++ text.val ≠ "*** End of File" := by
    cases sign <;> exact ne_of_differ (by decide) _
  unfold updateLine ChangeItem.text
  rw [if_neg hcontext, if_neg heof]
  cases sign with
  | added =>
    unfold Sign.text
    rw [stripPrefix_append]
    rfl
  | removed =>
    unfold Sign.text
    rw [stripPrefix_differ (by decide), stripPrefix_append]
    rfl
  | kept =>
    unfold Sign.text
    rw [stripPrefix_differ (by decide), stripPrefix_differ (by decide),
      stripPrefix_append]
    rfl

/-- A line of an update is no header of another hunk. -/
theorem item_continues (item : ChangeItem) :
    ¬(startsWith "*** " item.text = true ∧ item.text ≠ "*** End of File") := by
  intro h
  have hstart := h.1
  cases item with
  | context text =>
    cases text with
    | none =>
      have : startsWith "*** " (ChangeItem.context none).text = false := by decide
      rw [this] at hstart
      cases hstart
    | some text =>
      unfold ChangeItem.text at hstart
      rw [startsWith_differ (by decide)] at hstart
      cases hstart
  | line sign text =>
    unfold ChangeItem.text at hstart
    cases sign <;>
    · unfold Sign.text at hstart
      rw [startsWith_differ (by decide)] at hstart
      cases hstart

/-! ## Hunks -/

/-- The chunks of an update from a point on, where the current chunk has what came before. -/
def chunksFrom (eofLine : Bool) : PatchChunk → List ChangeItem → List PatchChunk
  | current, [] => pushChunk [] { current with endOfFile := current.endOfFile || eofLine }
  | current, .line sign text :: items => chunksFrom eofLine (addLine current sign text.val) items
  | current, .context text :: items =>
    pushChunk [] current ++ chunksFrom eofLine (startChunk (text.map (·.val))) items

/-- The chunks of a change. -/
def Change.parsed (change : Change) : List PatchChunk :=
  chunksFrom change.eofLine (startChunk none) change.items

/-- The hunk that a derivation is parsed into. -/
def HunkTree.parsed : HunkTree → PatchHunk
  | .add filename first rest =>
    .add filename.val ("\n".intercalate ((first :: rest).map (·.val)) ++ "\n")
  | .delete filename => .delete filename.val
  | .update filename move change =>
    .update filename.val (move.map (·.val)) ((change.map Change.parsed).getD [])

/-- What may follow a hunk: nothing, or the header of another. -/
def Stops : List String → Prop
  | [] => True
  | line :: _ => startsWith "*** " line = true ∧ line ≠ "*** End of File" ∧
    stripPrefix "*** Move to: " line = none

theorem pushChunk_eq (chunks : List PatchChunk) (current : PatchChunk) :
    pushChunk chunks current = chunks ++ pushChunk [] current := by
  unfold pushChunk
  by_cases h : hasChanges current = true
  · rw [if_pos h, if_pos h, List.nil_append]
  · rw [if_neg h, if_neg h, List.append_nil]

theorem updateLines_stops (h : Stops rest) :
    updateLines chunks current rest = .ok (pushChunk chunks current, rest) := by
  cases rest with
  | nil => rfl
  | cons line rest =>
    unfold updateLines
    rw [if_pos ⟨h.1, h.2.1⟩]

theorem updateLines_eof (h : Stops rest) (eofLine : Bool) :
    updateLines chunks current ((if eofLine then ["*** End of File"] else []) ++ rest) =
      .ok (pushChunk chunks { current with endOfFile := current.endOfFile || eofLine }, rest) := by
  cases eofLine with
  | false =>
    rw [Bool.or_false]
    exact updateLines_stops h
  | true =>
    have hline : updateLine chunks current "*** End of File" =
        .ok (chunks, { current with endOfFile := true }) := rfl
    rw [if_pos rfl, List.singleton_append, Bool.or_true]
    unfold updateLines
    rw [if_neg (fun h => h.2 rfl), hline]
    exact updateLines_stops h

theorem updateLines_items (h : Stops rest) (eofLine : Bool) (items : List ChangeItem) :
    updateLines chunks current
        (items.map ChangeItem.text ++ ((if eofLine then ["*** End of File"] else []) ++ rest)) =
      .ok (chunks ++ chunksFrom eofLine current items, rest) := by
  induction items generalizing chunks current with
  | nil =>
    rw [List.map_nil, List.nil_append, updateLines_eof h, pushChunk_eq]
    rfl
  | cons item items ih =>
    rw [List.map_cons, List.cons_append]
    unfold updateLines
    rw [if_neg (item_continues item)]
    cases item with
    | context text =>
      rw [updateLine_context]
      dsimp only
      rw [ih, pushChunk_eq, List.append_assoc]
      rfl
    | line sign text =>
      rw [updateLine_line]
      exact ih

theorem hasChanges_addLine (current : PatchChunk) (sign : Sign) (text : String) :
    hasChanges (addLine current sign text) = true := by
  cases sign <;> simp [hasChanges, addLine]

/-- A change with a line has a chunk. -/
theorem chunksFrom_ne_nil {eofLine : Bool} {items : List ChangeItem}
    (h : hasChanges current = true ∨ items.any ChangeItem.isLine = true) :
    chunksFrom eofLine current items ≠ [] := by
  induction items generalizing current with
  | nil =>
    have hchanges : hasChanges current = true := h.resolve_right (by simp)
    have hsame : hasChanges { current with endOfFile := current.endOfFile || eofLine } = true :=
      hchanges
    unfold chunksFrom pushChunk
    rw [if_pos hsame]
    simp
  | cons item items ih =>
    cases item with
    | line sign text => exact ih (.inl (hasChanges_addLine current sign text.val))
    | context text =>
      unfold chunksFrom
      rw [Ne, List.append_eq_nil_iff, not_and_or]
      rcases h with hchanges | hline
      · left
        unfold pushChunk
        rw [if_pos hchanges]
        simp
      · right
        exact ih (.inr (by simpa [ChangeItem.isLine] using hline))

theorem addedLines_parsed (h : Stops rest) (texts : List LineText) :
    addedLines ((texts.map fun text => "+" ++ text.val) ++ rest) =
      .ok (texts.map (·.val), rest) := by
  induction texts with
  | nil =>
    cases rest with
    | nil => rfl
    | cons line rest =>
      rw [List.map_nil, List.nil_append, addedLines, if_pos h.1]
      rfl
  | cons text texts ih =>
    have hstart : startsWith "*** " ("+" ++ text.val) = false :=
      startsWith_differ (by decide) _
    rw [List.map_cons, List.cons_append, addedLines, hstart, if_neg (by decide),
      stripPrefix_append, ih]
    rfl

theorem validatePatchPath_plain {filename : SomeText} (h : PlainName filename) :
    validatePatchPath filename.val = .ok () := by
  have hne : filename.val.isEmpty = false := by
    simpa [String.isEmpty_iff] using filename.property.1
  have hnul : filename.val.toList.contains '\x00' = false := by
    simpa [PlainName] using h
  unfold validatePatchPath
  rw [hne, hnul]
  rfl

/-- The header line of a hunk, and the lines that follow it. -/
theorem HunkTree.lines_ne_nil (hunk : HunkTree) : hunk.lines ≠ [] := by
  cases hunk <;> exact List.cons_ne_nil _ _

theorem stops_hunk (hunk : HunkTree) (rest : List String) : Stops (hunk.lines ++ rest) := by
  cases hunk with
  | add filename first rest =>
    refine ⟨startsWith_append "*** " ("Add File: " ++ filename.val), ?_, ?_⟩
    · exact ne_of_differ (by decide) _
    · exact stripPrefix_differ (by decide) _
  | delete filename =>
    refine ⟨startsWith_append "*** " ("Delete File: " ++ filename.val), ?_, ?_⟩
    · exact ne_of_differ (by decide) _
    · exact stripPrefix_differ (by decide) _
  | update filename move change =>
    refine ⟨startsWith_append "*** " ("Update File: " ++ filename.val), ?_, ?_⟩
    · exact ne_of_differ (by decide) _
    · exact stripPrefix_differ (by decide) _

theorem stops_hunks (hunks : List HunkTree) : Stops (hunks.flatMap HunkTree.lines) := by
  cases hunks with
  | nil => trivial
  | cons hunk hunks => exact stops_hunk hunk _

/-- What follows the header of an update that has no move line. -/
theorem moveLine_none (h : Stops rest) (change : Option Change) :
    moveLine ((change.map Change.lines).getD [] ++ rest) =
      .ok (none, (change.map Change.lines).getD [] ++ rest) := by
  have hnot : ∀ line lines, stripPrefix "*** Move to: " line = none →
      moveLine (line :: lines) = .ok (none, line :: lines) := by
    intro line lines hline
    simp only [moveLine, hline]
  cases change with
  | none =>
    cases rest with
    | nil => rfl
    | cons line rest => exact hnot line rest h.2.2
  | some change =>
    apply hnot
    cases hfirst : change.first with
    | context text =>
      cases text with
      | none => decide
      | some text => exact stripPrefix_differ (by decide) _
    | line sign text =>
      cases sign <;> exact stripPrefix_differ (by decide) _

theorem parseHunk_update {filename : SomeText} {move : Option SomeText} {change : Option Change}
    (h : Stops rest) (plain : (HunkTree.update filename move change).Plain) :
    parseHunk ("*** Update File: " ++ filename.val)
        ((move.map fun destination => "*** Move to: " ++ destination.val).toList ++
          (change.map Change.lines).getD [] ++ rest) =
      .ok ((HunkTree.update filename move change).parsed, rest) := by
  obtain ⟨hname, hmove, hchanges⟩ := plain
  have hmoved : moveLine ((move.map fun destination => "*** Move to: " ++ destination.val).toList ++
      (change.map Change.lines).getD [] ++ rest) =
        .ok (move.map (·.val), (change.map Change.lines).getD [] ++ rest) := by
    cases move with
    | none => exact moveLine_none h change
    | some destination =>
      have hvalid := validatePatchPath_plain (hmove destination rfl)
      simp only [Option.map_some, Option.toList_some, List.cons_append, List.nil_append, moveLine,
        stripPrefix_append, hvalid]
      rfl
  have hlines : updateLines [] (startChunk none) ((change.map Change.lines).getD [] ++ rest) =
      .ok ((change.map Change.parsed).getD [], rest) := by
    cases change with
    | none => exact updateLines_stops h
    | some change =>
      simp only [Option.map_some, Option.getD_some, Change.lines, List.append_assoc]
      exact updateLines_items h change.eofLine change.items
  have hsome : ¬(((change.map Change.parsed).getD []).isEmpty = true ∧
      (move.map (·.val)).isNone = true) := by
    rintro ⟨hempty, hnone⟩
    rcases hchanges with hmoves | ⟨c, hc, hline⟩
    · cases move with
      | none => cases hmoves
      | some destination => cases hnone
    · cases hc
      exact chunksFrom_ne_nil (.inr hline) (by simpa [Change.parsed] using hempty)
  unfold parseHunk
  rw [stripPrefix_differ (by decide), stripPrefix_differ (by decide),
    stripPrefix_append]
  dsimp only
  rw [Fallible.ok_bind (validatePatchPath_plain hname), Fallible.ok_bind hmoved]
  dsimp only
  rw [Fallible.ok_bind hlines]
  dsimp only
  rw [if_neg hsome]
  rfl

/-- A hunk is parsed into what its derivation says. -/
theorem parseHunk_lines {hunk : HunkTree} (h : Stops rest) (plain : hunk.Plain) :
    ∃ line lines, hunk.lines ++ rest = line :: lines ∧
      parseHunk line lines = .ok (hunk.parsed, rest) := by
  cases hunk with
  | add filename first texts =>
    refine ⟨"*** Add File: " ++ filename.val,
      ((first :: texts).map fun text => "+" ++ text.val) ++ rest, rfl, ?_⟩
    have hadded := addedLines_parsed h (first :: texts)
    unfold parseHunk
    rw [stripPrefix_append]
    dsimp only
    rw [Fallible.ok_bind (validatePatchPath_plain plain), Fallible.ok_bind hadded]
    rfl
  | delete filename =>
    refine ⟨_, _, rfl, ?_⟩
    unfold parseHunk
    rw [stripPrefix_differ (by decide), stripPrefix_append]
    dsimp only
    rw [Fallible.ok_bind (validatePatchPath_plain plain)]
    rfl
  | update filename move change => exact ⟨_, _, rfl, parseHunk_update h plain⟩

theorem parseHunks_lines {hunks : List HunkTree} (plain : ∀ hunk ∈ hunks, hunk.Plain) {fuel : Nat}
    (hfuel : (hunks.flatMap HunkTree.lines).length ≤ fuel) :
    parseHunks fuel (hunks.flatMap HunkTree.lines) = .ok (hunks.map HunkTree.parsed) := by
  induction hunks generalizing fuel with
  | nil => cases fuel <;> rfl
  | cons hunk hunks ih =>
    rw [List.forall_mem_cons] at plain
    obtain ⟨line, lines, hlines, hparsed⟩ := parseHunk_lines (stops_hunks hunks) plain.1
    rw [List.flatMap_cons] at hfuel ⊢
    have hone := List.length_pos_of_ne_nil hunk.lines_ne_nil
    rw [List.length_append] at hfuel
    cases fuel with
    | zero => omega
    | succ fuel =>
      rw [hlines, parseHunks, hparsed]
      dsimp only
      rw [ih plain.2 (by omega)]
      rfl

/-! ## The whole patch -/

theorem newline_not_mem {start text : String} (hstart : start.toList.contains '\n' = false)
    (htext : '\n' ∉ text.toList) : '\n' ∉ (start ++ text).toList := by
  rw [String.toList_append, List.mem_append]
  rintro (hmem | hmem)
  · rw [List.contains_eq_mem, decide_eq_false_iff_not] at hstart
    exact hstart hmem
  · exact htext hmem

theorem hunk_lines_newline (hunk : HunkTree) : ∀ line ∈ hunk.lines, '\n' ∉ line.toList := by
  intro line hline
  cases hunk with
  | add filename first rest =>
    rcases List.mem_cons.mp hline with rfl | hline
    · exact newline_not_mem (by decide) filename.property.2
    · obtain ⟨text, _, rfl⟩ := List.mem_map.mp hline
      exact newline_not_mem (by decide) text.property
  | delete filename =>
    rw [List.mem_singleton.mp hline]
    exact newline_not_mem (by decide) filename.property.2
  | update filename move change =>
    rcases List.mem_cons.mp hline with rfl | hline
    · exact newline_not_mem (by decide) filename.property.2
    rcases List.mem_append.mp hline with hline | hline
    · obtain ⟨destination, hdestination⟩ := Option.mem_toList.mp hline |> Option.map_eq_some_iff.mp
      rw [← hdestination.2]
      exact newline_not_mem (by decide) destination.property.2
    · cases change with
      | none => cases hline
      | some change =>
        rcases List.mem_append.mp hline with hline | hline
        · obtain ⟨item, _, rfl⟩ := List.mem_map.mp hline
          cases item with
          | context text =>
            cases text with
            | none => decide
            | some text => exact newline_not_mem (by decide) text.property.2
          | line sign text =>
            refine newline_not_mem ?_ text.property
            cases sign <;> decide
        · cases heof : change.eofLine with
          | false => simp [heof] at hline
          | true =>
            rw [heof, if_pos rfl] at hline
            rw [List.mem_singleton.mp hline]
            decide

/-- Every plain text of the grammar is parsed into the hunks of its derivation. -/
theorem parsePatch_text {tree : PatchTree} (plain : tree.Plain) :
    parsePatch tree.text = .ok ⟨tree.hunks.map HunkTree.parsed⟩ := by
  have hbody : ∀ line ∈ tree.body, '\n' ∉ line.toList := by
    intro line hline
    obtain ⟨hunk, _, hmem⟩ := List.mem_flatMap.mp hline
    exact hunk_lines_newline hunk line hmem
  have hlines : ∀ line ∈ "*** Begin Patch" :: tree.body, '\n' ∉ line.toList := by
    rw [List.forall_mem_cons]
    exact ⟨by decide, hbody⟩
  have hreturn : ∀ line ∈ "*** Begin Patch" :: tree.body, ¬EndsInReturn line := by
    rw [List.forall_mem_cons]
    exact ⟨by unfold EndsInReturn; decide, plain.noReturn⟩
  have hlinesOf : linesOf tree.text =
      (("*** Begin Patch" :: tree.body) ++ ["*** End Patch"]).map String.toList := by
    apply linesOf_join hlines hreturn (by decide)
    · unfold EndsInReturn
      decide
    · decide
  have hall : ∀ line ∈ ("*** Begin Patch" :: tree.body) ++ ["*** End Patch"],
      ¬EndsInReturn line := by
    intro line hline
    rcases List.mem_append.mp hline with hline | hline
    · exact hreturn line hline
    · rw [List.mem_singleton.mp hline]
      unfold EndsInReturn
      decide
  have hstripped : (linesOf tree.text).map (fun line => String.ofList (stripReturn line)) =
      ("*** Begin Patch" :: tree.body) ++ ["*** End Patch"] := by
    rw [hlinesOf, List.map_map]
    conv_rhs => rw [← List.map_id (("*** Begin Patch" :: tree.body) ++ ["*** End Patch"])]
    apply List.map_congr_left
    intro line hline
    rw [Function.comp_apply, stripReturn_of_not (hall line hline), String.ofList_toList]
    rfl
  have hhunks := parseHunks_lines plain.hunks (le_refl tree.body.length)
  unfold parsePatch
  simp only [hstripped]
  rw [if_neg (by simp), if_neg (fun hlast => hlast List.getLast?_concat)]
  simp only [List.cons_append, List.tail_cons, List.dropLast_concat]
  rw [show tree.body = tree.hunks.flatMap HunkTree.lines from rfl] at hhunks ⊢
  rw [hhunks]
  rfl

end AgentPlatform.Harness.FilesystemTools
