import AgentPlatform.Harness.PatchGrammar

/-!
# What the parser keeps of an update

The grammar lets contexts and change lines follow one another in any order. The parser starts a
chunk at each context and keeps the chunks that have a line. So a context that is followed by another
one, or by nothing, is lost, and so is the end-of-file marker after it.

**When nothing is lost** (`Clean`). Every context with a text and every end-of-file marker stands
next to a change line: the context before one, the marker after one. A bare context takes the text
of an earlier one away from the lines that follow, and must not do so.
-/

namespace AgentPlatform.Harness.FilesystemTools

/-- A change line with the text of a context. -/
abbrev Note := Option String × Sign × String

/-- The change lines, each with the text of the nearest `@@ ` line before it. -/
def noted : Option String → List ChangeItem → List Note
  | _, [] => []
  | _, .context (some text) :: items => noted (some text.val) items
  | last, .context none :: items => noted last items
  | last, .line sign text :: items => (last, sign, text.val) :: noted last items

/-- The texts of the `@@ ` lines. -/
def contextTexts : List ChangeItem → List String
  | [] => []
  | .context (some text) :: items => text.val :: contextTexts items
  | .context none :: items => contextTexts items
  | .line .. :: items => contextTexts items

def Note.isOld (note : Note) : Bool := note.2.1 != .added

def Note.isNew (note : Note) : Bool := note.2.1 != .removed

/-- The texts of the lines that a file had, or has, by the change lines. -/
def textsOf (side : Note → Bool) (notes : List Note) : List String :=
  (notes.filter side).map (·.2.2)

/-- A chunk is made of change lines, under the context of each of them. -/
structure InChunk (notes : List Note) (chunk : PatchChunk) : Prop where
  old : chunk.oldLines = textsOf Note.isOld notes
  new : chunk.newLines = textsOf Note.isNew notes
  context : ∀ note ∈ notes, note.1 = chunk.context

/-- The chunks keep what a change says: its lines in order, each in a chunk under its nearest
context, its contexts, and its end-of-file marker. -/
structure ChangeKept (items : List ChangeItem) (eofLine : Bool) (chunks : List PatchChunk) :
    Prop where
  lines : ∃ groups : List (List Note), groups.flatten = noted none items ∧
    List.Forall₂ InChunk groups chunks
  contexts : chunks.filterMap (·.context) = contextTexts items
  eof : eofLine = true → ∃ chunk, chunks.getLast? = some chunk ∧ chunk.endOfFile = true

/-- A hunk is that of a derivation. -/
def HunkRead : HunkTree → PatchHunk → Prop
  | .add filename first rest, .add path content =>
    path = filename.val ∧
      content = "\n".intercalate ((first :: rest).map (·.val)) ++ "\n"
  | .delete filename, .delete path => path = filename.val
  | .update filename move change, .update path movePath chunks =>
    path = filename.val ∧ movePath = move.map (·.val) ∧
      ChangeKept ((change.map Change.items).getD []) ((change.map (·.eofLine)).getD false) chunks
  | _, _ => False

/-- The text of a derivation is parsed, into the hunks of the derivation. -/
def ReadFaithfully (tree : PatchTree) : Prop :=
  ∃ patch, parsePatch tree.text = .ok patch ∧ List.Forall₂ HunkRead tree.hunks patch.hunks

/-! ## When nothing is lost -/

def startsWithLine : List ChangeItem → Bool
  | item :: _ => item.isLine
  | [] => false

/-- No context and no end-of-file marker is lost, and no bare context takes an earlier one from a
line; `seen` says whether there was an earlier one. -/
def Clean (eofLine : Bool) : Bool → List ChangeItem → Prop
  | _, [] => True
  | _, .context (some _) :: items => startsWithLine items = true ∧ Clean eofLine true items
  | seen, .context none :: items =>
    (items = [] → eofLine = false) ∧ (seen = true → startsWithLine items = false) ∧
      Clean eofLine seen items
  | seen, .line .. :: items => Clean eofLine seen items

def HunkTree.Clean : HunkTree → Prop
  | .update _ _ (some change) => FilesystemTools.Clean change.eofLine false change.items
  | _ => True

/-! ## Lines -/

variable {items : List ChangeItem} {eofLine : Bool} {current chunk : PatchChunk}
  {notes notes' : List Note} {chunks : List PatchChunk} {last context : Option String}

/-- The change lines, each with the context that the parser puts it under. -/
def placed : Option String → List ChangeItem → List Note
  | _, [] => []
  | _, .context text :: items => placed (text.map (·.val)) items
  | context, .line sign text :: items => (context, sign, text.val) :: placed context items

theorem isOld_eq (context : Option String) (sign : Sign) (text : String) :
    Note.isOld (context, sign, text) = (sign != .added) := rfl

theorem isNew_eq (context : Option String) (sign : Sign) (text : String) :
    Note.isNew (context, sign, text) = (sign != .removed) := rfl

theorem textsOf_append (side : Note → Bool) (notes notes' : List Note) :
    textsOf side (notes ++ notes') = textsOf side notes ++ textsOf side notes' := by
  unfold textsOf
  rw [List.filter_append, List.map_append]

theorem InChunk.addLine (h : InChunk notes current) (sign : Sign) (text : String) :
    InChunk (notes ++ [(current.context, sign, text)]) (addLine current sign text) := by
  have hsame : (FilesystemTools.addLine current sign text).context = current.context := by
    cases sign <;> rfl
  have hcontext' : ∀ note ∈ notes ++ [(current.context, sign, text)],
      note.1 = (FilesystemTools.addLine current sign text).context := by
    rw [hsame]
    intro note hnote
    rcases List.mem_append.mp hnote with hnote | hnote
    · exact h.context note hnote
    · rw [List.mem_singleton.mp hnote]
  -- each side gets the line or not, by the sign
  refine ⟨?_, ?_, hcontext'⟩
  · rw [textsOf_append, ← h.old]
    cases sign with
    | added => exact (List.append_nil _).symm
    | removed => rfl
    | kept => rfl
  · rw [textsOf_append, ← h.new]
    cases sign with
    | added => rfl
    | removed => exact (List.append_nil _).symm
    | kept => rfl

/-- A chunk without changes has no line. -/
theorem InChunk.eq_nil (h : InChunk notes current) (hnone : hasChanges current = false) :
    notes = [] := by
  cases notes with
  | nil => rfl
  | cons note notes =>
    have hchanges : hasChanges current = true := by
      unfold hasChanges
      rw [h.old, h.new]
      obtain ⟨context, sign, text⟩ := note
      cases sign <;> simp [textsOf, isOld_eq, isNew_eq]
    rw [hchanges] at hnone
    cases hnone

/-- A finished chunk, or nothing of one without changes. -/
theorem groups_pushChunk (h : InChunk notes current) :
    ∃ groups : List (List Note), groups.flatten = notes ∧
      List.Forall₂ InChunk groups (pushChunk [] current) := by
  unfold pushChunk
  by_cases hchanges : hasChanges current = true
  · rw [if_pos hchanges]
    exact ⟨[notes], by simp, .cons h .nil⟩
  · rw [if_neg hchanges]
    rw [h.eq_nil (by simpa using hchanges)]
    exact ⟨[], rfl, .nil⟩

theorem groups_chunksFrom (eofLine : Bool) (items : List ChangeItem)
    (h : InChunk notes current) :
    ∃ groups : List (List Note), groups.flatten = notes ++ placed current.context items ∧
      List.Forall₂ InChunk groups (chunksFrom eofLine current items) := by
  induction items generalizing notes current with
  | nil =>
    have hlast : InChunk notes { current with endOfFile := current.endOfFile || eofLine } :=
      ⟨h.old, h.new, h.context⟩
    rw [placed, List.append_nil]
    exact groups_pushChunk hlast
  | cons item items ih =>
    cases item with
    | line sign text =>
      obtain ⟨groups, hflatten, hgroups⟩ := ih (h.addLine sign text.val)
      refine ⟨groups, ?_, hgroups⟩
      have hsame : (addLine current sign text.val).context = current.context := by
        cases sign <;> rfl
      rw [hflatten, hsame, List.append_assoc]
      rfl
    | context text =>
      obtain ⟨before, hbefore, hpushed⟩ := groups_pushChunk h
      have hstart : InChunk [] (startChunk (text.map (·.val))) := ⟨rfl, rfl, by simp⟩
      obtain ⟨groups, hflatten, hgroups⟩ := ih hstart
      refine ⟨before ++ groups, ?_, List.rel_append hpushed hgroups⟩
      rw [List.flatten_append, hbefore, hflatten]
      rfl

/-- The lines of chunks, under the contexts of the chunks. -/
theorem forall₂_sides {groups : List (List Note)} (h : List.Forall₂ InChunk groups chunks) :
    (chunks.flatMap fun chunk => chunk.oldLines.map fun text => (chunk.context, text)) =
        (groups.flatten.filter Note.isOld).map (fun note => (note.1, note.2.2)) ∧
      (chunks.flatMap fun chunk => chunk.newLines.map fun text => (chunk.context, text)) =
        (groups.flatten.filter Note.isNew).map fun note => (note.1, note.2.2) := by
  induction h with
  | nil => exact ⟨rfl, rfl⟩
  | @cons notes chunk groups chunks hchunk _ ih =>
    have hside : ∀ side : Note → Bool,
        (textsOf side notes).map (fun text => (chunk.context, text)) =
          (notes.filter side).map fun note => (note.1, note.2.2) := by
      intro side
      unfold textsOf
      rw [List.map_map]
      apply List.map_congr_left
      intro note hnote
      rw [hchunk.context note (List.mem_filter.mp hnote).1]
      rfl
    rw [List.flatMap_cons, List.flatMap_cons, List.flatten_cons, List.filter_append,
      List.filter_append, List.map_append, List.map_append, ih.1, ih.2, hchunk.old, hchunk.new,
      hside, hside]
    exact ⟨rfl, rfl⟩

/-- Notes of the same lines that agree on the old lines and on the new ones agree. -/
theorem notes_eq (hlines : notes.map (·.2) = notes'.map (·.2))
    (hold : (notes.filter Note.isOld).map (fun note => (note.1, note.2.2)) =
      (notes'.filter Note.isOld).map fun note => (note.1, note.2.2))
    (hnew : (notes.filter Note.isNew).map (fun note => (note.1, note.2.2)) =
      (notes'.filter Note.isNew).map fun note => (note.1, note.2.2)) : notes = notes' := by
  induction notes generalizing notes' with
  | nil => simpa using hlines.symm
  | cons note notes ih =>
    cases notes' with
    | nil => cases hlines
    | cons note' notes' =>
      obtain ⟨context, sign, text⟩ := note
      obtain ⟨context', sign', text'⟩ := note'
      simp only [List.map_cons, List.cons.injEq, Prod.mk.injEq] at hlines
      obtain ⟨⟨rfl, rfl⟩, hlines⟩ := hlines
      cases sign with
      | added =>
        obtain ⟨hfirst, hnew⟩ := List.cons.inj hnew
        have hcontext : context = context' := (Prod.mk.inj hfirst).1
        rw [hcontext, ih hlines hold hnew]
      | removed =>
        obtain ⟨hfirst, hold⟩ := List.cons.inj hold
        have hcontext : context = context' := (Prod.mk.inj hfirst).1
        rw [hcontext, ih hlines hold hnew]
      | kept =>
        obtain ⟨hfirst, hold⟩ := List.cons.inj hold
        obtain ⟨_, hnew⟩ := List.cons.inj hnew
        have hcontext : context = context' := (Prod.mk.inj hfirst).1
        rw [hcontext, ih hlines hold hnew]

theorem noted_lines (last context : Option String) :
    (noted last items).map (·.2) = (placed context items).map (·.2) := by
  induction items generalizing last context with
  | nil => rfl
  | cons item items ih =>
    cases item with
    | line sign text =>
      rw [noted, placed, List.map_cons, List.map_cons, ih]
    | context text =>
      cases text with
      | none => exact ih last none
      | some text => exact ih (some text.val) (some text.val)

/-! ## Contexts and markers -/

/-- The texts of the `@@ ` lines that a change line follows. -/
def keptTexts : List ChangeItem → List String
  | [] => []
  | .context (some text) :: items =>
    (if startsWithLine items then [text.val] else []) ++ keptTexts items
  | .context none :: items => keptTexts items
  | .line .. :: items => keptTexts items

/-- Whether the last of the items is a change line, or what was said of none. -/
def endsWithLine : Bool → List ChangeItem → Bool
  | last, [] => last
  | _, item :: items => endsWithLine item.isLine items

/-- The contexts of the chunks: the current one if it has a line or gets one, and those that a line
follows. -/
theorem chunksFrom_contexts :
    (chunksFrom eofLine current items).filterMap (·.context) =
      (if hasChanges current || startsWithLine items then current.context.toList else []) ++
        keptTexts items := by
  have hpush : ∀ current : PatchChunk, (pushChunk [] current).filterMap (·.context) =
      if hasChanges current then current.context.toList else [] := by
    intro current
    unfold pushChunk
    by_cases hchanges : hasChanges current = true
    · rw [if_pos hchanges, if_pos hchanges]
      cases hcontext : current.context <;> simp [hcontext]
    · rw [if_neg hchanges, if_neg hchanges]
      rfl
  induction items generalizing current with
  | nil =>
    have hsame : hasChanges { current with endOfFile := current.endOfFile || eofLine } =
        hasChanges current := rfl
    rw [chunksFrom, hpush, hsame, keptTexts, List.append_nil, startsWithLine, Bool.or_false]
  | cons item items ih =>
    cases item with
    | line sign text =>
      have hcontext : (addLine current sign text.val).context = current.context := by
        cases sign <;> rfl
      rw [chunksFrom, ih, hasChanges_addLine, hcontext]
      simp [startsWithLine, ChangeItem.isLine, keptTexts]
    | context text =>
      have hnone : hasChanges (startChunk (text.map (·.val))) = false := rfl
      rw [chunksFrom, List.filterMap_append, hpush, ih, hnone]
      cases text with
      | none =>
        have hfirst : startsWithLine (.context none :: items) = false := rfl
        rw [hfirst, Bool.or_false, keptTexts]
        simp [startChunk]
      | some text =>
        have hfirst : startsWithLine (.context (some text) :: items) = false := rfl
        rw [hfirst, Bool.or_false, keptTexts]
        simp [startChunk]

theorem keptTexts_sublist (items : List ChangeItem) :
    (keptTexts items).Sublist (contextTexts items) := by
  induction items with
  | nil => exact .slnil
  | cons item items ih =>
    cases item with
    | line sign text => exact ih
    | context text =>
      cases text with
      | none => exact ih
      | some text =>
        unfold keptTexts contextTexts
        by_cases hline : startsWithLine items = true
        · rw [if_pos hline]
          exact ih.cons_cons _
        · rw [if_neg hline]
          exact ih.cons _

/-- The marker is on the last chunk if the last item is a line, and else on none. -/
theorem chunksFrom_eof (items : List ChangeItem) (hstart : current.endOfFile = false) :
    (endsWithLine (hasChanges current) items = true →
        ∃ chunk, (chunksFrom true current items).getLast? = some chunk ∧
          chunk.endOfFile = true) ∧
      (endsWithLine (hasChanges current) items = false →
        ∀ chunk ∈ chunksFrom true current items, chunk.endOfFile = false) := by
  induction items generalizing current with
  | nil =>
    have hsame : hasChanges { current with endOfFile := current.endOfFile || true } =
        hasChanges current := rfl
    unfold chunksFrom pushChunk endsWithLine
    rw [hsame]
    constructor
    · intro hchanges
      rw [if_pos hchanges]
      exact ⟨_, rfl, Bool.or_true _⟩
    · intro hnone
      rw [hnone, if_neg (by decide)]
      simp
  | cons item items ih =>
    cases item with
    | line sign text =>
      have hnext : (addLine current sign text.val).endOfFile = false := by
        cases sign <;> exact hstart
      have hrest := ih hnext
      rw [hasChanges_addLine] at hrest
      exact hrest
    | context text =>
      have hstarted : (startChunk (text.map (·.val))).endOfFile = false := rfl
      obtain ⟨hlast, hnone⟩ := ih hstarted
      unfold chunksFrom
      constructor
      · intro hline
        obtain ⟨chunk, hchunk, heof⟩ := hlast hline
        refine ⟨chunk, ?_, heof⟩
        rw [List.getLast?_append, hchunk]
        rfl
      · intro hline chunk hchunk
        rcases List.mem_append.mp hchunk with hchunk | hchunk
        · unfold pushChunk at hchunk
          split at hchunk
          · rw [List.nil_append, List.mem_singleton] at hchunk
            rw [hchunk]
            exact hstart
          · cases hchunk
        · exact hnone hline chunk hchunk

/-! ## The condition -/

theorem noted_eq_placed {seen : Bool} (clean : Clean eofLine seen items)
    (hseen : seen = last.isSome) (hagree : context = last ∨ startsWithLine items = false) :
    noted last items = placed context items := by
  induction items generalizing last context seen with
  | nil => rfl
  | cons item items ih =>
    cases item with
    | line sign text =>
      have hsame : context = last := hagree.resolve_right (by simp [startsWithLine, ChangeItem.isLine])
      rw [noted, placed, hsame, ih clean hseen (.inl rfl)]
    | context text =>
      cases text with
      | none =>
        obtain ⟨_, hreset, hrest⟩ := clean
        refine ih hrest hseen ?_
        cases last with
        | none => exact .inl rfl
        | some text => exact .inr (hreset hseen)
      | some text => exact ih clean.2 rfl (.inl rfl)

/-- A change without loss is clean: `seen` says of an earlier context what `last` does. -/
theorem clean_of_kept {seen : Bool} (hseen : seen = last.isSome)
    (hnoted : noted last items = placed context items)
    (hkept : keptTexts items = contextTexts items)
    (heof : eofLine = true → ∀ before, endsWithLine before items = true ∨ items = []) :
    Clean eofLine seen items := by
  induction items generalizing last context seen with
  | nil => trivial
  | cons item items ih =>
    have heofRest : eofLine = true → ∀ before, endsWithLine before items = true ∨ items = [] := by
      intro hmarker before
      cases items with
      | nil => exact .inr rfl
      | cons item' items => exact .inl ((heof hmarker before).resolve_right (List.cons_ne_nil _ _))
    cases item with
    | line sign text =>
      rw [noted, placed] at hnoted
      exact ih hseen (List.cons.inj hnoted).2 hkept heofRest
    | context text =>
      cases text with
      | none =>
        refine ⟨?_, ?_, ih hseen hnoted hkept heofRest⟩
        · intro hnil
          subst hnil
          cases hmarker : eofLine with
          | false => rfl
          | true => exact ((heof hmarker true).resolve_right (List.cons_ne_nil _ _)).symm
        · intro hbefore
          -- a line after the marker is placed under no context, but noted under the earlier one
          cases items with
          | nil => rfl
          | cons item' items =>
            cases item' with
            | context text => rfl
            | line sign text =>
              have hfirst := (Prod.mk.inj (List.cons.inj hnoted).1).1
              rw [hseen, hfirst] at hbefore
              cases hbefore
      | some text =>
        have hsublist := keptTexts_sublist items
        rw [keptTexts, contextTexts] at hkept
        by_cases hline : startsWithLine items = true
        · rw [if_pos hline] at hkept
          exact ⟨hline, ih rfl hnoted (List.cons.inj hkept).2 heofRest⟩
        · rw [if_neg hline, List.nil_append] at hkept
          have hlength := hsublist.length_le
          rw [hkept, List.length_cons] at hlength
          omega

theorem keptTexts_of_clean {seen : Bool} (clean : Clean eofLine seen items) :
    keptTexts items = contextTexts items := by
  induction items generalizing seen with
  | nil => rfl
  | cons item items ih =>
    cases item with
    | line sign text =>
      have hrest : Clean eofLine seen items := clean
      exact ih hrest
    | context text =>
      cases text with
      | none => exact ih clean.2.2
      | some text =>
        rw [keptTexts, contextTexts, if_pos clean.1, ih clean.2]
        rfl

theorem endsWithLine_of_clean {seen : Bool} (clean : Clean true seen items) (hne : items ≠ [])
    (before : Bool) : endsWithLine before items = true := by
  induction items generalizing seen before with
  | nil => exact absurd rfl hne
  | cons item items ih =>
    by_cases hnil : items = []
    · subst hnil
      cases item with
      | line sign text => rfl
      | context text =>
        cases text with
        | none => exact absurd (clean.1 rfl) (by decide)
        | some text => exact absurd clean.1 (by decide)
    · cases item with
      | line sign text =>
        have hrest : Clean true seen items := clean
        exact ih hrest hnil _
      | context text =>
        cases text with
        | none => exact ih clean.2.2 hnil _
        | some text => exact ih clean.2 hnil _

/-- The chunks of a change keep it exactly if it is clean. -/
theorem changeKept_iff (change : Change) :
    ChangeKept change.items change.eofLine change.parsed ↔
      Clean change.eofLine false change.items := by
  have hstart : InChunk [] (startChunk none) := ⟨rfl, rfl, by simp⟩
  have hstarted : (startChunk none).endOfFile = false := rfl
  obtain ⟨groups, hflatten, hgroups⟩ :=
    groups_chunksFrom change.eofLine change.items hstart
  have hcontexts : change.parsed.filterMap (·.context) = keptTexts change.items := by
    unfold Change.parsed
    rw [chunksFrom_contexts]
    simp [startChunk]
  constructor
  · rintro ⟨⟨groups', hflatten', hgroups'⟩, hkept, heof⟩
    -- the same chunks hold both groupings, so the contexts of the lines agree
    have hours := forall₂_sides hgroups
    have htheirs := forall₂_sides hgroups'
    rw [hflatten, List.nil_append] at hours
    rw [hflatten'] at htheirs
    have hnoted : noted none change.items = placed none change.items :=
      notes_eq (noted_lines none none) (htheirs.1.symm.trans hours.1)
        (htheirs.2.symm.trans hours.2)
    refine clean_of_kept rfl hnoted (hcontexts.symm.trans hkept) ?_
    intro hmarker before
    left
    obtain ⟨chunk, hlast, hchunk⟩ := heof hmarker
    have hnone := (chunksFrom_eof change.items hstarted).2
    cases hends : endsWithLine before change.items with
    | true => rfl
    | false =>
      have hall := hnone hends
      unfold Change.parsed at hlast
      rw [hmarker] at hlast
      rw [hall chunk (List.mem_of_getLast? hlast)] at hchunk
      cases hchunk
  · intro clean
    refine ⟨⟨groups, ?_, hgroups⟩, ?_, ?_⟩
    · have hnoted : noted none change.items = placed none change.items :=
        noted_eq_placed clean rfl (.inl rfl)
      rw [hflatten, hnoted]
      rfl
    · rw [hcontexts, keptTexts_of_clean clean]
    · intro hmarker
      rw [hmarker] at clean
      have hends := endsWithLine_of_clean clean (List.cons_ne_nil _ _) false
      have hlast := (chunksFrom_eof change.items hstarted).1 hends
      unfold Change.parsed
      rw [hmarker]
      exact hlast

theorem hunkRead_iff (hunk : HunkTree) : HunkRead hunk hunk.parsed ↔ hunk.Clean := by
  cases hunk with
  | add filename first rest => exact iff_of_true ⟨rfl, rfl⟩ trivial
  | delete filename => exact iff_of_true rfl trivial
  | update filename move change =>
    cases change with
    | none =>
      apply iff_of_true _ trivial
      refine ⟨rfl, rfl, ⟨⟨[], rfl, .nil⟩, rfl, ?_⟩⟩
      intro hmarker
      cases hmarker
    | some change =>
      rw [HunkTree.Clean, ← changeKept_iff]
      constructor
      · rintro ⟨_, _, kept⟩
        exact kept
      · intro kept
        exact ⟨rfl, rfl, kept⟩

/-- A plain text of the grammar is read faithfully exactly if each of its updates is clean. -/
theorem patches_read_faithfully {tree : PatchTree} (plain : tree.Plain) :
    ReadFaithfully tree ↔ ∀ hunk ∈ tree.hunks, hunk.Clean := by
  have hparsed := parsePatch_text plain
  have hall : List.Forall₂ HunkRead tree.hunks (tree.hunks.map HunkTree.parsed) ↔
      ∀ hunk ∈ tree.hunks, hunk.Clean := by
    rw [List.forall₂_map_right_iff, List.forall₂_same]
    exact forall₂_congr fun hunk _ => hunkRead_iff hunk
  rw [← hall]
  constructor
  · rintro ⟨patch, hpatch, hread⟩
    rw [hparsed] at hpatch
    cases hpatch
    exact hread
  · intro hread
    exact ⟨_, hparsed, hread⟩

/-- An update of `a` with a chunk for each of the texts, a line added under each context. -/
def nestedTree (contexts : List ChangeItem) : PatchTree where
  first := .update ⟨"a", by decide⟩ none (some
    { first := .context (some ⟨"f", by decide⟩)
      rest := contexts ++ [.line .added plainLine]
      eofLine := true })
  rest := []
  finalLf := true

theorem nestedTree_plain {contexts : List ChangeItem}
    (h : ∀ item ∈ contexts, ¬EndsInReturn item.text) : (nestedTree contexts).Plain := by
  constructor
  · intro hunk hhunk
    rw [List.mem_singleton.mp hhunk]
    refine ⟨by unfold PlainName; decide, ?_, .inr ⟨_, rfl, ?_⟩⟩
    · intro destination hdestination
      cases hdestination
    · simp [Change.items, ChangeItem.isLine]
  · intro line hline
    have hlines : (nestedTree contexts).body =
        ["*** Update File: a", "@@ f"] ++ contexts.map ChangeItem.text ++
          ["+x", "*** End of File"] := by
      simp [nestedTree, PatchTree.body, PatchTree.hunks, HunkTree.lines, Change.lines,
        Change.items, ChangeItem.text, Sign.text, plainLine]
    have hends : ∀ lines : List String,
        (lines.all fun line => line.toList.getLast? != some '\r') = true →
          ∀ line ∈ lines, ¬EndsInReturn line := by
      intro lines hall line hline
      simpa [EndsInReturn] using List.all_eq_true.mp hall line hline
    rw [hlines, List.mem_append, List.mem_append] at hline
    rcases hline with (hline | hline) | hline
    · exact hends _ (by decide) line hline
    · obtain ⟨item, hitem, rfl⟩ := List.mem_map.mp hline
      exact h item hitem
    · exact hends _ (by decide) line hline

theorem patches_read_faithfully_one : ReadFaithfully (nestedTree []) := by
  refine (patches_read_faithfully (nestedTree_plain ?_)).mpr ?_
  · intro item hitem
    cases hitem
  · intro hunk hhunk
    rw [List.mem_singleton.mp hhunk]
    exact ⟨rfl, trivial⟩

/-- Of two contexts in a row the first is lost. -/
theorem patches_read_faithfully_nested :
    ¬∀ tree : PatchTree, tree.Plain → ReadFaithfully tree := by
  intro h
  have plain : (nestedTree [.context (some ⟨"g", by decide⟩)]).Plain := by
    apply nestedTree_plain
    intro item hitem
    rw [List.mem_singleton.mp hitem]
    unfold EndsInReturn
    decide
  obtain ⟨patch, hpatch, hread⟩ := h _ plain
  rw [parsePatch_text plain] at hpatch
  cases hpatch
  obtain ⟨hfirst, _⟩ := List.forall₂_cons.mp hread
  have clean := (hunkRead_iff _).mp hfirst
  exact absurd clean.1 (by decide)

end AgentPlatform.Harness.FilesystemTools
