import AgentPlatform.Harness.FilesystemTools

/-!
# What chunks do to a file

`apply_chunks` finds a place for each chunk and then splices from the last to the first. This gives
the file with the matched ranges replaced as long as the ranges stand apart and in order. They need
not: the search is held back so that the lines it looks for still fit into the file, and can then
find them in what an earlier chunk matched.

**When they do** (`Fits`). A chunk whose lines no longer fit behind what was matched before it must
not match the last lines of the file.
-/

namespace AgentPlatform.Harness.FilesystemTools

variable {path source : String} {lines pattern : List String} {chunk : PatchChunk}
  {chunks : List PatchChunk} {cursor after start next : Nat} {eof : Bool} {r : Replacement}
  {rs : List Replacement}

/-! ## The search -/

/-- Whether a pattern stands at an index, by one of the comparisons. -/
def Stands (lines pattern : List String) (index : Nat) : Prop :=
  ∃ comparison ∈ comparisons, standsAt comparison lines pattern index = true

/-- Whether a pattern stands at the end of the lines. -/
def StandsAtEnd (lines pattern : List String) : Prop :=
  Stands lines pattern (lines.length - pattern.length)

theorem seek_nil : seek lines [] cursor eof = some (min cursor lines.length) := rfl

/-- What a search that finds its lines tells: they stand there, at or after the place it began at
unless that was held back. -/
theorem seek_found (hpattern : pattern ≠ []) (h : seek lines pattern cursor eof = some start) :
    start + pattern.length ≤ lines.length ∧ Stands lines pattern start ∧
      (start < cursor → start + pattern.length = lines.length) := by
  have hempty : pattern.isEmpty = false := by simpa using hpattern
  unfold seek at h
  rw [hempty] at h
  by_cases hlong : lines.length < pattern.length
  · simp [hlong] at h
  rw [if_neg (by decide), if_neg hlong] at h
  obtain ⟨comparison, hmem, hfind⟩ := List.exists_of_findSome?_eq_some h
  have hstands := List.find?_some hfind
  have hrange := List.mem_range'_1.mp (List.mem_of_find?_eq_some hfind)
  refine ⟨by omega, ⟨comparison, hmem, hstands⟩, ?_⟩
  intro hbefore
  by_cases hend : eof = true
  · rw [if_pos hend] at hrange
    omega
  · rw [if_neg hend] at hrange
    omega

theorem seek_le (h : seek lines pattern cursor eof = some start) :
    start + pattern.length ≤ lines.length := by
  by_cases hpattern : pattern = []
  · subst hpattern
    rw [seek_nil] at h
    cases h
    simp
  · exact (seek_found hpattern h).1

/-- The lines are found behind a place if and only if they do not stand at the end of the file
without room behind that place. -/
theorem seek_behind (hafter : after ≤ cursor) (hcursor : cursor ≤ lines.length)
    (h : seek lines pattern cursor eof = some start) :
    after ≤ start ↔ (StandsAtEnd lines pattern → after + pattern.length ≤ lines.length) := by
  by_cases hpattern : pattern = []
  · subst hpattern
    rw [seek_nil] at h
    cases h
    constructor
    · intro _ _
      exact le_trans hafter hcursor
    · intro _
      exact le_min hafter (le_trans hafter hcursor)
  · obtain ⟨hfits, hstands, hheld⟩ := seek_found hpattern h
    constructor
    · intro hbehind _
      omega
    · intro hroom
      by_cases hbefore : start < cursor
      · have hstart := hheld hbefore
        have hend : StandsAtEnd lines pattern := by
          unfold StandsAtEnd
          rwa [show lines.length - pattern.length = start by omega]
        have := hroom hend
        omega
      · omega

/-- The line of a context is found at the search's start or later, or is the last of the file. -/
theorem seekContext_found {contextLine : Option Nat} (hcursor : cursor ≤ lines.length)
    (h : seekContext path lines chunk cursor = .ok (contextLine, next)) :
    cursor ≤ next ∧ next ≤ lines.length ∧ ∀ line ∈ contextLine, next = line + 1 := by
  unfold seekContext at h
  split at h
  · cases h
    exact ⟨le_rfl, hcursor, by simp⟩
  · split at h
    next index hseek =>
      cases h
      obtain ⟨hfits, _, hheld⟩ := seek_found (List.cons_ne_nil _ _) hseek
      rw [List.length_singleton] at hfits hheld
      refine ⟨?_, hfits, ?_⟩
      · by_cases hbefore : index < cursor
        · have := hheld hbefore
          omega
        · omega
      · intro line hline
        cases hline
        rfl
    · cases h

/-! ## The place of a chunk -/

/-- A replacement replaces the lines that a chunk matches: all its old lines, or all but an empty
last one. -/
structure Matched (lines : List String) (chunk : PatchChunk) (r : Replacement) : Prop where
  old : r.oldLines = chunk.oldLines ∨
    chunk.oldLines.getLast? = some "" ∧ r.oldLines = chunk.oldLines.dropLast
  stands : r.oldLines = [] ∨ Stands lines r.oldLines r.start
  within : r.start + r.oldLines.length ≤ lines.length
  /-- Added lines without old ones go to the end. -/
  insertion : chunk.oldLines = [] → r.start = lines.length

/-- What the round of a chunk with old lines found. -/
structure Found (lines : List String) (chunk : PatchChunk) (cursor : Nat) (r : Replacement)
    (next : Nat) : Prop where
  searched : ∃ origin, cursor ≤ origin ∧ origin ≤ lines.length ∧
    (∀ line ∈ r.contextLine, origin = line + 1) ∧
    seek lines r.oldLines origin chunk.endOfFile = some r.start
  next_eq : next = r.start + r.oldLines.length

theorem placeChunk_insertion (hcursor : cursor ≤ lines.length) (hold : chunk.oldLines = [])
    (h : placeChunk path lines cursor chunk = .ok (r, next)) :
    cursor ≤ next ∧ next ≤ lines.length ∧ Matched lines chunk r ∧ r.newLines = chunk.newLines := by
  unfold placeChunk at h
  split at h
  · cases h
  next contextLine origin hcontext =>
    obtain ⟨hle, hwithin, _⟩ := seekContext_found hcursor hcontext
    rw [if_pos (by rw [hold]; rfl)] at h
    cases h
    exact ⟨hle, hwithin, ⟨.inl hold.symm, .inl rfl, le_rfl, fun _ => rfl⟩, rfl⟩

theorem placeChunk_found (hcursor : cursor ≤ lines.length) (hold : chunk.oldLines ≠ [])
    (h : placeChunk path lines cursor chunk = .ok (r, next)) :
    Found lines chunk cursor r next ∧ Matched lines chunk r ∧
      (r.oldLines = chunk.oldLines ∧ r.newLines = chunk.newLines ∨
        r.oldLines ≠ chunk.oldLines ∧ r.newLines = dropEmptyLast chunk.newLines) := by
  unfold placeChunk at h
  split at h
  · cases h
  next contextLine origin hcontext =>
    obtain ⟨hle, hwithin, hline⟩ := seekContext_found hcursor hcontext
    rw [if_neg (by simpa using hold)] at h
    have stands_of {p : List String} {s : Nat} (hseek : seek lines p origin chunk.endOfFile = some s) :
        p = [] ∨ Stands lines p s := by
      by_cases hp : p = []
      · exact .inl hp
      · exact .inr (seek_found hp hseek).2.1
    unfold seekOld at h
    cases hwhole : seek lines chunk.oldLines origin chunk.endOfFile with
    | some s =>
      rw [hwhole] at h
      cases h
      exact ⟨⟨⟨origin, hle, hwithin, hline, hwhole⟩, rfl⟩,
        ⟨.inl rfl, stands_of hwhole, seek_le hwhole, fun hnil => absurd hnil hold⟩,
        .inl ⟨rfl, rfl⟩⟩
    | none =>
      rw [hwhole] at h
      dsimp only at h
      by_cases hlast : chunk.oldLines.getLast? = some ""
      · rw [if_pos hlast] at h
        cases hless : seek lines chunk.oldLines.dropLast origin chunk.endOfFile with
        | none =>
          rw [hless] at h
          cases h
        | some s =>
          rw [hless] at h
          cases h
          have hne : chunk.oldLines.dropLast ≠ chunk.oldLines := by
            intro heq
            have := congrArg List.length heq
            have := List.length_pos_of_ne_nil hold
            rw [List.length_dropLast] at *
            omega
          exact ⟨⟨⟨origin, hle, hwithin, hline, hless⟩, rfl⟩,
            ⟨.inr ⟨hlast, rfl⟩, stands_of hless, seek_le hless,
              fun hnil => absurd hnil hold⟩, .inr ⟨hne, rfl⟩⟩
      · rw [if_neg hlast] at h
        cases h

/-! ## Ranges that stand apart -/

/-- Where a chunk's range may begin: behind a place, and behind the line of the chunk's context. -/
def Replacement.behind (r : Replacement) (after : Nat) : Nat :=
  max after ((r.contextLine.map (· + 1)).getD 0)

/-- The ranges that chunks with old lines matched stand in order and apart, each behind the line of
its own context. -/
def Apart : Nat → List (PatchChunk × Replacement) → Prop
  | _, [] => True
  | after, (chunk, r) :: rest =>
    if chunk.oldLines = [] then Apart after rest
    else r.behind after ≤ r.start ∧ Apart (r.start + r.oldLines.length) rest

/-- When chunks find places that stand apart, and lose no line on the way. The lines of a chunk
that do not fit behind what the chunk before it matched, and behind its context, must not stand at
the end of the file; and where the last old line is left out, the last new one must not be empty. -/
def Fits (path : String) (lines : List String) : Nat → Nat → List PatchChunk → Prop
  | _, _, [] => True
  | cursor, after, chunk :: chunks =>
    ∀ r next, placeChunk path lines cursor chunk = .ok (r, next) →
      if chunk.oldLines = [] then Fits path lines next after chunks
      else
        (StandsAtEnd lines r.oldLines →
          r.behind after + r.oldLines.length ≤ lines.length) ∧
        (r.oldLines ≠ chunk.oldLines → chunk.newLines.getLast? ≠ some "") ∧
        Fits path lines next next chunks

theorem dropEmptyLast_eq_self : dropEmptyLast lines = lines ↔ lines.getLast? ≠ some "" := by
  unfold dropEmptyLast
  by_cases hlast : lines.getLast? = some ""
  · rw [if_pos hlast]
    constructor
    · intro heq _
      have hlength := congrArg List.length heq
      rw [List.length_dropLast] at hlength
      have : lines ≠ [] := by
        intro hnil
        rw [hnil] at hlast
        cases hlast
      have := List.length_pos_of_ne_nil this
      omega
    · intro hne
      exact absurd hlast hne
  · rw [if_neg hlast]
    exact ⟨fun _ => hlast, fun _ => rfl⟩

theorem placeChunks_cons (h : placeChunks path lines cursor (chunk :: chunks) = .ok rs) :
    ∃ r next rest, placeChunk path lines cursor chunk = .ok (r, next) ∧
      placeChunks path lines next chunks = .ok rest ∧ rs = r :: rest := by
  unfold placeChunks at h
  split at h
  · cases h
  next r next hplace =>
    split at h
    · cases h
    next rest hrest =>
      cases h
      exact ⟨r, next, rest, hplace, hrest, rfl⟩

theorem placeChunks_matched (hcursor : cursor ≤ lines.length)
    (h : placeChunks path lines cursor chunks = .ok rs) :
    List.Forall₂ (Matched lines) chunks rs := by
  induction chunks generalizing cursor rs with
  | nil =>
    cases h
    exact .nil
  | cons chunk chunks ih =>
    obtain ⟨r, next, rest, hplace, hrest, rfl⟩ := placeChunks_cons h
    by_cases hold : chunk.oldLines = []
    · obtain ⟨_, hnext, hmatched, _⟩ := placeChunk_insertion hcursor hold hplace
      exact .cons hmatched (ih hnext hrest)
    · obtain ⟨hfound, hmatched, _⟩ := placeChunk_found hcursor hold hplace
      exact .cons hmatched (ih (hfound.next_eq ▸ hmatched.within) hrest)

/-- The condition says of chunks that find their places what it is for. -/
theorem fits_iff (hcursor : cursor ≤ lines.length) (hafter : after ≤ cursor)
    (h : placeChunks path lines cursor chunks = .ok rs) :
    Fits path lines cursor after chunks ↔
      Apart after (chunks.zip rs) ∧ ∀ p ∈ chunks.zip rs, p.2.newLines = p.1.newLines := by
  induction chunks generalizing cursor after rs with
  | nil =>
    cases h
    simp [Fits, Apart]
  | cons chunk chunks ih =>
    obtain ⟨r, next, rest, hplace, hrest, rfl⟩ := placeChunks_cons h
    have honly : ∀ {P : Replacement → Nat → Prop},
        (∀ r next, placeChunk path lines cursor chunk = .ok (r, next) → P r next) ↔ P r next := by
      intro P
      constructor
      · intro hall
        exact hall r next hplace
      · intro hp r' next' hplace'
        rw [hplace] at hplace'
        cases hplace'
        exact hp
    unfold Fits
    rw [honly, List.zip_cons_cons, List.forall_mem_cons]
    unfold Apart
    by_cases hold : chunk.oldLines = []
    · obtain ⟨hle, hnext, _, hnew⟩ := placeChunk_insertion hcursor hold hplace
      rw [if_pos hold, if_pos hold, ih hnext (le_trans hafter hle) hrest]
      simp only [hnew, true_and]
    · obtain ⟨⟨⟨origin, hle, hwithin, hline, hseek⟩, hnext⟩, hmatched, hnew⟩ :=
        placeChunk_found hcursor hold hplace
      have hbehind : r.behind after ≤ origin := by
        unfold Replacement.behind
        cases hcontext : r.contextLine with
        | none => simpa using le_trans hafter hle
        | some line =>
          have horigin := hline line hcontext
          exact max_le (le_trans hafter hle) (le_of_eq horigin.symm)
      have hkept : r.newLines = chunk.newLines ↔
          (r.oldLines ≠ chunk.oldLines → chunk.newLines.getLast? ≠ some "") := by
        rcases hnew with ⟨holds, hnew⟩ | ⟨hless, hnew⟩
        · simp [holds, hnew]
        · rw [hnew, dropEmptyLast_eq_self]
          exact ⟨fun hlast _ => hlast, fun hlast => hlast hless⟩
      subst hnext
      rw [if_neg hold, if_neg hold, ← seek_behind hbehind hwithin hseek, ← hkept,
        ih hmatched.within le_rfl hrest]
      constructor
      · rintro ⟨hroom, hwhole, hrest, hall⟩
        exact ⟨⟨hroom, hrest⟩, hwhole, hall⟩
      · rintro ⟨⟨hroom, hrest⟩, hwhole, hall⟩
        exact ⟨hroom, hwhole, hrest, hall⟩

/-! ## The text -/

/-- Lines as a text, each ended by one newline. -/
def endLines (lines : List String) : String := String.join (lines.map (· ++ "\n"))

/-- The lines with the ranges of edits replaced. What an edit puts at the end is appended, in the
order of the edits. -/
def patchedLines (lines : List String) (edits : List (Splice.Edit String)) : List String :=
  Splice.replaceFrom lines 0 (edits.filter (·.before lines.length)) ++
    (edits.filter (!·.before lines.length)).flatMap (·.inserted)

/-- What a chunk means: its new lines in place of the range that it matched. -/
def meantEdit (p : PatchChunk × Replacement) : Splice.Edit String :=
  ⟨p.2.start, p.2.oldLines.length, p.1.newLines⟩

theorem joinLines_eq (lines : List String) : joinLines lines = endLines lines := by
  unfold joinLines endLines
  induction lines with
  | nil => simp
  | cons line lines ih =>
    rw [List.cons_append, String.intercalate_cons_of_ne_nil (by simp), ih]
    simp

theorem length_endLines (lines : List String) :
    (endLines lines).length = Splice.weight (·.length + 1) lines := by
  unfold endLines Splice.weight
  induction lines with
  | nil => rfl
  | cons line lines ih =>
    simp only [List.map_cons, String.join_cons, String.length_append, ih, List.sum_cons]
    rfl

theorem Matched.before_or_end (h : Matched lines chunk r) :
    r.edit.before lines.length = true ∨ r.edit.IsAt lines.length := by
  have hwithin : r.edit.start + r.edit.length ≤ lines.length := h.within
  by_cases hbefore : r.edit.start < lines.length
  · exact .inl (by simpa [Splice.Edit.before] using hbefore)
  · exact .inr ⟨by omega, by omega⟩

theorem inOrder_of_apart (hmatched : List.Forall₂ (Matched lines) chunks rs)
    (hapart : Apart after (chunks.zip rs)) (hafter : after ≤ lines.length) :
    Splice.InOrder lines.length after
      ((rs.map Replacement.edit).filter (·.before lines.length)) := by
  induction hmatched generalizing after with
  | nil => exact hafter
  | @cons chunk r chunks rs hr hrest ih =>
    rw [List.zip_cons_cons] at hapart
    unfold Apart at hapart
    rw [List.map_cons]
    by_cases hold : chunk.oldLines = []
    · have hend : r.edit.before lines.length = false := by
        simp [Splice.Edit.before, Replacement.edit, hr.insertion hold]
      rw [List.filter_cons_of_neg (by simp [hend])]
      rw [if_pos hold] at hapart
      exact ih hapart hafter
    · rw [if_neg hold] at hapart
      obtain ⟨hbehind, hapart⟩ := hapart
      have hstart : after ≤ r.start := le_trans (le_max_left _ _) hbehind
      have hfinish := ih hapart hr.within
      by_cases hbefore : r.edit.before lines.length = true
      · rw [List.filter_cons_of_pos hbefore]
        exact ⟨hstart, hfinish⟩
      · rw [List.filter_cons_of_neg hbefore]
        exact hfinish.mono (le_trans hstart (Nat.le_add_right _ _))

theorem matched_of_mem (h : List.Forall₂ (Matched lines) chunks rs) :
    ∀ r ∈ rs, ∃ chunk, Matched lines chunk r := by
  induction h with
  | nil => simp
  | @cons chunk r chunks rs hr _ ih =>
    intro r' hmem
    rcases List.mem_cons.mp hmem with rfl | hmem
    · exact ⟨chunk, hr⟩
    · exact ih r' hmem

/-- Places that stand apart give the lines with the ranges replaced. -/
theorem applyChunks_apart (hplaces : placeChunks path (sourceLines source) 0 chunks = .ok rs)
    (hapart : Apart 0 (chunks.zip rs)) :
    applyChunks path source chunks =
      some (.ok (endLines (patchedLines (sourceLines source) (rs.map Replacement.edit)))) := by
  have hmatched := placeChunks_matched (Nat.zero_le _) hplaces
  have horder := inOrder_of_apart hmatched hapart (Nat.zero_le _)
  have hends : ∀ e ∈ rs.map Replacement.edit,
      e.before (sourceLines source).length = true ∨ e.IsAt (sourceLines source).length := by
    intro e he
    obtain ⟨r, hr, rfl⟩ := List.mem_map.mp he
    obtain ⟨chunk, hchunk⟩ := matched_of_mem hmatched r hr
    exact hchunk.before_or_end
  unfold applyChunks
  simp only [hplaces]
  rw [Splice.spliceBackwards_inOrder horder hends, Option.map_some, Function.comp_apply,
    joinLines_eq]
  rfl

/-! ## Lines that are left out -/

theorem weight_dropEmptyLast (lines : List String) :
    Splice.weight (·.length + 1) (dropEmptyLast lines) ≤ Splice.weight (·.length + 1) lines ∧
      (Splice.weight (·.length + 1) (dropEmptyLast lines) =
        Splice.weight (·.length + 1) lines → dropEmptyLast lines = lines) := by
  by_cases hlast : lines.getLast? = some ""
  · obtain ⟨front, rfl⟩ := List.getLast?_eq_some_iff.mp hlast
    have hdrop : dropEmptyLast (front ++ [""]) = front := by
      unfold dropEmptyLast
      rw [if_pos hlast, List.dropLast_concat]
    have hone : Splice.weight (·.length + 1) [""] = 1 := rfl
    rw [hdrop, Splice.weight_append, hone]
    refine ⟨Nat.le_add_right _ _, ?_⟩
    intro heq
    omega
  · rw [dropEmptyLast_eq_self.mpr hlast]
    exact ⟨le_rfl, fun _ => rfl⟩

/-- The lines that replacements put in, against those that the chunks have. -/
theorem weight_newLines {pairs : List (PatchChunk × Replacement)}
    (hnew : ∀ p ∈ pairs, p.2.newLines = p.1.newLines ∨ p.2.newLines = dropEmptyLast p.1.newLines) :
    (pairs.map fun p => Splice.weight (·.length + 1) p.2.newLines).sum ≤
        (pairs.map fun p => Splice.weight (·.length + 1) p.1.newLines).sum ∧
      ((pairs.map fun p => Splice.weight (·.length + 1) p.2.newLines).sum =
          (pairs.map fun p => Splice.weight (·.length + 1) p.1.newLines).sum →
        ∀ p ∈ pairs, p.2.newLines = p.1.newLines) := by
  induction pairs with
  | nil => simp
  | cons p pairs ih =>
    obtain ⟨hle, heq⟩ := ih fun p' hp' => hnew p' (List.mem_cons_of_mem _ hp')
    have hfirst : Splice.weight (·.length + 1) p.2.newLines ≤
          Splice.weight (·.length + 1) p.1.newLines ∧
        (Splice.weight (·.length + 1) p.2.newLines = Splice.weight (·.length + 1) p.1.newLines →
          p.2.newLines = p.1.newLines) := by
      rcases hnew p List.mem_cons_self with hsame | hless
      · exact ⟨le_of_eq (by rw [hsame]), fun _ => hsame⟩
      · rw [hless]
        exact weight_dropEmptyLast p.1.newLines
    simp only [List.map_cons, List.sum_cons, List.forall_mem_cons]
    refine ⟨Nat.add_le_add hfirst.1 hle, ?_⟩
    intro hsum
    exact ⟨hfirst.2 (by omega), heq (by omega)⟩

theorem placeChunks_newLines (hcursor : cursor ≤ lines.length)
    (h : placeChunks path lines cursor chunks = .ok rs) :
    ∀ p ∈ chunks.zip rs, p.2.newLines = p.1.newLines ∨ p.2.newLines = dropEmptyLast p.1.newLines := by
  induction chunks generalizing cursor rs with
  | nil => simp
  | cons chunk chunks ih =>
    obtain ⟨r, next, rest, hplace, hrest, rfl⟩ := placeChunks_cons h
    rw [List.zip_cons_cons, List.forall_mem_cons]
    by_cases hold : chunk.oldLines = []
    · obtain ⟨_, hnext, _, hnew⟩ := placeChunk_insertion hcursor hold hplace
      exact ⟨.inl hnew, ih hnext hrest⟩
    · obtain ⟨hfound, hmatched, hnew⟩ := placeChunk_found hcursor hold hplace
      refine ⟨?_, ih (hfound.next_eq ▸ hmatched.within) hrest⟩
      rcases hnew with ⟨_, hsame⟩ | ⟨_, hless⟩
      · exact .inl hsame
      · exact .inr hless

/-- What patched lines weigh: what is left of the file, and what is put in. -/
theorem weight_patchedLines (edits : List (Splice.Edit String)) :
    Splice.weight (·.length + 1) (patchedLines lines edits) =
      Splice.weight (·.length + 1) (Splice.replaceFrom lines 0
          ((edits.map Splice.Edit.erase).filter (·.before lines.length))) +
        (edits.map fun e => Splice.weight (·.length + 1) e.inserted).sum := by
  have hsplit : ∀ edits : List (Splice.Edit String),
      (edits.map fun e => Splice.weight (·.length + 1) e.inserted).sum =
        ((edits.filter (·.before lines.length)).map
            fun e => Splice.weight (·.length + 1) e.inserted).sum +
          ((edits.filter (!·.before lines.length)).map
            fun e => Splice.weight (·.length + 1) e.inserted).sum := by
    intro edits
    induction edits with
    | nil => rfl
    | cons e edits ih =>
      by_cases hbefore : e.before lines.length = true
      · simp [hbefore, ih, Nat.add_assoc]
      · simp [hbefore, ih, Nat.add_left_comm]
  have herase : (edits.map Splice.Edit.erase).filter (·.before lines.length) =
      (edits.filter (·.before lines.length)).map Splice.Edit.erase := by
    rw [List.filter_map]
    rfl
  unfold patchedLines
  rw [Splice.weight_append, Splice.weight_replaceFrom, Splice.weight_flatMap, hsplit edits, herase,
    Nat.add_assoc]

/-- The text that the chunks mean is the text that their replacements give exactly if no chunk
loses a line. -/
theorem endLines_eq_iff (lines : List String) (hlength : chunks.length = rs.length)
    (hnew : ∀ p ∈ chunks.zip rs,
      p.2.newLines = p.1.newLines ∨ p.2.newLines = dropEmptyLast p.1.newLines) :
    endLines (patchedLines lines (rs.map Replacement.edit)) =
        endLines (patchedLines lines ((chunks.zip rs).map meantEdit)) ↔
      ∀ p ∈ chunks.zip rs, p.2.newLines = p.1.newLines := by
  have hrs : rs.map Replacement.edit = (chunks.zip rs).map fun p => p.2.edit := by
    have hsnd : (chunks.zip rs).map Prod.snd = rs := List.map_snd_zip (by omega)
    calc rs.map Replacement.edit
        = ((chunks.zip rs).map Prod.snd).map Replacement.edit := by rw [hsnd]
      _ = (chunks.zip rs).map fun p => p.2.edit := List.map_map
  rw [hrs]
  constructor
  · intro heq
    have hweight := congrArg String.length heq
    rw [length_endLines, length_endLines, weight_patchedLines, weight_patchedLines] at hweight
    have herase : ((chunks.zip rs).map fun p => p.2.edit).map Splice.Edit.erase =
        ((chunks.zip rs).map meantEdit).map Splice.Edit.erase := by
      rw [List.map_map, List.map_map]
      rfl
    rw [herase] at hweight
    have hsum := Nat.add_left_cancel hweight
    rw [List.map_map, List.map_map] at hsum
    exact (weight_newLines hnew).2 hsum
  · intro hall
    congr 2
    apply List.map_congr_left
    intro p hp
    unfold Replacement.edit meantEdit
    rw [hall p hp]

/-! ## The result -/

/-- Chunks replaced what they matched and nothing else. -/
structure Patched (lines : List String) (chunks : List PatchChunk) (rs : List Replacement)
    (text : String) : Prop where
  matched : List.Forall₂ (Matched lines) chunks rs
  apart : Apart 0 (chunks.zip rs)
  text_eq : text = endLines (patchedLines lines ((chunks.zip rs).map meantEdit))

/-- Applying chunks does not panic, and where it succeeds the file has the chunks' new lines in
place of the ranges that they matched. -/
def ReplacesMatches (path source : String) (chunks : List PatchChunk) : Prop :=
  applyChunks path source chunks ≠ none ∧
    ∀ text, applyChunks path source chunks = some (.ok text) →
      ∃ rs, placeChunks path (sourceLines source) 0 chunks = .ok rs ∧
        Patched (sourceLines source) chunks rs text

/-- Chunks replace what they match and nothing else, without a panic, exactly if one of them is
refused or they fit. -/
theorem chunks_replace_matches (path source : String) (chunks : List PatchChunk) :
    ReplacesMatches path source chunks ↔
      (∃ failure, placeChunks path (sourceLines source) 0 chunks = .error failure) ∨
        Fits path (sourceLines source) 0 0 chunks := by
  unfold ReplacesMatches
  cases hplaces : placeChunks path (sourceLines source) 0 chunks with
  | error failure =>
    have hrefused : applyChunks path source chunks = some (.error failure) := by
      unfold applyChunks
      simp only [hplaces]
    rw [hrefused]
    constructor
    · intro _
      exact .inl ⟨failure, rfl⟩
    · intro _
      refine ⟨by simp, ?_⟩
      intro text htext
      cases htext
  | ok rs =>
    have hmatched := placeChunks_matched (Nat.zero_le _) hplaces
    have hnew := placeChunks_newLines (Nat.zero_le _) hplaces
    have hfits := fits_iff (Nat.zero_le _) le_rfl hplaces
    have htext := endLines_eq_iff (sourceLines source) hmatched.length_eq hnew
    constructor
    · rintro ⟨hpanic, hpatched⟩
      right
      -- a result that is no error is a text, and the text is the one that was meant
      cases hresult : applyChunks path source chunks with
      | none => exact absurd hresult hpanic
      | some result =>
        cases result with
        | error failure =>
          unfold applyChunks at hresult
          simp only [hplaces] at hresult
          cases hsplice : Splice.spliceBackwards (rs.map Replacement.edit) (sourceLines source) with
          | none =>
            rw [hsplice] at hresult
            cases hresult
          | some lines =>
            rw [hsplice] at hresult
            cases hresult
        | ok text =>
          obtain ⟨_, hrs, patched⟩ := hpatched text hresult
          cases hrs
          rw [applyChunks_apart hplaces patched.apart] at hresult
          cases hresult
          exact hfits.mpr ⟨patched.apart, htext.mp patched.text_eq⟩
    · intro hor
      rcases hor with ⟨failure, hfailure⟩ | hfit
      · cases hfailure
      · obtain ⟨hapart, hall⟩ := hfits.mp hfit
        rw [applyChunks_apart hplaces hapart]
        refine ⟨by simp, ?_⟩
        intro text hresult
        cases hresult
        exact ⟨rs, rfl, hmatched, hapart, htext.mpr hall⟩

/-- The lines `b`, `c` at the end of a file, and then again its last line `c`. -/
def overlapping : List PatchChunk :=
  [{ context := none, oldLines := ["b", "c"], newLines := [], endOfFile := false },
    { context := none, oldLines := ["c"], newLines := [], endOfFile := false }]

/-- The second chunk matches a line that the first one matched already, and the splice of the first
range is out of bounds once the second one is gone. -/
theorem chunks_replace_matches_overlapping :
    ¬∀ path source chunks, ReplacesMatches path source chunks := by
  intro h
  have hpanic : applyChunks "file" "a\nb\nc\n" overlapping = none := by decide
  exact (h "file" "a\nb\nc\n" overlapping).1 hpanic

end AgentPlatform.Harness.FilesystemTools
