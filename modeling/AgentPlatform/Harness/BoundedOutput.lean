import AgentPlatform.Harness.LossyText

/-!
# The output that a shell tool keeps

`OutputAccumulator` of `shell_tools.rs`: the beginning and the end of a command's output, each within
24 KiB, and the text that the model gets of them, within its budget of tokens. A text is a stream of
characters that have their bytes as sizes, so what is kept is what `Ends` keeps of the decoded chunks.
-/

namespace AgentPlatform.Harness

open Ends (weight firstWithin restBeyond lastWithin)

/-! ## Cuts -/

theorem floorPrefix_eq (n : Nat) (text : List Char) :
    floorPrefix n text = firstWithin Char.utf8Size n text := by
  induction text generalizing n with
  | nil => rfl
  | cons c text ih => rw [floorPrefix, firstWithin, ih]

theorem floorSuffix_eq (n : Nat) (text : List Char) :
    floorSuffix n text = restBeyond Char.utf8Size n text := by
  induction text generalizing n with
  | nil => rfl
  | cons c text ih => rw [floorSuffix, restBeyond, ih]

theorem byteLength_eq (text : List Char) : byteLength text = weight Char.utf8Size text := rfl

/-- A cut that leaves a number of bytes leaves the longest end within them. -/
theorem ceilSuffix_eq (n : Nat) (text : List Char) :
    ceilSuffix (byteLength text - n) text = lastWithin Char.utf8Size n text := by
  induction text with
  | nil => rfl
  | cons c text ih =>
    rw [lastWithin, byteLength_eq]
    split
    next hfits => rw [Nat.sub_eq_zero_of_le hfits, ceilSuffix]; exact List.cons_ne_nil c text
    next hbig =>
      obtain ⟨k, hk⟩ : ∃ k, weight Char.utf8Size (c :: text) - n = k + 1 :=
        Nat.exists_eq_succ_of_ne_zero (by omega)
      have hrest : k + 1 - c.utf8Size = byteLength text - n := by
        rw [← hk, Ends.weight_cons, byteLength_eq]
        omega
      rw [hk, ceilSuffix, hrest, ih]

namespace OutputAccumulator

/-! ## What is kept -/

/-- What an accumulator that was empty keeps of several chunks. -/
def accumulate (chunks : List (List UInt8)) : OutputAccumulator := chunks.foldl append empty

/-- The text that several chunks hold, each decoded by itself. -/
def decoded (chunks : List (List UInt8)) : List Char := (chunks.map fromUtf8Lossy).flatten

/-- An accumulator that keeps these ends, of this many bytes. The counters saturate. -/
structure Keeps (output : OutputAccumulator) (e : Ends Char) (bytes : Nat) : Prop where
  head : output.head.toList = e.head
  tail : output.tail.toList = e.tail
  headBound : weight Char.utf8Size e.head ≤ accumulatorHalfBytes
  tailBound : weight Char.utf8Size e.tail ≤ accumulatorHalfBytes
  omitted : output.omittedBytes = min e.omitted (2 ^ 64 - 1)
  total : output.totalBytes = min bytes (2 ^ 64 - 1)

theorem keeps_empty : Keeps empty Ends.empty 0 :=
  ⟨rfl, rfl, Nat.zero_le _, Nat.zero_le _, rfl, rfl⟩

theorem saturatingAdd_min (a b : Nat) :
    saturatingAdd (min a (2 ^ 64 - 1)) b = min (a + b) (2 ^ 64 - 1) := by
  unfold saturatingAdd
  omega

/-- A piece of an exhausted beginning goes to the end. -/
theorem restBeyond_zero (text : List Char) : restBeyond Char.utf8Size 0 text = text := by
  cases text with
  | nil => rfl
  | cons c text =>
    have hpos := c.utf8Size_pos
    rw [restBeyond, if_neg (by omega)]

theorem firstWithin_zero (text : List Char) : firstWithin Char.utf8Size 0 text = [] := by
  cases text with
  | nil => rfl
  | cons c text =>
    have hpos := c.utf8Size_pos
    rw [firstWithin, if_neg (by omega)]

theorem append_keeps {output : OutputAccumulator} {e : Ends Char} {n : Nat} (h : Keeps output e n)
    (bytes : List UInt8) : Keeps (output.append bytes)
      (e.feed Char.utf8Size accumulatorHalfBytes (fromUtf8Lossy bytes)) (n + bytes.length) := by
  obtain ⟨hhead, htail, hheadBound, htailBound, homitted, htotal⟩ := h
  have hsplit : (if byteLength e.head < accumulatorHalfBytes then
        (e.head ++ floorPrefix (accumulatorHalfBytes - byteLength e.head) (fromUtf8Lossy bytes),
          floorSuffix (accumulatorHalfBytes - byteLength e.head) (fromUtf8Lossy bytes))
      else (e.head, fromUtf8Lossy bytes)) =
      (e.head ++ firstWithin Char.utf8Size (accumulatorHalfBytes - weight Char.utf8Size e.head)
          (fromUtf8Lossy bytes),
        restBeyond Char.utf8Size (accumulatorHalfBytes - weight Char.utf8Size e.head)
          (fromUtf8Lossy bytes)) := by
    split
    · rw [floorPrefix_eq, floorSuffix_eq, byteLength_eq]
    next hfull =>
      rw [byteLength_eq] at hfull
      rw [Nat.sub_eq_zero_of_le (Nat.le_of_not_lt hfull), firstWithin_zero, restBeyond_zero,
        List.append_nil]
  have hbound := Ends.weight_firstWithin_le Char.utf8Size
    (accumulatorHalfBytes - weight Char.utf8Size e.head) (fromUtf8Lossy bytes)
  unfold append
  dsimp only
  rw [hhead, htail, hsplit, homitted, htotal, saturatingAdd_min]
  unfold Ends.feed
  dsimp only
  generalize firstWithin Char.utf8Size (accumulatorHalfBytes - weight Char.utf8Size e.head)
    (fromUtf8Lossy bytes) = first at hbound ⊢
  generalize restBeyond Char.utf8Size (accumulatorHalfBytes - weight Char.utf8Size e.head)
    (fromUtf8Lossy bytes) = rest
  have hheadBound' : weight Char.utf8Size (e.head ++ first) ≤ accumulatorHalfBytes := by
    rw [Ends.weight_append]
    omega
  split
  next hempty =>
    cases List.isEmpty_iff.mp hempty
    refine ⟨String.toList_ofList, ?_, hheadBound',
      Ends.weight_lastWithin_le Char.utf8Size _ _, ?_, rfl⟩
    · rw [List.append_nil, Ends.lastWithin_of_fits htailBound]
      exact htail
    · rw [List.append_nil, Ends.lastWithin_of_fits htailBound, Nat.sub_self, Nat.add_zero]
  next =>
    split
    next hlong =>
      refine ⟨String.toList_ofList, ?_, hheadBound',
      Ends.weight_lastWithin_le Char.utf8Size _ _, ?_, rfl⟩
      · rw [String.toList_ofList, ceilSuffix_eq]
      · rw [ceilSuffix_eq, saturatingAdd_min]
        rfl
    next hshort =>
      have hfits : weight Char.utf8Size (e.tail ++ rest) ≤ accumulatorHalfBytes :=
        Nat.le_of_not_lt hshort
      refine ⟨String.toList_ofList, ?_, hheadBound',
      Ends.weight_lastWithin_le Char.utf8Size _ _, ?_, rfl⟩
      · rw [String.toList_ofList, Ends.lastWithin_of_fits hfits]
      · rw [Ends.lastWithin_of_fits hfits, Nat.sub_self, Nat.add_zero]

/-- The ends that an accumulator keeps of several chunks. -/
def ends (chunks : List (List UInt8)) : Ends Char :=
  (chunks.map fromUtf8Lossy).foldl (Ends.feed Char.utf8Size accumulatorHalfBytes) Ends.empty

theorem accumulate_keeps (chunks : List (List UInt8)) :
    Keeps (accumulate chunks) (ends chunks) chunks.flatten.length := by
  induction chunks using List.reverseRecOn with
  | nil => exact keeps_empty
  | append_singleton chunks chunk ih =>
    have hstep := append_keeps ih chunk
    unfold accumulate ends at *
    rw [List.foldl_append, List.map_append, List.foldl_append, List.flatten_append,
      List.length_append]
    simpa using hstep

/-! ## A true head and tail -/

/-- An accumulator keeps the true ends of a text: its head and its tail, each within the bound and
apart from each other, and the number of bytes between them. -/
structure ShowsEnds (output : OutputAccumulator) (text : List Char) : Prop where
  head : output.head.toList <+: text
  tail : output.tail.toList <:+ text
  headBound : byteLength output.head.toList ≤ accumulatorHalfBytes
  tailBound : byteLength output.tail.toList ≤ accumulatorHalfBytes
  apart : byteLength output.head.toList + byteLength output.tail.toList ≤ byteLength text
  omitted : output.omittedBytes =
    byteLength text - (byteLength output.head.toList + byteLength output.tail.toList)
  whole : output.omittedBytes = 0 → output.head.toList ++ output.tail.toList = text

/-- A chunk begins with characters that fit into what the head has left, although a character before
them did not fit there. -/
def topsUpHead (chunks : List (List UInt8)) : Prop :=
  Ends.ToppedUp Char.utf8Size accumulatorHalfBytes (chunks.map fromUtf8Lossy)

/-- The bytes of a text that lie between its longest head and its longest tail. -/
def bytesBetween (text : List Char) : Nat :=
  (Ends.ofStream Char.utf8Size accumulatorHalfBytes text).omitted

/-- The ends of a text, and what lies between them. -/
theorem ofStream_splits (text : List Char) : ∃ between,
    text = (Ends.ofStream Char.utf8Size accumulatorHalfBytes text).head ++
      (between ++ (Ends.ofStream Char.utf8Size accumulatorHalfBytes text).tail) ∧
      bytesBetween text = byteLength between := by
  obtain ⟨between, hbetween⟩ := Ends.lastWithin_suffix Char.utf8Size accumulatorHalfBytes
    (restBeyond Char.utf8Size accumulatorHalfBytes text)
  have hwhole := Ends.firstWithin_append_restBeyond Char.utf8Size accumulatorHalfBytes text
  refine ⟨between, ?_, ?_⟩
  · rw [← hbetween] at hwhole
    exact hwhole.symm
  · have hweight := congrArg (weight Char.utf8Size) hbetween
    rw [Ends.weight_append] at hweight
    show weight _ _ - weight _ _ = weight _ _
    omega

theorem showsEnds_ofStream {output : OutputAccumulator} {text : List Char} {n : Nat}
    (h : Keeps output (Ends.ofStream Char.utf8Size accumulatorHalfBytes text) n) :
    output.ShowsEnds text ↔ bytesBetween text < 2 ^ 64 := by
  obtain ⟨hhead, htail, hheadBound, htailBound, homitted, -⟩ := h
  obtain ⟨between, hsplit, hbetween⟩ := ofStream_splits text
  have homitted' : output.omittedBytes = min (byteLength between) (2 ^ 64 - 1) := by
    rw [homitted, ← hbetween]
    rfl
  generalize Ends.ofStream Char.utf8Size accumulatorHalfBytes text = e at *
  have hweight : byteLength text = byteLength e.head + (byteLength between + byteLength e.tail) := by
    rw [hsplit, byteLength_eq, Ends.weight_append, Ends.weight_append]
    rfl
  rw [hbetween]
  constructor
  · intro shows
    have hcount := shows.omitted
    rw [homitted', hhead, htail] at hcount
    omega
  · intro hbound
    have hexact : output.omittedBytes = byteLength between := by omega
    constructor
    · rw [hhead, hsplit]
      exact List.prefix_append _ _
    · rw [htail, hsplit, ← List.append_assoc]
      exact List.suffix_append _ _
    · rw [hhead]
      exact hheadBound
    · rw [htail]
      exact htailBound
    · rw [hhead, htail]
      omega
    · rw [hhead, htail]
      omega
    · intro hzero
      have hnone : between = [] :=
        Ends.eq_nil_of_weight Char.utf8Size_pos (hexact.symm.trans hzero)
      rw [hhead, htail, hsplit, hnone, List.nil_append]

/-- What an accumulator keeps of chunks, in both cases. -/
theorem ends_cases (chunks : List (List UInt8)) :
    (¬ topsUpHead chunks ∧
        ends chunks = Ends.ofStream Char.utf8Size accumulatorHalfBytes (decoded chunks)) ∨
      (topsUpHead chunks ∧ Ends.Diverges (ends chunks) (decoded chunks)) :=
  Ends.feed_all Char.utf8Size accumulatorHalfBytes (chunks.map fromUtf8Lossy)

theorem not_showsEnds_of_topsUp {chunks : List (List UInt8)} (h : topsUpHead chunks) :
    ¬ (accumulate chunks).ShowsEnds (decoded chunks) := by
  intro shows
  rcases ends_cases chunks with ⟨hnone, -⟩ | ⟨-, hdiverges⟩
  · exact hnone h
  · refine hdiverges.not_prefix ?_
    rw [← (accumulate_keeps chunks).head]
    exact shows.head

/-- Chunks that are appended to an empty accumulator leave the true ends of their text exactly when
none of them is added to the head after a character that did not fit, and the bytes between the ends
can be counted. -/
theorem output_ends_true (chunks : List (List UInt8)) :
    (accumulate chunks).ShowsEnds (decoded chunks) ↔
      ¬ topsUpHead chunks ∧ bytesBetween (decoded chunks) < 2 ^ 64 := by
  have keeps := accumulate_keeps chunks
  rcases ends_cases chunks with ⟨hnone, heq⟩ | ⟨hsome, -⟩
  · rw [heq] at keeps
    rw [showsEnds_ofStream keeps]
    exact (and_iff_right hnone).symm
  · constructor
    · intro shows
      exact absurd shows (not_showsEnds_of_topsUp hsome)
    · rintro ⟨hnone, -⟩
      exact absurd hsome hnone

/-- A chunk that leaves the head one byte short, with a character of two bytes behind it, and a chunk
of one byte that takes that place. -/
def overtaken : List (List UInt8) :=
  [encode (List.replicate 24575 'a' ++ ['é']), encode ['b']]

theorem output_ends_true_overtaken : ¬ (accumulate overtaken).ShowsEnds (decoded overtaken) := by
  have hfull : weight Char.utf8Size (List.replicate 24575 'a') = 24575 := Ends.weight_replicate 24575
  have hfirst : firstWithin Char.utf8Size accumulatorHalfBytes
      (List.replicate 24575 'a' ++ ['é']) = List.replicate 24575 'a' := by
    rw [Ends.firstWithin_append (by rw [hfull]; decide), hfull]
    exact List.append_nil _
  refine not_showsEnds_of_topsUp ⟨[List.replicate 24575 'a' ++ ['é']], ['b'], [], ?_, ?_, ?_⟩
  · unfold overtaken
    rw [List.map_cons, List.map_singleton, fromUtf8Lossy_text, fromUtf8Lossy_text,
      List.singleton_append]
  · rw [List.flatten_singleton, hfirst]
    exact fun same => List.cons_ne_nil _ _ (List.append_right_eq_self.mp same.symm)
  · rw [List.flatten_singleton, hfirst, hfull]
    decide

/-! ## What the model sees -/

/-- The text of an accumulator before it is cut to a budget. -/
def fullText (output : OutputAccumulator) : List Char :=
  if output.omittedBytes = 0 then output.head.toList ++ output.tail.toList
  else
    (output.head ++ "\n... " ++ toString output.omittedBytes ++ " bytes omitted ...\n" ++
      output.tail).toList

/-- The marker of a cut. -/
def cutMarker (output : OutputAccumulator) : List Char :=
  ("\n... model output truncated (original token count: " ++
    toString ((output.totalBytes + 3) / 4) ++ ") ...\n").toList

/-- `max_tokens.saturating_mul(4)`. -/
def tokenBudget (maxTokens : Nat) : Nat := min (maxTokens * 4) (2 ^ 64 - 1)

end OutputAccumulator

/-! ## Byte indices

The source cuts by byte indices, and panics at one that is inside of a character or below zero. -/

/-- `str::is_char_boundary`. -/
def isCharBoundary : List Char → Nat → Bool
  | _, 0 => true
  | [], _ + 1 => false
  | c :: text, n + 1 => c.utf8Size ≤ n + 1 && isCharBoundary text (n + 1 - c.utf8Size)

/-- The loop of `floor_char_boundary`. -/
def floorLoop (text : List Char) : Nat → Nat
  | 0 => 0
  | index + 1 => if isCharBoundary text (index + 1) then index + 1 else floorLoop text index

/-- `floor_char_boundary`. -/
def floorCharBoundary (text : List Char) (index : Nat) : Nat :=
  floorLoop text (min index (byteLength text))

/-- The loop of `ceil_char_boundary`, from an index that many bytes before the end. -/
def ceilLoop (text : List Char) : Nat → Nat
  | 0 => byteLength text
  | left + 1 =>
    if isCharBoundary text (byteLength text - (left + 1)) then byteLength text - (left + 1)
    else ceilLoop text left

/-- `ceil_char_boundary`. -/
def ceilCharBoundary (text : List Char) (index : Nat) : Nat :=
  ceilLoop text (byteLength text - min index (byteLength text))

/-- `str::split_at`, refused inside of a character and behind the end. -/
def splitAtByte : List Char → Nat → Option (List Char × List Char)
  | text, 0 => some ([], text)
  | [], _ + 1 => none
  | c :: text, n + 1 =>
    if c.utf8Size ≤ n + 1 then
      (splitAtByte text (n + 1 - c.utf8Size)).map fun parts => (c :: parts.1, parts.2)
    else none

/-- `&text[..index]`. -/
def sliceTo (text : List Char) (index : Nat) : Option (List Char) :=
  (splitAtByte text index).map (·.1)

/-- `&text[index..]`. -/
def sliceFrom (text : List Char) (index : Nat) : Option (List Char) :=
  (splitAtByte text index).map (·.2)

/-- A subtraction of unsigned numbers, refused below zero. -/
def checkedSub (a b : Nat) : Option Nat := if b ≤ a then some (a - b) else none

/-- `OutputAccumulator::model_text`, with every slice and subtraction as the source makes it. -/
def OutputAccumulator.modelTextSliced (output : OutputAccumulator) (maxTokens : Nat) :
    Option (List Char) := do
  let text := output.fullText
  let budget := tokenBudget maxTokens
  if byteLength text ≤ budget then return text
  else if budget = 0 then return []
  else
    let marker := output.cutMarker
    if budget ≤ byteLength marker then sliceTo text (floorCharBoundary text budget)
    else
      let remaining ← checkedSub budget (byteLength marker)
      let headEnd := floorCharBoundary text (remaining / 2)
      let room ← checkedSub remaining headEnd
      let index ← checkedSub (byteLength text) room
      let tailStart := ceilCharBoundary text index
      let head ← sliceTo text headEnd
      let tail ← sliceFrom text tailStart
      return head ++ marker ++ tail

section

variable {text front back : List Char} {n : Nat}

theorem splitAtByte_append (front back : List Char) :
    splitAtByte (front ++ back) (byteLength front) = some (front, back) := by
  induction front with
  | nil => cases back <;> rfl
  | cons c front ih =>
    have hpos := c.utf8Size_pos
    obtain ⟨k, hk⟩ : ∃ k, byteLength (c :: front) = k + 1 := by
      refine Nat.exists_eq_succ_of_ne_zero ?_
      rw [byteLength_eq, Ends.weight_cons]
      omega
    have hrest : k + 1 - c.utf8Size = byteLength front := by
      rw [← hk, byteLength_eq, Ends.weight_cons]
      exact Nat.add_sub_cancel_left _ _
    have hfits : c.utf8Size ≤ k + 1 := by
      rw [← hk, byteLength_eq, Ends.weight_cons]
      exact Nat.le_add_right _ _
    rw [hk, List.cons_append, splitAtByte, if_pos hfits, hrest, ih]
    rfl

theorem isCharBoundary_iff : isCharBoundary text n = true ↔
    ∃ front back, text = front ++ back ∧ byteLength front = n := by
  induction text generalizing n with
  | nil =>
    cases n with
    | zero => exact iff_of_true rfl ⟨[], [], rfl, rfl⟩
    | succ n =>
      refine iff_of_false Bool.false_ne_true ?_
      rintro ⟨front, back, hsplit, hlength⟩
      cases (List.append_eq_nil_iff.mp hsplit.symm).1
      exact absurd hlength (Nat.succ_ne_zero n).symm
  | cons c text ih =>
    cases n with
    | zero => exact iff_of_true rfl ⟨[], c :: text, rfl, rfl⟩
    | succ n =>
      rw [isCharBoundary, Bool.and_eq_true, decide_eq_true_eq, ih]
      constructor
      · rintro ⟨hfits, front, back, rfl, hlength⟩
        refine ⟨c :: front, back, rfl, ?_⟩
        rw [byteLength_eq, Ends.weight_cons, ← byteLength_eq, hlength]
        exact Nat.add_sub_cancel' hfits
      · rintro ⟨front, back, hsplit, hlength⟩
        cases front with
        | nil => exact absurd hlength (Nat.succ_ne_zero n).symm
        | cons d front =>
          rw [List.cons_append] at hsplit
          cases hsplit
          rw [byteLength_eq, Ends.weight_cons] at hlength
          exact ⟨by omega, front, back, rfl, by rw [byteLength_eq]; omega⟩

theorem floorLoop_eq (text : List Char) (n : Nat) :
    floorLoop text n = byteLength (firstWithin Char.utf8Size n text) := by
  induction n with
  | zero =>
    rw [OutputAccumulator.firstWithin_zero]
    rfl
  | succ n ih =>
    rw [floorLoop]
    split
    next hboundary =>
      obtain ⟨front, back, rfl, hlength⟩ := isCharBoundary_iff.mp hboundary
      rw [byteLength_eq] at hlength
      rw [Ends.firstWithin_append (Nat.le_of_eq hlength), hlength, Nat.sub_self,
        OutputAccumulator.firstWithin_zero, List.append_nil, byteLength_eq, hlength]
    next hinside =>
      have hle := Ends.weight_firstWithin_le Char.utf8Size (n + 1) text
      have hne : weight Char.utf8Size (firstWithin Char.utf8Size (n + 1) text) ≠ n + 1 := by
        intro hfull
        exact hinside (isCharBoundary_iff.mpr
          ⟨_, _, (Ends.firstWithin_append_restBeyond Char.utf8Size (n + 1) text).symm, hfull⟩)
      have hbelow : weight Char.utf8Size (firstWithin Char.utf8Size (n + 1) text) ≤ n := by omega
      rw [ih, Ends.firstWithin_eq (Nat.le_add_right n 1) hbelow]

theorem floorCharBoundary_eq (text : List Char) (n : Nat) :
    floorCharBoundary text n = byteLength (firstWithin Char.utf8Size n text) := by
  have hle := Ends.weight_firstWithin_le Char.utf8Size n text
  have hparts := Ends.weight_first_add_rest Char.utf8Size n text
  rw [floorCharBoundary, floorLoop_eq,
    Ends.firstWithin_eq (Nat.min_le_left _ _) (by rw [byteLength_eq]; omega)]

theorem ceilLoop_eq (text : List Char) (n : Nat) :
    ceilLoop text n = byteLength text - byteLength (lastWithin Char.utf8Size n text) := by
  induction n with
  | zero =>
    have hnone : lastWithin Char.utf8Size 0 text = [] :=
      Ends.eq_nil_of_weight Char.utf8Size_pos (Nat.le_zero.mp (Ends.weight_lastWithin_le Char.utf8Size 0 text))
    rw [ceilLoop, hnone]
    rfl
  | succ n ih =>
    rw [ceilLoop]
    split
    next hboundary =>
      obtain ⟨front, back, rfl, hlength⟩ := isCharBoundary_iff.mp hboundary
      rw [byteLength_eq, byteLength_eq, Ends.weight_append] at hlength
      by_cases hfits : byteLength (front ++ back) ≤ n + 1
      · rw [Ends.lastWithin_of_fits hfits, Nat.sub_eq_zero_of_le hfits, Nat.sub_self]
      · rw [byteLength_eq, Ends.weight_append] at hfits
        have hback : weight Char.utf8Size back = n + 1 := by omega
        rw [Ends.lastWithin_append_of_full Char.utf8Size_pos hback, byteLength_eq back, hback]
    next hinside =>
      have hle := Ends.weight_lastWithin_le Char.utf8Size (n + 1) text
      have hne : weight Char.utf8Size (lastWithin Char.utf8Size (n + 1) text) ≠ n + 1 := by
        intro hfull
        obtain ⟨front, hsplit⟩ := Ends.lastWithin_suffix Char.utf8Size (n + 1) text
        have hweight := congrArg (weight Char.utf8Size) hsplit
        rw [Ends.weight_append, hfull] at hweight
        refine hinside (isCharBoundary_iff.mpr ⟨front, _, hsplit.symm, ?_⟩)
        rw [byteLength_eq, byteLength_eq, ← hweight, Nat.add_sub_cancel]
      have hbelow : weight Char.utf8Size (lastWithin Char.utf8Size (n + 1) text) ≤ n := by omega
      rw [ih, Ends.lastWithin_eq (Nat.le_add_right n 1) hbelow]

/-- The index of a cut that leaves some bytes is where the longest end within them begins. -/
theorem ceilCharBoundary_eq (h : n ≤ byteLength text) : ceilCharBoundary text (byteLength text - n) =
    byteLength text - byteLength (lastWithin Char.utf8Size n text) := by
  rw [ceilCharBoundary, Nat.min_eq_left (Nat.sub_le _ _), Nat.sub_sub_self h, ceilLoop_eq]

theorem sliceTo_floor (text : List Char) (n : Nat) :
    sliceTo text (floorCharBoundary text n) = some (firstWithin Char.utf8Size n text) := by
  have hsplit := splitAtByte_append (firstWithin Char.utf8Size n text)
    (restBeyond Char.utf8Size n text)
  rw [Ends.firstWithin_append_restBeyond] at hsplit
  rw [sliceTo, floorCharBoundary_eq, hsplit]
  rfl

theorem sliceFrom_ceil (h : n ≤ byteLength text) :
    sliceFrom text (ceilCharBoundary text (byteLength text - n)) =
      some (lastWithin Char.utf8Size n text) := by
  obtain ⟨front, hsplit⟩ := Ends.lastWithin_suffix Char.utf8Size n text
  have hweight := congrArg (weight Char.utf8Size) hsplit
  rw [Ends.weight_append] at hweight
  have hfront : byteLength text - byteLength (lastWithin Char.utf8Size n text) =
      byteLength front := by
    rw [byteLength_eq, byteLength_eq, byteLength_eq]
    omega
  have hcut := splitAtByte_append front (lastWithin Char.utf8Size n text)
  rw [hsplit] at hcut
  rw [sliceFrom, ceilCharBoundary_eq h, hfront, hcut]
  rfl

theorem checkedSub_of_le {a b : Nat} (h : b ≤ a) : checkedSub a b = some (a - b) := if_pos h

end

namespace OutputAccumulator

/-! ## Within the budget -/

/-- The parts of a text that a cut to a budget keeps around its marker. -/
def cutParts (text : List Char) (remaining : Nat) : List Char × List Char :=
  let front := firstWithin Char.utf8Size (remaining / 2) text
  (front, lastWithin Char.utf8Size (remaining - byteLength front) text)

/-- A text that is longer than what is left for it is cut into parts that lie apart. -/
theorem cutParts_apart {text : List Char} {remaining : Nat} (h : remaining < byteLength text) :
    (∃ between, text = (cutParts text remaining).1 ++ (between ++ (cutParts text remaining).2)) ∧
      byteLength (cutParts text remaining).1 + byteLength (cutParts text remaining).2 ≤
        remaining := by
  unfold cutParts
  dsimp only
  simp only [byteLength_eq] at h ⊢
  have hfront := Ends.weight_firstWithin_le Char.utf8Size (remaining / 2) text
  have hsplit := Ends.firstWithin_append_restBeyond Char.utf8Size (remaining / 2) text
  have hweight := Ends.weight_first_add_rest Char.utf8Size (remaining / 2) text
  generalize firstWithin Char.utf8Size (remaining / 2) text = front at *
  generalize restBeyond Char.utf8Size (remaining / 2) text = rest at *
  have hback := Ends.weight_lastWithin_le Char.utf8Size
    (remaining - weight Char.utf8Size front) text
  have hsuffix := Ends.lastWithin_suffix Char.utf8Size (remaining - weight Char.utf8Size front) text
  generalize lastWithin Char.utf8Size (remaining - weight Char.utf8Size front) text = back at *
  refine ⟨?_, by omega⟩
  rcases List.suffix_or_suffix_of_suffix hsuffix ⟨front, hsplit⟩ with ⟨between, hrest⟩ | ⟨more, hmore⟩
  · exact ⟨between, by rw [hrest, hsplit]⟩
  · -- a back that reaches over the front would leave nothing out
    have hlong := congrArg (weight Char.utf8Size) hmore
    rw [Ends.weight_append] at hlong
    omega

/-- What the model sees of a text. -/
def shownText (output : OutputAccumulator) (maxTokens : Nat) : List Char :=
  let text := output.fullText
  let marker := output.cutMarker
  let remaining := tokenBudget maxTokens - byteLength marker
  if byteLength text ≤ tokenBudget maxTokens then text
  else if tokenBudget maxTokens ≤ byteLength marker then
    firstWithin Char.utf8Size (tokenBudget maxTokens) text
  else (cutParts text remaining).1 ++ marker ++ (cutParts text remaining).2

theorem modelText_eq (output : OutputAccumulator) (maxTokens : Nat) :
    output.modelText maxTokens = String.ofList (output.shownText maxTokens) := by
  show (if byteLength output.fullText ≤ tokenBudget maxTokens then String.ofList output.fullText
    else if tokenBudget maxTokens = 0 then ""
    else if tokenBudget maxTokens ≤ byteLength output.cutMarker then
      String.ofList (floorPrefix (tokenBudget maxTokens) output.fullText)
    else
      let remaining := tokenBudget maxTokens - byteLength output.cutMarker
      let head := floorPrefix (remaining / 2) output.fullText
      let tail := ceilSuffix (byteLength output.fullText - (remaining - byteLength head))
        output.fullText
      String.ofList (head ++ output.cutMarker ++ tail)) = _
  unfold shownText cutParts
  dsimp only
  simp only [floorPrefix_eq, ceilSuffix_eq]
  split
  next => rfl
  next =>
  split
  next hzero =>
    rw [hzero, if_pos (Nat.zero_le _), firstWithin_zero]
  next => split <;> rfl

/-- The source's slices and subtractions are all in range. -/
theorem modelTextSliced_eq (output : OutputAccumulator) (maxTokens : Nat) :
    output.modelTextSliced maxTokens = some (output.shownText maxTokens) := by
  unfold modelTextSliced shownText
  dsimp only
  generalize output.fullText = text
  generalize output.cutMarker = marker
  generalize tokenBudget maxTokens = budget
  split
  next => rfl
  next hlong =>
  split
  next hzero =>
    rw [hzero, if_pos (Nat.zero_le _), firstWithin_zero]
    rfl
  next =>
  split
  next => exact sliceTo_floor text budget
  next hmarker =>
    have hbudget : byteLength marker ≤ budget := Nat.le_of_lt (Nat.lt_of_not_le hmarker)
    have hfront := Ends.weight_firstWithin_le Char.utf8Size
      ((budget - byteLength marker) / 2) text
    have hroom : floorCharBoundary text ((budget - byteLength marker) / 2) ≤
        budget - byteLength marker := by
      rw [floorCharBoundary_eq, byteLength_eq]
      omega
    have hindex : budget - byteLength marker -
        floorCharBoundary text ((budget - byteLength marker) / 2) ≤ byteLength text := by omega
    simp only [checkedSub_of_le hbudget, checkedSub_of_le hroom, checkedSub_of_le hindex,
      sliceTo_floor, sliceFrom_ceil hindex, Option.bind_eq_bind, Option.bind_some]
    rw [floorCharBoundary_eq]
    rfl

/-- A shown text is within its budget and is the whole text, or the beginning of it if the marker
does not fit, or a beginning and an end that lie apart, around the marker. -/
structure ShowsWithin (text marker : List Char) (budget : Nat) (shown : List Char) : Prop where
  bound : byteLength shown ≤ budget
  whole : byteLength text ≤ budget → shown = text
  short : budget < byteLength text → budget ≤ byteLength marker → shown <+: text
  around : budget < byteLength text → byteLength marker < budget → ∃ front between back,
    text = front ++ (between ++ back) ∧ shown = front ++ marker ++ back

theorem shownText_within (output : OutputAccumulator) (maxTokens : Nat) :
    ShowsWithin output.fullText output.cutMarker (tokenBudget maxTokens)
      (output.shownText maxTokens) := by
  unfold shownText
  dsimp only
  generalize output.fullText = text
  generalize output.cutMarker = marker
  generalize tokenBudget maxTokens = budget
  split
  next hfits =>
    exact ⟨hfits, fun _ => rfl, fun hlong => absurd hfits (Nat.not_le.mpr hlong),
      fun hlong => absurd hfits (Nat.not_le.mpr hlong)⟩
  next hlong =>
  split
  next hmarker =>
    exact ⟨Ends.weight_firstWithin_le Char.utf8Size _ _, fun hfits => absurd hfits hlong,
      fun _ _ => Ends.firstWithin_prefix _ _ _,
      fun _ hroom => absurd hmarker (Nat.not_le.mpr hroom)⟩
  next hmarker =>
    have hremaining : budget - byteLength marker < byteLength text := by omega
    obtain ⟨⟨between, hparts⟩, hbound⟩ := cutParts_apart hremaining
    refine ⟨?_, fun hfits => absurd hfits hlong, fun _ hroom => absurd hroom hmarker,
      fun _ _ => ⟨_, between, _, hparts, rfl⟩⟩
    simp only [byteLength_eq, Ends.weight_append] at hbound hmarker ⊢
    omega

/-- The text that the model sees is made without a slice inside of a character or a subtraction below
zero, takes at most four bytes a token, and is the whole text, or its beginning and its end around the
marker, or only its beginning where the marker does not fit. -/
theorem model_text_within (output : OutputAccumulator) (maxTokens : Nat) : ∃ shown,
    output.modelTextSliced maxTokens = some shown ∧
      output.modelText maxTokens = String.ofList shown ∧
      byteLength shown ≤ 4 * maxTokens ∧
      ShowsWithin output.fullText output.cutMarker (tokenBudget maxTokens) shown := by
  have within := shownText_within output maxTokens
  refine ⟨_, modelTextSliced_eq output maxTokens, modelText_eq output maxTokens, ?_, within⟩
  calc byteLength (output.shownText maxTokens)
      ≤ tokenBudget maxTokens := within.bound
    _ ≤ maxTokens * 4 := Nat.min_le_left _ _
    _ = 4 * maxTokens := Nat.mul_comm _ _

/-- Five bytes in a budget of one token are cut without a marker. -/
theorem model_text_within_unmarked :
    ¬ ∀ chunks maxTokens, tokenBudget maxTokens < byteLength (accumulate chunks).fullText →
      ∃ front between back, (accumulate chunks).fullText = front ++ (between ++ back) ∧
        ((accumulate chunks).modelText maxTokens).toList =
          front ++ (accumulate chunks).cutMarker ++ back := by
  intro h
  obtain ⟨front, between, back, -, hshown⟩ := h [[104, 101, 108, 108, 111]] 1 (by decide)
  have hlength := congrArg List.length hshown
  rw [List.length_append, List.length_append] at hlength
  have hmarker : (accumulate [[104, 101, 108, 108, 111]]).cutMarker.length = 58 := by decide
  have htext : ((accumulate [[104, 101, 108, 108, 111]]).modelText 1).toList.length = 4 := by
    decide
  omega

end OutputAccumulator

end AgentPlatform.Harness
