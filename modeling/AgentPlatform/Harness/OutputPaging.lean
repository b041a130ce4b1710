import AgentPlatform.Harness.BoundedOutput

/-!
# Output in pages

The runtime hands a command's output over in chunks, and each is decoded and kept by itself. What the
model sees of a text does not depend on the cuts between the chunks as long as no cut is inside of a
character and no chunk is added to the head after a character that did not fit there. Any other
cutting shows: inside of a character it adds bytes, and out of order it adds to the head.
-/

namespace AgentPlatform.Harness

open Ends (weight)

/-! ## Cuts of a text's bytes -/

theorem forall_continuation {n : Nat} {more : List UInt8}
    (h : ∀ b ∈ more, isContinuation b = true) :
    ∀ b ∈ UInt8.ofNat (n % 64 + 128) :: more, isContinuation b = true :=
  List.forall_mem_cons.mpr ⟨isContinuation_ofNat n, h⟩

/-- A character's first byte continues nothing, and every other byte does. -/
theorem utf8EncodeChar_shape (c : Char) : ∃ b more, String.utf8EncodeChar c = b :: more ∧
    isContinuation b = false ∧ (∀ b' ∈ more, isContinuation b' = true) ∧
      more.length + 1 = c.utf8Size := by
  have hsize := String.length_utf8EncodeChar c
  have hvalid : c.val.toNat < 0x110000 := by
    have hscalar : c.val.toNat < 0xd800 ∨ 0xdfff < c.val.toNat ∧ c.val.toNat < 0x110000 := c.valid
    omega
  have hfirst : ∀ {n : Nat}, n < 0x80 ∨ 0xc0 ≤ n ∧ n < 256 →
      isContinuation (UInt8.ofNat n) = false := by
    intro n hn
    rw [← Bool.not_eq_true, isContinuation_iff, toNat_ofNat (by omega)]
    omega
  have hnone : ∀ b ∈ ([] : List UInt8), isContinuation b = true :=
    fun b hb => absurd hb List.not_mem_nil
  unfold String.utf8EncodeChar at hsize ⊢
  dsimp only at hsize ⊢
  generalize c.val.toNat = v at hsize hvalid ⊢
  split at hsize
  next h₁ =>
    rw [if_pos h₁]
    exact ⟨_, [], rfl, hfirst (.inl (by omega)), hnone, hsize⟩
  next h₁ =>
  rw [if_neg h₁]
  split at hsize
  next h₂ =>
    rw [if_pos h₂]
    exact ⟨_, _, rfl, hfirst (.inr (by omega)), forall_continuation hnone, hsize⟩
  next h₂ =>
  rw [if_neg h₂]
  split at hsize
  next h₃ =>
    rw [if_pos h₃]
    exact ⟨_, _, rfl, hfirst (.inr (by omega)), forall_continuation (forall_continuation hnone), hsize⟩
  next h₃ =>
    rw [if_neg h₃]
    exact ⟨_, _, rfl, hfirst (.inr (by omega)), forall_continuation (forall_continuation (forall_continuation hnone)), hsize⟩

/-- Bytes that begin inside of a character. -/
def beginsInside (bytes : List UInt8) : Bool := bytes.head?.any isContinuation

/-- A cut of a text's bytes that is not inside of a character is a cut of the text. -/
theorem encode_split {text : List Char} {front back : List UInt8} (h : front ++ back = encode text)
    (hback : beginsInside back = false) : ∃ t u, front = encode t ∧ back = encode u ∧
      text = t ++ u := by
  induction text generalizing front with
  | nil =>
    obtain ⟨rfl, rfl⟩ := List.append_eq_nil_iff.mp h
    exact ⟨[], [], rfl, rfl, rfl⟩
  | cons c text ih =>
    cases front with
    | nil => exact ⟨[], c :: text, rfl, h, rfl⟩
    | cons b front =>
      rw [encode_cons] at h
      rcases List.append_eq_append_iff.mp h with ⟨rest, hchar, hrest⟩ | ⟨rest, hfront, hrest⟩
      · cases rest with
        | nil =>
          rw [List.append_nil] at hchar
          exact ⟨[c], text, by rw [encode_cons, encode_nil, List.append_nil, hchar], hrest, rfl⟩
        | cons b' rest =>
          -- the cut would be before a byte that continues this character
          obtain ⟨b₁, more, hbytes, -, hmore, -⟩ := utf8EncodeChar_shape c
          rw [hbytes, List.cons_append] at hchar
          cases hchar
          have hinside := hmore b' (List.mem_append_right _ List.mem_cons_self)
          rw [hrest, beginsInside, List.cons_append, List.head?_cons, Option.any_some, hinside] at hback
          cases hback
      · obtain ⟨t, u, ht, hu, rfl⟩ := ih hrest.symm
        exact ⟨c :: t, u, by rw [encode_cons, hfront, ht], hu, rfl⟩

/-- Every chunk is the bytes of a text. -/
def CutsBetween (chunks : List (List UInt8)) : Prop := ∀ chunk ∈ chunks, ∃ t, chunk = encode t

theorem beginsInside_flatten {chunks : List (List UInt8)}
    (h : ∀ chunk ∈ chunks, beginsInside chunk = false) : beginsInside chunks.flatten = false := by
  induction chunks with
  | nil => rfl
  | cons chunk chunks ih =>
    cases chunk with
    | nil => exact ih fun c hc => h c (List.mem_cons_of_mem _ hc)
    | cons b chunk =>
      have hfirst := h (b :: chunk) List.mem_cons_self
      exact hfirst

/-- Chunks of a text's bytes of which none begins inside of a character are bytes of texts. -/
theorem cutsBetween_of_begins {chunks : List (List UInt8)} {text : List Char}
    (hwhole : chunks.flatten = encode text) (h : ∀ chunk ∈ chunks, beginsInside chunk = false) :
    CutsBetween chunks := by
  induction chunks generalizing text with
  | nil => exact fun chunk hchunk => absurd hchunk List.not_mem_nil
  | cons chunk chunks ih =>
    have hrest : ∀ c ∈ chunks, beginsInside c = false := fun c hc => h c (List.mem_cons_of_mem _ hc)
    rw [List.flatten_cons] at hwhole
    obtain ⟨t, u, ht, hu, -⟩ := encode_split hwhole (beginsInside_flatten hrest)
    intro c hc
    rcases List.mem_cons.mp hc with rfl | hc
    · exact ⟨t, ht⟩
    · exact ih hu hrest c hc

namespace OutputAccumulator

theorem decoded_cons (chunk : List UInt8) (chunks : List (List UInt8)) :
    decoded (chunk :: chunks) = fromUtf8Lossy chunk ++ decoded chunks := by
  rw [decoded, List.map_cons, List.flatten_cons]
  rfl

/-- Chunks that are bytes of texts are decoded to the text of their bytes. -/
theorem decoded_of_cutsBetween {chunks : List (List UInt8)} (h : CutsBetween chunks) :
    encode (decoded chunks) = chunks.flatten := by
  induction chunks with
  | nil => rfl
  | cons chunk chunks ih =>
    obtain ⟨t, rfl⟩ := h chunk List.mem_cons_self
    rw [decoded_cons, fromUtf8Lossy_text, encode_append, List.flatten_cons,
      ih fun c hc => h c (List.mem_cons_of_mem _ hc)]

theorem decoded_eq {chunks : List (List UInt8)} {text : List Char}
    (hwhole : chunks.flatten = encode text) (h : CutsBetween chunks) : decoded chunks = text := by
  have hsame := congrArg fromUtf8Lossy ((decoded_of_cutsBetween h).trans hwhole)
  rwa [fromUtf8Lossy_text, fromUtf8Lossy_text] at hsame

/-- Decoding never loses bytes, and gains some where a chunk begins inside of a character. -/
theorem length_le_decoded (chunks : List (List UInt8)) :
    chunks.flatten.length ≤ byteLength (decoded chunks) ∧
      ((∃ chunk ∈ chunks, beginsInside chunk = true) →
        chunks.flatten.length < byteLength (decoded chunks)) := by
  induction chunks with
  | nil =>
    refine ⟨Nat.zero_le _, ?_⟩
    rintro ⟨chunk, hchunk, -⟩
    exact absurd hchunk List.not_mem_nil
  | cons chunk chunks ih =>
    obtain ⟨hle, hlt⟩ := ih
    have hchunk := length_le_fromUtf8Lossy chunk
    have hsum : byteLength (decoded (chunk :: chunks)) =
        byteLength (fromUtf8Lossy chunk) + byteLength (decoded chunks) := by
      rw [decoded_cons]
      exact Ends.weight_append
    rw [List.flatten_cons, List.length_append, hsum]
    refine ⟨by omega, ?_⟩
    rintro ⟨c, hc, hinside⟩
    rcases List.mem_cons.mp hc with rfl | hc
    · cases c with
      | nil => cases hinside
      | cons b c =>
        have hgain := length_lt_fromUtf8Lossy hinside c
        omega
    · have hgain := hlt ⟨c, hc, hinside⟩
      omega

theorem byteLength_lt_decoded {chunks : List (List UInt8)} {text : List Char}
    (hwhole : chunks.flatten = encode text) (h : ¬ CutsBetween chunks) :
    byteLength text < byteLength (decoded chunks) := by
  rw [← length_encode, ← hwhole]
  refine (length_le_decoded chunks).2 ?_
  by_contra hnone
  refine h (cutsBetween_of_begins hwhole fun chunk hchunk => ?_)
  rw [← Bool.not_eq_true]
  exact fun hinside => hnone ⟨chunk, hchunk, hinside⟩

/-! ## The same text -/

/-- Two cuttings leave the model the same text, whatever its budget. -/
def SameText (chunks chunks' : List (List UInt8)) : Prop :=
  ∀ maxTokens, (accumulate chunks).modelText maxTokens = (accumulate chunks').modelText maxTokens

/-- A cutting that does no harm: no cut is inside of a character, and no chunk is added to the head
after a character that did not fit there. -/
structure CutsCleanly (chunks : List (List UInt8)) : Prop where
  between : CutsBetween chunks
  inOrder : ¬ topsUpHead chunks

theorem keeps_determines {output output' : OutputAccumulator} {e : Ends Char} {n : Nat}
    (h : Keeps output e n) (h' : Keeps output' e n) : output = output' := by
  obtain ⟨head, tail, totalBytes, omittedBytes⟩ := output
  obtain ⟨head', tail', totalBytes', omittedBytes'⟩ := output'
  have hhead : head = head' := String.toList_injective (h.head.trans h'.head.symm)
  have htail : tail = tail' := String.toList_injective (h.tail.trans h'.tail.symm)
  have htotal : totalBytes = totalBytes' := h.total.trans h'.total.symm
  have homitted : omittedBytes = omittedBytes' := h.omitted.trans h'.omitted.symm
  rw [hhead, htail, htotal, homitted]

variable {text : List Char} {chunks chunks' : List (List UInt8)}

/-- A clean cutting leaves the two ends of the text. -/
theorem CutsCleanly.ends_eq (clean : CutsCleanly chunks) (hwhole : chunks.flatten = encode text) :
    ends chunks = Ends.ofStream Char.utf8Size accumulatorHalfBytes text := by
  rcases ends_cases chunks with ⟨-, heq⟩ | ⟨hsome, -⟩
  · rw [heq, decoded_eq hwhole clean.between]
  · exact absurd hsome clean.inOrder

theorem CutsCleanly.sameText (clean : CutsCleanly chunks) (clean' : CutsCleanly chunks')
    (hwhole : chunks.flatten = encode text) (hwhole' : chunks'.flatten = encode text) :
    SameText chunks chunks' := by
  have keeps := accumulate_keeps chunks
  have keeps' := accumulate_keeps chunks'
  rw [clean.ends_eq hwhole, hwhole] at keeps
  rw [clean'.ends_eq hwhole', hwhole'] at keeps'
  intro maxTokens
  rw [keeps_determines keeps keeps']

/-! ## What a cut that does harm leaves -/

theorem ends_balanced (chunks : List (List UInt8)) :
    Ends.Balanced Char.utf8Size accumulatorHalfBytes 4 (ends chunks)
      (byteLength (decoded chunks)) :=
  Ends.feed_all_balanced Char.utf8Size_le_four accumulatorHalfBytes (chunks.map fromUtf8Lossy)

/-- The note of how many bytes were left out. -/
def omittedNote (n : Nat) : List Char :=
  '\n' :: '.' :: '.' :: '.' :: ' ' :: (Nat.toDigits 10 n ++ " bytes omitted ...\n".toList)

theorem fullText_none {output : OutputAccumulator} (h : output.omittedBytes = 0) :
    output.fullText = output.head.toList ++ output.tail.toList := if_pos h

theorem fullText_some {output : OutputAccumulator} (h : output.omittedBytes ≠ 0) :
    output.fullText =
      output.head.toList ++ (omittedNote output.omittedBytes ++ output.tail.toList) := by
  unfold fullText omittedNote
  rw [if_neg h]
  have hstart : "\n... ".toList = ['\n', '.', '.', '.', ' '] := rfl
  simp only [String.toList_append, Nat.toString_eq_repr, Nat.toList_repr, List.append_assoc, hstart,
    List.cons_append, List.nil_append]

theorem length_omittedNote (n : Nat) : 25 ≤ byteLength (omittedNote n) := by
  have hstart : ['\n', '.', '.', '.', ' '].map Char.utf8Size = [1, 1, 1, 1, 1] := rfl
  have hend : weight Char.utf8Size " bytes omitted ...\n".toList = 19 := rfl
  have hdigits : 1 ≤ weight Char.utf8Size (Nat.toDigits 10 n) := by
    refine Nat.one_le_iff_ne_zero.mpr fun hzero => Nat.toDigits_ne_nil (n := n) (b := 10) ?_
    exact Ends.eq_nil_of_weight Char.utf8Size_pos hzero
  show 25 ≤ weight Char.utf8Size (['\n', '.', '.', '.', ' '] ++
    (Nat.toDigits 10 n ++ " bytes omitted ...\n".toList))
  rw [Ends.weight_append, Ends.weight_append, hend, weight, hstart]
  show 25 ≤ 5 + _
  omega

/-- A note that begins a few bytes later has another character there. -/
theorem omittedNote_unshifted {shift rest rest' : List Char} {n n' : Nat} (hfew : shift.length ≤ 3)
    (h : shift ++ (omittedNote n' ++ rest') = omittedNote n ++ rest) : shift = [] := by
  unfold omittedNote at h
  rcases shift with _ | ⟨a, _ | ⟨b, _ | ⟨c, _ | ⟨d, shift⟩⟩⟩⟩
  · rfl
  · simp at h
  · simp at h
  · simp at h
  · simp only [List.length_cons] at hfew
    omega

theorem takeWhile_toDigits (n : Nat) (rest : List Char) :
    (Nat.toDigits 10 n ++ ' ' :: rest).takeWhile Char.isDigit = Nat.toDigits 10 n := by
  have hdigits : ∀ c ∈ Nat.toDigits 10 n, c.isDigit = true :=
    fun c hc => Nat.isDigit_of_mem_toDigits (by decide) (by decide) hc
  rw [List.takeWhile_append_of_pos hdigits, List.takeWhile_cons_of_neg (by decide), List.append_nil]

theorem omittedNote_injective {rest rest' : List Char} {n n' : Nat}
    (h : omittedNote n ++ rest = omittedNote n' ++ rest') : n = n' ∧ rest = rest' := by
  have hend : " bytes omitted ...\n".toList = ' ' :: "bytes omitted ...\n".toList := rfl
  unfold omittedNote at h
  simp only [List.cons_append, List.append_assoc, hend, List.cons.injEq, true_and] at h
  have hsame := congrArg (List.takeWhile Char.isDigit) h
  rw [takeWhile_toDigits, takeWhile_toDigits] at hsame
  have hn : n = n' := by
    rw [← Nat.ofDigitChars_ten_toDigits (n := n), hsame, Nat.ofDigitChars_ten_toDigits]
  subst hn
  have hrest := List.append_cancel_left h
  rw [List.cons.injEq] at hrest
  exact ⟨rfl, List.append_cancel_left hrest.2⟩

/-- Ends between which something is left out are almost full. -/
theorem full_of_omitted {e : Ends Char} {total : Nat}
    (balanced : Ends.Balanced Char.utf8Size accumulatorHalfBytes 4 e total) (h : e.omitted ≠ 0) :
    accumulatorHalfBytes < weight Char.utf8Size e.head + 4 ∧
      accumulatorHalfBytes < weight Char.utf8Size e.tail + 4 := by
  have htail := balanced.tailFull (Nat.pos_of_ne_zero h)
  refine ⟨balanced.headFull fun hnone => ?_, htail⟩
  rw [hnone, Ends.weight_nil, accumulatorHalfBytes] at htail
  omega

section

variable {output output' : OutputAccumulator} {e e' : Ends Char} {total total' n n' : Nat}

/-- A text with nothing left out is shorter than one with a note of what is left out. -/
theorem fullText_ne (keeps : Keeps output e n) (keeps' : Keeps output' e' n')
    (balanced' : Ends.Balanced Char.utf8Size accumulatorHalfBytes 4 e' total')
    (hnone : e.omitted = 0) (hsome : e'.omitted ≠ 0) : output.fullText ≠ output'.fullText := by
  intro hsame
  obtain ⟨hhead', htail'⟩ := full_of_omitted balanced' hsome
  have hhead := keeps.headBound
  have htail := keeps.tailBound
  have homitted := keeps.omitted
  have homitted' := keeps'.omitted
  rw [fullText_none (by omega), fullText_some (by omega), keeps.head, keeps.tail, keeps'.head,
    keeps'.tail] at hsame
  have hlength := congrArg (weight Char.utf8Size) hsame
  have hnote := length_omittedNote output'.omittedBytes
  rw [byteLength_eq] at hnote
  simp only [Ends.weight_append] at hlength
  omega

/-- Heads before a note of what is left out are the same if the texts are. -/
theorem head_eq_of_shift {shift rest rest' : List Char} {m m' : Nat} (keeps' : Keeps output' e' n')
    (balanced : Ends.Balanced Char.utf8Size accumulatorHalfBytes 4 e total) (hsome : e.omitted ≠ 0)
    (hhead : e'.head = e.head ++ shift)
    (hrest : omittedNote m ++ rest = shift ++ (omittedNote m' ++ rest')) : shift = [] := by
  refine omittedNote_unshifted ?_ hrest.symm
  have hfull := (full_of_omitted balanced hsome).1
  have hbound := keeps'.headBound
  have hfew := Ends.length_le_weight Char.utf8Size_pos shift
  rw [hhead, Ends.weight_append] at hbound
  omega

/-- The same text shows the same number of bytes, and the same head or nothing left out. -/
theorem of_fullText_eq (keeps : Keeps output e n) (keeps' : Keeps output' e' n')
    (balanced : Ends.Balanced Char.utf8Size accumulatorHalfBytes 4 e total)
    (balanced' : Ends.Balanced Char.utf8Size accumulatorHalfBytes 4 e' total')
    (hbound : total < 2 ^ 63) (hsame : output.fullText = output'.fullText) :
    total' = total ∧
      (e.omitted = 0 ∧ e.head ++ e.tail = e'.head ++ e'.tail ∨ e.head = e'.head) := by
  have hsum := balanced.sum
  have hsum' := balanced'.sum
  have homitted := keeps.omitted
  have homitted' := keeps'.omitted
  by_cases hnone : e.omitted = 0
  · by_cases hnone' : e'.omitted = 0
    · rw [fullText_none (by omega), fullText_none (by omega), keeps.head, keeps.tail, keeps'.head,
        keeps'.tail] at hsame
      have hlength := congrArg (weight Char.utf8Size) hsame
      rw [Ends.weight_append, Ends.weight_append] at hlength
      exact ⟨by omega, .inl ⟨hnone, hsame⟩⟩
    · exact absurd hsame (fullText_ne keeps keeps' balanced' hnone hnone')
  · by_cases hnone' : e'.omitted = 0
    · exact absurd hsame.symm (fullText_ne keeps' keeps balanced hnone' hnone)
    · rw [fullText_some (by omega), fullText_some (by omega), keeps.head, keeps.tail, keeps'.head,
        keeps'.tail] at hsame
      have hheads : e.head = e'.head := by
        rcases List.append_eq_append_iff.mp hsame with ⟨shift, hhead, hrest⟩ | ⟨shift, hhead, hrest⟩
        · have hshift := head_eq_of_shift keeps' balanced hnone hhead hrest
          rw [hhead, hshift, List.append_nil]
        · have hshift := head_eq_of_shift keeps balanced' hnone' hhead hrest
          rw [hhead, hshift, List.append_nil]
      rw [hheads] at hsame
      obtain ⟨hcount, htails⟩ := omittedNote_injective (List.append_cancel_left hsame)
      rw [htails, hheads] at hsum
      exact ⟨by omega, .inr hheads⟩

end

/-- No text is too long for the largest budget. -/
theorem fullText_fits {output : OutputAccumulator} {e : Ends Char} {n : Nat}
    (keeps : Keeps output e n) : byteLength output.fullText ≤ tokenBudget (2 ^ 64) := by
  have hhead := keeps.headBound
  have htail := keeps.tailBound
  have hbudget : tokenBudget (2 ^ 64) = 2 ^ 64 - 1 := by decide
  rw [accumulatorHalfBytes] at hhead htail
  rw [hbudget, byteLength_eq]
  by_cases hnone : output.omittedBytes = 0
  · rw [fullText_none hnone, keeps.head, keeps.tail, Ends.weight_append]
    omega
  · have hcount : output.omittedBytes < 10 ^ 20 := by
      have homitted := keeps.omitted
      omega
    have hdigits := (Nat.length_toDigits_le_iff (by decide) (by decide)).mpr hcount
    have hnote := Ends.weight_le_length Char.utf8Size_le_four (omittedNote output.omittedBytes)
    have hlength : (omittedNote output.omittedBytes).length =
        (Nat.toDigits 10 output.omittedBytes).length + 24 := by
      have hend : " bytes omitted ...\n".toList.length = 19 := rfl
      simp only [omittedNote, List.length_cons, List.length_append, hend]
    rw [fullText_some hnone, keeps.head, keeps.tail, Ends.weight_append, Ends.weight_append]
    omega

theorem fullText_eq_of_sameText (hsame : SameText chunks chunks') :
    (accumulate chunks).fullText = (accumulate chunks').fullText := by
  have htexts := hsame (2 ^ 64)
  rw [modelText_eq, modelText_eq, shownText, shownText,
    if_pos (fullText_fits (accumulate_keeps chunks)),
    if_pos (fullText_fits (accumulate_keeps chunks'))] at htexts
  exact String.ofList_injective htexts

/-- A cutting that is not clean leaves another text than a clean one. -/
theorem CutsCleanly.of_sameText (clean : CutsCleanly chunks) (hwhole : chunks.flatten = encode text)
    (hwhole' : chunks'.flatten = encode text) (hbound : (encode text).length < 2 ^ 63)
    (hsame : SameText chunks chunks') : CutsCleanly chunks' := by
  have keeps := accumulate_keeps chunks
  have keeps' := accumulate_keeps chunks'
  have balanced := ends_balanced chunks
  have balanced' := ends_balanced chunks'
  rw [decoded_eq hwhole clean.between] at balanced
  rw [length_encode] at hbound
  obtain ⟨htotal, hshown⟩ := of_fullText_eq keeps keeps' balanced balanced' hbound
    (fullText_eq_of_sameText hsame)
  have hbetween : CutsBetween chunks' := by
    by_contra hinside
    have hgain := byteLength_lt_decoded hwhole' hinside
    omega
  refine ⟨hbetween, fun htops => ?_⟩
  rcases ends_cases chunks' with ⟨hnone, -⟩ | ⟨-, hdiverges⟩
  · exact hnone htops
  · rw [decoded_eq hwhole' hbetween] at hdiverges
    refine hdiverges.not_prefix ?_
    obtain ⟨between, hsplit, hcount⟩ := ofStream_splits text
    rw [clean.ends_eq hwhole] at hshown
    rcases hshown with ⟨hnone, hends⟩ | hheads
    · have hbetween : between = [] :=
        Ends.eq_nil_of_weight Char.utf8Size_pos (hcount.symm.trans hnone)
      rw [hsplit, hbetween, List.nil_append, hends]
      exact List.prefix_append _ _
    · rw [← hheads]
      exact ⟨_, hsplit.symm⟩

/-- A byte of a text of one byte a character does not continue a character. -/
theorem not_isContinuation_of_ascii (hascii : ∀ c ∈ text, c.utf8Size = 1) {b : UInt8}
    (hb : b ∈ encode text) : isContinuation b = false := by
  obtain ⟨c, hc, hb⟩ := List.mem_flatMap.mp hb
  obtain ⟨b₁, more, hbytes, hfirst, -, hlength⟩ := utf8EncodeChar_shape c
  have hmore : more = [] := List.eq_nil_of_length_eq_zero (by have hone := hascii c hc; omega)
  rw [hbytes, hmore, List.mem_singleton] at hb
  rw [hb]
  exact hfirst

/-- A text of one byte a character is cut cleanly everywhere. -/
theorem cutsCleanly_of_ascii (hwhole : chunks.flatten = encode text)
    (hascii : ∀ c ∈ text, c.utf8Size = 1) : CutsCleanly chunks := by
  have hbetween : CutsBetween chunks := by
    refine cutsBetween_of_begins hwhole fun chunk hchunk => ?_
    cases chunk with
    | nil => rfl
    | cons b chunk =>
      refine not_isContinuation_of_ascii hascii (b := b) ?_
      rw [← hwhole]
      exact List.mem_flatten.mpr ⟨b :: chunk, hchunk, List.mem_cons_self⟩
  refine ⟨hbetween, ?_⟩
  rintro ⟨before, piece, after, hchunks, hover, hsome⟩
  -- the character that did not fit has one byte, so the head is full
  obtain ⟨c, rest, hbefore, hlt⟩ := Ends.exists_of_overflow hover
  have hc : c ∈ text := by
    rw [← decoded_eq hwhole hbetween, decoded, hchunks, List.flatten_append, hbefore]
    exact List.mem_append_left _ (List.mem_append_right _ List.mem_cons_self)
  have hfull : accumulatorHalfBytes -
      weight Char.utf8Size (Ends.firstWithin Char.utf8Size accumulatorHalfBytes before.flatten) = 0 := by
    have hone := hascii c hc
    omega
  rw [hfull, firstWithin_zero] at hsome
  exact hsome rfl

/-- A text in one chunk is not cut. -/
theorem cutsCleanly_whole (text : List Char) : CutsCleanly [encode text] := by
  refine ⟨fun chunk hchunk => ⟨text, List.mem_singleton.mp hchunk⟩, ?_⟩
  rintro ⟨before, piece, after, hchunks, hover, -⟩
  cases before with
  | nil => exact hover rfl
  | cons first before => simp at hchunks

theorem not_beginsInside_encode (text : List Char) : beginsInside (encode text) = false := by
  cases text with
  | nil => rfl
  | cons c text =>
    obtain ⟨b, more, hbytes, hfirst, -, -⟩ := utf8EncodeChar_shape c
    rw [encode_cons, hbytes]
    exact hfirst

/-- A character of several bytes can be cut. -/
theorem exists_unclean {c : Char} (hc : c ∈ text) (hsize : c.utf8Size ≠ 1) :
    ∃ chunks : List (List UInt8), chunks.flatten = encode text ∧ ¬ CutsCleanly chunks := by
  obtain ⟨front, back, rfl⟩ := List.append_of_mem hc
  obtain ⟨b, more, hbytes, -, hmore, hlength⟩ := utf8EncodeChar_shape c
  refine ⟨[encode front ++ [b], more ++ encode back], ?_, fun clean => ?_⟩
  · simp [hbytes]
  · cases more with
    | nil => exact hsize hlength.symm
    | cons b₁ more =>
      obtain ⟨t, ht⟩ := clean.between ((b₁ :: more) ++ encode back) (by simp)
      have hinside : beginsInside ((b₁ :: more) ++ encode back) = true := hmore b₁ List.mem_cons_self
      rw [ht, not_beginsInside_encode] at hinside
      cases hinside

/-- What the model sees of a text depends on the cuts between its chunks exactly if the text has a
character of several bytes. Next to a clean cutting another one shows the same for every budget
exactly if it is clean as well. A byte string is no longer than Rust's `isize::MAX`. -/
theorem output_paging (text : List Char) (bound : (encode text).length < 2 ^ 63) :
    ((∀ chunks chunks', chunks.flatten = encode text → chunks'.flatten = encode text →
        SameText chunks chunks') ↔ ∀ c ∈ text, c.utf8Size = 1) ∧
      ∀ chunks chunks', chunks.flatten = encode text → chunks'.flatten = encode text →
        CutsCleanly chunks → (SameText chunks chunks' ↔ CutsCleanly chunks') := by
  have hpaging : ∀ chunks chunks', chunks.flatten = encode text → chunks'.flatten = encode text →
      CutsCleanly chunks → (SameText chunks chunks' ↔ CutsCleanly chunks') :=
    fun chunks chunks' hwhole hwhole' clean =>
      ⟨fun hsame => clean.of_sameText hwhole hwhole' bound hsame,
        fun clean' => clean.sameText clean' hwhole hwhole'⟩
  refine ⟨⟨?_, ?_⟩, hpaging⟩
  · intro hall c hc
    by_contra hsize
    obtain ⟨chunks, hwhole, hunclean⟩ := exists_unclean hc hsize
    have hone : [encode text].flatten = encode text := List.flatten_singleton
    exact hunclean ((hpaging _ chunks hone hwhole (cutsCleanly_whole text)).mp
      (hall _ chunks hone hwhole))
  · intro hascii chunks chunks' hwhole hwhole'
    exact (cutsCleanly_of_ascii hwhole hascii).sameText (cutsCleanly_of_ascii hwhole' hascii) hwhole
      hwhole'

/-- The theorem at a text of one character of two bytes. -/
theorem output_paging_accented : ¬ (∀ chunks chunks', chunks.flatten = encode ['é'] →
    chunks'.flatten = encode ['é'] → SameText chunks chunks') ∧
      ¬ SameText [encode ['é']] [[0xc3], [0xa9]] := by
  obtain ⟨hall, hclean⟩ := output_paging ['é'] (by decide)
  have huncut : ¬ CutsCleanly [[0xc3], [0xa9]] := by
    intro clean
    obtain ⟨t, ht⟩ := clean.between [0xa9] (by decide)
    have hbegin := not_beginsInside_encode t
    rw [← ht] at hbegin
    cases hbegin
  refine ⟨fun hsame => ?_, fun hsame => huncut ?_⟩
  · exact absurd (hall.mp hsame 'é' List.mem_cons_self) (by decide)
  · exact (hclean [encode ['é']] [[0xc3], [0xa9]] (by decide) (by decide)
      (cutsCleanly_whole ['é'])).mp hsame

/-- The two bytes of a character in one chunk, and in two. -/
theorem output_paging_cut : ¬ (∀ (text : List Char) (chunks chunks' : List (List UInt8)),
    chunks.flatten = encode text → chunks'.flatten = encode text → ∀ maxTokens,
      (accumulate chunks).modelText maxTokens = (accumulate chunks').modelText maxTokens) := by
  intro hall
  have hsame := hall ['é'] [[0xc3, 0xa9]] [[0xc3], [0xa9]] (by decide) (by decide) 100
  revert hsame
  decide

end OutputAccumulator

end AgentPlatform.Harness
