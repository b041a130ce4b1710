import AgentPlatform.Harness.Text
import AgentPlatform.Lib.Ends
import Mathlib.Algebra.Order.Group.Nat

/-!
# Lossy decoding

What `String::from_utf8_lossy` makes of the bytes of a text, and of bytes that begin or end inside of
a character: never fewer bytes than it gets, and more when they begin inside of a character.
-/

namespace AgentPlatform.Harness

/-- The bytes of a text. -/
def encode (text : List Char) : List UInt8 := text.flatMap String.utf8EncodeChar

@[simp] theorem encode_nil : encode [] = [] := rfl

@[simp] theorem encode_cons (c : Char) (text : List Char) :
    encode (c :: text) = String.utf8EncodeChar c ++ encode text := List.flatMap_cons

@[simp] theorem encode_append (text more : List Char) :
    encode (text ++ more) = encode text ++ encode more := List.flatMap_append

theorem length_encode (text : List Char) : (encode text).length = byteLength text := by
  induction text with
  | nil => rfl
  | cons c text ih =>
    rw [encode_cons, List.length_append, String.length_utf8EncodeChar, ih]
    exact Ends.weight_cons.symm

/-! ## Whole characters -/

section

variable {b₀ b₁ b₂ b₃ : UInt8}

/-- A byte in a range, as the decoder compares it. -/
theorem byte_between_iff (b lo hi : UInt8) :
    (decide (lo ≤ b) && decide (b ≤ hi)) = true ↔ lo.toNat ≤ b.toNat ∧ b.toNat ≤ hi.toNat := by
  rw [Bool.and_eq_true, decide_eq_true_eq, decide_eq_true_eq, UInt8.le_iff_toNat_le,
    UInt8.le_iff_toNat_le]

theorem byte_between (lo hi : UInt8) (hlo : lo.toNat ≤ b₀.toNat) (hhi : b₀.toNat ≤ hi.toNat) :
    (decide (lo ≤ b₀) && decide (b₀ ≤ hi)) = true :=
  (byte_between_iff b₀ lo hi).mpr ⟨hlo, hhi⟩

theorem byte_not_between (lo hi : UInt8) (h : b₀.toNat < lo.toNat ∨ hi.toNat < b₀.toNat) :
    ¬ (decide (lo ≤ b₀) && decide (b₀ ≤ hi)) = true := by
  rw [byte_between_iff]
  omega

theorem not_byte_lt (n : UInt8) (h : n.toNat ≤ b₀.toNat) : ¬ b₀ < n := by
  rw [UInt8.lt_iff_toNat_lt]
  omega

theorem fromUtf8Lossy_two (hlo : 0xc2 ≤ b₀.toNat) (hhi : b₀.toNat ≤ 0xdf)
    (h₁ : isContinuation b₁ = true) (rest : List UInt8) : fromUtf8Lossy (b₀ :: b₁ :: rest) =
      Char.ofNat (b₀.toNat % 32 * 64 + continuationBits b₁) :: fromUtf8Lossy rest := by
  rw [fromUtf8Lossy.eq_def]
  dsimp only
  rw [if_neg (not_byte_lt 0x80 (Nat.le_trans (by decide) hlo)), if_pos (byte_between 0xc2 0xdf hlo hhi),
    if_pos h₁]

theorem fromUtf8Lossy_three (hlo : 0xe0 ≤ b₀.toNat) (hhi : b₀.toNat ≤ 0xef)
    (h₁ : followsThree b₀ b₁ = true) (h₂ : isContinuation b₂ = true) (rest : List UInt8) :
    fromUtf8Lossy (b₀ :: b₁ :: b₂ :: rest) =
      Char.ofNat ((b₀.toNat % 16 * 64 + continuationBits b₁) * 64 + continuationBits b₂) ::
        fromUtf8Lossy rest := by
  rw [fromUtf8Lossy.eq_def]
  dsimp only
  rw [if_neg (not_byte_lt 0x80 (Nat.le_trans (by decide) hlo)),
    if_neg (byte_not_between 0xc2 0xdf (.inr (Nat.lt_of_lt_of_le (by decide) hlo))),
    if_pos (byte_between 0xe0 0xef hlo hhi), if_pos h₁, if_pos h₂]

theorem fromUtf8Lossy_four (hlo : 0xf0 ≤ b₀.toNat) (hhi : b₀.toNat ≤ 0xf4)
    (h₁ : followsFour b₀ b₁ = true) (h₂ : isContinuation b₂ = true)
    (h₃ : isContinuation b₃ = true) (rest : List UInt8) :
    fromUtf8Lossy (b₀ :: b₁ :: b₂ :: b₃ :: rest) =
      Char.ofNat (((b₀.toNat % 8 * 64 + continuationBits b₁) * 64 + continuationBits b₂) * 64 +
        continuationBits b₃) :: fromUtf8Lossy rest := by
  rw [fromUtf8Lossy.eq_def]
  dsimp only
  rw [if_neg (not_byte_lt 0x80 (Nat.le_trans (by decide) hlo)),
    if_neg (byte_not_between 0xc2 0xdf (.inr (Nat.lt_of_lt_of_le (by decide) hlo))),
    if_neg (byte_not_between 0xe0 0xef (.inr (Nat.lt_of_lt_of_le (by decide) hlo))),
    if_pos (byte_between 0xf0 0xf4 hlo hhi), if_pos h₁, if_pos h₂, if_pos h₃]

theorem isContinuation_iff : isContinuation b₀ = true ↔ 0x80 ≤ b₀.toNat ∧ b₀.toNat ≤ 0xbf :=
  byte_between_iff b₀ 0x80 0xbf

/-- After the first byte of three, the second byte keeps the character from being too short or a
surrogate. -/
theorem followsThree_iff : followsThree b₀ b₁ = true ↔ isContinuation b₁ = true ∧
    (b₀.toNat = 0xe0 → 0xa0 ≤ b₁.toNat) ∧ (b₀.toNat = 0xed → b₁.toNat ≤ 0x9f) := by
  have he0 : b₀ = 0xe0 ↔ b₀.toNat = 0xe0 := UInt8.toNat_inj.symm
  have hed : b₀ = 0xed ↔ b₀.toNat = 0xed := UInt8.toNat_inj.symm
  have hlo : (0xa0 : UInt8).toNat = 0xa0 := rfl
  have hhi : (0x9f : UInt8).toNat = 0x9f := rfl
  have hfirst : (0x80 : UInt8).toNat = 0x80 := rfl
  have hlast : (0xbf : UInt8).toNat = 0xbf := rfl
  unfold followsThree
  split
  next h =>
    rw [he0] at h
    rw [byte_between_iff, isContinuation_iff]
    omega
  next h =>
  split
  next h' =>
    rw [hed] at h'
    rw [byte_between_iff, isContinuation_iff]
    omega
  next h' =>
    rw [he0] at h
    rw [hed] at h'
    rw [isContinuation_iff]
    omega

/-- After the first byte of four, the second byte keeps the character from being too short or behind
the last one. -/
theorem followsFour_iff : followsFour b₀ b₁ = true ↔ isContinuation b₁ = true ∧
    (b₀.toNat = 0xf0 → 0x90 ≤ b₁.toNat) ∧ (b₀.toNat = 0xf4 → b₁.toNat ≤ 0x8f) := by
  have hf0 : b₀ = 0xf0 ↔ b₀.toNat = 0xf0 := UInt8.toNat_inj.symm
  have hf4 : b₀ = 0xf4 ↔ b₀.toNat = 0xf4 := UInt8.toNat_inj.symm
  have hlo : (0x90 : UInt8).toNat = 0x90 := rfl
  have hhi : (0x8f : UInt8).toNat = 0x8f := rfl
  have hfirst : (0x80 : UInt8).toNat = 0x80 := rfl
  have hlast : (0xbf : UInt8).toNat = 0xbf := rfl
  unfold followsFour
  split
  next h =>
    rw [hf0] at h
    rw [byte_between_iff, isContinuation_iff]
    omega
  next h =>
  split
  next h' =>
    rw [hf4] at h'
    rw [byte_between_iff, isContinuation_iff]
    omega
  next h' =>
    rw [hf0] at h
    rw [hf4] at h'
    rw [isContinuation_iff]
    omega

end

/-- A byte in the numbers that a comparison reads. -/
theorem toNat_ofNat {n : Nat} (h : n < 256) : (UInt8.ofNat n).toNat = n := by
  rw [UInt8.toNat_ofNat']
  exact Nat.mod_eq_of_lt h

theorem toNat_continuation (n : Nat) : (UInt8.ofNat (n % 64 + 128)).toNat = n % 64 + 128 :=
  toNat_ofNat (by omega)

theorem isContinuation_ofNat (n : Nat) : isContinuation (UInt8.ofNat (n % 64 + 128)) = true := by
  rw [isContinuation_iff, toNat_continuation]
  omega

theorem continuationBits_ofNat (n : Nat) :
    continuationBits (UInt8.ofNat (n % 64 + 128)) = n % 64 := by
  unfold continuationBits
  rw [toNat_continuation]
  omega

/-- The decoder reads a character's bytes back as the character. -/
theorem fromUtf8Lossy_encode (c : Char) (rest : List UInt8) :
    fromUtf8Lossy (String.utf8EncodeChar c ++ rest) = c :: fromUtf8Lossy rest := by
  have hval : Char.ofNat c.val.toNat = c := Char.ofNat_toNat c
  have hscalar : c.val.toNat < 0xd800 ∨ 0xdfff < c.val.toNat ∧ c.val.toNat < 0x110000 := c.valid
  unfold String.utf8EncodeChar
  dsimp only
  generalize c.val.toNat = v at hval hscalar ⊢
  split
  next h₁ =>
    have hb : (UInt8.ofNat v).toNat = v := toNat_ofNat (by omega)
    rw [List.singleton_append, fromUtf8Lossy_ascii, hb, hval]
    rw [UInt8.lt_iff_toNat_lt, hb]
    exact Nat.lt_succ_of_le h₁
  next h₁ =>
  split
  next h₂ =>
    have hb : (UInt8.ofNat (v / 64 % 32 + 192)).toNat = v / 64 % 32 + 192 := toNat_ofNat (by omega)
    rw [List.cons_append, List.singleton_append, fromUtf8Lossy_two (by omega) (by omega)
      (isContinuation_ofNat v), hb, continuationBits_ofNat]
    have hsame : (v / 64 % 32 + 192) % 32 * 64 + v % 64 = v := by omega
    rw [hsame, hval]
  next h₂ =>
  split
  next h₃ =>
    have hb : (UInt8.ofNat (v / 4096 % 16 + 224)).toNat = v / 4096 % 16 + 224 :=
      toNat_ofNat (by omega)
    have hfollows : followsThree (UInt8.ofNat (v / 4096 % 16 + 224))
        (UInt8.ofNat (v / 64 % 64 + 128)) = true := by
      refine followsThree_iff.mpr ⟨isContinuation_ofNat _, ?_, ?_⟩
      · rw [hb, toNat_continuation]
        omega
      · rw [hb, toNat_continuation]
        omega
    rw [List.cons_append, List.cons_append, List.singleton_append, fromUtf8Lossy_three (by omega)
      (by omega) hfollows (isContinuation_ofNat v), hb, continuationBits_ofNat,
      continuationBits_ofNat]
    have hsame : ((v / 4096 % 16 + 224) % 16 * 64 + v / 64 % 64) * 64 + v % 64 = v := by omega
    rw [hsame, hval]
  next h₃ =>
    have hb : (UInt8.ofNat (v / 262144 % 8 + 240)).toNat = v / 262144 % 8 + 240 :=
      toNat_ofNat (by omega)
    have hfollows : followsFour (UInt8.ofNat (v / 262144 % 8 + 240))
        (UInt8.ofNat (v / 4096 % 64 + 128)) = true := by
      refine followsFour_iff.mpr ⟨isContinuation_ofNat _, ?_, ?_⟩
      · rw [hb, toNat_continuation]
        omega
      · rw [hb, toNat_continuation]
        omega
    rw [List.cons_append, List.cons_append, List.cons_append, List.singleton_append,
      fromUtf8Lossy_four (by omega) (by omega) hfollows (isContinuation_ofNat _)
        (isContinuation_ofNat v), hb, continuationBits_ofNat, continuationBits_ofNat,
      continuationBits_ofNat]
    have hsame : (((v / 262144 % 8 + 240) % 8 * 64 + v / 4096 % 64) * 64 + v / 64 % 64) * 64 +
        v % 64 = v := by omega
    rw [hsame, hval]

/-- A text is read back from its bytes, and what follows it is decoded by itself. -/
theorem fromUtf8Lossy_encode_append (text : List Char) (rest : List UInt8) :
    fromUtf8Lossy (encode text ++ rest) = text ++ fromUtf8Lossy rest := by
  induction text with
  | nil => rfl
  | cons c text ih =>
    rw [encode_cons, List.append_assoc, fromUtf8Lossy_encode, ih, List.cons_append]

theorem fromUtf8Lossy_text (text : List Char) : fromUtf8Lossy (encode text) = text := by
  have hread := fromUtf8Lossy_encode_append text []
  rwa [List.append_nil, fromUtf8Lossy.eq_def [], List.append_nil] at hread

/-! ## Parts of characters -/

/-- A number that takes more than one byte, as a character. -/
theorem utf8Size_ofNat {n : Nat} (hscalar : n < 0xd800 ∨ 0xdfff < n ∧ n < 0x110000) :
    (0x7f < n → 2 ≤ (Char.ofNat n).utf8Size) ∧ (0x7ff < n → 3 ≤ (Char.ofNat n).utf8Size) ∧
      (0xffff < n → 4 ≤ (Char.ofNat n).utf8Size) := by
  have hval : (Char.ofNat n).val.toNat = n := by
    rw [Char.ofNat, dif_pos hscalar]
    rfl
  have hone := (Char.ofNat n).utf8Size_eq_one_iff
  have htwo := (Char.ofNat n).utf8Size_eq_two_iff
  have hthree := (Char.ofNat n).utf8Size_eq_three_iff
  have hsize := (Char.ofNat n).utf8Size_eq
  simp only [UInt32.le_iff_toNat_le, UInt32.lt_iff_toNat_lt, hval] at hone htwo hthree
  have h7f : (127 : UInt32).toNat = 127 := rfl
  have h7ff : (0x7ff : UInt32).toNat = 0x7ff := rfl
  have hffff : (0xffff : UInt32).toNat = 0xffff := rfl
  omega

/-- The decoder took some bytes for one character, which has at least as many. -/
def Takes (bytes : List UInt8) (result : List Char) : Prop :=
  ∃ c taken left, bytes = taken ++ left ∧ taken ≠ [] ∧ taken.length ≤ c.utf8Size ∧
    result = c :: fromUtf8Lossy left

theorem takes_replacement {bytes : List UInt8} (taken left : List UInt8) (h : bytes = taken ++ left)
    (hsome : taken ≠ []) (hfew : taken.length ≤ 3) :
    Takes bytes ('\ufffd' :: fromUtf8Lossy left) :=
  ⟨'\ufffd', taken, left, h, hsome, hfew, rfl⟩

/-- Bytes that end inside of a character leave its replacement. -/
theorem takes_last {bytes : List UInt8} (hsome : bytes ≠ []) (hfew : bytes.length ≤ 3) :
    Takes bytes ['\ufffd'] :=
  takes_replacement bytes [] (List.append_nil _).symm hsome hfew

section

variable {b₀ b₁ b₂ b₃ : UInt8}

theorem takes_two (hlead : (decide (0xc2 ≤ b₀) && decide (b₀ ≤ 0xdf)) = true) (rest : List UInt8) :
    Takes (b₀ :: b₁ :: rest) (Char.ofNat (b₀.toNat % 32 * 64 + continuationBits b₁) ::
      fromUtf8Lossy rest) := by
  have hrange : 0xc2 ≤ b₀.toNat ∧ b₀.toNat ≤ 0xdf := (byte_between_iff b₀ 0xc2 0xdf).mp hlead
  unfold continuationBits
  exact ⟨_, [b₀, b₁], rest, rfl, List.cons_ne_nil _ _, (utf8Size_ofNat (by omega)).1 (by omega), rfl⟩

theorem takes_three (hlead : (decide (0xe0 ≤ b₀) && decide (b₀ ≤ 0xef)) = true)
    (hfollows : followsThree b₀ b₁ = true) (rest : List UInt8) :
    Takes (b₀ :: b₁ :: b₂ :: rest)
      (Char.ofNat ((b₀.toNat % 16 * 64 + continuationBits b₁) * 64 + continuationBits b₂) ::
        fromUtf8Lossy rest) := by
  have hrange : 0xe0 ≤ b₀.toNat ∧ b₀.toNat ≤ 0xef := (byte_between_iff b₀ 0xe0 0xef).mp hlead
  obtain ⟨hnext, hshort, hscalar⟩ := followsThree_iff.mp hfollows
  rw [isContinuation_iff] at hnext
  unfold continuationBits
  exact ⟨_, [b₀, b₁, b₂], rest, rfl, List.cons_ne_nil _ _,
    (utf8Size_ofNat (by omega)).2.1 (by omega), rfl⟩

theorem takes_four (hlead : (decide (0xf0 ≤ b₀) && decide (b₀ ≤ 0xf4)) = true)
    (hfollows : followsFour b₀ b₁ = true) (rest : List UInt8) :
    Takes (b₀ :: b₁ :: b₂ :: b₃ :: rest)
      (Char.ofNat (((b₀.toNat % 8 * 64 + continuationBits b₁) * 64 + continuationBits b₂) * 64 +
        continuationBits b₃) :: fromUtf8Lossy rest) := by
  have hrange : 0xf0 ≤ b₀.toNat ∧ b₀.toNat ≤ 0xf4 := (byte_between_iff b₀ 0xf0 0xf4).mp hlead
  obtain ⟨hnext, hshort, hlast⟩ := followsFour_iff.mp hfollows
  rw [isContinuation_iff] at hnext
  unfold continuationBits
  exact ⟨_, [b₀, b₁, b₂, b₃], rest, rfl, List.cons_ne_nil _ _,
    (utf8Size_ofNat (by omega)).2.2 (by omega), rfl⟩

/-- The decoder takes bytes for one character after the other. -/
theorem fromUtf8Lossy_takes (b₀ : UInt8) (rest : List UInt8) :
    Takes (b₀ :: rest) (fromUtf8Lossy (b₀ :: rest)) := by
  rw [fromUtf8Lossy.eq_def]
  dsimp only
  split
  next => exact ⟨_, [b₀], rest, rfl, List.cons_ne_nil _ _, Char.utf8Size_pos _, rfl⟩
  next =>
  split
  next hlead =>
    split
    next b₁ rest₁ =>
      split
      next => exact takes_two hlead rest₁
      next => exact takes_replacement [b₀] _ rfl (List.cons_ne_nil _ _) (Nat.le_add_left 1 2)
    next => exact takes_last (List.cons_ne_nil _ _) (Nat.le_add_left 1 2)
  next =>
  split
  next hlead =>
    split
    next b₁ rest₁ =>
      split
      next hfollows =>
        split
        next b₂ rest₂ =>
          split
          next => exact takes_three hlead hfollows rest₂
          next => exact takes_replacement [b₀, b₁] _ rfl (List.cons_ne_nil _ _) (Nat.le_add_left 2 1)
        next => exact takes_last (List.cons_ne_nil _ _) (Nat.le_add_left 2 1)
      next => exact takes_replacement [b₀] _ rfl (List.cons_ne_nil _ _) (Nat.le_add_left 1 2)
    next => exact takes_last (List.cons_ne_nil _ _) (Nat.le_add_left 1 2)
  next =>
  split
  next hlead =>
    split
    next b₁ rest₁ =>
      split
      next hfollows =>
        split
        next b₂ rest₂ =>
          split
          next =>
            split
            next b₃ rest₃ =>
              split
              next => exact takes_four hlead hfollows rest₃
              next =>
                exact takes_replacement [b₀, b₁, b₂] _ rfl (List.cons_ne_nil _ _) (Nat.le_refl 3)
            next => exact takes_last (List.cons_ne_nil _ _) (Nat.le_refl 3)
          next => exact takes_replacement [b₀, b₁] _ rfl (List.cons_ne_nil _ _) (Nat.le_add_left 2 1)
        next => exact takes_last (List.cons_ne_nil _ _) (Nat.le_add_left 2 1)
      next => exact takes_replacement [b₀] _ rfl (List.cons_ne_nil _ _) (Nat.le_add_left 1 2)
    next => exact takes_last (List.cons_ne_nil _ _) (Nat.le_add_left 1 2)
  next => exact takes_replacement [b₀] _ rfl (List.cons_ne_nil _ _) (Nat.le_add_left 1 2)

end

theorem length_le_fromUtf8Lossy (bytes : List UInt8) :
    bytes.length ≤ byteLength (fromUtf8Lossy bytes) := by
  induction h : bytes.length using Nat.strongRecOn generalizing bytes with
  | ind n ih =>
    cases bytes with
    | nil => exact h ▸ Nat.zero_le _
    | cons b₀ rest =>
      obtain ⟨c, taken, left, hsplit, hsome, hfew, heq⟩ := fromUtf8Lossy_takes b₀ rest
      have hlength := congrArg List.length hsplit
      rw [List.length_append, h] at hlength
      have hpos := List.length_pos_of_ne_nil hsome
      have hrest := ih left.length (by omega) left rfl
      rw [heq, hlength]
      show _ ≤ Ends.weight Char.utf8Size (c :: fromUtf8Lossy left)
      rw [Ends.weight_cons]
      exact Nat.add_le_add hfew hrest

/-- Bytes that begin inside of a character are decoded to more bytes than they are. -/
theorem length_lt_fromUtf8Lossy {b : UInt8} (h : isContinuation b = true) (rest : List UInt8) :
    (b :: rest).length < byteLength (fromUtf8Lossy (b :: rest)) := by
  obtain ⟨hlo, hhi⟩ := isContinuation_iff.mp h
  have hrest := length_le_fromUtf8Lossy rest
  rw [fromUtf8Lossy.eq_def]
  dsimp only
  rw [if_neg (not_byte_lt 0x80 hlo),
    if_neg (byte_not_between 0xc2 0xdf (.inl (Nat.lt_of_le_of_lt hhi (by decide)))),
    if_neg (byte_not_between 0xe0 0xef (.inl (Nat.lt_of_le_of_lt hhi (by decide)))),
    if_neg (byte_not_between 0xf0 0xf4 (.inl (Nat.lt_of_le_of_lt hhi (by decide))))]
  show _ < Ends.weight Char.utf8Size ('\ufffd' :: fromUtf8Lossy rest)
  have hsize : '\ufffd'.utf8Size = 3 := rfl
  rw [Ends.weight_cons, hsize, List.length_cons]
  show _ < 3 + byteLength (fromUtf8Lossy rest)
  omega

end AgentPlatform.Harness
