import AgentPlatform.Lib.JsonText
import Mathlib.Algebra.Order.Ring.Int

/-!
# Strings and integers of JSON text

What the pieces of a string spell and the piece that spells a character, and the same for the
digits of an integer.
-/

namespace Json

/-! ## Strings -/

/-- The character behind the backslash stands for this one. -/
def escaped (c : Char) : Char :=
  if c = 'b' then '\x08'
  else if c = 'f' then '\x0c'
  else if c = 'n' then '\n'
  else if c = 'r' then '\r'
  else if c = 't' then '\t'
  else c

def HexDigit.value (d : HexDigit) : Nat :=
  if d.1.isDigit then d.1.toNat - '0'.toNat
  else if 'a' ≤ d.1 then d.1.toNat - 'a'.toNat + 10
  else d.1.toNat - 'A'.toNat + 10

/-- The UTF-16 unit of an escape. -/
def Piece.unit? : Piece → Option Nat
  | .unicode a b c d => some (((a.value * 16 + b.value) * 16 + c.value) * 16 + d.value)
  | _ => none

/-- The character of a piece that stands alone. A surrogate does not. -/
def Piece.char? : Piece → Option Char
  | .plain c _ => some c
  | .escape c _ => some (escaped c)
  | .unicode a b c d =>
    ((Piece.unicode a b c d).unit?).bind fun n =>
      if 0xd800 ≤ n ∧ n ≤ 0xdfff then none else some (Char.ofNat n)

/-- The character of a pair of surrogates. -/
def surrogates (high low : Piece) : Option Char :=
  high.unit?.bind fun h =>
    low.unit?.bind fun l =>
      if (0xd800 ≤ h ∧ h ≤ 0xdbff) ∧ 0xdc00 ≤ l ∧ l ≤ 0xdfff then
        some (Char.ofNat ((h - 0xd800) * 0x400 + (l - 0xdc00) + 0x10000))
      else none

/-- The characters that the pieces spell. A surrogate without its other half spells none. -/
def readPieces : List Piece → Option (List Char)
  | [] => some []
  | piece :: rest =>
    match piece.char? with
    | some c => (readPieces rest).map (c :: ·)
    | none =>
      match rest with
      | [] => none
      | low :: rest => (surrogates piece low).bind fun c => (readPieces rest).map (c :: ·)

/-- The letter behind the backslash for a character that has one. -/
def shortEscape (c : Char) : Option Char :=
  if c = '"' then some '"'
  else if c = '\\' then some '\\'
  else if c = '\x08' then some 'b'
  else if c = '\x0c' then some 'f'
  else if c = '\n' then some 'n'
  else if c = '\r' then some 'r'
  else if c = '\t' then some 't'
  else none

theorem isHex_digitChar : ∀ n < 16, isHex (Nat.digitChar n) = true := by decide

def hexDigit (n : Nat) : HexDigit :=
  ⟨Nat.digitChar (n % 16), isHex_digitChar _ (Nat.mod_lt _ (by decide))⟩

/-- The piece for a character: itself, its escape of one letter, or its code. -/
def quote (c : Char) : Piece :=
  if h : isPlain c = true then .plain c h
  else
    match shortEscape c with
    | some e => if h : isEscape e = true then .escape e h else .plain ' ' rfl
    | none => .unicode (hexDigit 0) (hexDigit 0) (hexDigit (c.toNat / 16)) (hexDigit c.toNat)

/-- The document of a string. -/
def Doc.ofString (s : String) : Doc := .string (s.toList.map quote)

/-- The string that a document spells. -/
def Doc.string? : Doc → Option String
  | .string pieces => (readPieces pieces).map String.ofList
  | _ => none

/-- The characters below the space are the control characters. -/
theorem char?_quote_control : ∀ n < 32, (quote (Char.ofNat n)).char? = some (Char.ofNat n) := by
  decide

theorem char?_quote (c : Char) : (quote c).char? = some c := by
  by_cases hplain : isPlain c = true
  · rw [quote, dif_pos hplain]
    rfl
  · by_cases hquote : c = '"'
    · rw [hquote]
      decide
    · by_cases hslash : c = '\\'
      · rw [hslash]
        decide
      · have hlow : c.toNat < 32 := by
          have hspace : ¬ ' ' ≤ c := by
            intro h
            apply hplain
            simp [isPlain, hquote, hslash, h]
          have hlt : c < ' ' := Char.not_le.mp hspace
          exact hlt
        have hcontrol := char?_quote_control c.toNat hlow
        rwa [Char.ofNat_toNat] at hcontrol

theorem readPieces_cons {piece : Piece} {c : Char} (alone : piece.char? = some c)
    (rest : List Piece) : readPieces (piece :: rest) = (readPieces rest).map (c :: ·) := by
  rw [readPieces.eq_def]
  simp only [alone]

/-- What is written for a string spells it. -/
theorem readPieces_quote (cs : List Char) : readPieces (cs.map quote) = some cs := by
  induction cs with
  | nil => rfl
  | cons c cs ih =>
    rw [List.map_cons, readPieces_cons (char?_quote c), ih]
    rfl

/-- Characters that need no escape stand as they are. -/
theorem printPieces_quote {cs : List Char} (plain : ∀ c ∈ cs, isPlain c = true) :
    printPieces (cs.map quote) = cs := by
  induction cs with
  | nil => rfl
  | cons c cs ih =>
    have hrest := ih fun c' hc' => plain c' (List.mem_cons_of_mem _ hc')
    rw [List.map_cons, printPieces, List.flatMap_cons, quote, dif_pos (plain c List.mem_cons_self)]
    exact congrArg (c :: ·) hrest

theorem print_ofString {s : String} (plain : ∀ c ∈ s.toList, isPlain c = true) :
    (Doc.ofString s).print = '"' :: s.toList ++ ['"'] := by
  rw [Doc.ofString, Doc.print, printPieces_quote plain]

@[simp] theorem string?_ofString (s : String) : (Doc.ofString s).string? = some s := by
  rw [Doc.ofString, Doc.string?, readPieces_quote, Option.map_some, String.ofList_toList]

/-! ## Integers -/

/-- The integer of a number's text, if it is written as one. A zero with a sign is not. -/
def readInt : List Char → Option Int
  | [] => none
  | c :: cs =>
    if c = '-' then
      if cs.all Char.isDigit ∧ Nat.ofDigitChars 10 cs 0 ≠ 0 then
        some (-(Nat.ofDigitChars 10 cs 0 : Int))
      else none
    else if (c :: cs).all Char.isDigit then some (Nat.ofDigitChars 10 (c :: cs) 0)
    else none

/-- The text of an integer. -/
def writeInt (n : Int) : List Char :=
  if n < 0 then '-' :: Nat.toDigits 10 n.natAbs else Nat.toDigits 10 n.natAbs

theorem all_isDigit_toDigits (n : Nat) : (Nat.toDigits 10 n).all Char.isDigit = true :=
  List.all_eq_true.mpr fun _ hc => Nat.isDigit_of_mem_toDigits (by decide) (by decide) hc

theorem isNumeric_of_isDigit {c : Char} (digit : c.isDigit = true) : isNumeric c = true := by
  simp only [isNumeric, digit, Bool.true_or]

/-- The digits of a positive number begin with no zero. -/
theorem toDigits_head {n : Nat} (positive : 0 < n) :
    ∃ c cs, Nat.toDigits 10 n = c :: cs ∧ c ≠ '0' := by
  induction n using Nat.strongRecOn with
  | ind n ih =>
    by_cases hsmall : n < 10
    · refine ⟨n.digitChar, [], Nat.toDigits_of_lt_base hsmall, ?_⟩
      have hall : ∀ m < 10, 0 < m → m.digitChar ≠ '0' := by decide
      exact hall n hsmall positive
    · obtain ⟨c, cs, hdigits, hc⟩ := ih (n / 10) (by omega) (by omega)
      refine ⟨c, cs ++ [(n % 10).digitChar], ?_, hc⟩
      rw [Nat.toDigits_of_base_le (by decide) (by omega), hdigits]
      rfl

/-- The digits of a number are what an integer part may be. -/
theorem afterInteger_toDigits (n : Nat) : afterInteger (Nat.toDigits 10 n) = some [] := by
  obtain rfl | hpositive := Nat.eq_zero_or_pos n
  · decide
  · obtain ⟨c, cs, hdigits, hc⟩ := toDigits_head hpositive
    have hall := all_isDigit_toDigits n
    rw [hdigits, List.all_cons, Bool.and_eq_true] at hall
    have hdrop : cs.dropWhile Char.isDigit = [] := by
      have hstops : Stops Char.isDigit [] := by
        intro x hx
        cases hx
      have hspan := (span_append hall.2 hstops).2
      rwa [List.append_nil] at hspan
    rw [hdigits, afterInteger, if_neg hc, if_pos hall.1, hdrop]

theorem afterSign_toDigits (n : Nat) : afterSign (Nat.toDigits 10 n) = Nat.toDigits 10 n := by
  have hall := all_isDigit_toDigits n
  cases hdigits : Nat.toDigits 10 n with
  | nil => rfl
  | cons c cs =>
    rw [hdigits, List.all_cons, Bool.and_eq_true] at hall
    have hc : c ≠ '-' := by
      rintro rfl
      exact absurd hall.1 (by decide)
    rw [afterSign, if_neg hc]

theorem isNumber_writeInt (n : Int) : isNumber (writeInt n) = true := by
  have hnumeric : (Nat.toDigits 10 n.natAbs).all isNumeric = true := by
    have hall := all_isDigit_toDigits n.natAbs
    rw [List.all_eq_true] at hall ⊢
    intro c hc
    exact isNumeric_of_isDigit (hall c hc)
  rw [isNumber, writeInt, Bool.and_eq_true]
  split
  · refine ⟨?_, ?_⟩
    · rw [List.all_cons, hnumeric]
      rfl
    · rw [afterSign, if_pos rfl, afterInteger_toDigits]
      rfl
  · refine ⟨hnumeric, ?_⟩
    rw [afterSign_toDigits, afterInteger_toDigits]
    rfl

theorem readInt_writeInt (n : Int) : readInt (writeInt n) = some n := by
  have hall := all_isDigit_toDigits n.natAbs
  have hvalue : Nat.ofDigitChars 10 (Nat.toDigits 10 n.natAbs) 0 = n.natAbs :=
    Nat.ofDigitChars_toDigits (by decide) (by decide)
  rw [writeInt]
  split
  · rename_i hnegative
    have hnonzero : n.natAbs ≠ 0 := by omega
    rw [readInt, if_pos rfl, hvalue, if_pos ⟨hall, hnonzero⟩]
    congr 1
    omega
  · rename_i hnatural
    cases hdigits : Nat.toDigits 10 n.natAbs with
    | nil => exact absurd hdigits Nat.toDigits_ne_nil
    | cons c cs =>
      have hc : c ≠ '-' := by
        rintro rfl
        rw [hdigits, List.all_cons, Bool.and_eq_true] at hall
        exact absurd hall.1 (by decide)
      rw [readInt, if_neg hc, ← hdigits, if_pos hall, hvalue]
      congr 1
      omega

/-- The document of an integer. -/
def Doc.ofInt (n : Int) : Doc := .number ⟨writeInt n, isNumber_writeInt n⟩

/-- The integer that a document is. -/
def Doc.int? : Doc → Option Int
  | .number digits => readInt digits.1
  | _ => none

@[simp] theorem int?_ofInt (n : Int) : (Doc.ofInt n).int? = some n := readInt_writeInt n

end Json
