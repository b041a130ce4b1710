import Mathlib.Data.List.TakeWhile

/-!
# JSON text

A document is a JSON value with its layout: the whitespace between the tokens, the escapes of its
strings and the digits of its numbers. So it is its text, and every part of it has the text that it
has there. Printing a document and parsing the text gives the document back.
-/

namespace Json

/-! ## Characters -/

/-- Whitespace between tokens. -/
def isSpace (c : Char) : Bool := c == ' ' || c == '\n' || c == '\r' || c == '\t'

/-- A character that stands for itself in a string. -/
def isPlain (c : Char) : Bool := c != '"' && c != '\\' && ' ' ≤ c

/-- The letter of an escape of one letter. -/
def isEscape (c : Char) : Bool :=
  c == '"' || c == '\\' || c == '/' || c == 'b' || c == 'f' || c == 'n' || c == 'r' || c == 't'

def isHex (c : Char) : Bool := c.isDigit || 'a' ≤ c && c ≤ 'f' || 'A' ≤ c && c ≤ 'F'

/-- A character of a number. -/
def isNumeric (c : Char) : Bool :=
  c.isDigit || c == '-' || c == '+' || c == '.' || c == 'e' || c == 'E'

/-! ## Numbers -/

/-- What follows the integer part of a number. -/
def afterInteger : List Char → Option (List Char)
  | [] => none
  | c :: cs =>
    if c = '0' then some cs
    else if c.isDigit then some (cs.dropWhile Char.isDigit)
    else none

/-- What follows digits, of which there is at least one. -/
def afterDigits : List Char → Option (List Char)
  | [] => none
  | c :: cs => if c.isDigit then some (cs.dropWhile Char.isDigit) else none

/-- What follows the fraction of a number, if there is one. -/
def afterFraction : List Char → Option (List Char)
  | [] => some []
  | c :: cs => if c = '.' then afterDigits cs else some (c :: cs)

/-- What follows the exponent of a number, if there is one. -/
def afterExponent : List Char → Option (List Char)
  | [] => some []
  | c :: cs =>
    if c = 'e' ∨ c = 'E' then
      match cs with
      | [] => none
      | sign :: digits => if sign = '+' ∨ sign = '-' then afterDigits digits else afterDigits cs
    else some (c :: cs)

/-- What follows the sign of a number, if there is one. -/
def afterSign : List Char → List Char
  | [] => []
  | c :: cs => if c = '-' then cs else c :: cs

/-- The grammar of a number. -/
def isNumber (cs : List Char) : Bool :=
  cs.all isNumeric &&
    ((afterInteger (afterSign cs)).bind fun rest => (afterFraction rest).bind afterExponent) == some []

/-! ## Documents -/

/-- The text of whitespace. -/
abbrev Space := { cs : List Char // cs.all isSpace = true }

/-- The text of a number. -/
abbrev Digits := { cs : List Char // isNumber cs = true }

abbrev HexDigit := { c : Char // isHex c = true }

/-- A piece of the text of a string. -/
inductive Piece where
  | plain (c : Char) (ok : isPlain c = true)
  | escape (c : Char) (ok : isEscape c = true)
  | unicode (a b c d : HexDigit)
deriving DecidableEq

mutual

/-- A JSON value with its layout. -/
inductive Doc where
  | null
  | bool (b : Bool)
  | number (digits : Digits)
  | string (pieces : List Piece)
  | emptyArray (space : Space)
  | array (items : Items)
  | emptyObject (space : Space)
  | object (fields : Fields)

/-- The items of an array, with the whitespace around each. -/
inductive Items where
  | last (before : Space) (value : Doc) (after : Space)
  | more (before : Space) (value : Doc) (after : Space) (rest : Items)

/-- The fields of an object, with the whitespace around each key and value. -/
inductive Fields where
  | last (before : Space) (key : List Piece) (middle gap : Space) (value : Doc) (after : Space)
  | more (before : Space) (key : List Piece) (middle gap : Space) (value : Doc) (after : Space)
      (rest : Fields)

end

/-- The documents of the items. -/
def Items.toList : Items → List Doc
  | .last _ value _ => [value]
  | .more _ value _ rest => value :: rest.toList

/-- The keys and the documents of the fields. -/
def Fields.toList : Fields → List (List Piece × Doc)
  | .last _ key _ _ value _ => [(key, value)]
  | .more _ key _ _ value _ rest => (key, value) :: rest.toList

/-! ## Printing -/

def Piece.print : Piece → List Char
  | .plain c _ => [c]
  | .escape c _ => ['\\', c]
  | .unicode a b c d => ['\\', 'u', a.1, b.1, c.1, d.1]

/-- The text between the quotes of a string. -/
def printPieces (pieces : List Piece) : List Char := pieces.flatMap Piece.print

/-- A key with the colon behind it. -/
def printKey (key : List Piece) (middle gap : Space) : List Char :=
  '"' :: printPieces key ++ '"' :: middle.1 ++ ':' :: gap.1

mutual

def Doc.print : Doc → List Char
  | .null => ['n', 'u', 'l', 'l']
  | .bool true => ['t', 'r', 'u', 'e']
  | .bool false => ['f', 'a', 'l', 's', 'e']
  | .number digits => digits.1
  | .string pieces => '"' :: printPieces pieces ++ ['"']
  | .emptyArray space => '[' :: space.1 ++ [']']
  | .array items => '[' :: items.print ++ [']']
  | .emptyObject space => '{' :: space.1 ++ ['}']
  | .object fields => '{' :: fields.print ++ ['}']

def Items.print : Items → List Char
  | .last before value after => before.1 ++ value.print ++ after.1
  | .more before value after rest => before.1 ++ value.print ++ after.1 ++ ',' :: rest.print

def Fields.print : Fields → List Char
  | .last before key middle gap value after =>
    before.1 ++ printKey key middle gap ++ value.print ++ after.1
  | .more before key middle gap value after rest =>
    before.1 ++ printKey key middle gap ++ value.print ++ after.1 ++ ',' :: rest.print

end

/-- The text of a document, which is the raw text of that part where it stands in another. -/
def Doc.text (d : Doc) : String := String.ofList d.print

/-! ## Parsing -/

theorem all_takeWhile (p : Char → Bool) (cs : List Char) : (cs.takeWhile p).all p = true :=
  List.all_eq_true.mpr fun _ hc => List.mem_takeWhile_imp hc

def parseSpace (cs : List Char) : Space × List Char :=
  (⟨cs.takeWhile isSpace, all_takeWhile isSpace cs⟩, cs.dropWhile isSpace)

/-- A piece of a string and what follows it. -/
def parsePiece : List Char → Option (Piece × List Char)
  | [] => none
  | c :: cs =>
    if h : isPlain c = true then some (.plain c h, cs)
    else if c = '\\' then
      match cs with
      | [] => none
      | e :: cs =>
        if h : isEscape e = true then some (.escape e h, cs)
        else
          match e, cs with
          | 'u', x :: y :: z :: w :: cs =>
            if h : isHex x = true ∧ isHex y = true ∧ isHex z = true ∧ isHex w = true then
              some (.unicode ⟨x, h.1⟩ ⟨y, h.2.1⟩ ⟨z, h.2.2.1⟩ ⟨w, h.2.2.2⟩, cs)
            else none
          | _, _ => none
    else none

/-- The pieces of a string and what follows it, from behind the opening quote. The fuel bounds the
length of the text. -/
def parsePieces : Nat → List Char → Option (List Piece × List Char)
  | 0, _ => none
  | _ + 1, [] => none
  | fuel + 1, c :: cs =>
    if c = '"' then some ([], cs)
    else
      (parsePiece (c :: cs)).bind fun (piece, rest) =>
        (parsePieces fuel rest).map fun (pieces, rest) => (piece :: pieces, rest)

/-- The rest of a word, and what follows it. -/
def parseWord (word : List Char) (d : Doc) (cs : List Char) : Option (Doc × List Char) :=
  if cs.take word.length = word then some (d, cs.drop word.length) else none

/-- A number and what follows it. -/
def parseNumber (cs : List Char) : Option (Doc × List Char) :=
  if h : isNumber (cs.takeWhile isNumeric) = true then
    some (.number ⟨cs.takeWhile isNumeric, h⟩, cs.dropWhile isNumeric)
  else none

/-- A key with the colon behind it and the whitespace around that, and what follows. -/
def parseKey : List Char → Option ((List Piece × Space × Space) × List Char)
  | [] => none
  | c :: cs =>
    if c = '"' then
      (parsePieces (cs.length + 1) cs).bind fun (key, rest) =>
        match (parseSpace rest).2 with
        | [] => none
        | c :: tail =>
          if c = ':' then
            some ((key, (parseSpace rest).1, (parseSpace tail).1), (parseSpace tail).2)
          else none
    else none

mutual

/-- A document and what follows it. The fuel bounds the length of the text. -/
def parseDoc : Nat → List Char → Option (Doc × List Char)
  | 0, _ => none
  | _ + 1, [] => none
  | fuel + 1, c :: cs =>
    if c = 'n' then parseWord ['u', 'l', 'l'] .null cs
    else if c = 't' then parseWord ['r', 'u', 'e'] (.bool true) cs
    else if c = 'f' then parseWord ['a', 'l', 's', 'e'] (.bool false) cs
    else if c = '"' then (parsePieces (cs.length + 1) cs).map fun (pieces, rest) => (.string pieces, rest)
    else if c = '[' then
      let (space, rest) := parseSpace cs
      if rest.head? = some ']' then some (.emptyArray space, rest.tail)
      else (parseItems fuel space rest).map fun (items, rest) => (.array items, rest)
    else if c = '{' then
      let (space, rest) := parseSpace cs
      if rest.head? = some '}' then some (.emptyObject space, rest.tail)
      else (parseFields fuel space rest).map fun (fields, rest) => (.object fields, rest)
    else parseNumber (c :: cs)

/-- The items of an array from behind the whitespace before the first, and what follows the closing
bracket. -/
def parseItems : Nat → Space → List Char → Option (Items × List Char)
  | 0, _, _ => none
  | fuel + 1, before, cs =>
    (parseDoc fuel cs).bind fun (value, rest) =>
      match (parseSpace rest).2 with
      | [] => none
      | c :: tail =>
        if c = ',' then
          (parseItems fuel (parseSpace tail).1 (parseSpace tail).2).map fun (items, rest') =>
            (.more before value (parseSpace rest).1 items, rest')
        else if c = ']' then some (.last before value (parseSpace rest).1, tail)
        else none

/-- The fields of an object, likewise. -/
def parseFields : Nat → Space → List Char → Option (Fields × List Char)
  | 0, _, _ => none
  | fuel + 1, before, cs =>
    (parseKey cs).bind fun ((key, middle, gap), rest) =>
      (parseDoc fuel rest).bind fun (value, rest) =>
        match (parseSpace rest).2 with
        | [] => none
        | c :: tail =>
          if c = ',' then
            (parseFields fuel (parseSpace tail).1 (parseSpace tail).2).map fun (fields, rest') =>
              (.more before key middle gap value (parseSpace rest).1 fields, rest')
          else if c = '}' then some (.last before key middle gap value (parseSpace rest).1, tail)
          else none

end

/-- The document of a text, which may stand between whitespace. -/
def parse (text : String) : Option Doc :=
  (parseDoc (text.toList.length + 1) (text.toList.dropWhile isSpace)).bind fun (d, rest) =>
    if rest.all isSpace then some d else none

/-! ## Parsing what was printed -/

/-- What follows does not continue a run of characters. -/
def Stops (p : Char → Bool) (cs : List Char) : Prop := ∀ c ∈ cs.head?, p c = false

theorem span_append {p : Char → Bool} {xs ys : List Char} (all : xs.all p = true)
    (stops : Stops p ys) : (xs ++ ys).takeWhile p = xs ∧ (xs ++ ys).dropWhile p = ys := by
  induction xs with
  | nil =>
    cases ys with
    | nil => exact ⟨rfl, rfl⟩
    | cons y ys =>
      have hy : p y = false := stops y rfl
      simp [hy]
  | cons x xs ih =>
    rw [List.all_cons, Bool.and_eq_true] at all
    obtain ⟨htake, hdrop⟩ := ih all.2
    simp [all.1, htake, hdrop]

theorem parseSpace_append (space : Space) {cs : List Char} (stops : Stops isSpace cs) :
    parseSpace (space.1 ++ cs) = (space, cs) := by
  obtain ⟨htake, hdrop⟩ := span_append space.2 stops
  simp only [parseSpace, htake, hdrop]

theorem parseSpace_cons (space : Space) {c : Char} (other : isSpace c = false) (cs : List Char) :
    parseSpace (space.1 ++ c :: cs) = (space, c :: cs) := by
  refine parseSpace_append space ?_
  intro x hx
  cases hx
  exact other

theorem parsePiece_print (piece : Piece) (rest : List Char) :
    parsePiece (piece.print ++ rest) = some (piece, rest) := by
  cases piece with
  | plain c ok =>
    show parsePiece (c :: rest) = _
    simp only [parsePiece, dif_pos ok]
  | escape e ok =>
    show parsePiece ('\\' :: e :: rest) = _
    have hslash : ¬ isPlain '\\' = true := by decide
    simp only [parsePiece, dif_neg hslash, if_pos, dif_pos ok]
  | unicode x y z w =>
    show parsePiece ('\\' :: 'u' :: x.1 :: y.1 :: z.1 :: w.1 :: rest) = _
    have hslash : ¬ isPlain '\\' = true := by decide
    have hletter : ¬ isEscape 'u' = true := by decide
    simp only [parsePiece, dif_neg hslash, if_pos, dif_neg hletter]
    rw [dif_pos ⟨x.2, y.2, z.2, w.2⟩]

/-- The text of a piece begins with no quote. -/
theorem Piece.print_head (piece : Piece) :
    ∃ c cs, piece.print = c :: cs ∧ c ≠ '"' := by
  cases piece with
  | plain c ok =>
    refine ⟨c, [], rfl, ?_⟩
    rintro rfl
    exact absurd ok (by decide)
  | escape e ok => exact ⟨_, _, rfl, by decide⟩
  | unicode x y z w => exact ⟨_, _, rfl, by decide⟩

theorem parsePieces_print {pieces : List Piece} {fuel : Nat} (enough : pieces.length < fuel)
    (rest : List Char) :
    parsePieces fuel (printPieces pieces ++ '"' :: rest) = some (pieces, rest) := by
  induction pieces generalizing fuel with
  | nil =>
    cases fuel with
    | zero => omega
    | succ fuel => rfl
  | cons piece pieces ih =>
    cases fuel with
    | zero => omega
    | succ fuel =>
      obtain ⟨c, cs, hprint, hquote⟩ := piece.print_head
      have htext : printPieces (piece :: pieces) ++ '"' :: rest =
          piece.print ++ (printPieces pieces ++ '"' :: rest) := by
        simp [printPieces]
      have hparse := parsePiece_print piece (printPieces pieces ++ '"' :: rest)
      rw [List.length_cons] at enough
      rw [htext]
      rw [hprint] at hparse ⊢
      show parsePieces (fuel + 1) (c :: (cs ++ _)) = _
      simp only [parsePieces]
      rw [if_neg hquote]
      rw [List.cons_append] at hparse
      rw [hparse, Option.bind_some, ih (by omega)]
      rfl

theorem length_printPieces (pieces : List Piece) : pieces.length ≤ (printPieces pieces).length := by
  induction pieces with
  | nil => exact Nat.le_refl _
  | cons piece pieces ih =>
    obtain ⟨c, cs, hprint, -⟩ := piece.print_head
    have htext : printPieces (piece :: pieces) = c :: cs ++ printPieces pieces := by
      rw [← hprint]
      rfl
    rw [htext]
    simp only [List.cons_append, List.length_cons, List.length_append]
    omega

/-- The pieces of a string are parsed from its text. -/
theorem parsePieces_quoted (pieces : List Piece) (rest : List Char) :
    parsePieces ((printPieces pieces ++ '"' :: rest).length + 1) (printPieces pieces ++ '"' :: rest) =
      some (pieces, rest) := by
  refine parsePieces_print ?_ rest
  have hlength := length_printPieces pieces
  rw [List.length_append]
  omega

theorem parseKey_print (key : List Piece) (middle gap : Space) {rest : List Char}
    (stops : Stops isSpace rest) :
    parseKey (printKey key middle gap ++ rest) = some ((key, middle, gap), rest) := by
  have htext : printKey key middle gap ++ rest =
      '"' :: (printPieces key ++ '"' :: (middle.1 ++ ':' :: (gap.1 ++ rest))) := by
    simp [printKey]
  have hmiddle : parseSpace (middle.1 ++ ':' :: (gap.1 ++ rest)) =
      (middle, ':' :: (gap.1 ++ rest)) :=
    parseSpace_cons middle (by decide) _
  rw [htext]
  simp only [parseKey, if_pos, parsePieces_quoted, Option.bind_some, hmiddle,
    parseSpace_append gap stops]

/-! ## Documents -/

/-- How the text of a document begins. -/
def isStart (c : Char) : Bool :=
  c == 'n' || c == 't' || c == 'f' || c == '"' || c == '[' || c == '{' || c == '-' || c.isDigit

/-- A start character is none that is not. -/
theorem isStart_ne {c x : Char} (start : isStart c = true) (other : isStart x = false) : c ≠ x := by
  rintro rfl
  rw [start] at other
  cases other

theorem isStart_not_space {c : Char} (start : isStart c = true) : isSpace c = false := by
  by_contra h
  simp only [isSpace, Bool.not_eq_false, Bool.or_eq_true, beq_iff_eq] at h
  obtain ((rfl | rfl) | rfl) | rfl := h <;> exact absurd start (by decide)

/-- Behind whitespace and a character of no number, no number goes on. -/
theorem stops_space (space : Space) {c : Char} (other : isNumeric c = false) (cs : List Char) :
    Stops isNumeric (space.1 ++ c :: cs) := by
  obtain ⟨chars, all⟩ := space
  cases chars with
  | nil =>
    intro x hx
    cases hx
    exact other
  | cons s chars =>
    intro x hx
    cases hx
    rw [List.all_cons, Bool.and_eq_true] at all
    have hspace := all.1
    simp only [isSpace, Bool.or_eq_true, beq_iff_eq] at hspace
    obtain ((rfl | rfl) | rfl) | rfl := hspace <;> decide

/-- A number begins with its sign or a digit. -/
theorem isNumber_head {cs : List Char} (number : isNumber cs = true) :
    ∃ c tail, cs = c :: tail ∧ (c = '-' ∨ c.isDigit = true) := by
  cases cs with
  | nil => exact absurd number (by decide)
  | cons c tail =>
    refine ⟨c, tail, rfl, ?_⟩
    by_cases hsign : c = '-'
    · exact .inl hsign
    · right
      rw [isNumber, Bool.and_eq_true] at number
      have hgrammar := number.2
      simp only [afterSign, if_neg hsign, afterInteger] at hgrammar
      split at hgrammar
      · rename_i hzero
        rw [hzero]
        decide
      · split at hgrammar
        · assumption
        · cases hgrammar

theorem Doc.print_head (d : Doc) : ∃ c cs, d.print = c :: cs ∧ isStart c = true := by
  cases d with
  | number digits =>
    obtain ⟨c, tail, hdigits, hc⟩ := isNumber_head digits.2
    refine ⟨c, tail, hdigits, ?_⟩
    obtain rfl | hc := hc
    · decide
    · simp only [isStart, hc, Bool.or_true]
  | bool b => cases b <;> exact ⟨_, _, rfl, by decide⟩
  | _ => exact ⟨_, _, rfl, by decide⟩

/-- No whitespace leads the text of a document. -/
theorem Doc.print_stops (d : Doc) (cs : List Char) : Stops isSpace (d.print ++ cs) := by
  obtain ⟨c, tail, hprint, hstart⟩ := d.print_head
  rw [hprint]
  intro x hx
  cases hx
  exact isStart_not_space hstart

theorem Items.print_split (items : Items) (cs : List Char) :
    ∃ before d tail, parseSpace (items.print ++ cs) = (before, Doc.print d ++ tail) := by
  cases items with
  | last before value after =>
    refine ⟨before, value, after.1 ++ cs, ?_⟩
    rw [Items.print, List.append_assoc, List.append_assoc]
    exact parseSpace_append before (value.print_stops _)
  | more before value after rest =>
    refine ⟨before, value, after.1 ++ ',' :: rest.print ++ cs, ?_⟩
    rw [Items.print, List.append_assoc, List.append_assoc, List.append_assoc, List.append_assoc]
    exact parseSpace_append before (value.print_stops _)

theorem Fields.print_split (fields : Fields) (cs : List Char) :
    ∃ before tail, parseSpace (fields.print ++ cs) = (before, '"' :: tail) := by
  have hquote : ∀ tail, Stops isSpace ('"' :: tail) := by
    intro tail c hc
    cases hc
    decide
  cases fields with
  | last before key middle gap value after =>
    exact ⟨before, _, by
      rw [Fields.print, printKey]
      simp only [List.append_assoc, List.cons_append]
      exact parseSpace_append before (hquote _)⟩
  | more before key middle gap value after rest =>
    exact ⟨before, _, by
      rw [Fields.print, printKey]
      simp only [List.append_assoc, List.cons_append]
      exact parseSpace_append before (hquote _)⟩

theorem printKey_stops (key : List Piece) (middle gap : Space) (cs : List Char) :
    Stops isSpace (printKey key middle gap ++ cs) := by
  intro x hx
  cases hx
  decide

mutual

theorem parseDoc_print (d : Doc) {fuel : Nat} (enough : d.print.length < fuel) {rest : List Char}
    (stops : Stops isNumeric rest) : parseDoc fuel (d.print ++ rest) = some (d, rest) := by
  cases fuel with
  | zero => omega
  | succ fuel =>
    cases d with
    | null => simp [Doc.print, parseDoc, parseWord]
    | bool b => cases b <;> simp [Doc.print, parseDoc, parseWord]
    | number digits =>
      obtain ⟨c, tail, hdigits, hc⟩ := isNumber_head digits.2
      have hall : digits.1.all isNumeric = true := by
        have hnumber := digits.2
        rw [isNumber, Bool.and_eq_true] at hnumber
        exact hnumber.1
      obtain ⟨htake, hdrop⟩ := span_append hall stops
      have hother : c ≠ 'n' ∧ c ≠ 't' ∧ c ≠ 'f' ∧ c ≠ '"' ∧ c ≠ '[' ∧ c ≠ '{' := by
        refine ⟨?_, ?_, ?_, ?_, ?_, ?_⟩ <;> rintro rfl <;> exact absurd hc (by decide)
      obtain ⟨hn, ht, hf, hquote, hbracket, hbrace⟩ := hother
      have hparse : parseNumber (digits.1 ++ rest) = some (.number digits, rest) := by
        simp only [parseNumber, htake, hdrop, dif_pos digits.2]
      rw [Doc.print]
      rw [hdigits, List.cons_append] at hparse ⊢
      simp only [parseDoc, if_neg hn, if_neg ht, if_neg hf, if_neg hquote, if_neg hbracket,
        if_neg hbrace, hparse]
    | string pieces =>
      have htext : (Doc.string pieces).print ++ rest = '"' :: (printPieces pieces ++ '"' :: rest) := by
        simp [Doc.print]
      rw [htext]
      simp only [parseDoc, parsePieces_quoted, Option.map_some]
      rfl
    | emptyArray space =>
      have htext : (Doc.emptyArray space).print ++ rest = '[' :: (space.1 ++ ']' :: rest) := by
        simp [Doc.print]
      have hspace : parseSpace (space.1 ++ ']' :: rest) = (space, ']' :: rest) :=
        parseSpace_cons space (by decide) _
      rw [htext]
      simp only [parseDoc, hspace]
      rfl
    | array items =>
      have htext : (Doc.array items).print ++ rest = '[' :: (items.print ++ ']' :: rest) := by
        simp [Doc.print]
      have hlength : items.print.length + 1 < fuel := by
        rw [Doc.print] at enough
        simp only [List.cons_append, List.length_cons, List.length_append, List.length_nil] at enough
        omega
      have hitems := parseItems_print items hlength rest
      obtain ⟨before, value, tail, hspace⟩ := items.print_split (']' :: rest)
      obtain ⟨c, cs, hprint, hstart⟩ := value.print_head
      have hhead : (Doc.print value ++ tail).head? ≠ some ']' := by
        rw [hprint]
        intro h
        exact isStart_ne hstart (by decide) (Option.some.inj h)
      rw [hspace] at hitems
      rw [htext]
      simp only [parseDoc, hspace]
      rw [if_neg hhead, hitems]
      rfl
    | emptyObject space =>
      have htext : (Doc.emptyObject space).print ++ rest = '{' :: (space.1 ++ '}' :: rest) := by
        simp [Doc.print]
      have hspace : parseSpace (space.1 ++ '}' :: rest) = (space, '}' :: rest) :=
        parseSpace_cons space (by decide) _
      rw [htext]
      simp only [parseDoc, hspace]
      rfl
    | object fields =>
      have htext : (Doc.object fields).print ++ rest = '{' :: (fields.print ++ '}' :: rest) := by
        simp [Doc.print]
      have hlength : fields.print.length + 1 < fuel := by
        rw [Doc.print] at enough
        simp only [List.cons_append, List.length_cons, List.length_append, List.length_nil] at enough
        omega
      have hfields := parseFields_print fields hlength rest
      obtain ⟨before, tail, hspace⟩ := fields.print_split ('}' :: rest)
      have hhead : ('"' :: tail).head? ≠ some '}' := by
        intro h
        exact absurd (Option.some.inj h) (by decide)
      rw [hspace] at hfields
      rw [htext]
      simp only [parseDoc, hspace]
      rw [if_neg hhead, hfields]
      rfl

theorem parseItems_print (items : Items) {fuel : Nat} (enough : items.print.length + 1 < fuel)
    (rest : List Char) :
    parseItems fuel (parseSpace (items.print ++ ']' :: rest)).1
      (parseSpace (items.print ++ ']' :: rest)).2 = some (items, rest) := by
  cases fuel with
  | zero => omega
  | succ fuel =>
    cases items with
    | last before value after =>
      have htext : (Items.last before value after).print ++ ']' :: rest =
          before.1 ++ (value.print ++ (after.1 ++ ']' :: rest)) := by
        simp [Items.print]
      have hlength : value.print.length < fuel := by
        rw [Items.print] at enough
        simp only [List.length_append] at enough
        omega
      have hafter : parseSpace (after.1 ++ ']' :: rest) = (after, ']' :: rest) :=
        parseSpace_cons after (by decide) _
      rw [htext, parseSpace_append before (value.print_stops _)]
      simp only [parseItems]
      rw [parseDoc_print value hlength (stops_space after (by decide) rest)]
      simp only [Option.bind_some, hafter]
      rfl
    | more before value after items =>
      have htext : (Items.more before value after items).print ++ ']' :: rest =
          before.1 ++ (value.print ++ (after.1 ++ ',' :: (items.print ++ ']' :: rest))) := by
        simp [Items.print]
      have hlength : value.print.length < fuel ∧ items.print.length + 1 < fuel := by
        rw [Items.print] at enough
        simp only [List.length_append, List.length_cons] at enough
        omega
      have hafter : parseSpace (after.1 ++ ',' :: (items.print ++ ']' :: rest)) =
          (after, ',' :: (items.print ++ ']' :: rest)) :=
        parseSpace_cons after (by decide) _
      rw [htext, parseSpace_append before (value.print_stops _)]
      simp only [parseItems]
      rw [parseDoc_print value hlength.1 (stops_space after (by decide) _)]
      simp only [Option.bind_some, hafter, if_pos, parseItems_print items hlength.2 rest]
      rfl

theorem parseFields_print (fields : Fields) {fuel : Nat} (enough : fields.print.length + 1 < fuel)
    (rest : List Char) :
    parseFields fuel (parseSpace (fields.print ++ '}' :: rest)).1
      (parseSpace (fields.print ++ '}' :: rest)).2 = some (fields, rest) := by
  cases fuel with
  | zero => omega
  | succ fuel =>
    cases fields with
    | last before key middle gap value after =>
      have htext : (Fields.last before key middle gap value after).print ++ '}' :: rest =
          before.1 ++ (printKey key middle gap ++ (value.print ++ (after.1 ++ '}' :: rest))) := by
        simp [Fields.print]
      have hlength : value.print.length < fuel := by
        rw [Fields.print] at enough
        simp only [List.length_append] at enough
        omega
      have hafter : parseSpace (after.1 ++ '}' :: rest) = (after, '}' :: rest) :=
        parseSpace_cons after (by decide) _
      rw [htext, parseSpace_append before (printKey_stops key middle gap _)]
      simp only [parseFields]
      rw [parseKey_print key middle gap (value.print_stops _), Option.bind_some]
      simp only []
      rw [parseDoc_print value hlength (stops_space after (by decide) rest)]
      simp only [Option.bind_some, hafter]
      rfl
    | more before key middle gap value after fields =>
      have htext : (Fields.more before key middle gap value after fields).print ++ '}' :: rest =
          before.1 ++ (printKey key middle gap ++
            (value.print ++ (after.1 ++ ',' :: (fields.print ++ '}' :: rest)))) := by
        simp [Fields.print]
      have hlength : value.print.length < fuel ∧ fields.print.length + 1 < fuel := by
        rw [Fields.print] at enough
        simp only [List.length_append, List.length_cons] at enough
        omega
      have hafter : parseSpace (after.1 ++ ',' :: (fields.print ++ '}' :: rest)) =
          (after, ',' :: (fields.print ++ '}' :: rest)) :=
        parseSpace_cons after (by decide) _
      rw [htext, parseSpace_append before (printKey_stops key middle gap _)]
      simp only [parseFields]
      rw [parseKey_print key middle gap (value.print_stops _), Option.bind_some]
      simp only []
      rw [parseDoc_print value hlength.1 (stops_space after (by decide) _)]
      simp only [Option.bind_some, hafter, if_pos, parseFields_print fields hlength.2 rest]
      rfl

end

/-- A document is parsed from its text. -/
theorem parse_text (d : Doc) : parse d.text = some d := by
  have hdrop : d.print.dropWhile isSpace = d.print := by
    have hspace := parseSpace_append ⟨[], rfl⟩ (d.print_stops [])
    rw [List.append_nil] at hspace
    exact (Prod.mk.inj hspace).2
  have hstops : Stops isNumeric [] := by
    intro c hc
    cases hc
  have hparse := parseDoc_print d (Nat.lt_succ_self _) hstops
  rw [List.append_nil] at hparse
  have hchars : d.text.toList = d.print := String.toList_ofList
  rw [parse, hchars, hdrop, hparse]
  rfl

end Json
