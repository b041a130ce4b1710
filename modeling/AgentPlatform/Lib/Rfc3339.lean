import Mathlib.Algebra.Order.Ring.Nat

/-!
# Times as RFC 3339 text

A time is a number of microseconds from 1970 on. `instant` is the time that a text denotes: a date of
the proleptic Gregorian calendar, a time of day in UTC and up to six digits of the second. A year
that does not have four digits carries its sign. `text` is the text with none, three or six digits
of the second, whichever suffice.
-/

namespace Rfc3339

/-! ## Days -/

/-- The days from the first of year 0 to the first of the year. -/
def daysBeforeYear (year : Int) : Int :=
  365 * year + (year + 3) / 4 - (year + 99) / 100 + (year + 399) / 400

/-- The year of a day. The estimate by the mean year is off by one at most. -/
def yearOf (n : Int) : Int :=
  let year := 400 * n / 146097
  if n < daysBeforeYear year then year - 1
  else if daysBeforeYear (year + 1) ≤ n then year + 1
  else year

theorem yearOf_spec (n : Int) :
    daysBeforeYear (yearOf n) ≤ n ∧ n < daysBeforeYear (yearOf n + 1) := by
  simp only [yearOf]
  generalize hyear : 400 * n / 146097 = year
  have hlow : 146097 * year ≤ 400 * n := by omega
  have hhigh : 400 * n < 146097 * (year + 1) := by omega
  clear hyear
  split
  · rename_i hbefore
    rw [Int.sub_add_cancel]
    refine ⟨?_, hbefore⟩
    unfold daysBeforeYear
    omega
  · split
    · rename_i hafter
      refine ⟨hafter, ?_⟩
      unfold daysBeforeYear
      omega
    · omega

def isLeap (year : Int) : Bool := year % 4 = 0 && (year % 100 ≠ 0 || year % 400 = 0)

theorem daysBeforeYear_succ (year : Int) :
    daysBeforeYear (year + 1) = daysBeforeYear year + if isLeap year then 366 else 365 := by
  unfold daysBeforeYear isLeap
  simp only [Bool.and_eq_true, decide_eq_true_eq, Bool.or_eq_true]
  split <;> omega

def monthLengths (leap : Bool) : List Nat :=
  [31, if leap then 29 else 28, 31, 30, 31, 30, 31, 31, 30, 31, 30, 31]

/-- The place of the `n`-th day of spans of days: its span, and its day in it. -/
def place : List Nat → Nat → Nat × Nat
  | [], n => (0, n)
  | length :: lengths, n =>
    if n < length then (0, n) else ((place lengths (n - length)).1 + 1, (place lengths (n - length)).2)

theorem place_spec {lengths : List Nat} {n : Nat} (h : n < lengths.sum) :
    ∃ length, lengths[(place lengths n).1]? = some length ∧ (place lengths n).2 < length ∧
      (lengths.take (place lengths n).1).sum + (place lengths n).2 = n := by
  induction lengths generalizing n with
  | nil => exact absurd h (Nat.not_lt_zero n)
  | cons length lengths ih =>
    rw [place]
    split
    · rename_i hlt
      exact ⟨length, rfl, hlt, Nat.zero_add n⟩
    · rename_i hge
      rw [List.sum_cons] at h
      obtain ⟨length', hget, hlt, hsum⟩ := ih (n := n - length) (by omega)
      refine ⟨length', hget, hlt, ?_⟩
      rw [List.take_succ_cons, List.sum_cons]
      omega

/-! ## Dates -/

structure Date where
  year : Int
  month : Nat
  day : Nat
deriving DecidableEq, Repr

namespace Date

def valid (date : Date) : Bool :=
  1 ≤ date.month && 1 ≤ date.day &&
    (monthLengths (isLeap date.year))[date.month - 1]?.any (date.day ≤ ·)

/-- The days from the first of 1970 to the date. -/
def dayNumber (date : Date) : Int :=
  daysBeforeYear date.year +
    (((monthLengths (isLeap date.year)).take (date.month - 1)).sum + (date.day - 1) : Nat) - 719528

def ofDayNumber (n : Int) : Date :=
  let year := yearOf (n + 719528)
  let (month, day) := place (monthLengths (isLeap year)) (n + 719528 - daysBeforeYear year).toNat
  { year, month := month + 1, day := day + 1 }

theorem sum_monthLengths (leap : Bool) : (monthLengths leap).sum = if leap then 366 else 365 := by
  cases leap <;> rfl

theorem ofDayNumber_spec (n : Int) : (ofDayNumber n).valid = true ∧ (ofDayNumber n).dayNumber = n := by
  obtain ⟨hlow, hhigh⟩ := yearOf_spec (n + 719528)
  rw [daysBeforeYear_succ] at hhigh
  have hday : (n + 719528 - daysBeforeYear (yearOf (n + 719528))).toNat <
      (monthLengths (isLeap (yearOf (n + 719528)))).sum := by
    rw [sum_monthLengths]
    cases hleap : isLeap (yearOf (n + 719528)) with
    | false =>
      simp only [hleap, Bool.false_eq_true, if_false] at hhigh ⊢
      omega
    | true =>
      simp only [hleap, if_true] at hhigh ⊢
      omega
  obtain ⟨length, hget, hlt, hsum⟩ := place_spec hday
  constructor
  · have hin : decide ((ofDayNumber n).day ≤ length) = true := decide_eq_true hlt
    simp only [valid, ofDayNumber, Nat.add_sub_cancel, hget, Option.any_some, Bool.and_eq_true] at hin ⊢
    exact ⟨by simp, hin⟩
  · simp only [dayNumber, ofDayNumber, Nat.add_sub_cancel]
    rw [hsum]
    omega

theorem ofDayNumber_lt (n : Int) : (ofDayNumber n).month < 100 ∧ (ofDayNumber n).day < 100 := by
  have hvalid := (ofDayNumber_spec n).1
  generalize ofDayNumber n = date at hvalid
  simp only [valid, Bool.and_eq_true, decide_eq_true_eq, Option.any_eq_true] at hvalid
  obtain ⟨⟨-, -⟩, length, hget, hlt⟩ := hvalid
  have hmonth := (List.getElem?_eq_some_iff.mp hget).1
  have hlength : ∀ l ∈ monthLengths (isLeap date.year), l ≤ 31 := by
    cases isLeap date.year <;> decide
  have hday := hlength length (List.mem_of_getElem? hget)
  have hcount : (monthLengths (isLeap date.year)).length = 12 := by
    cases isLeap date.year <;> rfl
  omega

end Date

/-! ## Digits -/

/-- The last `width` digits of a number. -/
def pad : Nat → Nat → List Char
  | 0, _ => []
  | width + 1, n => pad width (n / 10) ++ [Nat.digitChar (n % 10)]

@[simp] theorem length_pad (width n : Nat) : (pad width n).length = width := by
  induction width generalizing n with
  | zero => rfl
  | succ width ih => rw [pad, List.length_append, ih, List.length_singleton]

theorem pad_isDigit {width n : Nat} : ∀ c ∈ pad width n, c.isDigit = true := by
  induction width generalizing n with
  | zero => exact fun _ h => absurd h List.not_mem_nil
  | succ width ih =>
    intro c hc
    rcases List.mem_append.mp hc with hfront | hlast
    · exact ih c hfront
    · rw [List.mem_singleton.mp hlast, Nat.isDigit_digitChar]
      exact decide_eq_true (Nat.mod_lt n (by decide))

theorem ofDigitChars_pad {width n : Nat} (fits : n < 10 ^ width) :
    Nat.ofDigitChars 10 (pad width n) 0 = n := by
  induction width generalizing n with
  | zero =>
    have hzero : n = 0 := by omega
    rw [pad, Nat.ofDigitChars_nil, hzero]
  | succ width ih =>
    have hfront : n / 10 < 10 ^ width := by
      rw [Nat.pow_succ] at fits
      omega
    have hlast : n % 10 < 10 := Nat.mod_lt n (by decide)
    rw [pad, Nat.ofDigitChars_append, ih hfront, Nat.ofDigitChars_cons_digitChar_of_lt_ten hlast,
      Nat.ofDigitChars_nil]
    omega

/-- A number of exactly `width` digits, and what follows it. -/
def fixed (width : Nat) (cs : List Char) : Option (Nat × List Char) :=
  if (cs.take width).length = width ∧ (cs.take width).all Char.isDigit = true then
    some (Nat.ofDigitChars 10 (cs.take width) 0, cs.drop width)
  else none

theorem fixed_pad {width n : Nat} (fits : n < 10 ^ width) (rest : List Char) :
    fixed width (pad width n ++ rest) = some (n, rest) := by
  have htake : (pad width n ++ rest).take width = pad width n := by
    rw [List.take_append_of_le_length (Nat.le_of_eq (length_pad width n).symm),
      List.take_of_length_le (Nat.le_of_eq (length_pad width n))]
  have hdrop : (pad width n ++ rest).drop width = rest := by
    rw [List.drop_append_of_le_length (Nat.le_of_eq (length_pad width n).symm),
      List.drop_of_length_le (Nat.le_of_eq (length_pad width n)), List.nil_append]
  rw [fixed, htake, hdrop, if_pos ⟨length_pad width n, List.all_eq_true.mpr pad_isDigit⟩,
    ofDigitChars_pad fits]

/-- The digits in front, and what follows them. -/
def run (cs : List Char) : List Char × List Char :=
  (cs.takeWhile Char.isDigit, cs.dropWhile Char.isDigit)

theorem run_append {digits : List Char} (all : ∀ c ∈ digits, c.isDigit = true) {c : Char}
    (other : c.isDigit = false) (rest : List Char) :
    run (digits ++ c :: rest) = (digits, c :: rest) := by
  have hother : ¬c.isDigit = true := by rw [other]; exact Bool.false_ne_true
  rw [run, List.takeWhile_append_of_pos all, List.dropWhile_append_of_pos all,
    List.takeWhile_cons_of_neg hother, List.dropWhile_cons_of_neg hother, List.append_nil]

/-- A character, and what follows it. -/
def literal (c : Char) : List Char → Option (List Char)
  | [] => none
  | x :: cs => if x = c then some cs else none

@[simp] theorem literal_cons (c : Char) (cs : List Char) : literal c (c :: cs) = some cs :=
  if_pos rfl

/-! ## Years -/

/-- The digits of a number, four at least. -/
def fourDigits (n : Nat) : List Char := if n < 10000 then pad 4 n else Nat.toDigits 10 n

def yearText (year : Int) : List Char :=
  if 0 ≤ year ∧ year ≤ 9999 then pad 4 year.toNat
  else (if year < 0 then '-' else '+') :: fourDigits year.natAbs

/-- A number of at least four digits, and what follows it. -/
def fourDigits? (cs : List Char) : Option (Nat × List Char) :=
  if 4 ≤ (run cs).1.length then some (Nat.ofDigitChars 10 (run cs).1 0, (run cs).2) else none

def year? : List Char → Option (Int × List Char)
  | '+' :: cs => (fourDigits? cs).map fun (n, rest) => ((n : Int), rest)
  | '-' :: cs => (fourDigits? cs).map fun (n, rest) => (-(n : Int), rest)
  | cs => (fixed 4 cs).map fun (n, rest) => ((n : Int), rest)

theorem fourDigits?_fourDigits (n : Nat) {c : Char} (other : c.isDigit = false)
    (rest : List Char) : fourDigits? (fourDigits n ++ c :: rest) = some (n, c :: rest) := by
  have hdigits : ∀ c ∈ fourDigits n, c.isDigit = true := by
    rw [fourDigits]
    split
    · exact pad_isDigit
    · exact fun c hc => Nat.isDigit_of_mem_toDigits (by decide) (by decide) hc
  have hlength : 4 ≤ (fourDigits n).length := by
    rw [fourDigits]
    split
    · exact Nat.le_of_eq (length_pad 4 n).symm
    · rename_i hbig
      by_contra hshort
      have hsmall := (Nat.length_toDigits_le_iff (b := 10) (k := 3) (by decide) (by decide)).mp
        (by omega : (Nat.toDigits 10 n).length ≤ 3)
      omega
  have hvalue : Nat.ofDigitChars 10 (fourDigits n) 0 = n := by
    rw [fourDigits]
    split
    · rename_i hsmall
      exact ofDigitChars_pad hsmall
    · exact Nat.ofDigitChars_ten_toDigits
  rw [fourDigits?, run_append hdigits other, if_pos hlength, hvalue]

theorem year?_yearText (year : Int) {c : Char} (other : c.isDigit = false) (rest : List Char) :
    year? (yearText year ++ c :: rest) = some (year, c :: rest) := by
  rw [yearText]
  split
  · rename_i hplain
    have hsmall : year.toNat < 10 ^ 4 := by omega
    have hfixed := fixed_pad hsmall (c :: rest)
    have hdigit : ∀ x ∈ pad 4 year.toNat, x.isDigit = true := pad_isDigit
    have hlength := length_pad 4 year.toNat
    generalize pad 4 year.toNat = digits at hfixed hdigit hlength ⊢
    cases digits with
    | nil => cases hlength
    | cons x digits =>
      have hx : x.isDigit = true := hdigit x List.mem_cons_self
      have hyear : year? (x :: (digits ++ c :: rest)) =
          (fixed 4 (x :: (digits ++ c :: rest))).map fun (n, rest) => ((n : Int), rest) := by
        unfold year?
        split
        · rename_i heq
          cases heq
          cases hx
        · rename_i heq
          cases heq
          cases hx
        · rfl
      rw [List.cons_append, hyear, ← List.cons_append, hfixed, Option.map_some]
      dsimp only
      rw [Int.toNat_of_nonneg hplain.1]
  · rename_i hsigned
    by_cases hneg : year < 0
    · rw [if_pos hneg, List.cons_append, year?, fourDigits?_fourDigits _ other, Option.map_some]
      have hvalue : -(year.natAbs : Int) = year := by omega
      dsimp only
      rw [hvalue]
    · rw [if_neg hneg, List.cons_append, year?, fourDigits?_fourDigits _ other, Option.map_some]
      have hvalue : (year.natAbs : Int) = year := by omega
      dsimp only
      rw [hvalue]

/-! ## Seconds -/

/-- The digits of the second, as many as it takes of none, three and six. -/
def fractionText (micros : Nat) : List Char :=
  if micros = 0 then []
  else if micros % 1000 = 0 then '.' :: pad 3 (micros / 1000)
  else '.' :: pad 6 micros

/-- The microseconds of one to six digits of the second, and what follows them. -/
def fraction? : List Char → Option (Nat × List Char)
  | '.' :: cs =>
    if 1 ≤ (run cs).1.length ∧ (run cs).1.length ≤ 6 then
      some (Nat.ofDigitChars 10 (run cs).1 0 * 10 ^ (6 - (run cs).1.length), (run cs).2)
    else none
  | cs => some (0, cs)

theorem fraction?_pad {width n : Nat} (positive : 1 ≤ width) (short : width ≤ 6)
    (fits : n < 10 ^ width) {c : Char} (other : c.isDigit = false) (rest : List Char) :
    fraction? ('.' :: (pad width n ++ c :: rest)) = some (n * 10 ^ (6 - width), c :: rest) := by
  rw [fraction?, run_append pad_isDigit other, length_pad, if_pos ⟨positive, short⟩,
    ofDigitChars_pad fits]

theorem fraction?_fractionText {micros : Nat} (fits : micros < 1000000) :
    fraction? (fractionText micros ++ ['Z']) = some (micros, ['Z']) := by
  rw [fractionText]
  split
  · rename_i hzero
    rw [hzero]
    rfl
  · split
    · rename_i hmillis
      rw [List.cons_append,
        fraction?_pad (by decide) (by decide) (by omega : micros / 1000 < 10 ^ 3) (by decide)]
      have hvalue : micros / 1000 * 10 ^ (6 - 3) = micros := by omega
      rw [hvalue]
    · rw [List.cons_append, fraction?_pad (by decide) (by decide) fits (by decide)]
      have hvalue : micros * 10 ^ (6 - 6) = micros := by omega
      rw [hvalue]

/-! ## Times -/

/-- The text of a time. -/
def text (time : Int) : String :=
  let date := Date.ofDayNumber (time / 86400000000)
  let micros := (time % 86400000000).toNat
  let seconds := micros / 1000000
  String.ofList
    (yearText date.year ++ '-' :: (pad 2 date.month ++ '-' :: (pad 2 date.day ++
      'T' :: (pad 2 (seconds / 3600) ++ ':' :: (pad 2 (seconds / 60 % 60) ++
        ':' :: (pad 2 (seconds % 60) ++ (fractionText (micros % 1000000) ++ ['Z'])))))))

/-- The time that a text denotes. -/
def instant (text : String) : Option Int := do
  let (year, cs) ← year? text.toList
  let cs ← literal '-' cs
  let (month, cs) ← fixed 2 cs
  let cs ← literal '-' cs
  let (day, cs) ← fixed 2 cs
  let cs ← literal 'T' cs
  let (hour, cs) ← fixed 2 cs
  let cs ← literal ':' cs
  let (minute, cs) ← fixed 2 cs
  let cs ← literal ':' cs
  let (second, cs) ← fixed 2 cs
  let (micros, cs) ← fraction? cs
  let date : Date := { year, month, day }
  if date.valid = true ∧ hour < 24 ∧ minute < 60 ∧ second < 60 ∧ cs = ['Z'] then
    some (date.dayNumber * 86400000000 +
      ((hour * 3600 + minute * 60 + second) * 1000000 + micros : Nat))
  else none

/-- The text of a time denotes it. -/
theorem instant_text (time : Int) : instant (text time) = some time := by
  have hdate := Date.ofDayNumber_spec (time / 86400000000)
  have hsmall := Date.ofDayNumber_lt (time / 86400000000)
  rw [text]
  generalize Date.ofDayNumber (time / 86400000000) = date at hdate hsmall ⊢
  obtain ⟨hvalid, hday⟩ := hdate
  obtain ⟨year, month, day⟩ := date
  dsimp only at hsmall ⊢
  generalize hmicros : (time % 86400000000).toNat = micros
  have htime : Date.dayNumber ⟨year, month, day⟩ * 86400000000 + (micros : Int) = time := by omega
  have hrange : micros < 86400000000 := by omega
  clear hmicros hday
  generalize hseconds : micros / 1000000 = seconds
  simp only [instant, String.toList_ofList, Option.bind_eq_bind,
    year?_yearText year (by decide : '-'.isDigit = false), Option.bind_some, literal_cons,
    fixed_pad (by omega : month < 10 ^ 2), fixed_pad (by omega : day < 10 ^ 2),
    fixed_pad (by omega : seconds / 3600 < 10 ^ 2),
    fixed_pad (by omega : seconds / 60 % 60 < 10 ^ 2), fixed_pad (by omega : seconds % 60 < 10 ^ 2),
    fraction?_fractionText (Nat.mod_lt micros (by decide))]
  rw [if_pos ⟨hvalid, by omega, by omega, by omega, trivial⟩]
  congr 1
  omega

end Rfc3339
