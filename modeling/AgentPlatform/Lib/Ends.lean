import Mathlib.Algebra.Order.Ring.Nat
import Mathlib.Data.List.Infix

/-!
# The two ends of a stream

A stream of elements that have sizes arrives in pieces, and only its beginning and its end are kept,
each within a limit. What is kept is a function of the stream as long as no piece is added to the
beginning after an element that did not fit there was passed over.
-/

namespace Ends

universe u

variable {α : Type u} (size : α → Nat)

/-- The size of several elements. -/
def weight (xs : List α) : Nat := (xs.map size).sum

/-- The longest beginning within a limit. -/
def firstWithin : Nat → List α → List α
  | _, [] => []
  | n, x :: xs => if size x ≤ n then x :: firstWithin (n - size x) xs else []

/-- What is left behind the longest beginning within a limit. -/
def restBeyond : Nat → List α → List α
  | _, [] => []
  | n, x :: xs => if size x ≤ n then restBeyond (n - size x) xs else x :: xs

/-- The longest end within a limit. -/
def lastWithin (n : Nat) : List α → List α
  | [] => []
  | x :: xs => if weight size (x :: xs) ≤ n then x :: xs else lastWithin n xs

variable {size} {n : Nat} {xs ys : List α} {x : α}

@[simp] theorem weight_nil : weight size [] = 0 := rfl

@[simp] theorem weight_cons : weight size (x :: xs) = size x + weight size xs := by
  simp [weight]

@[simp] theorem weight_append : weight size (xs ++ ys) = weight size xs + weight size ys := by
  simp [weight]

theorem firstWithin_cons : firstWithin size n (x :: xs) =
    if size x ≤ n then x :: firstWithin size (n - size x) xs else [] := rfl

theorem restBeyond_cons : restBeyond size n (x :: xs) =
    if size x ≤ n then restBeyond size (n - size x) xs else x :: xs := rfl

theorem lastWithin_cons : lastWithin size n (x :: xs) =
    if weight size (x :: xs) ≤ n then x :: xs else lastWithin size n xs := rfl

theorem weight_replicate (k : Nat) : weight size (List.replicate k x) = k * size x := by
  rw [weight, List.map_replicate, List.sum_replicate_nat]

theorem length_le_weight (pos : ∀ a, 0 < size a) (xs : List α) : xs.length ≤ weight size xs := by
  induction xs with
  | nil => exact Nat.zero_le _
  | cons x xs ih =>
    have hx := pos x
    rw [List.length_cons, weight_cons]
    omega

theorem weight_le_length {bound : Nat} (bounded : ∀ a, size a ≤ bound) (xs : List α) :
    weight size xs ≤ bound * xs.length := by
  induction xs with
  | nil => exact Nat.zero_le _
  | cons x xs ih =>
    have hx := bounded x
    rw [List.length_cons, weight_cons, Nat.mul_succ]
    omega

theorem eq_nil_of_weight (pos : ∀ a, 0 < size a) (h : weight size xs = 0) : xs = [] := by
  cases xs with
  | nil => rfl
  | cons x xs =>
    have hx := pos x
    rw [weight_cons] at h
    omega

/-! ## Beginnings -/

theorem firstWithin_append_restBeyond (size : α → Nat) (n : Nat) (xs : List α) :
    firstWithin size n xs ++ restBeyond size n xs = xs := by
  induction xs generalizing n with
  | nil => rfl
  | cons x xs ih =>
    rw [firstWithin_cons, restBeyond_cons]
    split
    · rw [List.cons_append, ih]
    · rfl

theorem firstWithin_prefix (size : α → Nat) (n : Nat) (xs : List α) :
    firstWithin size n xs <+: xs :=
  ⟨_, firstWithin_append_restBeyond size n xs⟩

theorem weight_first_add_rest (size : α → Nat) (n : Nat) (xs : List α) :
    weight size (firstWithin size n xs) + weight size (restBeyond size n xs) = weight size xs := by
  rw [← weight_append, firstWithin_append_restBeyond]

theorem weight_firstWithin_le (size : α → Nat) (n : Nat) (xs : List α) :
    weight size (firstWithin size n xs) ≤ n := by
  induction xs generalizing n with
  | nil => exact Nat.zero_le n
  | cons x xs ih =>
    rw [firstWithin_cons]
    split
    next hfits =>
      have htail := ih (n - size x)
      rw [weight_cons]
      omega
    next => exact Nat.zero_le n

/-- What fits is kept whole. -/
theorem firstWithin_of_fits (h : weight size xs ≤ n) : firstWithin size n xs = xs := by
  induction xs generalizing n with
  | nil => rfl
  | cons x xs ih =>
    rw [weight_cons] at h
    rw [firstWithin_cons]
    rw [if_pos (by omega), ih (by omega)]

/-- Behind a beginning that fits, the limit is what the beginning leaves of it. -/
theorem firstWithin_append (h : weight size xs ≤ n) :
    firstWithin size n (xs ++ ys) = xs ++ firstWithin size (n - weight size xs) ys := by
  induction xs generalizing n with
  | nil => rfl
  | cons x xs ih =>
    rw [weight_cons] at h
    rw [List.cons_append, firstWithin_cons, if_pos (by omega), ih (by omega), weight_cons,
      List.cons_append, Nat.sub_sub]

theorem restBeyond_append (h : weight size xs ≤ n) :
    restBeyond size n (xs ++ ys) = restBeyond size (n - weight size xs) ys := by
  induction xs generalizing n with
  | nil => rfl
  | cons x xs ih =>
    rw [weight_cons] at h
    rw [List.cons_append, restBeyond_cons, if_pos (by omega), ih (by omega), weight_cons, Nat.sub_sub]

theorem restBeyond_of_fits (h : weight size xs ≤ n) : restBeyond size n xs = [] := by
  have hsplit := firstWithin_append_restBeyond size n xs
  rw [firstWithin_of_fits h] at hsplit
  exact List.append_right_eq_self.mp hsplit

/-- The element that a limit stops at does not fit what is left of it. -/
theorem exists_of_overflow (h : firstWithin size n xs ≠ xs) : ∃ c rest,
    xs = firstWithin size n xs ++ c :: rest ∧ n - weight size (firstWithin size n xs) < size c := by
  induction xs generalizing n with
  | nil => exact absurd rfl h
  | cons x xs ih =>
    rw [firstWithin_cons] at h ⊢
    split
    next hfits =>
      rw [if_pos hfits] at h
      obtain ⟨c, rest, heq, hlt⟩ := ih fun same => h (by rw [same])
      refine ⟨c, rest, by rw [List.cons_append, ← heq], ?_⟩
      rw [weight_cons]
      omega
    next hbig => exact ⟨x, xs, rfl, by rw [weight_nil]; omega⟩

/-- Behind an element that does not fit, nothing is added. -/
theorem firstWithin_append_of_overflow (h : firstWithin size n xs ≠ xs) (ys : List α) :
    firstWithin size n (xs ++ ys) = firstWithin size n xs ∧
      restBeyond size n (xs ++ ys) = restBeyond size n xs ++ ys := by
  induction xs generalizing n with
  | nil => exact absurd rfl h
  | cons x xs ih =>
    rw [firstWithin_cons] at h
    rw [List.cons_append, firstWithin_cons, firstWithin_cons, restBeyond_cons, restBeyond_cons]
    split
    next hfits =>
      rw [if_pos hfits] at h
      obtain ⟨hfirst, hrest⟩ := ih (n := n - size x) fun same => h (by rw [same])
      exact ⟨by rw [hfirst], hrest⟩
    next => exact ⟨rfl, rfl⟩

theorem overflow_of_append (h : firstWithin size n xs ≠ xs) :
    firstWithin size n (xs ++ ys) ≠ xs ++ ys := by
  intro same
  have hsplit := firstWithin_append_restBeyond size n (xs ++ ys)
  rw [same, List.append_right_eq_self, (firstWithin_append_of_overflow h ys).2] at hsplit
  have hwhole := firstWithin_append_restBeyond size n xs
  rw [(List.append_eq_nil_iff.mp hsplit).1, List.append_nil] at hwhole
  exact h hwhole

/-- A smaller limit that the longest beginning is within has the same longest beginning. -/
theorem firstWithin_eq {m : Nat} (hle : m ≤ n) (h : weight size (firstWithin size n xs) ≤ m) :
    firstWithin size m xs = firstWithin size n xs := by
  induction xs generalizing n m with
  | nil => rfl
  | cons x xs ih =>
    rw [firstWithin_cons] at h ⊢
    rw [firstWithin_cons]
    split at h
    next hfits =>
      rw [weight_cons] at h
      rw [if_pos (by omega), if_pos hfits, ih (Nat.sub_le_sub_right hle _) (by omega)]
    next hbig => rw [if_neg (by omega), if_neg hbig]

theorem weight_le_of_no_overflow (h : firstWithin size n xs = xs) : weight size xs ≤ n := by
  have hle := weight_firstWithin_le size n xs
  rwa [h] at hle

/-! ## Ends -/

theorem lastWithin_suffix (size : α → Nat) (n : Nat) (xs : List α) : lastWithin size n xs <:+ xs := by
  induction xs with
  | nil => exact List.suffix_rfl
  | cons x xs ih =>
    rw [lastWithin_cons]
    split
    · exact List.suffix_rfl
    · exact ih.trans (List.suffix_cons x xs)

theorem weight_lastWithin_le (size : α → Nat) (n : Nat) (xs : List α) :
    weight size (lastWithin size n xs) ≤ n := by
  induction xs with
  | nil => exact Nat.zero_le n
  | cons x xs ih =>
    rw [lastWithin_cons]
    split
    next hfits => exact hfits
    next => exact ih

theorem lastWithin_of_fits (h : weight size xs ≤ n) : lastWithin size n xs = xs := by
  cases xs with
  | nil => rfl
  | cons x xs =>
    rw [lastWithin_cons]
    rw [if_pos h]

theorem weight_lastWithin_le_weight (size : α → Nat) (n : Nat) (xs : List α) :
    weight size (lastWithin size n xs) ≤ weight size xs := by
  obtain ⟨before, heq⟩ := lastWithin_suffix size n xs
  calc weight size (lastWithin size n xs)
      ≤ weight size before + weight size (lastWithin size n xs) := Nat.le_add_left _ _
    _ = weight size xs := by rw [← weight_append, heq]

/-- A smaller limit that the longest end is within has the same longest end. -/
theorem lastWithin_eq {m : Nat} (hle : m ≤ n) (h : weight size (lastWithin size n xs) ≤ m) :
    lastWithin size m xs = lastWithin size n xs := by
  induction xs with
  | nil => rfl
  | cons x xs ih =>
    rw [lastWithin_cons] at h ⊢
    rw [lastWithin_cons]
    split at h
    next hfits => rw [if_pos h, if_pos hfits]
    next hbig => rw [if_neg (by omega), if_neg hbig, ih h]

/-- An end that fills its limit is the longest within it. -/
theorem lastWithin_append_of_full (pos : ∀ a, 0 < size a) (h : weight size ys = n) :
    lastWithin size n (xs ++ ys) = ys := by
  induction xs with
  | nil => exact lastWithin_of_fits (Nat.le_of_eq h)
  | cons x xs ih =>
    have hx := pos x
    rw [List.cons_append, lastWithin_cons, if_neg (by rw [weight_cons, weight_append]; omega), ih]

/-- What an end forgets, the end of more has forgotten as well. -/
theorem lastWithin_append (size : α → Nat) (n : Nat) (xs ys : List α) :
    lastWithin size n (lastWithin size n xs ++ ys) = lastWithin size n (xs ++ ys) := by
  induction xs with
  | nil => rfl
  | cons x xs ih =>
    rw [lastWithin_cons]
    split
    next => rfl
    next hbig =>
      have hmore : ¬ weight size (x :: (xs ++ ys)) ≤ n := by
        rw [weight_cons] at hbig ⊢
        rw [weight_append]
        omega
      rw [ih, List.cons_append, lastWithin_cons, if_neg hmore]

/-- An end that leaves something out is short of its limit by less than the size of an element. -/
theorem weight_lastWithin_gt {bound : Nat} (bounded : ∀ a, size a ≤ bound)
    (h : n < weight size xs) : n < weight size (lastWithin size n xs) + bound := by
  induction xs with
  | nil => exact absurd h (Nat.not_lt_zero n)
  | cons x xs ih =>
    rw [lastWithin_cons, if_neg (Nat.not_le.mpr h)]
    rw [weight_cons] at h
    by_cases hrest : n < weight size xs
    · exact ih hrest
    · rw [lastWithin_of_fits (Nat.le_of_not_lt hrest)]
      have hx := bounded x
      omega

/-- A beginning that stops at an element is short of its limit by less than that element's size. -/
theorem weight_firstWithin_gt {bound : Nat} (bounded : ∀ a, size a ≤ bound)
    (h : firstWithin size n xs ≠ xs) : n < weight size (firstWithin size n xs) + bound := by
  obtain ⟨c, rest, -, hlt⟩ := exists_of_overflow h
  have hc := bounded c
  omega

end Ends

/-! ## Keeping both ends -/

universe u

/-- What is kept of a stream: its beginning, its end, and the size of what lies between. -/
structure Ends (α : Type u) where
  head : List α
  tail : List α
  omitted : Nat

namespace Ends

universe v

variable {α : Type v} (size : α → Nat) (limit : Nat)

def empty : Ends α := { head := [], tail := [], omitted := 0 }

/-- The next piece: as much of it as fits goes to the beginning, the rest to the end. -/
def feed (e : Ends α) (piece : List α) : Ends α :=
  let available := limit - weight size e.head
  let all := e.tail ++ restBeyond size available piece
  { head := e.head ++ firstWithin size available piece
    tail := lastWithin size limit all
    omitted := e.omitted + (weight size all - weight size (lastWithin size limit all)) }

/-- What is kept of a stream that arrives in one piece. -/
def ofStream (xs : List α) : Ends α :=
  let rest := restBeyond size limit xs
  { head := firstWithin size limit xs
    tail := lastWithin size limit rest
    omitted := weight size rest - weight size (lastWithin size limit rest) }

/-- A piece that is added to the beginning although the stream before it did not fit there. -/
def TopsUp (before piece : List α) : Prop :=
  firstWithin size limit before ≠ before ∧
    firstWithin size (limit - weight size (firstWithin size limit before)) piece ≠ []

/-- Some piece of a stream is added to the beginning out of order. -/
def ToppedUp (pieces : List (List α)) : Prop :=
  ∃ before piece after, pieces = before ++ piece :: after ∧ TopsUp size limit before.flatten piece

/-- A beginning that another element than the stream's stands in. -/
def Diverges (e : Ends α) (xs : List α) : Prop :=
  ∃ common a c rest rest', e.head = common ++ a :: rest ∧ xs = common ++ c :: rest' ∧ a ≠ c

variable {size} {limit} {e : Ends α} {xs piece : List α} {pieces : List (List α)}

theorem ofStream_nil : ofStream size limit [] = empty := rfl

/-- A piece that is not added out of order leaves what is kept of the longer stream. -/
theorem feed_ofStream (h : ¬ TopsUp size limit xs piece) :
    feed size limit (ofStream size limit xs) piece = ofStream size limit (xs ++ piece) := by
  have hparts : firstWithin size limit xs ++
        firstWithin size (limit - weight size (firstWithin size limit xs)) piece =
          firstWithin size limit (xs ++ piece) ∧
      restBeyond size limit xs ++
        restBeyond size (limit - weight size (firstWithin size limit xs)) piece =
          restBeyond size limit (xs ++ piece) := by
    by_cases hfits : firstWithin size limit xs = xs
    · have hweight := weight_le_of_no_overflow hfits
      rw [hfits, firstWithin_append hweight, restBeyond_append hweight, restBeyond_of_fits hweight]
      exact ⟨rfl, rfl⟩
    · have hnone : firstWithin size (limit - weight size (firstWithin size limit xs)) piece = [] := by
        by_contra hsome
        exact h ⟨hfits, hsome⟩
      have hrest : restBeyond size (limit - weight size (firstWithin size limit xs)) piece = piece := by
        have hsplit := firstWithin_append_restBeyond size
          (limit - weight size (firstWithin size limit xs)) piece
        rwa [hnone, List.nil_append] at hsplit
      obtain ⟨hfirst, hbehind⟩ := firstWithin_append_of_overflow hfits piece
      rw [hnone, hrest, hfirst, hbehind, List.append_nil]
      exact ⟨rfl, rfl⟩
  obtain ⟨hhead, hrest⟩ := hparts
  have htail : lastWithin size limit (lastWithin size limit (restBeyond size limit xs) ++
      restBeyond size (limit - weight size (firstWithin size limit xs)) piece) =
        lastWithin size limit (restBeyond size limit (xs ++ piece)) := by
    rw [lastWithin_append, hrest]
  have homitted : weight size (restBeyond size limit xs) +
      weight size (restBeyond size (limit - weight size (firstWithin size limit xs)) piece) =
        weight size (restBeyond size limit (xs ++ piece)) := by
    rw [← weight_append, hrest]
  have hbefore := weight_lastWithin_le_weight size limit (restBeyond size limit xs)
  have hafter := weight_lastWithin_le_weight size limit
    (lastWithin size limit (restBeyond size limit xs) ++
      restBeyond size (limit - weight size (firstWithin size limit xs)) piece)
  rw [weight_append] at hafter
  simp only [feed, ofStream, hhead, htail, weight_append, Ends.mk.injEq, true_and]
  rw [htail] at hafter
  omega

/-- A piece that is added out of order puts an element where the stream has another. -/
theorem TopsUp.diverges (h : TopsUp size limit xs piece) :
    Diverges (feed size limit (ofStream size limit xs) piece) (xs ++ piece) := by
  obtain ⟨hover, hsome⟩ := h
  obtain ⟨c, rest, heq, hlt⟩ := exists_of_overflow hover
  have hbegin : ∃ a more, firstWithin size
      (limit - weight size (firstWithin size limit xs)) piece = a :: more ∧
        size a ≤ limit - weight size (firstWithin size limit xs) := by
    cases piece with
    | nil => exact absurd rfl hsome
    | cons a more =>
      rw [firstWithin_cons] at hsome ⊢
      split at hsome
      next hfits => exact ⟨a, _, if_pos hfits, hfits⟩
      next => exact absurd rfl hsome
  obtain ⟨a, more, hbegin, hfits⟩ := hbegin
  refine ⟨firstWithin size limit xs, a, c, more, rest ++ piece, ?_, ?_, ?_⟩
  · show firstWithin size limit xs ++ _ = _
    rw [← hbegin]
    rfl
  · calc xs ++ piece = (firstWithin size limit xs ++ c :: rest) ++ piece := by rw [← heq]
      _ = firstWithin size limit xs ++ c :: (rest ++ piece) := by
        rw [List.append_assoc, List.cons_append]
  · rintro rfl
    omega

/-- What stands in a beginning stays there. -/
theorem Diverges.feed (h : Diverges e xs) (piece : List α) :
    Diverges (feed size limit e piece) (xs ++ piece) := by
  obtain ⟨common, a, c, rest, rest', hhead, hstream, hne⟩ := h
  refine ⟨common, a, c, rest ++ firstWithin size (limit - weight size e.head) piece, rest' ++ piece,
    ?_, ?_, hne⟩
  · show e.head ++ _ = _
    rw [hhead, List.append_assoc, List.cons_append]
  · rw [hstream, List.append_assoc, List.cons_append]

theorem Diverges.not_prefix (h : Diverges e xs) : ¬ e.head <+: xs := by
  obtain ⟨common, a, c, rest, rest', hhead, rfl, hne⟩ := h
  rw [hhead, List.prefix_append_right_inj, List.cons_prefix_cons]
  exact fun same => hne same.1

theorem toppedUp_concat : ToppedUp size limit (pieces ++ [piece]) ↔
    ToppedUp size limit pieces ∨ TopsUp size limit pieces.flatten piece := by
  constructor
  · rintro ⟨before, piece', after, heq, tops⟩
    rcases List.eq_nil_or_concat after with rfl | ⟨after', last, rfl⟩
    · obtain ⟨rfl, hpiece⟩ := List.append_inj' heq rfl
      cases hpiece
      exact .inr tops
    · rw [List.concat_eq_append, ← List.cons_append, ← List.append_assoc] at heq
      obtain ⟨rfl, -⟩ := List.append_inj' heq rfl
      exact .inl ⟨before, piece', after', rfl, tops⟩
  · rintro (⟨before, piece', after, rfl, tops⟩ | tops)
    · exact ⟨before, piece', after ++ [piece], by rw [List.append_assoc, List.cons_append], tops⟩
    · exact ⟨pieces, piece, [], rfl, tops⟩

/-- What is kept of a stream that arrived in pieces: the two ends of the stream, unless a piece was
added out of order, and then a beginning that the stream does not have. -/
theorem feed_all (size : α → Nat) (limit : Nat) (pieces : List (List α)) :
    (¬ ToppedUp size limit pieces ∧
        pieces.foldl (feed size limit) empty = ofStream size limit pieces.flatten) ∨
      (ToppedUp size limit pieces ∧
        Diverges (pieces.foldl (feed size limit) empty) pieces.flatten) := by
  induction pieces using List.reverseRecOn with
  | nil =>
    refine .inl ⟨?_, ofStream_nil.symm⟩
    rintro ⟨before, piece, after, heq, -⟩
    exact absurd heq.symm (List.append_ne_nil_of_right_ne_nil before (List.cons_ne_nil piece after))
  | append_singleton pieces piece ih =>
    rw [List.foldl_append, List.foldl_cons, List.foldl_nil, List.flatten_append,
      List.flatten_singleton, toppedUp_concat]
    rcases ih with ⟨hnone, heq⟩ | ⟨hsome, hdiverges⟩
    · rw [heq]
      by_cases tops : TopsUp size limit pieces.flatten piece
      · exact .inr ⟨.inr tops, tops.diverges⟩
      · exact .inl ⟨fun h => h.elim hnone tops, feed_ofStream tops⟩
    · exact .inr ⟨.inl hsome, hdiverges.feed piece⟩

/-- Ends of so much altogether, each within the limit. Something is left out only between ends that
are short of the limit by less than the size of an element. -/
structure Balanced (size : α → Nat) (limit bound : Nat) (e : Ends α) (total : Nat) : Prop where
  sum : weight size e.head + e.omitted + weight size e.tail = total
  headLimit : weight size e.head ≤ limit
  tailLimit : weight size e.tail ≤ limit
  headFull : e.tail ≠ [] → limit < weight size e.head + bound
  tailFull : 0 < e.omitted → limit < weight size e.tail + bound

theorem balanced_empty (size : α → Nat) (limit bound : Nat) : Balanced size limit bound empty 0 :=
  ⟨rfl, Nat.zero_le _, Nat.zero_le _, fun h => absurd rfl h, fun h => absurd h (Nat.lt_irrefl 0)⟩

theorem Balanced.feed {bound total : Nat} (h : Balanced size limit bound e total)
    (bounded : ∀ a, size a ≤ bound) (piece : List α) :
    Balanced size limit bound (feed size limit e piece) (total + weight size piece) := by
  obtain ⟨hsum, hhead, htail, hheadFull, htailFull⟩ := h
  have hfirst := weight_firstWithin_le size (limit - weight size e.head) piece
  have hparts := weight_first_add_rest size (limit - weight size e.head) piece
  have hover : restBeyond size (limit - weight size e.head) piece ≠ [] →
      limit - weight size e.head <
        weight size (firstWithin size (limit - weight size e.head) piece) + bound := by
    intro hrest
    refine weight_firstWithin_gt bounded fun same => hrest ?_
    exact restBeyond_of_fits (weight_le_of_no_overflow same)
  unfold Ends.feed
  dsimp only
  generalize firstWithin size (limit - weight size e.head) piece = first at *
  generalize restBeyond size (limit - weight size e.head) piece = rest at *
  have hall : weight size (e.tail ++ rest) = weight size e.tail + weight size rest := weight_append
  have hle := weight_lastWithin_le_weight size limit (e.tail ++ rest)
  refine ⟨?_, ?_, weight_lastWithin_le size limit _, ?_, ?_⟩
  · show weight size (e.head ++ first) + (e.omitted + (weight size (e.tail ++ rest) -
      weight size (lastWithin size limit (e.tail ++ rest)))) +
        weight size (lastWithin size limit (e.tail ++ rest)) = _
    rw [weight_append]
    omega
  · rw [weight_append]
    omega
  · intro hsome
    rw [weight_append]
    by_cases hrest : rest = []
    · rw [hrest, List.append_nil] at hsome
      have hfull := hheadFull fun hnone => hsome (by rw [hnone]; rfl)
      omega
    · have hfull := hover hrest
      omega
  · intro hsome
    show limit < weight size (lastWithin size limit (e.tail ++ rest)) + bound
    by_cases hlong : limit < weight size (e.tail ++ rest)
    · exact weight_lastWithin_gt bounded hlong
    · rw [lastWithin_of_fits (Nat.le_of_not_lt hlong)] at hsome ⊢
      rw [Nat.sub_self, Nat.add_zero] at hsome
      have hfull := htailFull hsome
      omega

theorem feed_all_balanced {bound : Nat} (bounded : ∀ a, size a ≤ bound) (limit : Nat)
    (pieces : List (List α)) : Balanced size limit bound (pieces.foldl (feed size limit) empty)
      (weight size pieces.flatten) := by
  induction pieces using List.reverseRecOn with
  | nil => exact balanced_empty size limit bound
  | append_singleton pieces piece ih =>
    rw [List.foldl_append, List.foldl_cons, List.foldl_nil, List.flatten_append,
      List.flatten_singleton, weight_append]
    exact ih.feed bounded piece

end Ends
