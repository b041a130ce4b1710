import Mathlib.Data.List.Sort
import Mathlib.Algebra.Order.Ring.Nat

/-!
# Edits of a list

An edit replaces a range of a list. Edits whose ranges stand in order and apart can be made from the
last to the first: each then finds its range where it was in the list at the start.
-/

namespace Splice

universe u

/-- The replacement of the elements of a range. -/
structure Edit (α : Type u) where
  start : Nat
  length : Nat
  inserted : List α

variable {α : Type u}

/-- Where the range ends. -/
def Edit.finish (e : Edit α) : Nat := e.start + e.length

/-- `Vec::splice`: a range that ends behind the list is refused. -/
def Edit.apply (e : Edit α) (xs : List α) : Option (List α) :=
  if e.finish ≤ xs.length then some (xs.take e.start ++ e.inserted ++ xs.drop e.finish) else none

/-- Edits made one after the other, the last one first. -/
def applyLastFirst : List (Edit α) → List α → Option (List α)
  | [], xs => some xs
  | e :: edits, xs => (applyLastFirst edits xs).bind e.apply

/-- Edits sorted by where they start, and made from the last to the first. -/
def spliceBackwards (edits : List (Edit α)) (xs : List α) : Option (List α) :=
  applyLastFirst (edits.insertionSort fun a b => a.start ≤ b.start) xs

/-- Ranges that stand in order and apart, between two places. -/
def InOrder (hi : Nat) : Nat → List (Edit α) → Prop
  | lo, [] => lo ≤ hi
  | lo, e :: edits => lo ≤ e.start ∧ InOrder hi e.finish edits

/-- The list from a place on, with the ranges replaced. -/
def replaceFrom (xs : List α) : Nat → List (Edit α) → List α
  | lo, [] => xs.drop lo
  | lo, e :: edits =>
    (xs.drop lo).take (e.start - lo) ++ (e.inserted ++ replaceFrom xs e.finish edits)

variable {edits : List (Edit α)} {xs : List α} {lo hi : Nat}

theorem InOrder.le (h : InOrder hi lo edits) : lo ≤ hi := by
  induction edits generalizing lo with
  | nil => exact h
  | cons e edits ih =>
    have hrest := ih h.2
    unfold Edit.finish at hrest
    have := h.1
    omega

/-- Edits in order leave what comes before the first of them. -/
theorem applyLastFirst_inOrder (h : InOrder xs.length lo edits) :
    applyLastFirst edits xs = some (xs.take lo ++ replaceFrom xs lo edits) := by
  induction edits generalizing lo with
  | nil => simp [applyLastFirst, replaceFrom]
  | cons e edits ih =>
    have hlo : lo ≤ e.start := h.1
    have hrest := ih h.2
    have hfinish : e.finish ≤ xs.length := h.2.le
    have hstart : e.start ≤ e.finish := Nat.le_add_right _ _
    have htake : (xs.take e.finish).length = e.finish := List.length_take_of_le hfinish
    unfold applyLastFirst
    rw [hrest, Option.bind_some]
    unfold Edit.apply
    rw [if_pos (by rw [List.length_append, htake]; exact Nat.le_add_right _ _)]
    rw [List.take_append_of_le_length (by rw [htake]; exact hstart), List.take_take,
      Nat.min_eq_left hstart, List.drop_append_of_le_length (by rw [htake]),
      List.drop_eq_nil_of_le (by rw [htake]), List.nil_append]
    congr 1
    calc xs.take e.start ++ e.inserted ++ replaceFrom xs e.finish edits
        = xs.take (lo + (e.start - lo)) ++ (e.inserted ++ replaceFrom xs e.finish edits) := by
          rw [Nat.add_sub_cancel' hlo, List.append_assoc]
      _ = xs.take lo ++ replaceFrom xs lo (e :: edits) := by
          rw [List.take_add, List.append_assoc]
          rfl

/-- An edit that replaces nothing, at a place. -/
def Edit.IsAt (place : Nat) (e : Edit α) : Prop := e.start = place ∧ e.length = 0

theorem Edit.IsAt.finish_eq {place : Nat} {e : Edit α} (h : e.IsAt place) : e.finish = place := by
  unfold Edit.finish
  rw [h.1, h.2, Nat.add_zero]

theorem InOrder.ends {ends : List (Edit α)} (hlo : lo ≤ hi) (hends : ∀ e ∈ ends, e.IsAt hi) :
    InOrder hi lo ends := by
  induction ends generalizing lo with
  | nil => exact hlo
  | cons e ends ih =>
    have he := hends e List.mem_cons_self
    refine ⟨by rw [he.1]; exact hlo, ?_⟩
    rw [he.finish_eq]
    exact ih le_rfl fun e' he' => hends e' (List.mem_cons_of_mem _ he')

theorem InOrder.append_ends {ends : List (Edit α)} (h : InOrder hi lo edits)
    (hends : ∀ e ∈ ends, e.IsAt hi) : InOrder hi lo (edits ++ ends) := by
  induction edits generalizing lo with
  | nil => exact .ends h hends
  | cons e edits ih => exact ⟨h.1, ih h.2⟩

theorem replaceFrom_ends {ends : List (Edit α)} (hends : ∀ e ∈ ends, e.IsAt xs.length) :
    replaceFrom xs lo ends = xs.drop lo ++ ends.flatMap (·.inserted) := by
  induction ends generalizing lo with
  | nil => simp [replaceFrom]
  | cons e ends ih =>
    have he := hends e List.mem_cons_self
    have hall : (xs.drop lo).take (e.start - lo) = xs.drop lo := by
      apply List.take_of_length_le
      rw [List.length_drop, he.1]
    unfold replaceFrom
    rw [hall, he.finish_eq, ih fun e' he' => hends e' (List.mem_cons_of_mem _ he')]
    simp

/-- Edits behind the list add to it, one after the other. -/
theorem replaceFrom_append_ends {ends : List (Edit α)}
    (hends : ∀ e ∈ ends, e.IsAt xs.length) :
    replaceFrom xs lo (edits ++ ends) = replaceFrom xs lo edits ++ ends.flatMap (·.inserted) := by
  induction edits generalizing lo with
  | nil => exact replaceFrom_ends hends
  | cons e edits ih =>
    simp only [List.cons_append, replaceFrom, ih, List.append_assoc]

theorem InOrder.mono {lo' : Nat} (h : InOrder hi lo' edits) (hlo : lo ≤ lo') :
    InOrder hi lo edits := by
  cases edits with
  | nil => exact le_trans hlo h
  | cons e edits => exact ⟨le_trans hlo h.1, h.2⟩

theorem InOrder.start_ge (h : InOrder hi lo edits) : ∀ e ∈ edits, lo ≤ e.start := by
  induction edits generalizing lo with
  | nil => simp
  | cons e edits ih =>
    intro e' he'
    rcases List.mem_cons.mp he' with rfl | he'
    · exact h.1
    · have := ih h.2 e' he'
      have hstart : e.start ≤ e.finish := Nat.le_add_right _ _
      exact le_trans h.1 (le_trans hstart this)

/-- Whether an edit starts before a place. -/
def Edit.before (place : Nat) (e : Edit α) : Bool := e.start < place

/-- An element goes behind all that it is not below and before all that it is. -/
theorem orderedInsert_between {below above : List (Edit α)} {e : Edit α}
    (hbelow : ∀ e' ∈ below, ¬e.start ≤ e'.start) (habove : ∀ e' ∈ above, e.start ≤ e'.start) :
    (below ++ above).orderedInsert (fun a b => a.start ≤ b.start) e = below ++ e :: above := by
  induction below with
  | nil =>
    cases above with
    | nil => rfl
    | cons e' above => exact List.orderedInsert_cons_of_le _ _ (habove e' List.mem_cons_self)
  | cons e' below ih =>
    have hnot := hbelow e' List.mem_cons_self
    have hrest := ih fun e'' he'' => hbelow e'' (List.mem_cons_of_mem _ he'')
    rw [List.cons_append, List.orderedInsert_cons, if_neg hnot, hrest]
    rfl

/-- Sorting edits of which those before the end are in order only moves the others behind them. -/
theorem insertionSort_edits (h : InOrder hi lo (edits.filter (·.before hi)))
    (hle : ∀ e ∈ edits, e.start ≤ hi) :
    edits.insertionSort (fun a b => a.start ≤ b.start) =
      edits.filter (·.before hi) ++ edits.filter (!·.before hi) := by
  induction edits generalizing lo with
  | nil => rfl
  | cons e edits ih =>
    have hrest : ∀ e' ∈ edits, e'.start ≤ hi := fun e' he' => hle e' (List.mem_cons_of_mem _ he')
    have hsorts : (e :: edits).insertionSort (fun a b => a.start ≤ b.start) =
        (edits.insertionSort fun a b => a.start ≤ b.start).orderedInsert
          (fun a b => a.start ≤ b.start) e := rfl
    rw [hsorts]
    by_cases hbefore : e.before hi = true
    · have hlt : e.start < hi := by simpa [Edit.before] using hbefore
      have hstart : e.start ≤ e.finish := Nat.le_add_right _ _
      rw [List.filter_cons_of_pos hbefore] at h
      rw [List.filter_cons_of_pos hbefore, List.filter_cons_of_neg (by simp [hbefore]),
        ih h.2 hrest]
      refine orderedInsert_between (List.forall_mem_nil _) ?_
      intro e' he'
      rcases List.mem_append.mp he' with he' | he'
      · exact le_trans hstart (h.2.start_ge e' he')
      · have : ¬e'.start < hi := by simpa [Edit.before] using (List.mem_filter.mp he').2
        omega
    · have hstart : ¬e.start < hi := by simpa [Edit.before] using hbefore
      have hend : e.start ≤ hi := hle e List.mem_cons_self
      rw [List.filter_cons_of_neg hbefore] at h
      rw [List.filter_cons_of_neg hbefore, List.filter_cons_of_pos (by simpa using hbefore),
        ih h hrest]
      apply orderedInsert_between
      · intro e' he'
        have : e'.start < hi := by simpa [Edit.before] using (List.mem_filter.mp he').2
        omega
      · intro e' he'
        have : ¬e'.start < hi := by simpa [Edit.before] using (List.mem_filter.mp he').2
        have := hrest e' (List.mem_filter.mp he').1
        omega

/-- Edits in order, and others at the end of the list: the ranges are replaced, and what the others
insert is appended in their order. -/
theorem spliceBackwards_inOrder (h : InOrder xs.length 0 (edits.filter (·.before xs.length)))
    (hends : ∀ e ∈ edits, e.before xs.length = true ∨ e.IsAt xs.length) :
    spliceBackwards edits xs = some (replaceFrom xs 0 (edits.filter (·.before xs.length)) ++
      (edits.filter (!·.before xs.length)).flatMap (·.inserted)) := by
  have hle : ∀ e ∈ edits, e.start ≤ xs.length := by
    intro e he
    rcases hends e he with hbefore | hend
    · exact le_of_lt (by simpa [Edit.before] using hbefore)
    · exact le_of_eq hend.1
  have hlast : ∀ e ∈ edits.filter (!·.before xs.length), e.IsAt xs.length := by
    intro e he
    obtain ⟨hmem, hnot⟩ := List.mem_filter.mp he
    rcases hends e hmem with hbefore | hend
    · rw [hbefore] at hnot
      cases hnot
    · exact hend
  unfold spliceBackwards
  rw [insertionSort_edits h hle, applyLastFirst_inOrder (h.append_ends hlast),
    replaceFrom_append_ends hlast]
  rfl

/-! ## Weights -/

/-- The edit that only removes. -/
def Edit.erase (e : Edit α) : Edit α := { e with inserted := [] }

/-- What a list weighs, of the weights of its elements. -/
def weight (f : α → Nat) (xs : List α) : Nat := (xs.map f).sum

variable (f : α → Nat)

@[simp] theorem weight_append (xs ys : List α) : weight f (xs ++ ys) = weight f xs + weight f ys := by
  simp [weight]

theorem weight_replaceFrom (edits : List (Edit α)) (lo : Nat) :
    weight f (replaceFrom xs lo edits) =
      weight f (replaceFrom xs lo (edits.map Edit.erase)) +
        (edits.map fun e => weight f e.inserted).sum := by
  induction edits generalizing lo with
  | nil => simp [replaceFrom]
  | cons e edits ih =>
    have hfinish : e.erase.finish = e.finish := rfl
    have hstart : e.erase.start = e.start := rfl
    have hnone : weight f e.erase.inserted = 0 := rfl
    simp only [List.map_cons, replaceFrom, weight_append, List.sum_cons, ih, hfinish, hstart, hnone]
    omega

theorem weight_flatMap (edits : List (Edit α)) :
    weight f (edits.flatMap (·.inserted)) = (edits.map fun e => weight f e.inserted).sum := by
  induction edits with
  | nil => rfl
  | cons e edits ih => simp [ih]

end Splice
