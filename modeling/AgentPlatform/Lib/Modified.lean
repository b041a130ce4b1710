import Mathlib.Data.List.Perm.Basic

/-!
# Lists with one element changed

`List.modify` changes one element of a list. These are its effects on a list of what some of the
elements contribute.
-/

namespace Modified

universe u v

variable {α : Type u} {β : Type v} (f : α → Option β) (g : α → α) {xs : List α} {i : Nat} {a : α}

/-- A change that leaves an element's contribution leaves the contributions. -/
theorem filterMap_same (hget : xs[i]? = some a) (hsame : f (g a) = f a) :
    (xs.modify i g).filterMap f = xs.filterMap f := by
  induction xs generalizing i with
  | nil => simp at hget
  | cons x xs ih =>
    cases i with
    | zero =>
      cases hget
      simp [List.modify_zero_cons, List.filterMap_cons, hsame]
    | succ i => simp [List.filterMap_cons, ih (by simpa using hget)]

/-- A change that makes an element contribute adds its contribution. -/
theorem filterMap_gains {b : β} (hget : xs[i]? = some a) (hbefore : f a = none)
    (hafter : f (g a) = some b) :
    ((xs.modify i g).filterMap f).Perm (b :: xs.filterMap f) := by
  induction xs generalizing i with
  | nil => simp at hget
  | cons x xs ih =>
    cases i with
    | zero =>
      cases hget
      simp [List.modify_zero_cons, hbefore, hafter]
    | succ i =>
      have hrest := ih (by simpa using hget)
      cases hx : f x with
      | none => simpa [List.filterMap_cons, hx] using hrest
      | some c =>
        simp only [List.modify_succ_cons, List.filterMap_cons, hx]
        exact (hrest.cons c).trans (List.Perm.swap b c _)

/-- A change that ends an element's contribution removes it. -/
theorem filterMap_loses {b : β} (hget : xs[i]? = some a) (hbefore : f a = some b)
    (hafter : f (g a) = none) :
    (xs.filterMap f).Perm (b :: (xs.modify i g).filterMap f) := by
  induction xs generalizing i with
  | nil => simp at hget
  | cons x xs ih =>
    cases i with
    | zero =>
      cases hget
      simp [List.modify_zero_cons, hbefore, hafter]
    | succ i =>
      have hrest := ih (by simpa using hget)
      cases hx : f x with
      | none => simpa [List.filterMap_cons, hx] using hrest
      | some c =>
        simp only [List.modify_succ_cons, List.filterMap_cons, hx]
        exact (hrest.cons c).trans (List.Perm.swap b c _)

/-- A change exchanges an element's contribution for that of the changed element. -/
theorem filterMap_exchanges (hget : xs[i]? = some a) :
    ((f a).toList ++ (xs.modify i g).filterMap f).Perm ((f (g a)).toList ++ xs.filterMap f) := by
  induction xs generalizing i with
  | nil => simp at hget
  | cons x xs ih =>
    cases i with
    | zero =>
      cases hget
      have hcons (y : α) (ys : List α) : (y :: ys).filterMap f = (f y).toList ++ ys.filterMap f := by
        cases hy : f y <;> simp [hy]
      rw [List.modify_zero_cons, hcons, hcons, ← List.append_assoc, ← List.append_assoc]
      exact List.perm_append_comm.append_right _
    | succ i =>
      have hrest := ih (by simpa using hget)
      rw [List.modify_succ_cons]
      cases hx : f x with
      | none => simpa [List.filterMap_cons, hx] using hrest
      | some c =>
        rw [List.filterMap_cons_some hx, List.filterMap_cons_some hx]
        exact List.perm_middle.trans ((hrest.cons c).trans List.perm_middle.symm)

/-- A change that keeps a projection keeps the projections. -/
theorem map_same (p : α → β) (hsame : ∀ a, p (g a) = p a) :
    (xs.modify i g).map p = xs.map p := by
  induction xs generalizing i with
  | nil => simp
  | cons x xs ih =>
    cases i with
    | zero => simp [hsame]
    | succ i => simp [ih]

end Modified
