import Mathlib.Data.List.Nodup
import Mathlib.Data.List.Range
import Mathlib.Data.Prod.Lex

/-!
# Tables as lists of rows

A relational table is the list of its rows, in the order they were inserted. `update` is
`UPDATE … WHERE`, `lookup` a read by key, `firstBy` is `ORDER BY … LIMIT 1`. The lemmas say what an
update leaves alone: a column it does not write, a row it does not select, and every read that
depends only on those.
-/

namespace Table

variable {α β κ : Type*}

/-! ## Updates -/

/-- `UPDATE table SET … WHERE p`: every row that `p` selects is rewritten by `f`. -/
def update (p : α → Bool) (f : α → α) (rows : List α) : List α :=
  rows.map fun r => if p r then f r else r

@[simp] theorem update_nil (p : α → Bool) (f : α → α) : update p f [] = [] := rfl

@[simp] theorem length_update (p : α → Bool) (f : α → α) (rows : List α) :
    (update p f rows).length = rows.length := by
  simp [update]

theorem update_append (p : α → Bool) (f : α → α) (xs ys : List α) :
    update p f (xs ++ ys) = update p f xs ++ update p f ys := by
  simp [update]

theorem update_cons (p : α → Bool) (f : α → α) (r : α) (rows : List α) :
    update p f (r :: rows) = (if p r then f r else r) :: update p f rows := rfl

/-- A row of the updated table is a rewritten row or a row that was not selected. -/
theorem mem_update {p : α → Bool} {f : α → α} {rows : List α} {r : α} :
    r ∈ update p f rows ↔ ∃ r₀ ∈ rows, (if p r₀ then f r₀ else r₀) = r := by
  simp [update]

/-- An update that selects no row changes nothing. -/
theorem update_of_none {p : α → Bool} {f : α → α} {rows : List α}
    (h : ∀ r ∈ rows, p r = false) : update p f rows = rows := by
  induction rows with
  | nil => rfl
  | cons r rows ih =>
    rw [update_cons, ih fun r' hr' => h r' (List.mem_cons_of_mem _ hr')]
    simp [h r List.mem_cons_self]

/-- A column that the update does not write keeps its values, in order. -/
theorem map_update_of_eq {p : α → Bool} {f : α → α} {g : α → β} (h : ∀ r, g (f r) = g r)
    (rows : List α) : (update p f rows).map g = rows.map g := by
  simp only [update, List.map_map]
  refine List.map_congr_left fun r _ => ?_
  by_cases hp : p r <;> simp [hp, h]

/-- A column that the update writes only on selected rows, where it already had that value. -/
theorem map_update_of_mem {p : α → Bool} {f : α → α} {g : α → β} {rows : List α}
    (h : ∀ r ∈ rows, p r = true → g (f r) = g r) : (update p f rows).map g = rows.map g := by
  simp only [update, List.map_map]
  refine List.map_congr_left fun r hr => ?_
  by_cases hp : p r
  · simp [hp, h r hr hp]
  · simp [hp]

/-- What is read of the rows past an update that does not write it. -/
theorem filterMap_update_of_eq {p : α → Bool} {f : α → α} {g : α → Option β}
    (h : ∀ r, g (f r) = g r) (rows : List α) :
    (update p f rows).filterMap g = rows.filterMap g := by
  have hcolumn := congrArg (List.filterMap id) (map_update_of_eq (p := p) h rows)
  rwa [List.filterMap_map, List.filterMap_map] at hcolumn

/-- Two updates in a row, the second selecting none of what the first wrote or left. -/
theorem update_update_same {p : α → Bool} {f g : α → α} (h : ∀ r, p (f r) = p r) (rows : List α) :
    update p g (update p f rows) = update p (fun r => g (f r)) rows := by
  simp only [update, List.map_map]
  refine List.map_congr_left fun r _ => ?_
  by_cases hp : p r <;> simp [hp, h]

/-- A filter that neither the old nor the new form of a rewritten row passes does not see an
update. -/
theorem filter_update_of_not {p sel : α → Bool} {f : α → α} {rows : List α}
    (h : ∀ r ∈ rows, sel r = true → p r = false ∧ p (f r) = false) :
    (update sel f rows).filter p = rows.filter p := by
  induction rows with
  | nil => rfl
  | cons r rows ih =>
    have hrows := ih fun r' hr' => h r' (List.mem_cons_of_mem _ hr')
    rw [update_cons, List.filter_cons, List.filter_cons, hrows]
    by_cases hr : sel r = true
    · obtain ⟨hold, hnew⟩ := h r List.mem_cons_self hr
      simp [hr, hold, hnew]
    · simp [hr]

/-- A table whose column is a concatenation is the concatenation of two tables. -/
theorem split_at {g : α → β} {rows : List α} {k : β} {A B : List β}
    (h : rows.map g = A ++ k :: B) :
    ∃ before r after, rows = before ++ r :: after ∧ before.map g = A ∧ g r = k ∧
      after.map g = B := by
  obtain ⟨before, others, rfl, hbefore, hothers⟩ := List.map_eq_append_iff.mp h
  obtain ⟨r, after, rfl, hr, hafter⟩ := List.map_eq_cons_iff.mp hothers
  exact ⟨before, r, after, rfl, hbefore, hr, hafter⟩

/-! ## Reads by key -/

variable [DecidableEq κ]

/-- `SELECT … WHERE key = k`, for a key with at most one row. -/
def lookup (key : α → κ) (k : κ) (rows : List α) : Option α :=
  rows.find? fun r => key r = k

theorem lookup_mem {key : α → κ} {k : κ} {rows : List α} {r : α}
    (h : lookup key k rows = some r) : r ∈ rows :=
  List.mem_of_find?_eq_some h

theorem lookup_key {key : α → κ} {k : κ} {rows : List α} {r : α}
    (h : lookup key k rows = some r) : key r = k := by
  have := List.find?_some h
  simpa using this

/-- With a unique key, the row that carries `k` is the row a lookup of `k` finds. -/
theorem lookup_eq_some {key : α → κ} {rows : List α} {r : α}
    (unique : (rows.map key).Nodup) (hr : r ∈ rows) : lookup key (key r) rows = some r := by
  induction rows with
  | nil => cases hr
  | cons r' rows ih =>
    obtain ⟨hnot, hrest⟩ := List.nodup_cons.mp unique
    rcases List.mem_cons.mp hr with rfl | hr
    · simp [lookup]
    · have hne : key r' ≠ key r := fun h => hnot (h ▸ List.mem_map_of_mem hr)
      simpa [lookup, List.find?_cons, hne] using ih hrest hr

theorem lookup_eq_none {key : α → κ} {k : κ} {rows : List α} :
    lookup key k rows = none ↔ ∀ r ∈ rows, key r ≠ k := by
  simp [lookup]

/-- Rows with equal keys are equal, when the key is unique. -/
theorem eq_of_key {key : α → κ} {rows : List α} (unique : (rows.map key).Nodup) {r r' : α}
    (hr : r ∈ rows) (hr' : r' ∈ rows) (h : key r = key r') : r = r' := by
  have := lookup_eq_some unique hr
  rw [h, lookup_eq_some unique hr'] at this
  exact (Option.some.inj this).symm

/-- An update of the one row with key `k` changes that row alone. -/
theorem update_key {key : α → κ} {before after : List α} {r : α} (f : α → α)
    (unique : ((before ++ r :: after).map key).Nodup) :
    update (fun r' => key r' = key r) f (before ++ r :: after) = before ++ f r :: after := by
  have hne : ∀ r' ∈ before ++ after, key r' ≠ key r := by
    intro r' hr' heq
    rw [List.map_append, List.map_cons, List.nodup_middle] at unique
    obtain ⟨hnot, -⟩ := List.nodup_cons.mp unique
    exact hnot (by rw [← heq, ← List.map_append]; exact List.mem_map_of_mem hr')
  rw [update_append, update_cons,
    update_of_none fun r' hr' => by simpa using hne r' (List.mem_append_left _ hr'),
    update_of_none fun r' hr' => by simpa using hne r' (List.mem_append_right _ hr')]
  simp

/-- What an update of the row with key `k` does to a column that it writes. -/
theorem map_update_key {key : α → κ} {g : α → β} {f : α → α} {rows : List α} {k : κ}
    {A B : List κ} {A' B' : List β} {v v' : β} (unique : (rows.map key).Nodup)
    (hkey : rows.map key = A ++ k :: B) (hcol : rows.map g = A' ++ v :: B')
    (hlen : A.length = A'.length) (hf : ∀ r, g (f r) = v') :
    (update (fun r => key r = k) f rows).map g = A' ++ v' :: B' := by
  obtain ⟨before, r, after, rfl, hbefore, rfl, hafter⟩ := split_at hkey
  rw [update_key f unique, List.map_append, List.map_cons, hf]
  rw [List.map_append, List.map_cons] at hcol
  obtain ⟨hA, hB⟩ := List.append_inj hcol (by rw [← hlen, ← hbefore]; simp)
  rw [hA, (List.cons.inj hB).2]

/-- A lookup in a table whose rows were rewritten without touching the key. -/
theorem lookup_update {key : α → κ} {p : α → Bool} {f : α → α} (hkey : ∀ r, key (f r) = key r)
    (k : κ) (rows : List α) :
    lookup key k (update p f rows) = (lookup key k rows).map fun r => if p r then f r else r := by
  induction rows with
  | nil => rfl
  | cons r rows ih =>
    have hk : key (if p r then f r else r) = key r := by split <;> simp [hkey]
    by_cases h : key r = k
    · simp [lookup, update_cons, hk, h]
    · simpa [lookup, update_cons, List.find?_cons, hk, h] using ih

/-! ## The first row of an order -/

variable {γ : Type*} [LinearOrder γ]

/-- `SELECT … ORDER BY rank LIMIT 1`. -/
def firstBy (rank : α → γ) : List α → Option α
  | [] => none
  | r :: rows =>
    match firstBy rank rows with
    | none => some r
    | some r' => if rank r ≤ rank r' then some r else some r'

theorem firstBy_mem {rank : α → γ} {rows : List α} {r : α} (h : firstBy rank rows = some r) :
    r ∈ rows := by
  induction rows generalizing r with
  | nil => cases h
  | cons r' rows ih =>
    unfold firstBy at h
    split at h
    · cases h; exact List.mem_cons_self
    · rename_i r'' heq
      split at h
      · cases h; exact List.mem_cons_self
      · cases h; exact List.mem_cons_of_mem _ (ih heq)

/-- In a table whose ranks ascend, the first row by rank is the first row. -/
theorem firstBy_of_ascending {rank : α → γ} {rows : List α}
    (h : rows.Pairwise fun a b => rank a < rank b) : firstBy rank rows = rows.head? := by
  induction rows with
  | nil => rfl
  | cons r rows ih =>
    obtain ⟨hr, hrows⟩ := List.pairwise_cons.mp h
    unfold firstBy
    rw [ih hrows]
    cases rows with
    | nil => rfl
    | cons r' rows =>
      have := hr r' List.mem_cons_self
      simp [le_of_lt this]

/-! ## Aggregates -/

/-- `SELECT COALESCE(MAX(column),0)`. -/
def maxOf (column : α → Nat) (rows : List α) : Nat :=
  rows.foldr (fun r m => max (column r) m) 0

end Table
