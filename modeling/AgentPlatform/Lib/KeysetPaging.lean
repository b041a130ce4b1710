import Mathlib.Order.Lattice

/-!
# Pages of a changing table

A reader lists the rows of a table in pages, the greatest key first. Each page asks for the rows
below the last key of the page before, and the table may change between two pages: rows come in, and
columns other than the key change. What is listed is strictly descending, so no row is listed twice,
and it has every row that was in the table, and was selected, whenever a page was read.
-/

namespace Keyset

variable {α κ : Type} [LinearOrder κ]

section

variable (key : α → κ) (keep : α → Bool)

/-- The selected rows below a key, the greatest first. -/
def below (after : Option κ) (table : List α) : List α :=
  (table.filter fun r => keep r && after.all fun k => key r < k).mergeSort
    fun r r' => key r' ≤ key r

/-- One page, and the key that the next one is to stand below. -/
structure Page (α κ : Type) where
  rows : List α
  next : Option κ

/-- The first page of at most `limit` rows. One more row is fetched, which tells whether there is a
next page. -/
def page (after : Option κ) (limit : Nat) (table : List α) : Page α κ :=
  let fetched := (below key keep after table).take (limit + 1)
  let rows := fetched.take limit
  { rows, next := if limit < fetched.length then rows.getLast?.map key else none }

/-- What one page is read from. -/
structure Read (α : Type) where
  limit : Nat
  table : List α

/-- A read of at least one row from a table whose keys stand once. -/
structure Read.Sound (read : Read α) : Prop where
  positive : 0 < read.limit
  distinct : (read.table.map key).Nodup

def Read.page (after : Option κ) (read : Read α) : Page α κ :=
  Keyset.page key keep after read.limit read.table

/-- The pages from one key on until there is no next one, and the rows that they list. -/
inductive Walk : Option κ → List (Read α) → List α → Prop
  | last (after : Option κ) (read : Read α) (ends : (read.page key keep after).next = none) :
      Walk after [read] (read.page key keep after).rows
  | more (after : Option κ) (read : Read α) {k : κ} {reads : List (Read α)} {rows : List α}
      (next : (read.page key keep after).next = some k) (rest : Walk (some k) reads rows) :
      Walk after (read :: reads) ((read.page key keep after).rows ++ rows)

end

/-! ## One page -/

section

variable {key : α → κ} {keep : α → Bool} {after : Option κ} {limit : Nat} {table : List α}

theorem mem_below {r : α} :
    r ∈ below key keep after table ↔ r ∈ table ∧ keep r = true ∧ ∀ k ∈ after, key r < k := by
  rw [below, List.mem_mergeSort, List.mem_filter, Bool.and_eq_true]
  cases after <;> simp

/-- Keys that stand once descend strictly. -/
theorem below_descending (distinct : (table.map key).Nodup) :
    (below key keep after table).Pairwise fun r r' => key r' < key r := by
  have hsorted : (below key keep after table).Pairwise fun r r' => key r' ≤ key r := by
    refine (List.pairwise_mergeSort ?_ ?_ _).imp of_decide_eq_true
    · intro a b c hab hbc
      exact decide_eq_true (le_trans (of_decide_eq_true hbc) (of_decide_eq_true hab))
    · intro a b
      simpa using le_total (key b) (key a)
  have hdistinct : ((below key keep after table).map key).Nodup := by
    have hperm := (List.mergeSort_perm (table.filter fun r => keep r && after.all fun k => key r < k)
      fun r r' => decide (key r' ≤ key r)).map key
    exact hperm.nodup_iff.mpr (distinct.sublist (List.filter_sublist.map key))
  rw [List.nodup_iff_pairwise_ne, List.pairwise_map] at hdistinct
  exact (hsorted.and hdistinct).imp fun h => lt_of_le_of_ne h.1 (Ne.symm h.2)

theorem page_rows :
    (page key keep after limit table).rows = (below key keep after table).take limit := by
  rw [page, List.take_take, Nat.min_eq_left (Nat.le_succ limit)]

theorem page_next : (page key keep after limit table).next =
    if limit < (below key keep after table).length then
      ((below key keep after table).take limit).getLast?.map key
    else none := by
  have hlength : limit < ((below key keep after table).take (limit + 1)).length ↔
      limit < (below key keep after table).length := by
    rw [List.length_take]
    omega
  simp only [page, hlength, List.take_take, Nat.min_eq_left (Nat.le_succ limit)]

/-- The next key is that of the last row. -/
theorem page_next_last {k : κ} (next : (page key keep after limit table).next = some k) :
    ∃ r, (page key keep after limit table).rows.getLast? = some r ∧ key r = k := by
  rw [page_next] at next
  split at next
  · rw [page_rows]
    exact Option.map_eq_some_iff.mp next
  · cases next

/-- A row below the key is listed, or stands below the next key. -/
theorem page_complete (positive : 0 < limit) (distinct : (table.map key).Nodup) {r : α}
    (hr : r ∈ below key keep after table) :
    r ∈ (page key keep after limit table).rows ∨
      ∃ k, (page key keep after limit table).next = some k ∧ key r < k := by
  have hdescending : (below key keep after table).Pairwise fun r r' => key r' < key r :=
    below_descending distinct
  rw [page_rows, page_next]
  generalize below key keep after table = rows at hr hdescending ⊢
  by_cases hmore : limit < rows.length
  · rw [if_pos hmore]
    have hsplit := List.take_append_drop limit rows
    rw [← hsplit] at hr hdescending
    rcases List.mem_append.mp hr with htaken | hleft
    · exact .inl htaken
    · have hne : rows.take limit ≠ [] := by
        rw [Ne, List.take_eq_nil_iff]
        rintro (h | h)
        · exact absurd h (Nat.ne_of_gt positive)
        · rw [h] at hmore
          exact absurd hmore (Nat.not_lt_zero limit)
      refine .inr ⟨key ((rows.take limit).getLast hne), ?_, ?_⟩
      · rw [List.getLast?_eq_some_getLast hne, Option.map_some]
      · exact (List.pairwise_append.mp hdescending).2.2 _ (List.getLast_mem hne) r hleft
  · exact .inl (by rwa [List.take_of_length_le (Nat.le_of_not_lt hmore)])

end

/-! ## Following the next key -/

namespace Walk

variable {key : α → κ} {keep : α → Bool} {after : Option κ} {reads : List (Read α)} {rows : List α}

/-- A listed row was in a table that was read, selected, below the key. -/
theorem sound (walk : Walk key keep after reads rows) (good : ∀ read ∈ reads, read.Sound key) :
    ∀ r ∈ rows, (∃ read ∈ reads, r ∈ read.table) ∧ keep r = true ∧ ∀ k ∈ after, key r < k := by
  have hpage {after : Option κ} {read : Read α} {r : α} (hr : r ∈ (read.page key keep after).rows) :
      r ∈ read.table ∧ keep r = true ∧ ∀ k ∈ after, key r < k := by
    rw [Read.page, page_rows] at hr
    exact mem_below.mp (List.mem_of_mem_take hr)
  induction walk with
  | last after read ends =>
    intro r hr
    obtain ⟨hmem, hkeep, hafter⟩ := hpage hr
    exact ⟨⟨read, List.mem_cons_self, hmem⟩, hkeep, hafter⟩
  | @more after read k reads rows next rest ih =>
    intro r hr
    rcases List.mem_append.mp hr with hfirst | hrest
    · obtain ⟨hmem, hkeep, hafter⟩ := hpage hfirst
      exact ⟨⟨read, List.mem_cons_self, hmem⟩, hkeep, hafter⟩
    · obtain ⟨⟨read', hread', hmem⟩, hkeep, hbelow⟩ :=
        ih (fun read hread => good read (List.mem_cons_of_mem _ hread)) r hrest
      obtain ⟨last, hlast, hkey⟩ := page_next_last next
      have hlistedLast := hpage (List.mem_of_getLast? hlast)
      refine ⟨⟨read', List.mem_cons_of_mem _ hread', hmem⟩, hkeep, fun k' hk' => ?_⟩
      exact lt_trans (hkey ▸ hbelow k rfl) (hlistedLast.2.2 k' hk')

/-- What is listed descends strictly. -/
theorem descending (walk : Walk key keep after reads rows)
    (good : ∀ read ∈ reads, read.Sound key) : rows.Pairwise fun r r' => key r' < key r := by
  have hpage {after : Option κ} {read : Read α} (hread : read.Sound key) :
      (read.page key keep after).rows.Pairwise fun r r' => key r' < key r := by
    rw [Read.page, page_rows]
    exact (below_descending hread.distinct).sublist (List.take_sublist _ _)
  induction walk with
  | last after read ends => exact hpage (good read List.mem_cons_self)
  | @more after read k reads rows next rest ih =>
    have hrest : ∀ read ∈ reads, read.Sound key := fun read hread =>
      good read (List.mem_cons_of_mem _ hread)
    have hfirst : (read.page key keep after).rows.Pairwise fun r r' => key r' < key r :=
      hpage (good read List.mem_cons_self)
    refine List.pairwise_append.mpr ⟨hfirst, ih hrest, fun r hr r' hr' => ?_⟩
    obtain ⟨last, hlast, hkey⟩ := page_next_last next
    have hbelow : key r' < key last := hkey ▸ (rest.sound hrest r' hr').2.2 k rfl
    obtain ⟨front, hrows⟩ := List.getLast?_eq_some_iff.mp hlast
    rw [Read.page] at hr hfirst
    rw [hrows] at hr hfirst
    rcases List.mem_append.mp hr with hfront | hend
    · exact lt_trans hbelow ((List.pairwise_append.mp hfirst).2.2 r hfront last List.mem_cons_self)
    · rwa [List.mem_singleton.mp hend]

/-- A key that was selected in every table that was read is listed. -/
theorem complete (walk : Walk key keep after reads rows)
    (good : ∀ read ∈ reads, read.Sound key) {k : κ} (within : ∀ k' ∈ after, k < k')
    (selected : ∀ read ∈ reads, ∃ r ∈ read.table, key r = k ∧ keep r = true) :
    ∃ r ∈ rows, key r = k := by
  induction walk with
  | last after read ends =>
    obtain ⟨r, hr, rfl, hkeep⟩ := selected read List.mem_cons_self
    have hsound := good read List.mem_cons_self
    rcases page_complete hsound.positive hsound.distinct (mem_below.mpr ⟨hr, hkeep, within⟩)
      with hlisted | ⟨k, hnext, -⟩
    · exact ⟨r, hlisted, rfl⟩
    · rw [Read.page, hnext] at ends
      cases ends
  | @more after read next reads rows hnext rest ih =>
    obtain ⟨r, hr, rfl, hkeep⟩ := selected read List.mem_cons_self
    have hsound := good read List.mem_cons_self
    rcases page_complete hsound.positive hsound.distinct (mem_below.mpr ⟨hr, hkeep, within⟩)
      with hlisted | ⟨k, hnext', hlt⟩
    · exact ⟨r, List.mem_append_left _ hlisted, rfl⟩
    · rw [Read.page, hnext'] at hnext
      cases hnext
      obtain ⟨r', hr', hkey⟩ := ih (fun read hread => good read (List.mem_cons_of_mem _ hread))
        (fun k' hk' => (Option.mem_some_iff.mp hk') ▸ hlt)
        (fun read hread => selected read (List.mem_cons_of_mem _ hread))
      exact ⟨r', List.mem_append_right _ hr', hkey⟩

end Walk

end Keyset
