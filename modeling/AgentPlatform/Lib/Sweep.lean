import AgentPlatform.Lib.KeysetPaging

/-!
# Sweeps over a changing table

A worker takes the rows of a table in batches, each behind the last row of the batch before, until a
batch is empty; then it starts over. Rows come and go in between. A sweep takes no row twice, and it
takes every row that was there whenever a batch was read.
-/

namespace Sweep

open Keyset

variable {α κ : Type} [LinearOrder κ]

section

variable (key : α → κ)

/-- The batch behind a cursor, the greatest key first. -/
def batch (cursor : Option κ) (read : Read α) : List α :=
  (read.page key (fun _ => true) cursor).rows

/-- The batches from a cursor on until one is empty, and the rows that they take. -/
inductive Sweeps : Option κ → List (Read α) → List α → Prop
  | done (cursor : Option κ) (read : Read α) (empty : batch key cursor read = []) :
      Sweeps cursor [read] []
  | more (cursor : Option κ) (read : Read α) {last : α} {reads : List (Read α)} {rows : List α}
      (ends : (batch key cursor read).getLast? = some last)
      (rest : Sweeps (some (key last)) reads rows) :
      Sweeps cursor (read :: reads) (batch key cursor read ++ rows)

end

variable {key : α → κ} {cursor : Option κ} {read : Read α} {reads : List (Read α)} {rows : List α}

/-! ## One batch -/

theorem batch_sublist :
    (batch key cursor read).Sublist (below key (fun _ => true) cursor read.table) := by
  rw [batch, Read.page, page_rows]
  exact List.take_sublist _ _

theorem mem_batch {r : α} (h : r ∈ batch key cursor read) :
    r ∈ read.table ∧ ∀ k ∈ cursor, key r < k := by
  obtain ⟨hmem, -, hbehind⟩ := mem_below.mp (batch_sublist.subset h)
  exact ⟨hmem, hbehind⟩

theorem batch_descending (sound : read.Sound key) :
    (batch key cursor read).Pairwise fun r r' => key r' < key r :=
  (below_descending sound.distinct).sublist batch_sublist

/-- Under a reversed key the least comes first. -/
theorem batch_toDual (key : α → κ) (cursor : Option κ) (limit : Nat) (table : List α) :
    batch (fun r => OrderDual.toDual (key r)) (cursor.map OrderDual.toDual) ⟨limit, table⟩ =
      ((table.filter fun r => cursor.all fun k => k < key r).mergeSort
        fun r r' => key r ≤ key r').take limit := by
  have hfilter : table.filter (fun r => true && (cursor.map OrderDual.toDual).all fun k =>
      OrderDual.toDual (key r) < k) = table.filter fun r => cursor.all fun k => k < key r := by
    refine List.filter_congr fun r _ => ?_
    cases cursor <;> simp
  have horder : (fun r r' => decide (OrderDual.toDual (key r') ≤ OrderDual.toDual (key r))) =
      fun r r' => decide (key r ≤ key r') := by
    funext r r'
    exact decide_eq_decide.mpr OrderDual.toDual_le_toDual
  rw [batch, Read.page, page_rows, below, hfilter, horder]

/-- No row of a batch stands behind its last one. -/
theorem last_le (sound : read.Sound key) {last r : α}
    (ends : (batch key cursor read).getLast? = some last) (hr : r ∈ batch key cursor read) :
    key last ≤ key r := by
  obtain ⟨front, hrows⟩ := List.getLast?_eq_some_iff.mp ends
  have hdescending : (batch key cursor read).Pairwise fun r r' => key r' < key r :=
    batch_descending sound
  rw [hrows] at hr hdescending
  rcases List.mem_append.mp hr with hfront | hend
  · exact ((List.pairwise_append.mp hdescending).2.2 r hfront last List.mem_cons_self).le
  · rw [List.mem_singleton.mp hend]

/-- A row behind the cursor is taken, or stands behind the last row that is. -/
theorem batch_complete (sound : read.Sound key) {r : α} (hr : r ∈ read.table)
    (behind : ∀ k ∈ cursor, key r < k) :
    r ∈ batch key cursor read ∨
      ∃ last, (batch key cursor read).getLast? = some last ∧ key r < key last := by
  have hbelow : r ∈ below key (fun _ => true) cursor read.table := mem_below.mpr ⟨hr, rfl, behind⟩
  refine (page_complete sound.positive sound.distinct hbelow).imp_right ?_
  rintro ⟨k, hnext, hlt⟩
  obtain ⟨last, hlast, rfl⟩ := page_next_last hnext
  exact ⟨last, hlast, hlt⟩

/-- The ids of rows that are picked from others are among theirs, in their order. -/
theorem map_filterMap_sublist {β ι : Type} {pick : β → Option α} {id : α → ι} {id' : β → ι}
    (own : ∀ r picked, pick r = some picked → id picked = id' r) (table : List β) :
    ((table.filterMap pick).map id).Sublist (table.map id') := by
  induction table with
  | nil => exact List.Sublist.slnil
  | cons r table ih =>
    rw [List.filterMap_cons, List.map_cons]
    cases hpick : pick r with
    | none => exact ih.cons _
    | some picked =>
      rw [List.map_cons, own r picked hpick]
      exact ih.cons_cons _

/-! ## A sweep -/

namespace Sweeps

/-- What is taken was there at a batch. -/
theorem sound (sweep : Sweeps key cursor reads rows) : ∀ r ∈ rows, ∃ read ∈ reads, r ∈ read.table := by
  induction sweep with
  | done cursor read empty => exact fun r hr => absurd hr List.not_mem_nil
  | more cursor read ends rest ih =>
    intro r hr
    rcases List.mem_append.mp hr with hfirst | hrest
    · exact ⟨read, List.mem_cons_self, (mem_batch hfirst).1⟩
    · obtain ⟨read', hread', hmem⟩ := ih r hrest
      exact ⟨read', List.mem_cons_of_mem _ hread', hmem⟩

theorem behind (sweep : Sweeps key cursor reads rows) (good : ∀ read ∈ reads, read.Sound key) :
    ∀ r ∈ rows, ∀ k ∈ cursor, key r < k := by
  induction sweep with
  | done cursor read empty => exact fun r hr => absurd hr List.not_mem_nil
  | @more cursor read last reads rows ends rest ih =>
    intro r hr k hk
    rcases List.mem_append.mp hr with hfirst | hrest
    · exact (mem_batch hfirst).2 k hk
    · have hlast := (mem_batch (List.mem_of_getLast? ends)).2 k hk
      exact lt_trans (ih (fun read hread => good read (List.mem_cons_of_mem _ hread)) r hrest _ rfl)
        hlast

/-- What is taken descends strictly. -/
theorem descending (sweep : Sweeps key cursor reads rows)
    (good : ∀ read ∈ reads, read.Sound key) : rows.Pairwise fun r r' => key r' < key r := by
  induction sweep with
  | done cursor read empty => exact List.Pairwise.nil
  | @more cursor read last reads rows ends rest ih =>
    have hrest : ∀ read ∈ reads, read.Sound key := fun read hread =>
      good read (List.mem_cons_of_mem _ hread)
    have hsound := good read List.mem_cons_self
    refine List.pairwise_append.mpr ⟨batch_descending hsound, ih hrest, fun r hr r' hr' => ?_⟩
    exact lt_of_lt_of_le (rest.behind hrest r' hr' _ rfl) (last_le hsound ends hr)

/-- A row that was there at every batch is taken. -/
theorem complete (sweep : Sweeps key cursor reads rows) (good : ∀ read ∈ reads, read.Sound key)
    {r : α} (behind : ∀ k ∈ cursor, key r < k) (stays : ∀ read ∈ reads, r ∈ read.table) :
    r ∈ rows := by
  induction sweep with
  | done cursor read empty =>
    have hsound := good read List.mem_cons_self
    rcases batch_complete hsound (stays read List.mem_cons_self) behind with htaken | ⟨last, hlast, -⟩
    · rw [empty] at htaken
      exact absurd htaken List.not_mem_nil
    · rw [empty] at hlast
      cases hlast
  | @more cursor read last reads rows ends rest ih =>
    have hsound := good read List.mem_cons_self
    rcases batch_complete hsound (stays read List.mem_cons_self) behind with
      htaken | ⟨last', hlast, hlt⟩
    · exact List.mem_append_left _ htaken
    · cases hlast.symm.trans ends
      refine List.mem_append_right _ (ih (fun read hread => good read (List.mem_cons_of_mem _ hread))
        (fun k hk => ?_) fun read hread => stays read (List.mem_cons_of_mem _ hread))
      rwa [← Option.mem_some_iff.mp hk]

end Sweeps

end Sweep
