import AgentPlatform.Lib.Sweep
import AgentPlatform.Store.Drawn
import AgentPlatform.Store.Listings
import AgentPlatform.Store.WaitsFinish
import Mathlib.Data.List.Flatten

/-!
# Waits that are due

`due_waits_after` lists the pending waits whose deadline has passed, the earliest deadline first.
`expire_wait` of such a wait ends it: its event conflicts with none that is there.
-/

namespace AgentPlatform.Store

open Keyset

/-! ## The list -/

structure DueWait where
  id : WaitId
  expiresAt : Timestamp
deriving DecidableEq, Repr

/-- How `(expires_at,id)` is compared. -/
def DueWait.key (w : DueWait) : RowKey := toLex (w.expiresAt, w.id)

/-- The columns of a wait that is pending and whose deadline has passed. -/
def WaitRow.due (w : WaitRow) (now : Timestamp) : Option DueWait :=
  if w.status = .pending ∧ w.expired now = true then
    w.expiresAt.map fun expiresAt => { id := w.id, expiresAt }
  else none

/-- The rows that `due_waits_after` selects without a cursor. -/
def Db.dueWaits (db : Db) (clock : Clock) : List DueWait :=
  db.sessions.flatMap fun s => s.waits.filterMap (·.due (clock.reading 0))

/-- `Store::due_waits_after`. -/
def Db.dueWaitsAfter (db : Db) (clock : Clock) (after : Option DueWait) (limit : Int) :
    Result (List DueWait) :=
  if limit < 1 ∨ 1000 < limit then .error (.invalidInput "limit must be between 1 and 1000")
  else
    let due := (db.dueWaits clock).filter fun w => after.all fun cursor => cursor.key < w.key
    .ok ((due.mergeSort fun w w' => w.key ≤ w'.key).take limit.toNat)

theorem WaitRow.due_eq_some {w : WaitRow} {now : Timestamp} {due : DueWait} :
    w.due now = some due ↔
      w.status = .pending ∧ w.expired now = true ∧ w.expiresAt = some due.expiresAt ∧
        w.id = due.id := by
  unfold WaitRow.due
  split
  next h =>
    rw [Option.map_eq_some_iff]
    constructor
    · rintro ⟨expiresAt, hexpires, rfl⟩
      exact ⟨h.1, h.2, hexpires, rfl⟩
    · rintro ⟨-, -, hexpires, hid⟩
      exact ⟨due.expiresAt, hexpires, hid ▸ rfl⟩
  next h =>
    constructor
    · intro hnone
      cases hnone
    · rintro ⟨hpending, hexpired, -⟩
      exact absurd ⟨hpending, hexpired⟩ h

theorem Db.mem_dueWaits {db : Db} {clock : Clock} {due : DueWait} :
    due ∈ db.dueWaits clock ↔
      ∃ s ∈ db.sessions, ∃ w ∈ s.waits, w.due (clock.reading 0) = some due := by
  simp only [Db.dueWaits, List.mem_flatMap, List.mem_filterMap]

/-- A scan reads a batch of the due waits. -/
theorem Db.dueWaitsAfter_eq (db : Db) (clock : Clock) (after : Option DueWait) {limit : Int}
    (least : 1 ≤ limit) (most : limit ≤ 1000) : db.dueWaitsAfter clock after limit =
      .ok (Sweep.batch (fun w => OrderDual.toDual w.key)
        (after.map fun w => OrderDual.toDual w.key) ⟨limit.toNat, db.dueWaits clock⟩) := by
  have hbatch := Sweep.batch_toDual DueWait.key (after.map DueWait.key) limit.toNat
    (db.dueWaits clock)
  have hcursor : after.map (fun w => OrderDual.toDual w.key) =
      (after.map DueWait.key).map OrderDual.toDual := by
    rw [Option.map_map]
    rfl
  rw [Db.dueWaitsAfter, if_neg (by omega), hcursor, hbatch]
  cases after <;> rfl

section

variable {codec : Codec} {trace : List Entry} {db : Db}

/-- Wait ids stand once. -/
theorem Run.wait_ids_nodup (run : Run codec trace db) :
    (db.sessions.flatMap fun s => s.waits.map (·.id)).Nodup := by
  refine List.nodup_flatMap.mpr ⟨fun s hs => (run.waitInvariant hs).sound.unique, ?_⟩
  have hunique := run.registered.unique
  rw [List.nodup_iff_pairwise_ne, List.pairwise_map] at hunique
  refine hunique.imp_of_mem fun {s t} hs ht hother id hid hid' => ?_
  obtain ⟨w, hw, rfl⟩ := List.mem_map.mp hid
  obtain ⟨w', hw', heq⟩ := List.mem_map.mp hid'
  exact hother (congrArg (·.id) (run.wait_owner hs ht hw hw' heq.symm))

/-- So do the keys of the due waits. -/
theorem Run.dueWaits_distinct (run : Run codec trace db) (clock : Clock) :
    ((db.dueWaits clock).map DueWait.key).Nodup := by
  have hids : ((db.dueWaits clock).map (·.id)).Nodup := by
    refine run.wait_ids_nodup.sublist ?_
    rw [Db.dueWaits, List.map_flatMap]
    refine List.Sublist.flatMap_right _ fun s _ => Sweep.map_filterMap_sublist ?_ s.waits
    exact fun w due hdue => (WaitRow.due_eq_some.mp hdue).2.2.2.symm
  refine List.Nodup.of_map (fun key => (ofLex key).2) ?_
  rw [List.map_map]
  exact hids

/-! ## Ending a wait -/

theorem Run.sessionOfWait_eq (run : Run codec trace db) {s : Session} (hs : s ∈ db.sessions)
    {w : WaitRow} (hw : w ∈ s.waits) : db.sessionOfWait w.id = some s.id := by
  unfold Db.sessionOfWait
  cases hfind : db.sessions.find? fun s => s.waits.any (·.id = w.id) with
  | none =>
    have hnone := List.find?_eq_none.mp hfind s hs
    exact absurd (List.any_eq_true.mpr ⟨w, hw, by simp⟩) hnone
  | some t =>
    have hany := List.find?_some hfind
    simp only [List.any_eq_true, decide_eq_true_eq] at hany
    obtain ⟨w', hw', hid⟩ := hany
    rw [run.wait_owner (List.mem_of_find?_eq_some hfind) hs hw' hw hid]
    rfl

/-- The end of a pending wait is inserted: no event has its id, its sequence or its wait. -/
theorem Run.finishWait_total (run : Run codec trace db) {s : Session} (hs : s ∈ db.sessions)
    {w : WaitRow} (hw : w ∈ s.waits) (pending : w.status = .pending) (clock : Clock)
    (finish : WaitFinish) (finished : WaitRow → WaitRow) :
    ∃ e s',
      s.finishWait clock db.nextUuid w.id s.nextEventSequence finish finished = .ok (e, s') := by
  have hordered := inbox_ordered run s hs
  have hresumed : s.resumedEvents w.id = [] := by
    have hannounced := (run.waitInvariant hs).sound.announced w hw
    rw [Session.announced_resumed, pending] at hannounced
    exact List.map_eq_nil_iff.mp hannounced
  have hfresh : s.events.any (Session.eventsConflict
      (waitEvent clock db.nextUuid w.id s.nextEventSequence finish)) = false := by
    refine List.any_eq_false.mpr fun e he => ?_
    have hid : db.nextUuid ≠ e.id := Nat.ne_of_gt (run.event_drawn s hs e he)
    have hsequence : s.nextEventSequence ≠ e.sequence := by
      have hmem : e.sequence ∈ s.events.map (·.sequence) := List.mem_map.mpr ⟨e, he, rfl⟩
      rw [hordered.sequences, List.mem_range'_1] at hmem
      have hlt := hmem.2
      rw [Nat.add_sub_cancel' hordered.next] at hlt
      exact Nat.ne_of_gt hlt
    have hwait : ¬(e.eventType = .waitResumed ∧ e.waitId = some w.id) := by
      rintro ⟨htype, hwait⟩
      have hmem : e ∈ s.resumedEvents w.id := List.mem_filter.mpr ⟨he, by simp [htype, hwait]⟩
      rw [hresumed] at hmem
      exact absurd hmem List.not_mem_nil
    intro hconflict
    simp only [Session.eventsConflict, waitEvent, EventRow.new, Bool.or_eq_true, Bool.and_eq_true,
      beq_iff_eq, Option.isSome_none, Bool.false_eq_true, false_and, or_false] at hconflict
    rcases hconflict with ((hsame | hsame) | ⟨⟨hcompleted, -⟩, -⟩) | ⟨⟨-, htype⟩, hsame⟩
    · exact hid hsame
    · exact hsequence hsame
    · cases hcompleted
    · exact hwait ⟨htype, hsame.symm⟩
  have hany : (s.updateWaits (·.id = w.id) fun w =>
      { finished w with status := finish.status }).events.any (Session.eventsConflict
        (waitEvent clock db.nextUuid w.id s.nextEventSequence finish)) = false := hfresh
  simp only [Session.finishWait, Session.insertEvent, hany, Bool.false_eq_true, if_false]
  exact ⟨_, _, rfl⟩

/-- `expire_wait` of a wait that is there is answered, and a wait whose deadline has passed is over
after it. -/
theorem Run.expireWait_answers (run : Run codec trace db) {s : Session} (hs : s ∈ db.sessions)
    {w : WaitRow} (hw : w ∈ s.waits) (clock : Clock) :
    (∃ event, (exec codec clock db (.expireWait w.id)).1 = .waitExpired event) ∧
      (w.expired (clock.reading 0) = true →
        ∃ s' ∈ (exec codec clock db (.expireWait w.id)).2.sessions, s'.id = s.id ∧
          ∃ w' ∈ s'.waits, w'.id = w.id ∧ w'.status ≠ .pending) := by
  have hfound : Table.lookup (fun w : WaitRow => w.id) w.id s.waits = some w :=
    Table.lookup_eq_some (run.waitInvariant hs).sound.unique hw
  replace hfound : s.waits.find? (·.id = w.id) = some w := hfound
  simp only [exec, Db.expireWait, run.sessionOfWait_eq hs hw, Db.transact, run.session?_eq hs,
    Session.expireWait, hfound]
  by_cases hdue : w.status ≠ .pending ∨ (!w.expired (clock.reading 0)) = true
  · rw [if_pos hdue]
    refine ⟨⟨none, rfl⟩, fun hexpired => ?_⟩
    have hpending : w.status ≠ .pending := by
      rcases hdue with hpending | hlater
      · exact hpending
      · rw [hexpired] at hlater
        cases hlater
    exact ⟨s, Db.mem_put.mpr (.inl ⟨rfl, s, hs, rfl⟩), rfl, w, hw, rfl, hpending⟩
  · rw [if_neg hdue]
    simp only [not_or, Decidable.not_not] at hdue
    obtain ⟨e, s', hfinish⟩ := run.finishWait_total hs hw hdue.1 clock .expired
      fun w => { w with finishedAt := some clock.now }
    rw [hfinish]
    obtain ⟨-, -, rfl⟩ := Session.finishWait_ok hfinish
    refine ⟨⟨_, rfl⟩, fun _ => ⟨_, Db.mem_put.mpr (.inl ⟨rfl, s, hs, rfl⟩), rfl, ?_⟩⟩
    refine ⟨_, Table.mem_update.mpr ⟨w, hw, rfl⟩, ?_⟩
    simp only [decide_true, if_true]
    exact ⟨trivial, fun hstatus => by cases hstatus⟩

end

end AgentPlatform.Store
