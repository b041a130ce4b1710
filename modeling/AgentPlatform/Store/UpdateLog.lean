import AgentPlatform.Store.Told

/-!
# The log of updates

The updates that a session stores are numbered without a gap from the one it retains on. A log only
grows at its end and only loses its front, so what a reader was shown of it is never contradicted.
-/

namespace AgentPlatform.Store

namespace Session

/-- The stored updates are those from the retained one on to the last. -/
structure Logged (s : Session) : Prop where
  rows : Numbered (·.sequence) s.retainedUpdateSequence s.updates
  next : s.nextUpdateSequence = s.retainedUpdateSequence + s.updates.length
  first : 1 ≤ s.retainedUpdateSequence

/-- The log of `s'` is a later one: it went on at its end and may have lost its front. -/
structure LogLater (s s' : Session) : Prop where
  next : s.nextUpdateSequence ≤ s'.nextUpdateSequence
  retained : s.retainedUpdateSequence ≤ s'.retainedUpdateSequence
  kept : ∀ u ∈ s.updates, s'.retainedUpdateSequence ≤ u.sequence → u ∈ s'.updates

namespace LogLater

variable {s t s' : Session}

theorem refl (s : Session) : s.LogLater s := ⟨Nat.le_refl _, Nat.le_refl _, fun _ hu _ => hu⟩

theorem of_eq (updates : s'.updates = s.updates)
    (next : s'.nextUpdateSequence = s.nextUpdateSequence)
    (retained : s'.retainedUpdateSequence = s.retainedUpdateSequence) : s.LogLater s' :=
  ⟨Nat.le_of_eq next.symm, Nat.le_of_eq retained.symm, fun _ hu _ => updates ▸ hu⟩

theorem trans (first : s.LogLater t) (rest : t.LogLater s') : s.LogLater s' where
  next := Nat.le_trans first.next rest.next
  retained := Nat.le_trans first.retained rest.retained
  kept u hu hretained :=
    rest.kept u (first.kept u hu (Nat.le_trans rest.retained hretained)) hretained

/-- What a later log has under a sequence that the log had passed is what the log had there. -/
theorem known (h : s.LogLater s') (logged : s.Logged) (logged' : s'.Logged) {u : UpdateRow}
    (hu : u ∈ s'.updates) (passed : u.sequence < s.nextUpdateSequence) : u ∈ s.updates := by
  have hretained := (logged'.rows.mem hu).1
  have hin : u.sequence ∈ s.updates.map (·.sequence) := by
    rw [logged.rows]
    exact List.mem_range'_1.mpr ⟨Nat.le_trans h.retained hretained, logged.next ▸ passed⟩
  obtain ⟨v, hv, hsequence⟩ := List.mem_map.mp hin
  have hkept : v ∈ s'.updates := h.kept v hv (hsequence.symm ▸ hretained)
  rwa [← logged'.rows.eq_of_number hkept hu hsequence]

end LogLater

variable {s s' : Session}

/-- Appended updates continue the log. -/
theorem Logs.later {told : List Told} (h : s.Logs told s') : s.LogLater s' where
  next := h.next ▸ Nat.le_add_right _ _
  retained := Nat.le_of_eq h.retained.symm
  kept u hu _ := by
    obtain ⟨rows, hupdates, -, -⟩ := h.rows
    exact hupdates ▸ List.mem_append_left _ hu

theorem Logs.logged {told : List Told} (h : s.Logs told s') (logged : s.Logged) : s'.Logged := by
  obtain ⟨rows, hupdates, htold, hrows⟩ := h.rows
  have hlength : rows.length = told.length := by simpa using congrArg List.length htold
  refine ⟨?_, ?_, h.retained ▸ logged.first⟩
  · rw [h.retained, hupdates]
    rw [logged.next] at hrows
    exact logged.rows.append hrows
  · rw [h.next, h.retained, hupdates, logged.next, List.length_append, hlength, Nat.add_assoc]

/-- A cut drops a front of the log and retains what follows it. -/
theorem pruneUpdates_later {before : Timestamp} {removed : Nat}
    (h : s.pruneUpdates before = (removed, s')) (logged : s.Logged) :
    s.LogLater s' ∧ s'.Logged := by
  simp only [Session.pruneUpdates] at h
  split at h <;> cases h
  · exact ⟨.refl s, logged⟩
  · rename_i maximum hlast
    have hin : maximum ∈ s.updates :=
      List.mem_of_mem_filter (List.mem_of_mem_take (List.mem_of_getLast? hlast))
    obtain ⟨hle, hlt⟩ := logged.rows.mem hin
    have hretained : max s.retainedUpdateSequence (maximum.sequence + 1) = maximum.sequence + 1 :=
      Nat.max_eq_right (Nat.le_succ_of_le hle)
    have hkept := logged.rows.dropped hin
    have hlength := congrArg List.length hkept
    simp only [List.length_map, List.length_range'] at hlength
    refine ⟨⟨Nat.le_refl _, Nat.le_max_left _ _, fun u hu hu' => ?_⟩, ?_, ?_, ?_⟩
    · refine List.mem_filter.mpr ⟨hu, decide_eq_true ?_⟩
      exact Nat.lt_of_succ_le (Nat.le_trans (Nat.le_max_right _ _) hu')
    · simp only [Numbered, hretained, hlength]
      exact hkept
    · simp only [hretained, hlength]
      have hnext := logged.next
      omega
    · exact Nat.le_trans logged.first (Nat.le_max_left _ _)

/-- Every call keeps the log and continues it. -/
theorem After.log {codec : Codec} {clock : Clock} {db : Db} {call : StoreCall} {reply : Reply}
    (h : s.After codec clock db call reply s') (unique : (s.operations.map (·.id)).Nodup)
    (logged : s.Logged) : s.LogLater s' ∧ s'.Logged := by
  cases h with
  | same => exact ⟨.refl s, logged⟩
  | due id f due => exact ⟨.of_eq rfl rfl rfl, logged.rows, logged.next, logged.first⟩
  | step h =>
    rcases h.tells unique with ⟨c, told, -, hlogs, -⟩ | ⟨before, removed, hprune⟩
    · exact ⟨hlogs.later, hlogs.logged logged⟩
    · exact pruneUpdates_later hprune logged

end Session

/-! ## Over a run -/

variable {codec : Codec} {trace trace' : List Entry} {db db' : Db}

theorem Run.operations_distinct (run : Run codec trace db) {s : Session} (hs : s ∈ db.sessions) :
    (s.operations.map (·.id)).Nodup :=
  (run.ledgerInvariant hs).sound.unique

/-- The log of every session of a run is numbered without a gap. -/
theorem Run.logged (run : Run codec trace db) : ∀ s ∈ db.sessions, s.Logged := by
  induction run with
  | start => exact fun s hs => absurd hs List.not_mem_nil
  | step call clock run admissible ih =>
    rename_i trace db
    have hstep := exec_cases codec clock run.registered.unique call
    generalize (exec codec clock db call).1 = reply at hstep
    generalize (exec codec clock db call).2 = db' at hstep ⊢
    intro t ht
    cases hstep with
    | quiet sessions uuids quiet => exact ih t (sessions ▸ ht)
    | create created fresh sessions uuids =>
      rw [sessions] at ht
      rcases List.mem_append.mp ht with hold | hnew
      · exact ih t hold
      · rw [List.mem_singleton.mp hnew]
        exact ⟨.nil _ _, rfl, Nat.le_refl _⟩
    | @session _ s s' found step =>
      rcases Db.mem_put.mp ht with ⟨rfl, -⟩ | ⟨hold, -⟩
      · exact (Session.After.log (.step step) (run.operations_distinct found) (ih s found)).2
      · exact ih t hold
    | due id f due quiet sessions uuids =>
      rw [sessions] at ht
      obtain ⟨s, hs, rfl⟩ := List.mem_map.mp ht
      exact ⟨(ih s hs).rows, (ih s hs).next, (ih s hs).first⟩

/-- The session of an id in a continuation, with a later log. -/
theorem Continues.log_later (h : Continues codec trace db trace' db') (run : Run codec trace db)
    {s : Session} (hs : s ∈ db.sessions) :
    ∃ s' ∈ db'.sessions, s'.id = s.id ∧ s.LogLater s' := by
  induction h with
  | refl => exact ⟨s, hs, rfl, .refl s⟩
  | step call clock before admissible ih =>
    obtain ⟨s₁, hs₁, hid₁, hlater₁⟩ := ih
    have hrun := before.run run
    obtain ⟨s₂, hs₂, hid₂, hafter⟩ := hrun.session_after call clock hs₁
    obtain ⟨hlater₂, -⟩ := hafter.log (hrun.operations_distinct hs₁) (hrun.logged s₁ hs₁)
    exact ⟨s₂, hs₂, hid₂.trans hid₁, hlater₁.trans hlater₂⟩

theorem Run.session?_eq (run : Run codec trace db) {s : Session} (hs : s ∈ db.sessions) :
    db.session? s.id = some s :=
  Table.lookup_eq_some run.registered.unique hs

end AgentPlatform.Store
