import AgentPlatform.Store.InboxSteps

/-!
# The transactions step the inbox

For each transaction, what its success does to the inbox. Most only add events or leave it alone;
the methods of the handler claim are the other steps of the queue.
-/

namespace AgentPlatform.Store

/-! ## Statements -/

theorem Session.insertEvent_ok {s s' : Session} {e : EventRow} (h : s.insertEvent e = .ok s') :
    (∀ e' ∈ s.events, Session.eventsConflict e e' = false) ∧
      s' = { s with events := s.events ++ [e] } := by
  unfold Session.insertEvent at h
  split at h
  · cases h
  · rename_i hany
    cases h
    exact ⟨by simpa using hany, rfl⟩

/-- Events that do not conflict have different ids. -/
theorem id_ne_of_eventsConflict {e e' : EventRow} (h : Session.eventsConflict e e' = false) :
    e'.id ≠ e.id := by
  intro heq
  simp [Session.eventsConflict, heq] at h

theorem Session.lockValidSessionClaim_ok {s : Session} {clock : Clock} {claim : HandlerClaim}
    {out : HistorySequence × StateVersion} (h : s.lockValidSessionClaim clock claim = .ok out) :
    (∃ lease, s.lease = some lease ∧ lease.eventId = claim.eventId ∧
      lease.token = claim.leaseToken ∧ clock.reading 0 < lease.expiresAt) ∧
      out = (s.nextHistorySequence, s.stateVersion) := by
  unfold Session.lockValidSessionClaim at h
  split at h
  · cases h
  · rename_i lease hlease
    split at h
    · cases h
    · rename_i hvalid
      cases h
      simp only [not_or, Decidable.not_not, not_le] at hvalid
      exact ⟨⟨lease, hlease, hvalid.1, hvalid.2.1, hvalid.2.2⟩, rfl⟩

theorem jsonb_ok {v v' : Value} (h : jsonb v = .ok v') : v' = v ∧ v.mentionsNul = false := by
  unfold jsonb at h
  split at h
  · cases h
  · rename_i hnul
    cases h
    exact ⟨rfl, by simpa using hnul⟩

/-! ## Updates leave the rest alone -/

/-- A session without its update log. -/
def Session.sansUpdates (s : Session) : Session := { s with nextUpdateSequence := 0, updates := [] }

@[simp] theorem Session.sansUpdates_emitUpdateWithEvent (s : Session) (clock : Clock)
    (kind : UpdateKind) (payload : Value) (sourceEventId : Option EventId) :
    (s.emitUpdateWithEvent clock kind payload sourceEventId).sansUpdates = s.sansUpdates := rfl

@[simp] theorem Session.sansUpdates_emitUpdate (s : Session) (clock : Clock) (kind : UpdateKind)
    (payload : Value) : (s.emitUpdate clock kind payload).sansUpdates = s.sansUpdates := rfl

@[simp] theorem Session.sansUpdates_announceHistory (s : Session) (clock : Clock)
    (claim : HandlerClaim) (appended : Nat) (sequence : HistorySequence) :
    (s.announceHistory clock claim appended sequence).sansUpdates = s.sansUpdates := by
  unfold Session.announceHistory
  split <;> rfl

@[simp] theorem Session.sansUpdates_emitProgress (s : Session) (clock : Clock)
    (claim : HandlerClaim) (progress : List Value) :
    (s.emitProgress clock claim progress).sansUpdates = s.sansUpdates := by
  induction progress generalizing s with
  | nil => rfl
  | cons payload progress ih => exact ih _

@[simp] theorem Session.sansUpdates_announceEvents (s : Session) (clock : Clock)
    (events : List EventRow) : (s.announceEvents clock events).sansUpdates = s.sansUpdates := by
  induction events generalizing s with
  | nil => rfl
  | cons e events ih => exact ih _

/-- Sessions that differ in their update logs only have the same inbox. -/
theorem Session.inbox_of_sansUpdates {s s' : Session} (h : s'.sansUpdates = s.sansUpdates) :
    s'.inbox = s.inbox := by
  have : s'.sansUpdates.inbox = s.sansUpdates.inbox := congrArg Session.inbox h
  exact this

/-! ## Arrivals -/

/-- A transaction that only adds events to an inbox, the given ones in this order. -/
def Inbox.Arrives (i : Inbox) (ids : List EventId) (i' : Inbox) : Prop :=
  StepPath Inbox.Step i (ids.map .arrive) i'

theorem Inbox.Arrives.refl (i : Inbox) : i.Arrives [] i := .nil i

theorem Inbox.Arrives.trans {i i' i'' : Inbox} {xs ys : List EventId} (first : i.Arrives xs i')
    (rest : i'.Arrives ys i'') : i.Arrives (xs ++ ys) i'' := by
  unfold Inbox.Arrives
  rw [List.map_append]
  exact first.append rest

/-- The inbox of a session whose row does not count its newest events yet. -/
def Session.inboxAt (s : Session) (next : EventSequence) : Inbox := { s.inbox with next }

/-- An inserted event that takes the next sequence arrives. -/
theorem Session.insertEvent_arrives {s s' : Session} {e : EventRow} (h : s.insertEvent e = .ok s')
    (pending : e.status = .pending) :
    (s.inboxAt e.sequence).Arrives [e.id] (s'.inboxAt (e.sequence + 1)) := by
  obtain ⟨hfresh, rfl⟩ := Session.insertEvent_ok h
  exact .single (.arrive e pending rfl fun e' he' => id_ne_of_eventsConflict (hfresh e' he'))

/-- An inserted event that the session row then counts arrives. -/
theorem Session.insertEvent_arrives_next {s s' : Session} {e : EventRow} (clock : Clock)
    (h : s.insertEvent e = .ok s') (pending : e.status = .pending)
    (sequence : e.sequence = s.nextEventSequence) :
    s.inbox.Arrives [e.id] (s'.advanceEventSequence clock).inbox := by
  have harrives := Session.insertEvent_arrives h pending
  obtain ⟨-, rfl⟩ := Session.insertEvent_ok h
  rw [sequence] at harrives
  exact harrives

theorem Session.enqueueExternalEvent_arrives {s s' : Session} {codec : Codec} {clock : Clock}
    {id : EventId} {input : NewExternalEvent} {r : EnqueueResult}
    (h : s.enqueueExternalEvent codec clock id input = .ok (r, s')) :
    ∃ ids, s.inbox.Arrives ids s'.inbox := by
  simp only [Session.enqueueExternalEvent] at h
  split at h
  · split at h
    · cases h
    · cases h
      exact ⟨[], .refl _⟩
  · simp only [Session.insertExternalEvent] at h
    split at h
    · cases h
    · rename_i hinsert
      cases h
      exact ⟨_, Session.insertEvent_arrives_next clock hinsert rfl rfl⟩

theorem Session.finishWait_arrives {s s' : Session} {clock : Clock} {eventId : EventId}
    {waitId : WaitId} {sequence : EventSequence} {finish : WaitFinish}
    {finished : WaitRow → WaitRow} {e : EventRow}
    (h : s.finishWait clock eventId waitId sequence finish finished = .ok (e, s')) :
    (s.inboxAt sequence).Arrives [e.id] (s'.inboxAt (sequence + 1)) ∧
      s'.nextEventSequence = s.nextEventSequence := by
  simp only [Session.finishWait] at h
  split at h
  · cases h
  · rename_i hinsert
    cases h
    refine ⟨Session.insertEvent_arrives hinsert rfl, ?_⟩
    obtain ⟨-, rfl⟩ := Session.insertEvent_ok hinsert
    rfl

/-- A finished wait whose event the session row then counts. -/
theorem Session.finishWait_arrives_next {s s' : Session} {clock : Clock} {eventId : EventId}
    {waitId : WaitId} {finish : WaitFinish} {finished : WaitRow → WaitRow} {e : EventRow}
    (h : s.finishWait clock eventId waitId s.nextEventSequence finish finished = .ok (e, s')) :
    s.inbox.Arrives [e.id]
      ((s'.advanceEventSequence clock).announceWait clock waitId eventId).inbox := by
  obtain ⟨harrives, hnext⟩ := Session.finishWait_arrives h
  have hinbox : ((s'.advanceEventSequence clock).announceWait clock waitId eventId).inbox =
      s'.inboxAt (s'.nextEventSequence + 1) := rfl
  rw [hinbox, hnext]
  exact harrives

theorem Session.resolveWait_arrives {s s' : Session} {codec : Codec} {clock : Clock}
    {eventId : EventId} {waitId : WaitId} {key : String} {response : RawJson} {r : WaitResolution}
    (h : s.resolveWait codec clock eventId waitId key response = .ok (r, s')) :
    ∃ ids, s.inbox.Arrives ids s'.inbox := by
  simp only [Session.resolveWait] at h
  split at h
  · cases h
  · split at h
    · split at h
      · cases h
      · split at h
        · cases h
        · cases h
          exact ⟨[], .refl _⟩
    · split at h
      · cases h
      · split at h
        · cases h
        · rename_i hfinish
          cases h
          exact ⟨_, Session.finishWait_arrives_next hfinish⟩

theorem Session.expireWait_arrives {s s' : Session} {clock : Clock} {eventId : EventId}
    {waitId : WaitId} {r : Option EventRecord}
    (h : s.expireWait clock eventId waitId = .ok (r, s')) :
    ∃ ids, s.inbox.Arrives ids s'.inbox := by
  simp only [Session.expireWait] at h
  split at h
  · cases h
  · split at h
    · cases h
      exact ⟨[], .refl _⟩
    · split at h
      · cases h
      · rename_i hfinish
        cases h
        exact ⟨_, Session.finishWait_arrives_next hfinish⟩

end AgentPlatform.Store
