import AgentPlatform.Store.EventContents
import AgentPlatform.Store.OperationInvariant

/-!
# What a handler worker was handed

`claim_next_event` answers with the session and the event at the head of its inbox. Both stay what
they were: as long as the version of the state is the one that was handed out, the state, the status
and the end of the history are too, and the event stands where it stood for good.
-/

namespace AgentPlatform.Store

variable {codec : Codec} {trace : List Entry} {db : Db}

/-- The event that an entry handed out. -/
def Entry.handedOut (entry : Entry) : Option ClaimedEvent :=
  match entry.reply with
  | .claimedEvent claimed => claimed
  | _ => none

/-- The events that a run handed out, in order. -/
def handedOut (trace : List Entry) : List ClaimedEvent := trace.filterMap (·.handedOut)

theorem handedOut_concat (trace : List Entry) (entry : Entry) :
    handedOut (trace ++ [entry]) = handedOut trace ++ entry.handedOut.toList := by
  cases h : entry.handedOut <;> simp [handedOut, h]

def SessionRecord.subject (s : SessionRecord) : SessionSubject where
  harnessId := s.harnessId
  harnessVersion := s.harnessVersion
  configuration := s.configuration

/-- The session is the one that was handed out with an event, or a later one. -/
structure Session.HandedOut (s : Session) (claimed : ClaimedEvent) : Prop where
  id : claimed.session.id = s.id
  /-- The event is of the session. -/
  event : claimed.event.sessionId = s.id
  subject : claimed.session.subject = s.subject
  version : claimed.session.stateVersion ≤ s.stateVersion
  place : s.contents[claimed.session.stateVersion]? = some claimed.event.content
  current : claimed.session.stateVersion = s.stateVersion →
    claimed.session.state = s.state ∧ claimed.session.status = s.status ∧
      claimed.historyThroughSequence = s.nextHistorySequence - 1

/-! ## One call -/

section

variable {clock : Clock} {call : StoreCall} {reply : Reply} {s s' : Session} {claimed : ClaimedEvent}

theorem Session.HandedOut.step (h : s.HandedOut claimed)
    (step : SessionStep codec clock db call reply s s') : s'.HandedOut claimed := by
  have hgoes := step.goesOn
  have heffects := step.effects
  have hplace : s'.contents[claimed.session.stateVersion]? = some claimed.event.content := by
    have hlt := (List.getElem?_eq_some_iff.mp h.place).1
    obtain ⟨added, hadded⟩ := hgoes.contents
    rw [← hadded, List.getElem?_append_left hlt]
    exact h.place
  cases hcommitted : Entry.committed ⟨call, clock, reply⟩ with
  | none =>
    rw [hcommitted] at heffects
    have hversion : s'.stateVersion = s.stateVersion := congrArg (·.version) heffects
    have hstate : s'.state = s.state := congrArg (·.state) heffects
    have hnext : s'.nextHistorySequence = s.nextHistorySequence :=
      congrArg (·.nextHistorySequence) heffects
    have hstatus : s'.status = s.status := by
      rw [hgoes.status, Entry.statusAfter, hcommitted]
      rfl
    refine ⟨h.id.trans step.id_eq.symm, h.event.trans step.id_eq.symm,
      h.subject.trans hgoes.subject.symm, hversion ▸ h.version, hplace, fun same => ?_⟩
    rw [hstate, hstatus, hnext]
    exact h.current (same.trans hversion)
  | some c =>
    rw [hcommitted] at heffects
    have hversion : s'.stateVersion = s.stateVersion + 1 := congrArg (·.version) heffects
    refine ⟨h.id.trans step.id_eq.symm, h.event.trans step.id_eq.symm,
      h.subject.trans hgoes.subject.symm, ?_, hplace, fun same => ?_⟩
    · rw [hversion]
      exact Nat.le_succ_of_le h.version
    · have hle := h.version
      rw [same, hversion] at hle
      exact absurd hle (Nat.not_succ_le_self _)

theorem Session.HandedOut.after (h : s.HandedOut claimed)
    (after : s.After codec clock db call reply s') : s'.HandedOut claimed := by
  cases after with
  | same => exact h
  | step step => exact h.step step
  | due id f due => exact ⟨h.id, h.event, h.subject, h.version, h.place, h.current⟩

/-- The head of an inbox stands where the handled events end. -/
theorem Represents.head_place {q : EventQueue} (h : Represents s.inbox q) {e : EventRow}
    (head : s.inbox.head = some e) : s.events[s.stateVersion]? = some e := by
  obtain ⟨rest, hwaiting, -⟩ := h.of_head head
  obtain ⟨e₀, he₀, -⟩ := h.front_exists hwaiting
  have hid : some e₀.id = some e.id := by
    rw [← (h.front he₀).1, hwaiting]
    rfl
  have hmem : e ∈ s.events := List.mem_of_mem_filter (Table.firstBy_mem head)
  have hdistinct : (s.events.map (·.id)).Nodup := by
    rw [show s.events.map (·.id) = q.items from h.ids]
    exact h.distinct
  have hsame : e₀ = e := Table.eq_of_key hdistinct (List.mem_of_getElem? he₀) hmem
    (Option.some.inj hid)
  rw [show s.stateVersion = q.done.length from h.version, ← hsame]
  exact he₀

theorem Session.claimEvent_handedOut {q : EventQueue} (represents : Represents s.inbox q)
    {e : EventRow} (claimable : s.claimableEvent clock = some e) (leaseToken attemptId : Uuid)
    (leaseMs : Int) :
    (s.claimEvent clock e leaseToken attemptId leaseMs).2.HandedOut
      (s.claimEvent clock e leaseToken attemptId leaseMs).1 where
  id := rfl
  event := rfl
  subject := rfl
  version := Nat.le_refl _
  place := by
    have hhead : s.inbox.head = some e := (Option.filter_eq_some_iff.mp claimable).1
    have hplace := represents.head_place hhead
    have hcontents : (s.claimEvent clock e leaseToken attemptId leaseMs).2.contents = s.contents :=
      Session.contents_update rfl fun _ => rfl
    rw [hcontents]
    show (s.events.map (·.content))[s.stateVersion]? = _
    rw [List.getElem?_map, hplace]
    rfl
  current _ := ⟨rfl, rfl, rfl⟩

end

/-! ## Every run -/

/-- What a call answers with is handed out of a session of the database. -/
theorem Run.handedOut_now (run : Run codec trace db) {call : StoreCall} {clock : Clock}
    {claimed : ClaimedEvent} (h : (exec codec clock db call).1 = .claimedEvent (some claimed)) :
    ∃ s ∈ (exec codec clock db call).2.sessions, s.HandedOut claimed := by
  have hstep := exec_cases codec clock run.registered.unique call
  rw [h] at hstep
  generalize (exec codec clock db call).2 = db' at hstep ⊢
  cases hstep with
  | quiet sessions uuids quiet => cases quiet.handlerClaim
  | @session _ s s' found step =>
    refine ⟨s', Db.mem_put.mpr (.inl ⟨rfl, s, found, step.id_eq.symm⟩), ?_⟩
    cases step with
    | claimNextEvent claimable =>
      obtain ⟨q, hrepresents, -⟩ := (run.inboxInvariant found).queue
      exact Session.claimEvent_handedOut hrepresents claimable _ _ _

/-- Whatever a run handed out, its session is there and goes on from it. -/
theorem Run.handedOut (run : Run codec trace db) :
    ∀ claimed ∈ handedOut trace, ∃ s ∈ db.sessions, s.HandedOut claimed := by
  induction run with
  | start => exact fun claimed hclaimed => absurd hclaimed List.not_mem_nil
  | @step trace db call clock run admissible ih =>
    intro claimed hclaimed
    rw [handedOut_concat] at hclaimed
    rcases List.mem_append.mp hclaimed with hold | hnew
    · obtain ⟨s, hs, hhanded⟩ := ih claimed hold
      obtain ⟨s', hs', -, hafter⟩ := run.session_after call clock hs
      exact ⟨s', hs', hhanded.after hafter⟩
    · have hreply : (exec codec clock db call).1 = .claimedEvent (some claimed) := by
        have hmem := Option.mem_toList.mp hnew
        unfold Entry.handedOut at hmem
        split at hmem
        · rename_i hreply
          rw [hmem] at hreply
          exact hreply
        · cases hmem
      exact run.handedOut_now hreply

/-- What was handed out is of the one session of that id. -/
theorem Run.handedOut_session (run : Run codec trace db) {claimed : ClaimedEvent}
    (issued : claimed ∈ Store.handedOut trace) {s : Session} (hs : s ∈ db.sessions)
    (id : claimed.session.id = s.id) : s.HandedOut claimed := by
  obtain ⟨t, ht, hhanded⟩ := run.handedOut claimed issued
  have hsame : t = s := Table.eq_of_key run.registered.unique ht hs (hhanded.id.symm.trans id)
  exact hsame ▸ hhanded

end AgentPlatform.Store
