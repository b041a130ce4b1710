import AgentPlatform.Store.Visible

/-!
# Every transaction tells what it changes

For each transaction on a session, that the updates it appends name whatever it changed of what is
shown. Loops are told turn by turn.
-/

namespace AgentPlatform.Store

open Fallible

namespace Session

variable {codec : Codec} {clock : Clock} {s s' : Session}

/-! ## Announcements -/

/-- Updates emitted one after the other. -/
def emitAll (clock : Clock) (s : Session) (told : List Told) : Session :=
  told.foldl (fun s u => s.emitUpdate clock u.1 u.2) s

theorem visible_emitAll (clock : Clock) (s : Session) (told : List Told) :
    (s.emitAll clock told).visible = s.visible := by
  induction told generalizing s with
  | nil => rfl
  | cons u told ih => exact ih (s.emitUpdate clock u.1 u.2)

theorem Logs.emitAll {t : Session} {before : List Told} (h : s.Logs before t) (clock : Clock)
    (told : List Told) : s.Logs (before ++ told) (t.emitAll clock told) := by
  induction told generalizing before t with
  | nil => rwa [List.append_nil]
  | cons u told ih =>
    have hrest := ih (h.emit clock u.1 u.2 none)
    rwa [List.append_assoc] at hrest

/-- A change that updates tell after it is made. -/
theorem Tells.all (c : Change) (told : List Told) {t : Session}
    (differs : s.visible.Differs c t.visible) (logs : s.Logs [] t) (names : c.ToldBy s.id told) :
    s.Tells (t.emitAll clock told) :=
  ⟨c, told, visible_emitAll clock t told ▸ differs, logs.emitAll clock told, names⟩

theorem Tells.operation (id : OperationId) {t : Session}
    (differs : s.visible.Differs (.operation id) t.visible) (logs : s.Logs [] t) :
    s.Tells (t.announceOperation clock id) :=
  .all (.operation id) [(.operationChanged, operationChanged id)] differs logs
    (.operation ⟨_, List.mem_cons_self, rfl⟩)

theorem Tells.event (id : EventId) {t : Session} {payload : Value}
    (names : payload.get "event_id" = some (.uuid id))
    (differs : s.visible.Differs (.event id) t.visible) (logs : s.Logs [] t) :
    s.Tells (t.emitUpdate clock .eventChanged payload) :=
  .all (.event id) [(.eventChanged, payload)] differs logs
    (.event ⟨_, List.mem_cons_self, names⟩)

/-- A finished wait and its event. -/
theorem Tells.wait {t : Session} {waitId : WaitId} {eventId : EventId}
    (differs : s.visible.Differs ((Change.wait waitId).and (.event eventId)) t.visible)
    (logs : s.Logs [] t) : s.Tells (t.announceWait clock waitId eventId) :=
  .all _ [(.waitChanged, waitChanged waitId), (.eventChanged, eventTouched eventId)] differs logs
    (.both (.wait ⟨_, List.mem_cons_self, rfl⟩)
      (.event ⟨_, List.mem_cons_of_mem _ List.mem_cons_self, rfl⟩))

/-! ## Sessions and events -/

theorem patchMetadata_tells {name : Option (Option String)} {metadata : Option Value}
    {record : SessionRecord} (h : s.patchMetadata clock name metadata = .ok (record, s')) :
    s.Tells s' := by
  simp only [Session.patchMetadata] at h
  split at h <;> cases h
  refine .all .ofSession [(.sessionChanged, .object [("session_id", .uuid s.id)])] ?_
    (.of_eq rfl rfl rfl) (.ofSession ⟨_, List.mem_cons_self, rfl⟩)
  exact .describe s.visible

theorem enqueueExternalEvent_tells {eventId : EventId} {input : NewExternalEvent}
    {result : EnqueueResult}
    (h : s.enqueueExternalEvent codec clock eventId input = .ok (result, s')) : s.Tells s' := by
  simp only [Session.enqueueExternalEvent] at h
  split at h
  · split at h <;> cases h
    exact .refl s
  · simp only [Session.insertExternalEvent] at h
    split at h
    · cases h
    · rename_i hinsert
      obtain ⟨-, rfl⟩ := Session.insertEvent_ok hinsert
      cases h
      refine .event eventId rfl ?_ (.of_eq rfl rfl rfl)
      exact .insertEvent s _ rfl

theorem claimEvent_tells (s : Session) (clock : Clock) (e : EventRow) (leaseToken attemptId : Uuid)
    (leaseMs : Int) : s.Tells (s.claimEvent clock e leaseToken attemptId leaseMs).2 := by
  refine .event e.id ?_ ?_ ?_
  · rfl
  · exact .updateEvents s e.id
  · exact .of_eq rfl rfl rfl

theorem renewEventClaim_tells {claim : HandlerClaim} {leaseFor : Nat} {r : Unit}
    (h : s.renewEventClaim clock claim leaseFor = .ok (r, s')) : s.Tells s' := by
  simp only [Session.renewEventClaim] at h
  split at h
  · cases h
  · split at h <;> cases h
    exact .silent rfl (.of_eq rfl rfl rfl)

theorem recordHandlerFailure_tells {claim : HandlerClaim} {error : Value} {retryAt : Timestamp}
    {blocked : Bool} {r : Unit}
    (h : s.recordHandlerFailure clock claim error retryAt blocked = .ok (r, s')) : s.Tells s' := by
  simp only [Session.recordHandlerFailure] at h
  split at h <;> cases h
  cases blocked with
  | false =>
    refine .event claim.eventId rfl ?_ (.of_eq rfl rfl rfl)
    exact .updateEvents s claim.eventId
  | true =>
    refine .all ((Change.event claim.eventId).and .ofProcessing)
      [(.eventChanged, eventChanged claim.eventId "blocked"),
        (.processingChanged, .object [("event_id", .uuid claim.eventId)])] ?_ (.of_eq rfl rfl rfl)
      (.both (.event ⟨_, List.mem_cons_self, rfl⟩)
        (.ofProcessing ⟨_, List.mem_cons_of_mem _ List.mem_cons_self⟩))
    exact (Visible.Differs.updateEvents s claim.eventId).trans (.process _)

theorem abandonHandlerAttempt_tells {claim : HandlerClaim} {error : Value} {retryAt : Timestamp}
    {r : Unit} (h : s.abandonHandlerAttempt clock claim error retryAt = .ok (r, s')) :
    s.Tells s' := by
  simp only [Session.abandonHandlerAttempt] at h
  split at h <;> cases h
  refine .event claim.eventId rfl ?_ (.of_eq rfl rfl rfl)
  exact .updateEvents s claim.eventId

theorem retryBlockedEvent_tells {retryId : Uuid} {eventId : EventId} {expectedRevision : Nat}
    {key : String} {request : RawJson} {reason : Option String} {retry : ProcessingRetry}
    (h : s.retryBlockedEvent codec clock retryId eventId expectedRevision key request reason =
      .ok (retry, s')) : s.Tells s' := by
  simp only [Session.retryBlockedEvent] at h
  split at h
  · split at h <;> cases h
    exact .refl s
  · split at h <;> cases h
    refine .all ((Change.event eventId).and .ofProcessing)
      [(.processingChanged, .object [("event_id", .uuid eventId),
          ("processing_revision", .nat (s.processingRevision + 1))]),
        (.eventChanged, eventChanged eventId "pending")] ?_ (.of_eq rfl rfl rfl)
      (.both (.event ⟨_, List.mem_cons_of_mem _ List.mem_cons_self, rfl⟩)
        (.ofProcessing ⟨_, List.mem_cons_self⟩))
    exact (Visible.Differs.updateEvents s eventId).trans (.process _)

/-! ## Waits -/

/-- A wait that finishes, announced after the rest of the session row is written. -/
theorem finishWait_tells {t t' : Session} {eventId : EventId} {waitId : WaitId}
    {sequence : EventSequence} {finish : WaitFinish} {finished : WaitRow → WaitRow} {e : EventRow}
    (h : s.finishWait clock eventId waitId sequence finish finished = .ok (e, t))
    (keeps : ∀ w, (finished w).id = w.id) (same : t'.visible = t.visible) (logs : t.Logs [] t') :
    s.Tells (t'.announceWait clock waitId eventId) := by
  obtain ⟨he, -, ht⟩ := Session.finishWait_ok h
  have hfinished : s.Logs [] t := by
    rw [ht]
    exact .of_eq rfl rfl rfl
  have hdiffers : s.visible.Differs ((Change.wait waitId).and (.event eventId)) t.visible := by
    have hwait := Visible.Differs.updateWaits s waitId
      (f := fun w => { finished w with status := finish.status }) keeps
    rw [ht]
    exact hwait.trans (.insertEvent _ e (congrArg (·.id) he))
  exact .wait (same ▸ hdiffers) (hfinished.trans logs)

theorem resolveWait_tells {eventId : EventId} {waitId : WaitId} {key : String} {response : RawJson}
    {resolution : WaitResolution}
    (h : s.resolveWait codec clock eventId waitId key response = .ok (resolution, s')) :
    s.Tells s' := by
  simp only [Session.resolveWait] at h
  split at h
  · cases h
  · split at h
    · split at h
      · cases h
      · split at h <;> cases h
        exact .refl s
    · split at h
      · cases h
      · split at h
        · cases h
        · rename_i hfinish
          cases h
          exact finishWait_tells hfinish (fun _ => rfl) rfl (.of_eq rfl rfl rfl)

theorem expireWait_tells {eventId : EventId} {waitId : WaitId} {event : Option EventRecord}
    (h : s.expireWait clock eventId waitId = .ok (event, s')) : s.Tells s' := by
  simp only [Session.expireWait] at h
  split at h
  · cases h
  · split at h
    · cases h
      exact .refl s
    · split at h
      · cases h
      · rename_i hfinish
        cases h
        exact finishWait_tells hfinish (fun _ => rfl) rfl (.of_eq rfl rfl rfl)

/-! ## Operations -/

/-- A worker's record of its attempt. -/
theorem recorded_tells (s : Session) (clock : Clock) (claim : ClaimedOperation)
    {f : OperationRow → OperationRow} (g : OperationAttemptRow → OperationAttemptRow)
    (keeps : ∀ o, (f o).id = o.id) :
    s.Tells ((s.recorded claim f g).announceOperation clock claim.operation.id) :=
  .operation claim.operation.id (.updateOperations s claim.operation.id keeps) (.of_eq rfl rfl rfl)

/-- Operations rewritten in columns that are not shown. -/
theorem visible_updateOperations (s : Session) (id : OperationId) {f : OperationRow → OperationRow}
    (keeps : ∀ o ∈ s.operations, o.id = id → (f o).id = o.id ∧ (f o).face = o.face) :
    (s.updateOperations (·.id = id) f).visible = s.visible := by
  have hoperations : (Table.update (fun o => o.id = id) f s.operations).map
      (fun o => (o.id, o.face)) = s.operations.map fun o => (o.id, o.face) := by
    refine Table.map_update_of_mem fun o ho hid => ?_
    obtain ⟨hkey, hface⟩ := keeps o ho (of_decide_eq_true hid)
    rw [hkey, hface]
  exact congrArg (fun operations => { s.visible with operations }) hoperations

theorem claimOperation_tells {o : OperationRow} (found : o ∈ s.operations)
    (unique : (s.operations.map (·.id)).Nodup) (phase : OperationPhase)
    (leaseToken attemptId : Uuid) (leaseMs : Int) :
    s.Tells (s.claimOperation clock o phase leaseToken attemptId leaseMs).2 := by
  simp only [Session.claimOperation]
  split
  · refine .operation o.id ?_ (.of_eq rfl rfl rfl)
    exact .updateOperations s o.id
  · rename_i hstatus
    refine .silent ?_ (.of_eq rfl rfl rfl)
    refine visible_updateOperations s o.id fun o' ho' hid => ?_
    have := Table.eq_of_key unique ho' found hid
    subst this
    exact ⟨rfl, by simp [OperationRow.face, OperationRow.claimed, hstatus]⟩

theorem renewOperationClaim_tells {claim : ClaimedOperation} {leaseFor : Nat} {r : Unit}
    (h : s.renewOperationClaim clock claim leaseFor = .ok (r, s')) : s.Tells s' := by
  obtain ⟨o, leaseMs, -, rfl⟩ := Session.renewOperationClaim_ok h
  exact .silent (visible_updateOperations s _ fun _ _ _ => ⟨rfl, rfl⟩) (.of_eq rfl rfl rfl)

/-- An error that is cleared is told; where there was none, nothing that is shown changed. -/
theorem recordOperationPendingResult_tells {claim : ClaimedOperation} {checkAgainAt : Timestamp}
    {httpStatus : Option Int} {r : Unit} (unique : (s.operations.map (·.id)).Nodup)
    (h : s.recordOperationPendingResult clock claim checkAgainAt httpStatus = .ok (r, s')) :
    s.Tells s' := by
  obtain ⟨current, hlock, h⟩ := bind_ok h
  obtain ⟨o, hheld, rfl⟩ := Session.lockValidOperationClaim_ok hlock
  split at h
  · cases h
  · obtain ⟨s₁, hrecord, h⟩ := bind_ok h
    obtain ⟨-, rfl⟩ := Session.recordAttempt_ok hrecord
    cases h
    split
    · exact recorded_tells s clock claim _ fun _ => rfl
    · rename_i herror
      refine .silent ?_ (.of_eq rfl rfl rfl)
      refine visible_updateOperations s claim.operation.id fun o' ho' hid => ?_
      have := Table.eq_of_key unique ho' hheld.mem (hid.trans hheld.id_eq.symm)
      subst this
      have hnone : o'.error = none := by simpa [OperationRow.lock] using herror
      exact ⟨rfl, by simp [OperationRow.face, hnone]⟩

/-- The updates of a transaction that settled operations and inserted their events. -/
theorem announceEvents_tells {t : Session} (h : s.Tells t) (clock : Clock) (events : List EventRow) :
    s.Tells (t.announceEvents clock events) := by
  induction events generalizing t with
  | nil => exact h
  | cons e events ih => exact ih (h.emit clock .eventChanged (eventTouched e.id) none)

/-- An operation that ends, before anything is told of it. -/
theorem settleOperation_silent {id : OperationId} {kind : OperationKind} {status : OperationStatus}
    {f : OperationRow → OperationRow} {expiresAt : Option Timestamp} {eventId : EventId}
    {e : EventRow} (h : s.settleOperation clock id kind status f expiresAt eventId = .ok (e, s'))
    (keeps : ∀ o, (f o).id = o.id) :
    s.visible.Differs ((Change.operation id).and (.event eventId)) s'.visible ∧ s.Logs [] s' ∧
      e.id = eventId := by
  obtain ⟨he, -, hs'⟩ := Session.settleOperation_ok h
  have hid : e.id = eventId := by rw [he]; rfl
  refine ⟨?_, ?_, hid⟩
  · rw [hs']
    refine .settled s clock id (fun o => ?_) expiresAt hid
    exact keeps o
  · rw [hs']
    cases expiresAt <;> exact .of_eq rfl rfl rfl

theorem completeOperation_tells {eventId : EventId} {claim : ClaimedOperation}
    {status : OperationStatus} {result : Option RawJson} {error : Option Value}
    {expiresAt : Option Timestamp} {httpStatus : Option Int} {r : EventRecord}
    (h : s.completeOperation clock eventId claim status result error expiresAt httpStatus =
      .ok (r, s')) : s.Tells s' := by
  obtain ⟨current, -, h⟩ := bind_ok h
  split at h
  · cases h
  · obtain ⟨-, -, h⟩ := bind_ok h
    obtain ⟨⟨e, s₁⟩, hsettle, h⟩ := bind_ok h
    obtain ⟨hdiffers, hlogs, he⟩ := settleOperation_silent hsettle fun _ => rfl
    obtain ⟨s₂, hfinish, h⟩ := bind_ok h
    obtain ⟨-, rfl⟩ := Session.finishOperationAttempt_ok hfinish
    cases h
    refine .all _ [(.operationChanged, operationChanged claim.operation.id),
      (.eventChanged, eventTouched e.id)] hdiffers (hlogs.trans (.of_eq rfl rfl rfl))
      (.both (.operation ⟨_, List.mem_cons_self, rfl⟩)
        (.event ⟨_, List.mem_cons_of_mem _ List.mem_cons_self, ?_⟩))
    rw [← he]
    rfl

/-- A withdrawal tells of its target when it took it back, of itself, and of the events. -/
theorem completeWithdrawal_tells {eventId : EventId} {claim : ClaimedOperation}
    {targetId : OperationId} {expiresAt : Option Timestamp} {r : Bool × List EventRecord}
    (h : s.completeWithdrawal clock eventId claim targetId expiresAt = .ok (r, s')) :
    s.Tells s' := by
  obtain ⟨current, -, h⟩ := bind_ok h
  split at h
  · cases h
  · split at h
    · cases h
    · rename_i target htarget
      have htargetId : target.id = targetId := by simpa using List.find?_some htarget
      obtain ⟨⟨events, s₁⟩, hwithdraw, h⟩ := bind_ok h
      obtain ⟨⟨e, s₂⟩, hsettle, h⟩ := bind_ok h
      obtain ⟨hdiffers, hlogs, he⟩ := settleOperation_silent hsettle fun _ => rfl
      obtain ⟨s₃, hfinish, h⟩ := bind_ok h
      obtain ⟨-, hs₃⟩ := Session.finishOperationAttempt_ok hfinish
      have hsame : s₃.visible = s₂.visible := by rw [hs₃]; rfl
      have hfinished : s₂.Logs [] s₃ := by rw [hs₃]; exact .of_eq rfl rfl rfl
      cases h
      rw [Session.withdrawTarget] at hwithdraw
      split at hwithdraw
      · rename_i hwithdrawable
        split at hwithdraw
        · cases hwithdraw
        · rename_i e₁ s₁' hcancel
          cases hwithdraw
          obtain ⟨hdiffers₁, hlogs₁, he₁⟩ := settleOperation_silent hcancel fun _ => rfl
          rw [if_pos hwithdrawable]
          have hdiffers' := hdiffers₁.trans hdiffers
          rw [← hsame] at hdiffers'
          refine .all _ [(.operationChanged, operationChanged targetId),
            (.operationChanged, operationChanged claim.operation.id),
            (.eventChanged, eventTouched e₁.id), (.eventChanged, eventTouched e.id)] hdiffers'
            ((hlogs₁.trans hlogs).trans hfinished) ?_
          rw [htargetId, ← he, ← he₁]
          exact .both (.both (.operation ⟨operationChanged targetId, by simp, rfl⟩)
              (.event ⟨eventTouched e₁.id, by simp, rfl⟩))
            (.both (.operation ⟨operationChanged claim.operation.id, by simp, rfl⟩)
              (.event ⟨eventTouched e.id, by simp, rfl⟩))
      · rename_i hwithdrawable
        cases hwithdraw
        rw [if_neg hwithdrawable]
        refine .all _ [(.operationChanged, operationChanged claim.operation.id),
          (.eventChanged, eventTouched e.id)] (hsame ▸ hdiffers) (hlogs.trans hfinished)
          (.both (.operation ⟨_, List.mem_cons_self, rfl⟩)
            (.event ⟨_, List.mem_cons_of_mem _ List.mem_cons_self, ?_⟩))
        rw [← he]
        rfl

theorem deleteExpiredOperationRequest_tells {id : OperationId} {deleted : Bool}
    (h : s.deleteExpiredOperationRequest clock id = (deleted, s')) : s.Tells s' := by
  simp only [Session.deleteExpiredOperationRequest] at h
  split at h <;> cases h
  · refine .operation id ?_ (.of_eq rfl rfl rfl)
    rw [visible_updateOperations]
    · exact .removeRequest s id
    · exact fun _ _ _ => ⟨rfl, rfl⟩
  · exact .refl s

/-! ## Commits -/

theorem stageOperations_tells {claim : HandlerClaim} {taken : OperationId → Bool}
    {operations : List NewOperation}
    (h : stageOperations codec clock claim taken operations s = .ok s') :
    s.Tells s' ∧ s'.id = s.id := by
  induction operations generalizing s with
  | nil =>
    cases h
    exact ⟨.refl _, rfl⟩
  | cons operation operations ih =>
    simp only [Session.stageOperations] at h
    split at h
    · cases h
    · split at h
      · cases h
      · split at h
        · cases h
        · obtain ⟨hrest, hid⟩ := ih h
          refine ⟨Tells.trans ?_ hrest rfl, hid⟩
          refine .operation operation.id ?_ (.of_eq rfl rfl rfl)
          exact .stage s (operation.row codec clock claim) _ rfl rfl

theorem createWaits_tells {claim : HandlerClaim} {taken : WaitId → Bool} {waits : List NewWait}
    (h : createWaits clock claim taken waits s = .ok s') : s.Tells s' ∧ s'.id = s.id := by
  induction waits generalizing s with
  | nil =>
    cases h
    exact ⟨.refl _, rfl⟩
  | cons wait waits ih =>
    simp only [Session.createWaits] at h
    split at h
    · cases h
    · split at h
      · cases h
      · obtain ⟨hrest, hid⟩ := ih h
        refine ⟨Tells.trans ?_ hrest rfl, hid⟩
        refine .all (.wait wait.id) [(.waitChanged, waitChanged wait.id)] ?_ (.of_eq rfl rfl rfl)
          (.wait ⟨_, List.mem_cons_self, rfl⟩)
        exact .insertWait s (wait.row clock claim) rfl

theorem cancelWaits_tells {waitIds : List WaitId} {tick : Nat} {eventId : EventId}
    {sequence next : EventSequence}
    (h : cancelWaits clock waitIds tick eventId sequence s = .ok (next, s')) :
    s.Tells s' ∧ s'.id = s.id := by
  induction waitIds generalizing tick eventId sequence s with
  | nil =>
    cases h
    exact ⟨.refl _, rfl⟩
  | cons waitId waitIds ih =>
    unfold Session.cancelWaits at h
    split at h
    · cases h
    · split at h
      · exact ih h
      · split at h
        · cases h
        · rename_i hfinish
          obtain ⟨hrest, hid⟩ := ih h
          have hfinished := finishWait_tells hfinish (fun _ => rfl) rfl (.of_eq rfl rfl rfl)
          obtain ⟨-, -, hs⟩ := Session.finishWait_ok hfinish
          have hkeeps := congrArg (·.id) hs
          exact ⟨hfinished.trans hrest hkeeps, hid.trans hkeeps⟩

theorem emitProgress_tells {t : Session} (h : s.Tells t) (clock : Clock) (claim : HandlerClaim)
    (progress : List Value) : s.Tells (t.emitProgress clock claim progress) := by
  induction progress generalizing t with
  | nil => exact h
  | cons payload progress ih => exact ih (h.emit clock .harnessProgress payload claim.eventId)

/-- The end of a commit shows the session and the handled event anew. -/
theorem saveOutcome_tells {claim : HandlerClaim} {outcome : OutcomeCommit}
    {historySequence : HistorySequence} {eventSequence : EventSequence} {r : Unit}
    (h : s.saveOutcome clock claim outcome historySequence eventSequence = .ok (r, s')) :
    s.Tells s' := by
  simp only [Session.saveOutcome] at h
  split at h
  · cases h
  · cases h
    refine .all ((Change.event claim.eventId).and .ofSession)
      [(.sessionChanged, .object [("session_id", .uuid s.id)]),
        (.eventChanged, eventChanged claim.eventId "handled")] ?_ (.of_eq rfl rfl rfl)
      (.both (.event ⟨_, List.mem_cons_of_mem _ List.mem_cons_self, rfl⟩)
        (.ofSession ⟨_, List.mem_cons_self, rfl⟩))
    exact (Visible.Differs.updateEvents s claim.eventId).trans (.describe _)

theorem commitHandlerOutcome_tells {taken : TakenIds} {eventId : EventId} {claim : HandlerClaim}
    {outcome : OutcomeCommit} {r : Unit}
    (h : s.commitHandlerOutcome codec clock taken eventId claim outcome = .ok (r, s')) :
    s.Tells s' := by
  obtain ⟨out, -, h⟩ := bind_ok h
  dsimp only at h
  split at h
  · cases h
  · obtain ⟨⟨sequence, appended⟩, happend, h⟩ := bind_ok h
    obtain ⟨staged, hstage, h⟩ := bind_ok h
    obtain ⟨waiting, hwaits, h⟩ := bind_ok h
    obtain ⟨⟨eventSequence, cancelled⟩, hcancel, h⟩ := bind_ok h
    dsimp only at h
    split at h
    · cases h
    · have happended : s.Tells appended := by
        rw [appendHistory_frame happend]
        exact .silent rfl (.of_eq rfl rfl rfl)
      have hid : appended.id = s.id := congrArg (·.id) (appendHistory_frame happend)
      have hannounced : s.Tells
          (appended.announceHistory clock claim outcome.history.length sequence) := by
        unfold Session.announceHistory
        split
        · exact happended
        · exact happended.emit clock .historyAppended _ none
      have hannouncedId : (appended.announceHistory clock claim outcome.history.length
          sequence).id = s.id :=
        (congrArg (·.id) (Session.sansUpdates_announceHistory ..)).trans hid
      obtain ⟨hstaged, hstagedId⟩ := stageOperations_tells hstage
      obtain ⟨hwaiting, hwaitingId⟩ := createWaits_tells hwaits
      obtain ⟨hcancelled, hcancelledId⟩ := cancelWaits_tells hcancel
      have hcancelledTells : s.Tells cancelled :=
        ((hannounced.trans hstaged hannouncedId).trans hwaiting
          (hstagedId.trans hannouncedId)).trans hcancelled
            (hwaitingId.trans (hstagedId.trans hannouncedId))
      have hprogress := emitProgress_tells hcancelledTells clock claim outcome.progress
      refine hprogress.trans (saveOutcome_tells h) ?_
      refine (congrArg (·.id) (Session.sansUpdates_emitProgress ..)).trans ?_
      exact hcancelledId.trans (hwaitingId.trans (hstagedId.trans hannouncedId))

end Session

/-! ## Every transaction -/

/-- A transaction that does not prune the log tells what it changes. -/
theorem SessionStep.tells {codec : Codec} {clock : Clock} {db : Db} {call : StoreCall}
    {reply : Reply} {s s' : Session} (step : SessionStep codec clock db call reply s s')
    (unique : (s.operations.map (·.id)).Nodup) :
    s.Tells s' ∨ ∃ before removed, s.pruneUpdates before = (removed, s') := by
  cases step with
  | pruneUpdates h => exact .inr ⟨_, _, h⟩
  | patchSessionMetadata h => exact .inl (Session.patchMetadata_tells h)
  | enqueueExternalEvent session external h => exact .inl (Session.enqueueExternalEvent_tells h)
  | claimNextEvent claimable => exact .inl (Session.claimEvent_tells ..)
  | renewEventClaim session h => exact .inl (Session.renewEventClaim_tells h)
  | recordHandlerFailure session h => exact .inl (Session.recordHandlerFailure_tells h)
  | abandonHandlerAttempt session h => exact .inl (Session.abandonHandlerAttempt_tells h)
  | commitHandlerOutcome session h => exact .inl (Session.commitHandlerOutcome_tells h)
  | retryBlockedEvent h => exact .inl (Session.retryBlockedEvent_tells h)
  | resolveWait h => exact .inl (Session.resolveWait_tells h)
  | expireWait h => exact .inl (Session.expireWait_tells h)
  | claimOperation found claimable => exact .inl (Session.claimOperation_tells found unique ..)
  | deferOperation session h =>
    obtain ⟨o, -, -, -, -, rfl⟩ := Session.deferOperation_ok h
    exact .inl (Session.recorded_tells s clock _ _ fun _ => rfl)
  | recordOperationAccepted session h =>
    obtain ⟨o, -, -, -, -, -, rfl⟩ := Session.recordOperationAccepted_ok h
    exact .inl (Session.recorded_tells s clock _ _ fun _ => rfl)
  | renewOperationClaim found h => exact .inl (Session.renewOperationClaim_tells h)
  | recordOperationRetry session h =>
    obtain ⟨o, status, -, -, -, rfl⟩ := Session.recordOperationRetry_ok h
    exact .inl (Session.recorded_tells s clock _ _ fun _ => rfl)
  | recordOperationPendingResult session h =>
    exact .inl (Session.recordOperationPendingResult_tells unique h)
  | completeWithdrawal session phase kind target h =>
    exact .inl (Session.completeWithdrawal_tells h)
  | completeOperation session terminal h => exact .inl (Session.completeOperation_tells h)
  | deleteExpiredOperationRequest h =>
    exact .inl (Session.deleteExpiredOperationRequest_tells h)

end AgentPlatform.Store
