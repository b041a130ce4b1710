import AgentPlatform.Store.CommitSpecs

/-!
# The sequential handler

What a handler outcome leaves in a session is its state, its history, its staged operations and its
waits. Applying outcomes one after the other is the sequential handler; a successful commit applies
one outcome to what the session holds.
-/

namespace AgentPlatform.Store

/-! ## The sequential handler -/

/-- What a history entry was written with. The role is that of the decoded message. -/
structure HistoryEffect where
  id : HistoryEntryId
  sequence : HistorySequence
  sourceEventId : Option EventId
  role : Option String
  message : RawJson

/-- What an operation was staged with. -/
structure OperationEffect where
  id : OperationId
  sourceEventId : EventId
  kind : OperationKind
  gatewayConnectionId : Option GatewayConnectionId
  targetOperationId : Option OperationId
  previousOperationId : Option OperationId
  gatewayIdempotencyKey : String
  requestHash : String

/-- What a wait was created with. -/
structure WaitEffect where
  id : WaitId
  sourceEventId : EventId
  mode : WaitMode
  payload : RawJson
  responseSchema : Option RawJson
  expiresAt : Option Timestamp

/-- What handlers leave in a session. -/
structure Effects where
  state : RawJson
  version : StateVersion
  nextHistorySequence : HistorySequence
  history : List HistoryEffect
  operations : List OperationEffect
  waits : List WaitEffect

/-- The entries of an outcome, numbered from `sequence` on. -/
def historyEffects (codec : Codec) (eventId : EventId) :
    HistorySequence → List NewHistoryEntry → List HistoryEffect
  | _, [] => []
  | sequence, entry :: entries =>
    { id := entry.id
      sequence
      sourceEventId := some eventId
      role := (codec.decodeMessage entry.message).toOption.map (·.role)
      message := entry.message } :: historyEffects codec eventId (sequence + 1) entries

/-- The operation that an outcome stages. -/
def NewOperation.effect (codec : Codec) (eventId : EventId) (operation : NewOperation) :
    OperationEffect where
  id := operation.id
  sourceEventId := eventId
  kind := operation.kind
  gatewayConnectionId := operation.gatewayConnectionId
  targetOperationId := operation.targetOperationId
  previousOperationId := operation.previousOperationId
  gatewayIdempotencyKey := operation.id.toText
  requestHash := codec.fingerprint operation.request

/-- The wait that an outcome creates. -/
def NewWait.effect (eventId : EventId) (wait : NewWait) : WaitEffect where
  id := wait.id
  sourceEventId := eventId
  mode := wait.mode
  payload := wait.payload
  responseSchema := wait.responseSchema
  expiresAt := wait.expiresAt

namespace Effects

/-- A session before its first event is handled. -/
def initial (session : NewSession) : Effects where
  state := session.state
  version := 0
  nextHistorySequence := 1
  history := []
  operations := []
  waits := []

/-- Handle one event: apply its outcome. -/
def apply (codec : Codec) (fx : Effects) (c : HandlerClaim × OutcomeCommit) : Effects where
  state := c.2.state
  version := fx.version + 1
  nextHistorySequence := fx.nextHistorySequence + c.2.history.length
  history := fx.history ++ historyEffects codec c.1.eventId fx.nextHistorySequence c.2.history
  operations := fx.operations ++ c.2.operations.map (NewOperation.effect codec c.1.eventId)
  waits := fx.waits ++ c.2.waits.map (NewWait.effect c.1.eventId)

/-- The sequential handler: the outcomes applied once each, in order. -/
def fold (codec : Codec) (session : NewSession) (log : List (HandlerClaim × OutcomeCommit)) :
    Effects :=
  log.foldl (apply codec) (initial session)

theorem fold_concat (codec : Codec) (session : NewSession)
    (log : List (HandlerClaim × OutcomeCommit)) (c : HandlerClaim × OutcomeCommit) :
    fold codec session (log ++ [c]) = (fold codec session log).apply codec c := by
  simp [fold]

theorem map_sequence_historyEffects (codec : Codec) (eventId : EventId)
    (sequence : HistorySequence) (entries : List NewHistoryEntry) :
    (historyEffects codec eventId sequence entries).map (·.sequence) =
      List.range' sequence entries.length := by
  induction entries generalizing sequence with
  | nil => rfl
  | cons entry entries ih =>
    rw [historyEffects, List.map_cons, ih]
    rfl

/-- The sequential handler numbers the history from 1 on without a gap. -/
theorem fold_sequences (codec : Codec) (session : NewSession)
    (log : List (HandlerClaim × OutcomeCommit)) :
    1 ≤ (fold codec session log).nextHistorySequence ∧
      (fold codec session log).history.map (·.sequence) =
        List.range' 1 ((fold codec session log).nextHistorySequence - 1) := by
  induction log using List.reverseRecOn with
  | nil => exact ⟨Nat.le_refl _, rfl⟩
  | append_singleton log c ih =>
    obtain ⟨hpos, hsequences⟩ := ih
    rw [fold_concat]
    generalize fold codec session log = fx at hpos hsequences
    refine ⟨Nat.le_add_right_of_le hpos, ?_⟩
    simp only [apply, List.map_append, hsequences, map_sequence_historyEffects]
    have hstart : 1 + (fx.nextHistorySequence - 1) = fx.nextHistorySequence := Nat.add_sub_cancel' hpos
    rw [Nat.sub_add_comm hpos, ← List.range'_append_1, hstart]

theorem fold_version (codec : Codec) (session : NewSession)
    (log : List (HandlerClaim × OutcomeCommit)) :
    (fold codec session log).version = log.length := by
  induction log using List.reverseRecOn with
  | nil => rfl
  | append_singleton log c ih => simp [fold_concat, apply, ih]

end Effects

/-! ## The effects that a session holds -/

/-- What a row of the history was written with. -/
def HistoryRow.effect (h : HistoryRow) : HistoryEffect where
  id := h.id
  sequence := h.sequence
  sourceEventId := h.sourceEventId
  role := some h.role
  message := h.message

/-- What a row of the operations was staged with: the columns that nothing writes again. -/
def OperationRow.effect (o : OperationRow) : OperationEffect where
  id := o.id
  sourceEventId := o.sourceEventId
  kind := o.kind
  gatewayConnectionId := o.gatewayConnectionId
  targetOperationId := o.targetOperationId
  previousOperationId := o.previousOperationId
  gatewayIdempotencyKey := o.gatewayIdempotencyKey
  requestHash := o.requestHash

/-- What a row of the waits was created with: the columns that nothing writes again. -/
def WaitRow.effect (w : WaitRow) : WaitEffect where
  id := w.id
  sourceEventId := w.sourceEventId
  mode := w.mode
  payload := w.payload
  responseSchema := w.responseSchema
  expiresAt := w.expiresAt

/-- The effects that the tables of a session hold. -/
def Session.effects (s : Session) : Effects where
  state := s.state
  version := s.stateVersion
  nextHistorySequence := s.nextHistorySequence
  history := s.history.map (·.effect)
  operations := s.operations.map (·.effect)
  waits := s.waits.map (·.effect)

theorem Session.effects_of_sansUpdates {s s' : Session} (h : s'.sansUpdates = s.sansUpdates) :
    s'.effects = s.effects := by
  have : s'.sansUpdates.effects = s.sansUpdates.effects := congrArg Session.effects h
  exact this

theorem Session.effects_updateOperations (s : Session) (p : OperationRow → Bool)
    {f : OperationRow → OperationRow} (h : ∀ o, (f o).effect = o.effect) :
    (s.updateOperations p f).effects = s.effects := by
  simp only [Session.effects, Session.updateOperations, Table.map_update_of_eq h]

theorem Session.effects_updateWaits (s : Session) (p : WaitRow → Bool) {f : WaitRow → WaitRow}
    (h : ∀ w, (f w).effect = w.effect) : (s.updateWaits p f).effects = s.effects := by
  simp only [Session.effects, Session.updateWaits, Table.map_update_of_eq h]

/-! ## A commit -/

/-- Appended entries are the entries of the outcome, numbered on from the given sequence. -/
theorem Session.appendHistory_effects {codec : Codec} {clock : Clock} {claim : HandlerClaim}
    {taken : HistoryEntryId → Bool} {entries : List NewHistoryEntry} {sequence : HistorySequence}
    {s s' : Session} {next : HistorySequence}
    (h : appendHistory codec clock claim taken entries sequence s = .ok (next, s')) :
    next = sequence + entries.length ∧
      s'.history.map (·.effect) =
        s.history.map (·.effect) ++ historyEffects codec claim.eventId sequence entries := by
  induction entries generalizing sequence s with
  | nil =>
    cases h
    exact ⟨rfl, (List.append_nil _).symm⟩
  | cons entry entries ih =>
    unfold Session.appendHistory at h
    split at h
    · cases h
    · rename_i message hdecode
      split at h
      · cases h
      · obtain ⟨hnext, hhistory⟩ := ih h
        refine ⟨by rw [hnext, List.length_cons]; exact Nat.add_right_comm .., ?_⟩
        rw [hhistory, historyEffects, hdecode, List.map_append, List.append_assoc]
        rfl

/-- Staged operations are the operations of the outcome. -/
theorem Session.stageOperations_rows {codec : Codec} {clock : Clock} {claim : HandlerClaim}
    {taken : OperationId → Bool} {operations : List NewOperation} {s s' : Session}
    (h : stageOperations codec clock claim taken operations s = .ok s') :
    s'.operations = s.operations ++ operations.map (·.row codec clock claim) := by
  induction operations generalizing s with
  | nil =>
    cases h
    exact (List.append_nil _).symm
  | cons operation operations ih =>
    simp only [Session.stageOperations] at h
    split at h
    · cases h
    · split at h
      · cases h
      · split at h
        · cases h
        · rw [ih h]
          exact List.append_assoc ..

/-- Created waits are the waits of the outcome. -/
theorem Session.createWaits_rows {clock : Clock} {claim : HandlerClaim} {taken : WaitId → Bool}
    {waits : List NewWait} {s s' : Session}
    (h : createWaits clock claim taken waits s = .ok s') :
    s'.waits = s.waits ++ waits.map (·.row clock claim) := by
  induction waits generalizing s with
  | nil =>
    cases h
    exact (List.append_nil _).symm
  | cons wait waits ih =>
    simp only [Session.createWaits] at h
    split at h
    · cases h
    · split at h
      · cases h
      · rw [ih h]
        exact List.append_assoc ..

theorem Session.stageOperations_effects {codec : Codec} {clock : Clock} {claim : HandlerClaim}
    {taken : OperationId → Bool} {operations : List NewOperation} {s s' : Session}
    (h : stageOperations codec clock claim taken operations s = .ok s') :
    s'.effects =
      { s.effects with
        operations := s.effects.operations ++
          operations.map (NewOperation.effect codec claim.eventId) } := by
  rw [Session.effects_of_sansUpdates (Session.stageOperations_frame h),
    Session.stageOperations_rows h]
  simp only [Session.effects, List.map_append, List.map_map]
  rfl

theorem Session.createWaits_effects {clock : Clock} {claim : HandlerClaim} {taken : WaitId → Bool}
    {waits : List NewWait} {s s' : Session}
    (h : createWaits clock claim taken waits s = .ok s') :
    s'.effects =
      { s.effects with waits := s.effects.waits ++ waits.map (NewWait.effect claim.eventId) } := by
  rw [Session.effects_of_sansUpdates (Session.createWaits_frame h), Session.createWaits_rows h]
  simp only [Session.effects, List.map_append, List.map_map]
  rfl

theorem Session.finishWait_effects {s s' : Session} {clock : Clock} {eventId : EventId}
    {waitId : WaitId} {sequence : EventSequence} {finish : WaitFinish}
    {finished : WaitRow → WaitRow} {e : EventRow}
    (h : s.finishWait clock eventId waitId sequence finish finished = .ok (e, s'))
    (kept : ∀ w, (finished w).effect = w.effect) : s'.effects = s.effects := by
  obtain ⟨-, -, rfl⟩ := Session.finishWait_ok h
  exact s.effects_updateWaits _ kept

/-- Cancelling waits leaves what they were created with. -/
theorem Session.cancelWaits_effects {clock : Clock} {waitIds : List WaitId} {tick : Nat}
    {eventId : EventId} {sequence next : EventSequence} {s s' : Session}
    (h : cancelWaits clock waitIds tick eventId sequence s = .ok (next, s')) :
    s'.effects = s.effects := by
  induction waitIds generalizing tick eventId sequence s with
  | nil =>
    cases h
    rfl
  | cons waitId waitIds ih =>
    unfold Session.cancelWaits at h
    split at h
    · cases h
    · split at h
      · exact ih h
      · split at h
        · cases h
        · rename_i hfinish
          have hwait := Session.finishWait_effects hfinish fun _ => rfl
          have hrest := ih h
          exact hrest.trans hwait

theorem Session.commitHandlerOutcome_id {s s' : Session} {codec : Codec} {clock : Clock}
    {taken : TakenIds} {eventId : EventId} {claim : HandlerClaim} {outcome : OutcomeCommit}
    {r : Unit}
    (h : s.commitHandlerOutcome codec clock taken eventId claim outcome = .ok (r, s')) :
    s'.id = s.id := by
  obtain ⟨c⟩ := Session.commitHandlerOutcome_ok h
  have happended : c.appended.id = s.id := by rw [Session.appendHistory_frame c.history]
  have hannounced := congrArg (·.id) (Session.sansUpdates_announceHistory c.appended clock claim
    outcome.history.length c.historySequence)
  have hstaged : c.staged.id = _ := congrArg (·.id) (Session.stageOperations_frame c.operations)
  have hwaits : c.waiting.id = _ := congrArg (·.id) (Session.createWaits_frame c.waits)
  have hcancelled : c.cancelled.id = _ := congrArg (·.id) (Session.cancelWaits_frame c.cancellations)
  have hresult : s'.id = _ := congrArg (·.id) c.result
  exact hresult.trans (hcancelled.trans (hwaits.trans (hstaged.trans (hannounced.trans happended))))

/-- A successful commit applies its outcome, once. -/
theorem Session.commitHandlerOutcome_effects {s s' : Session} {codec : Codec} {clock : Clock}
    {taken : TakenIds} {eventId : EventId} {claim : HandlerClaim} {outcome : OutcomeCommit}
    {r : Unit}
    (h : s.commitHandlerOutcome codec clock taken eventId claim outcome = .ok (r, s')) :
    s'.effects = s.effects.apply codec (claim, outcome) := by
  obtain ⟨c⟩ := Session.commitHandlerOutcome_ok h
  obtain ⟨hsequence, hhistory⟩ := Session.appendHistory_effects c.history
  have happended : c.appended.effects =
      { s.effects with history := c.appended.history.map (·.effect) } := by
    rw [Session.appendHistory_frame c.history]
    rfl
  have hcancelled : c.cancelled.effects =
      { s.effects with
        history := s.effects.history ++
          historyEffects codec claim.eventId s.nextHistorySequence outcome.history
        operations := s.effects.operations ++
          outcome.operations.map (NewOperation.effect codec claim.eventId)
        waits := s.effects.waits ++ outcome.waits.map (NewWait.effect claim.eventId) } := by
    rw [Session.cancelWaits_effects c.cancellations, Session.createWaits_effects c.waits,
      Session.stageOperations_effects c.operations,
      Session.effects_of_sansUpdates (Session.sansUpdates_announceHistory ..), happended, hhistory]
    rfl
  calc s'.effects =
      { c.cancelled.effects with
        state := outcome.state
        version := c.cancelled.effects.version + 1
        nextHistorySequence := c.historySequence } := Session.effects_of_sansUpdates c.result
    _ = s.effects.apply codec (claim, outcome) := by
      rw [hcancelled, hsequence]
      rfl

end AgentPlatform.Store
