import AgentPlatform.Store.Listings
import AgentPlatform.Store.WaitsFinish

/-!
# Listed rows stay

Every call of the store leaves the sessions, waits and operations that are there, with the columns by
which they are listed. So whatever the store does between two pages is among what a reader of pages
is prepared for.
-/

namespace AgentPlatform.Store

/-! ## What one transaction keeps -/

/-- The session and its waits are listed as before, and perhaps more waits. -/
structure Session.KeepsWaits (s s' : Session) : Prop where
  key : s'.rowKey = s.rowKey
  waits : Retains WaitRow.rowKey s.waits s'.waits

namespace Session.KeepsWaits

variable {s t s' : Session}

theorem refl (s : Session) : s.KeepsWaits s := ⟨rfl, .refl _ _⟩

theorem of_eq (key : s'.rowKey = s.rowKey) (waits : s'.waits = s.waits) : s.KeepsWaits s' where
  key
  waits := waits ▸ .refl _ _

theorem trans (h : s.KeepsWaits t) (h' : t.KeepsWaits s') : s.KeepsWaits s' where
  key := h'.key.trans h.key
  waits := h.waits.trans h'.waits

/-- Updates are no columns of what is listed. -/
theorem of_sansUpdates (h : s'.sansUpdates = t.sansUpdates) (kept : s.KeepsWaits t) :
    s.KeepsWaits s' := by
  have hkey : s'.sansUpdates.rowKey = t.sansUpdates.rowKey := congrArg Session.rowKey h
  have hwaits : s'.sansUpdates.waits = t.sansUpdates.waits := congrArg (·.waits) h
  exact kept.trans (.of_eq hkey hwaits)

theorem updateOperationAttempts {p : OperationAttemptRow → Bool}
    {f : OperationAttemptRow → OperationAttemptRow} (kept : s.KeepsWaits t) :
    s.KeepsWaits (t.updateOperationAttempts p f) :=
  ⟨kept.key, kept.waits⟩

end Session.KeepsWaits

theorem Retains.update {α : Type} {key : α → RowKey} {p : α → Bool} {f : α → α}
    (keeps : ∀ r, key (f r) = key r) (rows : List α) : Retains key rows (Table.update p f rows) := by
  intro r hr
  refine ⟨_, Table.mem_update.mpr ⟨r, hr, rfl⟩, ?_⟩
  split
  · exact keeps r
  · rfl

theorem Retains.append {α : Type} {key : α → RowKey} (rows added : List α) :
    Retains key rows (rows ++ added) :=
  fun r hr => ⟨r, List.mem_append_left _ hr, rfl⟩

section

variable {codec : Codec} {clock : Clock} {s s' : Session}

theorem Session.finishWait_keepsWaits {eventId : EventId} {waitId : WaitId}
    {sequence : EventSequence} {finish : WaitFinish} {finished : WaitRow → WaitRow} {e : EventRow}
    (h : s.finishWait clock eventId waitId sequence finish finished = .ok (e, s'))
    (keeps : ∀ w, (finished w).rowKey = w.rowKey) : s.KeepsWaits s' := by
  obtain ⟨-, -, rfl⟩ := Session.finishWait_ok h
  refine ⟨rfl, .update (fun w => ?_) s.waits⟩
  exact keeps w

theorem Session.cancelWaits_keepsWaits {s : Session} {waitIds : List WaitId} {tick : Nat} {eventId : EventId}
    {sequence next : EventSequence}
    (h : Session.cancelWaits clock waitIds tick eventId sequence s = .ok (next, s')) :
    s.KeepsWaits s' := by
  induction waitIds generalizing tick eventId sequence s with
  | nil =>
    cases h
    exact .refl _
  | cons waitId waitIds ih =>
    unfold Session.cancelWaits at h
    split at h
    · cases h
    · split at h
      · exact ih h
      · split at h
        · cases h
        · rename_i hfinish
          have hfirst := Session.finishWait_keepsWaits hfinish fun _ => rfl
          refine hfirst.trans (.trans ?_ (ih h))
          exact .of_eq rfl rfl

theorem Session.commitHandlerOutcome_keepsWaits {taken : TakenIds} {eventId : EventId}
    {claim : HandlerClaim} {outcome : OutcomeCommit} {r : Unit}
    (h : s.commitHandlerOutcome codec clock taken eventId claim outcome = .ok (r, s')) :
    s.KeepsWaits s' := by
  obtain ⟨c⟩ := Session.commitHandlerOutcome_ok h
  have happended : s.KeepsWaits c.appended := by
    rw [Session.appendHistory_frame c.history]
    exact .of_eq rfl rfl
  have hannounced := Session.KeepsWaits.of_sansUpdates
    (Session.sansUpdates_announceHistory c.appended clock claim outcome.history.length
      c.historySequence) happended
  have hstaged : s.KeepsWaits c.staged :=
    .of_sansUpdates (Session.stageOperations_frame c.operations) ⟨hannounced.key, hannounced.waits⟩
  have hwaiting : c.staged.KeepsWaits c.waiting := by
    refine .of_sansUpdates (Session.createWaits_frame c.waits) ⟨rfl, ?_⟩
    show Retains WaitRow.rowKey c.staged.waits c.waiting.waits
    rw [Session.createWaits_rows c.waits]
    exact .append _ _
  have hsaved : c.cancelled.KeepsWaits s' := .of_sansUpdates c.result (.of_eq rfl rfl)
  exact hstaged.trans (hwaiting.trans
    ((Session.cancelWaits_keepsWaits c.cancellations).trans hsaved))

theorem Session.settled_keepsWaits (s : Session) (clock : Clock) (id : OperationId)
    (f : OperationRow → OperationRow) (expiresAt : Option Timestamp) (e : EventRow) :
    s.KeepsWaits (s.settled clock id f expiresAt e) := by
  cases expiresAt <;> exact .of_eq rfl rfl

theorem SessionStep.keepsWaits {db : Db} {call : StoreCall} {reply : Reply}
    (step : SessionStep codec clock db call reply s s') : s.KeepsWaits s' := by
  cases step with
  | patchSessionMetadata h =>
    simp only [Session.patchMetadata] at h
    split at h <;> cases h
    exact .of_eq rfl rfl
  | enqueueExternalEvent session external h =>
    simp only [Session.enqueueExternalEvent] at h
    split at h
    · split at h <;> cases h
      exact .refl s
    · simp only [Session.insertExternalEvent] at h
      split at h
      · cases h
      · rename_i hinsert
        obtain ⟨-, rfl⟩ := Session.insertEvent_ok hinsert
        cases h
        exact .of_eq rfl rfl
  | claimNextEvent claimable => exact .of_eq rfl rfl
  | renewEventClaim session h =>
    simp only [Session.renewEventClaim] at h
    split at h
    · cases h
    · split at h <;> cases h
      exact .of_eq rfl rfl
  | @recordHandlerFailure _ _ _ _ _ blocked _ session h =>
    simp only [Session.recordHandlerFailure] at h
    split at h <;> cases h
    cases blocked <;> exact .of_eq rfl rfl
  | abandonHandlerAttempt session h =>
    simp only [Session.abandonHandlerAttempt] at h
    split at h <;> cases h
    exact .of_eq rfl rfl
  | commitHandlerOutcome session h => exact Session.commitHandlerOutcome_keepsWaits h
  | retryBlockedEvent h =>
    simp only [Session.retryBlockedEvent] at h
    split at h
    · split at h <;> cases h
      exact .refl s
    · split at h <;> cases h
      exact .of_eq rfl rfl
  | resolveWait h =>
    simp only [Session.resolveWait] at h
    split at h
    · cases h
    · split at h
      · split at h
        · cases h
        · split at h <;> cases h
          exact .refl s
      · split at h
        · cases h
        · split at h
          · cases h
          · rename_i hfinish
            have hkept := Session.finishWait_keepsWaits hfinish fun _ => rfl
            cases h
            exact hkept.trans (.of_eq rfl rfl)
  | expireWait h =>
    simp only [Session.expireWait] at h
    split at h
    · cases h
    · split at h
      · cases h
        exact .refl s
      · split at h
        · cases h
        · rename_i hfinish
          have hkept := Session.finishWait_keepsWaits hfinish fun _ => rfl
          cases h
          exact hkept.trans (.of_eq rfl rfl)
  | claimOperation found claimable =>
    exact .of_sansUpdates (Session.claimOperation_eq ..) (.of_eq rfl rfl)
  | deferOperation session h =>
    obtain ⟨o, -, -, -, -, rfl⟩ := Session.deferOperation_ok h
    exact .of_eq rfl rfl
  | recordOperationAccepted session h =>
    obtain ⟨o, -, -, -, -, -, rfl⟩ := Session.recordOperationAccepted_ok h
    exact .of_eq rfl rfl
  | renewOperationClaim found h =>
    obtain ⟨o, leaseMs, -, rfl⟩ := Session.renewOperationClaim_ok h
    exact .of_eq rfl rfl
  | recordOperationRetry session h =>
    obtain ⟨o, status, -, -, -, rfl⟩ := Session.recordOperationRetry_ok h
    exact .of_eq rfl rfl
  | recordOperationPendingResult session h =>
    obtain ⟨o, -, -, -, -, hresult⟩ := Session.recordOperationPendingResult_ok h
    exact .of_sansUpdates hresult (.of_eq rfl rfl)
  | completeWithdrawal session phase kind target h =>
    obtain ⟨o, row, events, s₁, e, -, -, -, -, hwithdraw, -, -, -, hresult⟩ :=
      Session.completeWithdrawal_ok h
    have htarget : s.KeepsWaits s₁ := by
      rcases Session.withdrawTarget_ok hwithdraw with ⟨-, -, rfl⟩ | ⟨-, e₁, -, -, -, rfl⟩
      · exact .refl _
      · exact s.settled_keepsWaits ..
    exact htarget.trans
      (.of_sansUpdates hresult (.updateOperationAttempts (s₁.settled_keepsWaits ..)))
  | completeOperation session terminal h =>
    obtain ⟨o, e, -, -, -, -, -, hresult⟩ := Session.completeOperation_ok h
    exact .of_sansUpdates hresult (.updateOperationAttempts (s.settled_keepsWaits ..))
  | deleteExpiredOperationRequest h =>
    simp only [Session.deleteExpiredOperationRequest] at h
    split at h <;> cases h <;> exact .of_eq rfl rfl
  | pruneUpdates h =>
    simp only [Session.pruneUpdates] at h
    split at h <;> cases h <;> exact .of_eq rfl rfl

end

/-- No step of an operation moves its time of creation. -/
theorem OperationStep.rowKey_eq {base : Uuid} {call : StoreCall} {reply : Reply}
    {v v' : OperationView} (step : OperationStep base call reply v v') :
    v'.row.rowKey = v.row.rowKey := by
  cases step with
  | same row =>
    have hkey : v'.row.essence.rowKey = v.row.essence.rowKey := congrArg OperationRow.rowKey row
    exact hkey
  | _ => rfl

/-! ## Runs -/

section

variable {codec : Codec} {trace trace' : List Entry} {db db' : Db}

/-- Every call of a run leaves the listed rows. -/
theorem Run.extends_step (run : Run codec trace db) {call : StoreCall}
    (admissible : Admissible trace call) (clock : Clock) : db.Extends (exec codec clock db call).2 := by
  intro s hs
  obtain ⟨s', hs', hid, hafter⟩ := run.session_after call clock hs
  obtain ⟨owner, hstep⟩ := run.operations_step admissible clock
  have hunique := (Run.step call clock run admissible).registered.unique
  have hkept : s.KeepsWaits s' := by
    cases hafter with
    | same => exact .refl s
    | step h => exact h.keepsWaits
    | due id f due => exact .of_eq rfl rfl
  refine ⟨s', hs', hkept.key, hkept.waits, fun o ho => ?_⟩
  obtain ⟨s'', hs'', hid', o', ho', hop⟩ := hstep.forward s hs o ho
  have := Table.eq_of_key hunique hs'' hs' (hid'.trans hid.symm)
  subst this
  exact ⟨o', ho', hop.rowKey_eq⟩

/-- So does every continuation. -/
theorem Continues.extends (h : Continues codec trace db trace' db') (run : Run codec trace db) :
    db.Extends db' := by
  induction h with
  | refl => exact .refl db
  | step call clock before admissible ih =>
    exact ih.trans ((before.run run).extends_step admissible clock)

theorem Run.keyed (run : Run codec trace db) : db.Keyed where
  sessions := run.registered.unique
  waits _ hs := (run.waitInvariant hs).sound.unique
  operations _ hs := (run.ledgerInvariant hs).sound.unique

end

end AgentPlatform.Store
