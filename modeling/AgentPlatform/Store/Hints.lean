import AgentPlatform.Store.Claims

/-!
# Callback hints

A processed callback receipt makes its accepted operation due at once: `complete_callback_receipt`
lowers `next_attempt_at` to the present. The record of a result retrieval raises it again, and when
that retrieval was claimed before the receipt was processed its gateway read may be older than the
hint. `HintKept` states what a hint promises; it holds of the runs in which no such record comes
late, and fails without that.
-/

namespace AgentPlatform.Store

open Fallible

/-! ## What records a retrieval -/

/-- The claim and the time of the next attempt that a call records for its operation. A retry whose
error the database rejects records nothing. -/
def StoreCall.resultRecord : StoreCall → Option (ClaimedOperation × Timestamp)
  | .recordOperationPendingResult claim checkAgainAt _ => some (claim, checkAgainAt)
  | .recordOperationRetry claim _ retryAt _ error =>
    if error.mentionsNul then none else some (claim, retryAt)
  | _ => none

/-- The claim retrieves the result of operation `id`. -/
def ClaimedOperation.Retrieves (claim : ClaimedOperation) (id : OperationId) : Prop :=
  claim.operation.id = id ∧ claim.phase = .resultRetrieval

/-- A call that is about to overwrite a hint: it records the retrieval of a claim that was issued
before the hint and still holds the operation, with a later time. -/
def StoreCall.Overwrites (call : StoreCall) (clock : Clock) (db : Db) (before : List Entry)
    (id : OperationId) (hint : Timestamp) : Prop :=
  ∃ claim time, call.resultRecord = some (claim, time) ∧ claim.Retrieves id ∧
    claim ∈ operationClaims before ∧ hint < time ∧
    ∃ s ∈ db.sessions, ∃ o, s.HoldsOperation clock claim o

/-- How a run goes on after the entries `before`, where a hint to operation `id` was given in `db`:
no retrieval that was claimed since has finished, and every call is `spared`. -/
inductive SinceHint (codec : Codec) (id : OperationId) (before : List Entry) (db : Db)
    (spared : StoreCall → Clock → Db → Prop) : List Entry → Db → Prop
  | refl : SinceHint codec id before db spared [] db
  | step {since : List Entry} {db' : Db} (call : StoreCall) (clock : Clock)
      (rest : SinceHint codec id before db spared since db')
      (admissible : Admissible (before ++ since) call)
      (unfinished : ∀ claim time, call.resultRecord = some (claim, time) → claim.Retrieves id →
        claim ∈ operationClaims since → (exec codec clock db' call).1 ≠ .done)
      (spare : spared call clock db') :
      SinceHint codec id before db spared
        (since ++ [⟨call, clock, (exec codec clock db' call).1⟩]) (exec codec clock db' call).2

/-- An operation that is due no later than the hint, as long as it is accepted. -/
def OperationRow.DueBy (o : OperationRow) (hint : Timestamp) : Prop :=
  o.status = .accepted → o.nextAttemptAt ≤ hint ∧
    ∀ clock : Clock, hint ≤ clock.reading 0 →
      (o.lease.all fun lease => lease.expiresAt ≤ clock.reading 0) = true →
        o.claimable clock .resultRetrieval = true

/-- A callback hint is never lost: after a receipt was processed for an accepted operation, the
operation is due by the time it was processed, for as long as no newer retrieval has finished. -/
def HintKept (codec : Codec)
    (spared : List Entry → OperationId → Timestamp → StoreCall → Clock → Db → Prop) : Prop :=
  ∀ (trace : List Entry) (db : Db) (claim : ClaimedCallbackReceipt) (clock : Clock),
    Run codec trace db → Admissible trace (.completeCallbackReceipt claim) →
    (exec codec clock db (.completeCallbackReceipt claim)).1 = .done →
    ∀ r, db.receipts.find? (·.id = claim.receipt.id) = some r → ∀ id, r.operationId = some id →
    (∃ s ∈ db.sessions, ∃ o ∈ s.operations, o.id = id ∧ o.status = .accepted) →
    let before := trace ++ [⟨.completeCallbackReceipt claim, clock, .done⟩]
    ∀ since db', SinceHint codec id before
        (exec codec clock db (.completeCallbackReceipt claim)).2
        (spared before id (clock.reading 1)) since db' →
      ∀ s ∈ db'.sessions, ∀ o ∈ s.operations, o.id = id → o.DueBy (clock.reading 1)

/-! ## What a call makes of a due time -/

/-- Where an accepted row of a session got its next attempt from. -/
inductive OperationRow.DueFrom (s : Session) (clock : Clock) (call : StoreCall) (reply : Reply)
    (o' : OperationRow) : Prop
  /-- From the row before, accepted as well. -/
  | kept (o : OperationRow) (found : o ∈ s.operations) (same : o.id = o'.id)
      (accepted : o.status = .accepted) (time : o'.nextAttemptAt = o.nextAttemptAt)
  /-- From the record of a retrieval whose claim holds the operation. -/
  | recorded (claim : ClaimedOperation) (time : Timestamp)
      (record : call.resultRecord = some (claim, time)) (done : reply = .done)
      (retrieves : claim.Retrieves o'.id) (o : OperationRow)
      (held : s.HoldsOperation clock claim o) (written : o'.nextAttemptAt = time)
  /-- From its acceptance: before, it was submitting. -/
  | accepted (o : OperationRow) (found : o ∈ s.operations) (same : o.id = o'.id)
      (submitting : o.status = .submitting)

section

variable {codec : Codec} {clock : Clock} {s s' : Session} {call : StoreCall} {reply : Reply}

theorem OperationRow.DueFrom.of_mem {o : OperationRow} (found : o ∈ s.operations)
    (accepted : o.status = .accepted) : o.DueFrom s clock call reply :=
  .kept o found rfl accepted rfl

/-- A row of a rewritten table, when the rewritten rows are accounted for. -/
theorem OperationRow.DueFrom.of_update {p : OperationRow → Bool} {f : OperationRow → OperationRow}
    (rewritten : ∀ o ∈ s.operations, p o = true → (f o).status = .accepted →
      (f o).DueFrom s clock call reply) {o' : OperationRow}
    (found : o' ∈ Table.update p f s.operations) (accepted : o'.status = .accepted) :
    o'.DueFrom s clock call reply := by
  obtain ⟨o, ho, rfl⟩ := Table.mem_update.mp found
  by_cases hp : p o = true
  · rw [if_pos hp] at accepted ⊢
    exact rewritten o ho hp accepted
  · rw [if_neg hp] at accepted ⊢
    exact .of_mem ho accepted

/-- An update that leaves no row accepted that it writes. -/
theorem OperationRow.DueFrom.of_leaving {p : OperationRow → Bool} {f : OperationRow → OperationRow}
    (leaves : ∀ o, (f o).status ≠ .accepted) {o' : OperationRow}
    (found : o' ∈ Table.update p f s.operations) (accepted : o'.status = .accepted) :
    o'.DueFrom s clock call reply :=
  .of_update (fun o _ _ hf => absurd hf (leaves o)) found accepted

/-- A retry that leaves an operation accepted retries a retrieval. -/
theorem retryStatus_accepted {phase : OperationPhase} {status : OperationStatus} {uncertain : Bool}
    (h : retryStatus phase status uncertain = some .accepted) : phase = .resultRetrieval := by
  cases phase <;> cases status <;> cases uncertain <;> first | rfl | cases h

/-- The error of a recorded retry is one that the database takes. -/
theorem Session.recordOperationRetry_error {claim : ClaimedOperation} {uncertain : Bool}
    {retryAt : Timestamp} {httpStatus : Option Int} {error : Value} {r : Unit}
    (h : s.recordOperationRetry clock claim uncertain retryAt httpStatus error = .ok (r, s')) :
    error.mentionsNul = false := by
  obtain ⟨current, -, h⟩ := bind_ok h
  split at h
  · cases h
  · obtain ⟨_, hjson, -⟩ := bind_ok h
    exact (jsonb_ok hjson).2

theorem SessionStep.dueFrom {db : Db} (step : SessionStep codec clock db call reply s s')
    {o' : OperationRow} (found : o' ∈ s'.operations) (accepted : o'.status = .accepted) :
    o'.DueFrom s clock call reply := by
  have leaves := step.leavesWork
  cases step with
  | @commitHandlerOutcome _ _ claim outcome _ session h =>
    obtain ⟨c⟩ := Session.commitHandlerOutcome_ok h
    have hoperations : s'.operations =
        s.operations ++ outcome.operations.map (·.row codec clock claim) := by
      have hsaved : s'.operations = c.cancelled.operations :=
        congrArg (·.operations) c.result
      have hcancelled : c.cancelled.operations = c.waiting.operations :=
        congrArg (·.operations) (Session.cancelWaits_frame c.cancellations)
      have hwaiting : c.waiting.operations = c.staged.operations :=
        congrArg (·.operations) (Session.createWaits_frame c.waits)
      have happended : c.appended.operations = s.operations :=
        congrArg (·.operations) (Session.appendHistory_frame c.history)
      rw [hsaved, hcancelled, hwaiting, Session.stageOperations_rows c.operations,
        show (c.appended.announceHistory _ _ _ _).operations = c.appended.operations from
          congrArg (·.operations) (Session.sansUpdates_announceHistory ..), happended]
    rw [hoperations] at found
    rcases List.mem_append.mp found with hold | hnew
    · exact .of_mem hold accepted
    · obtain ⟨operation, -, rfl⟩ := List.mem_map.mp hnew
      cases accepted
  | @claimOperation _ _ phase _ o leaseMs ho claimable =>
    have hoperations := congrArg (·.operations) (Session.claimOperation_eq s clock o phase
      db.nextUuid (db.nextUuid + 1) leaseMs)
    have hfound : o' ∈ Table.update _ _ s.operations := hoperations ▸ found
    refine .of_update (fun o₁ ho₁ _ hstatus => ?_) hfound accepted
    have hopen : o₁.status = .accepted := by
      simp only [OperationRow.claimed] at hstatus
      split at hstatus
      · cases hstatus
      · exact hstatus
    exact .kept o₁ ho₁ rfl hopen rfl
  | deferOperation session h =>
    obtain ⟨o, -, -, -, -, rfl⟩ := Session.deferOperation_ok h
    exact .of_leaving (fun _ h => by cases h) found accepted
  | recordOperationAccepted session h =>
    obtain ⟨o, held, -, hsubmitting, -, -, rfl⟩ := Session.recordOperationAccepted_ok h
    refine .of_update (fun o₁ ho₁ hid _ => ?_) found accepted
    exact .accepted o held.mem (held.id_eq.trans (of_decide_eq_true hid).symm) hsubmitting
  | renewOperationClaim hany h =>
    obtain ⟨o, leaseMs, -, rfl⟩ := Session.renewOperationClaim_ok h
    refine .of_update (fun o₁ ho₁ _ hstatus => ?_) found accepted
    exact .kept o₁ ho₁ rfl hstatus rfl
  | @recordOperationRetry _ _ claim uncertain retryAt _ error _ session h =>
    have herror := Session.recordOperationRetry_error h
    obtain ⟨o, status, held, hstatus, -, rfl⟩ := Session.recordOperationRetry_ok h
    refine .of_update (fun o₁ ho₁ hid haccepted => ?_) found accepted
    have haccepted' : status = .accepted := haccepted
    exact .recorded claim retryAt (by simp [StoreCall.resultRecord, herror]) rfl
      ⟨(of_decide_eq_true hid).symm, retryStatus_accepted (haccepted' ▸ hstatus)⟩ o held rfl
  | @recordOperationPendingResult _ _ claim checkAgainAt _ _ session h =>
    obtain ⟨o, held, hphase, -, -, hresult⟩ := Session.recordOperationPendingResult_ok h
    have hoperations := congrArg (·.operations) hresult
    have hfound : o' ∈ Table.update _ _ s.operations := hoperations ▸ found
    refine .of_update (fun o₁ ho₁ hid _ => ?_) hfound accepted
    exact .recorded claim checkAgainAt rfl rfl ⟨(of_decide_eq_true hid).symm, hphase⟩ o held rfl
  | @completeWithdrawal _ _ _ _ expiresAt _ session phase kind target h =>
    obtain ⟨o, row, events, s₁, e, -, -, -, -, hwithdraw, -, -, -, hresult⟩ :=
      Session.completeWithdrawal_ok h
    have hoperations := congrArg (·.operations) hresult
    have hself : o' ∈ s₁.operations := by
      have hwritten := hoperations.trans (s₁.operations_settled clock _ _ expiresAt e)
      have hfound := (show s'.operations = _ from hwritten) ▸ found
      obtain ⟨o₁, ho₁, rfl⟩ := Table.mem_update.mp hfound
      split at accepted
      · cases accepted
      · rename_i hp
        rw [if_neg hp]
        exact ho₁
    rcases Session.withdrawTarget_ok hwithdraw with ⟨-, -, rfl⟩ | ⟨-, e₁, -, -, -, rfl⟩
    · exact .of_mem hself accepted
    · rw [Session.operations_settled] at hself
      exact .of_leaving (fun _ h => by cases h) hself accepted
  | @completeOperation _ _ _ status _ _ expiresAt _ _ session terminal h =>
    obtain ⟨o, e, -, -, -, -, -, hresult⟩ := Session.completeOperation_ok h
    have hoperations := congrArg (·.operations) hresult
    have hwritten := hoperations.trans (s.operations_settled clock _ _ expiresAt e)
    have hfound := (show s'.operations = _ from hwritten) ▸ found
    refine .of_leaving (fun o₁ hstatus => ?_) hfound accepted
    rw [show status = .accepted from hstatus] at terminal
    cases terminal
  | deleteExpiredOperationRequest h =>
    simp only [Session.deleteExpiredOperationRequest] at h
    split at h <;> cases h
    · refine .of_update (fun o₁ ho₁ _ hstatus => ?_) found accepted
      exact .kept o₁ ho₁ rfl hstatus rfl
    · exact .of_mem found accepted
  | _ => exact .of_mem ((leaves rfl).operations ▸ found) accepted

end

/-! ## What a run makes of a hint -/

/-- An accepted operation stays accepted or ends. -/
theorem OperationStep.of_accepted {base : Uuid} {call : StoreCall} {reply : Reply}
    {v v' : OperationView} (step : OperationStep base call reply v v')
    (accepted : v.row.status = .accepted) :
    v'.row.status.terminal = true ∨ v'.row.status = .accepted := by
  cases step with
  | same row running announced =>
    exact .inr ((OperationRow.essence_eq row).2.2.2.1.trans accepted)
  | claimed lease eligible token issued =>
    exact .inr (by simp [OperationRow.claimed, accepted])
  | deferred held phase submitting => cases accepted.symm.trans submitting
  | accepted now held phase submitting unmapped => exact .inr rfl
  | retried held next =>
    rcases retryStatus_some next with ⟨hs, -⟩ | ⟨-, rfl⟩
    · cases accepted.symm.trans hs
    · exact .inr rfl
  | pendingResult held open' => exact .inr accepted
  | completed now held terminal allowed => exact .inl terminal
  | withdrew now withdrawn held kind submitting => cases accepted.symm.trans submitting
  | withdrawn now target withdrawable => exact .inl rfl

section

variable {codec : Codec} {trace : List Entry} {db : Db}

/-- Operation `id` is there, and it ended or is accepted and due by `hint`. -/
structure Db.Hinted (db : Db) (id : OperationId) (hint : Timestamp) : Prop where
  staged : ∃ s ∈ db.sessions, ∃ o ∈ s.operations, o.id = id
  due : ∀ s ∈ db.sessions, ∀ o ∈ s.operations, o.id = id →
    o.status.terminal = true ∨ o.status = .accepted ∧ o.nextAttemptAt ≤ hint

/-- An accepted row that the call leaves is due by the hint, when the row before it was. -/
theorem Run.accepted_due (run : Run codec trace db) {call : StoreCall} (clock : Clock)
    {id : OperationId} {hint : Timestamp} (h : db.Hinted id hint)
    (spared : ∀ claim time, call.resultRecord = some (claim, time) → claim.Retrieves id →
      (exec codec clock db call).1 = .done →
      (∃ s ∈ db.sessions, ∃ o, s.HoldsOperation clock claim o) → time ≤ hint)
    {s' : Session} (hs' : s' ∈ (exec codec clock db call).2.sessions) {o' : OperationRow}
    (ho' : o' ∈ s'.operations) (hid : o'.id = id) (accepted : o'.status = .accepted) :
    o'.nextAttemptAt ≤ hint := by
  have kept (s : Session) (hs : s ∈ db.sessions) (o : OperationRow) (ho : o ∈ s.operations)
      (hoid : o.id = id) (hopen : o.status = .accepted) : o.nextAttemptAt ≤ hint := by
    rcases h.due s hs o ho hoid with hterminal | ⟨-, hdue⟩
    · rw [hopen] at hterminal
      cases hterminal
    · exact hdue
  have hstep := exec_cases codec clock run.registered.unique call
  generalize (exec codec clock db call).1 = reply at hstep spared
  generalize (exec codec clock db call).2 = db' at hstep hs'
  cases hstep with
  | quiet sessions uuids quiet => exact kept s' (sessions ▸ hs') o' ho' hid accepted
  | create created fresh sessions uuids =>
    rw [sessions] at hs'
    rcases List.mem_append.mp hs' with hold | hnew
    · exact kept s' hold o' ho' hid accepted
    · rw [List.mem_singleton.mp hnew] at ho'
      exact absurd ho' List.not_mem_nil
  | @session _ s t found step =>
    rcases Db.mem_put.mp hs' with ⟨rfl, -⟩ | ⟨hold, -⟩
    · cases step.dueFrom ho' accepted with
      | kept o ho same hopen time => exact time ▸ kept s found o ho (same.trans hid) hopen
      | recorded claim time record done retrieves o held written =>
        exact written ▸ spared claim time record (hid ▸ retrieves) done ⟨s, found, o, held⟩
      | accepted o ho same submitting =>
        rcases h.due s found o ho (same.trans hid) with hterminal | ⟨hopen, -⟩
        · rw [submitting] at hterminal
          cases hterminal
        · cases submitting.symm.trans hopen
    · exact kept s' hold o' ho' hid accepted
  | due id' f due quiet sessions uuids =>
    rw [sessions] at hs'
    obtain ⟨s, hs, rfl⟩ := List.mem_map.mp hs'
    obtain ⟨o, ho, rfl⟩ := Table.mem_update.mp ho'
    obtain ⟨t, hsooner, ht⟩ := due o
    split at accepted
    · rename_i hp
      rw [if_pos hp, ht] at hid ⊢
      rw [ht] at accepted
      exact hsooner.trans (kept s hs o ho hid accepted)
    · rename_i hp
      rw [if_neg hp] at hid ⊢
      exact kept s hs o ho hid accepted

/-- A hint stays given, unless a record of an older retrieval overwrites it. -/
theorem Run.hinted_step (run : Run codec trace db) {call : StoreCall}
    (admissible : Admissible trace call) (clock : Clock) {id : OperationId} {hint : Timestamp}
    (h : db.Hinted id hint)
    (spared : ∀ claim time, call.resultRecord = some (claim, time) → claim.Retrieves id →
      (exec codec clock db call).1 = .done →
      (∃ s ∈ db.sessions, ∃ o, s.HoldsOperation clock claim o) → time ≤ hint) :
    (exec codec clock db call).2.Hinted id hint := by
  have registered := run.registered
  obtain ⟨owner, hoperations⟩ := run.operations_step admissible clock
  obtain ⟨s₀, hs₀, o₀, ho₀, hid₀⟩ := h.staged
  refine ⟨?_, fun s' hs' o' ho' hid => ?_⟩
  · obtain ⟨s', hs', -, o', ho', hop⟩ := hoperations.forward s₀ hs₀ o₀ ho₀
    exact ⟨s', hs', o', ho', hop.id_eq.trans hid₀⟩
  · -- The row was there before: ended, or accepted and due.
    rcases hoperations.back s' hs' o' ho' with ⟨s, hs, -, o, ho, hop⟩ | ⟨-, -, hfresh⟩
    · have hoid : o.id = id := hop.id_eq.symm.trans hid
      rcases h.due s hs o ho hoid with hended | ⟨hopen, -⟩
      · have hstatus : o'.status = o.status := (hop.later.ended hended).1
        exact .inl (hstatus ▸ hended)
      · rcases hop.of_accepted hopen with hended | haccepted
        · exact .inl hended
        · exact .inr ⟨haccepted, run.accepted_due clock h spared hs' ho' hid haccepted⟩
    · exact absurd (hid₀.trans hid.symm) (hfresh s₀ hs₀ o₀ ho₀)

/-- Processing a receipt for an accepted operation gives the hint. -/
theorem Run.hint_given (run : Run codec trace db) {claim : ClaimedCallbackReceipt} {clock : Clock}
    (processed : (exec codec clock db (.completeCallbackReceipt claim)).1 = .done)
    {r : CallbackReceiptRow} (receipt : db.receipts.find? (·.id = claim.receipt.id) = some r)
    {id : OperationId} (operation : r.operationId = some id) {s : Session} (hs : s ∈ db.sessions)
    {o : OperationRow} (ho : o ∈ s.operations) (hid : o.id = id) (accepted : o.status = .accepted) :
    (exec codec clock db (.completeCallbackReceipt claim)).2.Hinted id (clock.reading 1) := by
  simp only [exec] at processed ⊢
  cases hresult : db.completeCallbackReceipt clock claim with
  | error error =>
    rw [hresult] at processed
    cases processed
  | ok result =>
    obtain ⟨r', hlock, h⟩ := bind_ok hresult
    cases receipt.symm.trans (Db.lockValidCallbackClaim_ok hlock)
    rw [operation] at h
    cases h
    refine ⟨?_, fun s' hs' o' ho' hid' => ?_⟩
    · refine ⟨_, List.mem_map.mpr ⟨s, hs, rfl⟩, _, Table.mem_update.mpr ⟨o, ho, rfl⟩, ?_⟩
      rw [if_pos (by simpa using hid), if_pos accepted]
      exact hid
    · obtain ⟨s₁, hs₁, rfl⟩ := List.mem_map.mp hs'
      obtain ⟨o₁, ho₁, rfl⟩ := Table.mem_update.mp ho'
      have hid₁ : o₁.id = id := by
        by_contra hother
        rw [if_neg (by simpa using hother)] at hid'
        exact hother hid'
      have := run.operation_unique hs₁ hs ho₁ ho (hid₁.trans hid.symm)
      subst this
      rw [if_pos (by simpa using hid), if_pos accepted]
      exact .inr ⟨accepted, min_le_right _ _⟩

/-- A hinted operation is due by the hint. -/
theorem Db.Hinted.dueBy {id : OperationId} {hint : Timestamp} (h : db.Hinted id hint)
    {s : Session} (hs : s ∈ db.sessions) {o : OperationRow} (ho : o ∈ s.operations)
    (hid : o.id = id) : o.DueBy hint := by
  intro accepted
  rcases h.due s hs o ho hid with hended | ⟨-, hdue⟩
  · rw [accepted] at hended
    cases hended
  · refine ⟨hdue, fun clock hlate hfree => ?_⟩
    have hreached : o.nextAttemptAt ≤ clock.reading 0 := hdue.trans hlate
    simp only [OperationRow.claimable, OperationPhase.eligible, accepted, hfree, Bool.and_true,
      Bool.true_and, decide_true, decide_eq_true_eq]
    exact hreached

/-- What is spared by runs that keep their hints: no record of a retrieval that was claimed before
the hint, still holds the operation, and asks for a later time. -/
def NotOverwritten (before : List Entry) (id : OperationId) (hint : Timestamp) (call : StoreCall)
    (clock : Clock) (db : Db) : Prop :=
  ¬call.Overwrites clock db before id hint

theorem SinceHint.run {before since : List Entry} {db' : Db} {id : OperationId}
    {spared : StoreCall → Clock → Db → Prop}
    (h : SinceHint codec id before db spared since db') (run : Run codec before db) :
    Run codec (before ++ since) db' := by
  induction h with
  | refl =>
    rw [List.append_nil]
    exact run
  | step call clock rest admissible unfinished spare ih =>
    rw [← List.append_assoc]
    exact .step call clock ih admissible

theorem operationClaims_append (xs ys : List Entry) :
    operationClaims (xs ++ ys) = operationClaims xs ++ operationClaims ys :=
  List.filterMap_append

/-- A call presents the claim whose retrieval it records. -/
theorem StoreCall.resultRecord_claim {call : StoreCall} {claim : ClaimedOperation}
    {time : Timestamp} (h : call.resultRecord = some (claim, time)) :
    call.operationClaim = some claim := by
  cases call with
  | recordOperationPendingResult claim' checkAgainAt httpStatus =>
    cases h
    rfl
  | recordOperationRetry claim' uncertain retryAt httpStatus error =>
    simp only [StoreCall.resultRecord] at h
    split at h
    · cases h
    · cases h
      rfl
  | _ => cases h

theorem SinceHint.hinted {before since : List Entry} {db' : Db} {id : OperationId}
    {hint : Timestamp} (h : SinceHint codec id before db (NotOverwritten before id hint) since db')
    (run : Run codec before db) (hinted : db.Hinted id hint) : db'.Hinted id hint := by
  induction h with
  | refl => exact hinted
  | @step since db' call clock rest admissible unfinished spare ih =>
    refine (rest.run run).hinted_step admissible clock ih ?_
    intro claim time record retrieves done held
    by_contra hlate
    have hissued := admissible.operation claim (StoreCall.resultRecord_claim record)
    rw [operationClaims_append] at hissued
    rcases List.mem_append.mp hissued with hbefore | hsince
    · exact spare ⟨claim, time, record, retrieves, hbefore, not_le.mp hlate, held⟩
    · exact unfinished claim time record retrieves hsince done

/-- A callback hint is kept in every run in which no record of an older retrieval overwrites it. -/
theorem callback_hint_kept (codec : Codec) : HintKept codec NotOverwritten := by
  intro trace db claim clock run admissible processed r receipt id operation hop before since db'
    rest s hs o ho hid
  obtain ⟨s₀, hs₀, o₀, ho₀, hid₀, accepted⟩ := hop
  have hstep := Run.step (.completeCallbackReceipt claim) clock run admissible
  rw [processed] at hstep
  have hgiven := run.hint_given processed receipt operation hs₀ ho₀ hid₀ accepted
  exact (rest.hinted hstep hgiven).dueBy hs ho hid

end

/-! ## A hint that is overwritten -/

/-- The claim of the retrieval that reads the gateway before the callback arrives. -/
def earlyRetrieval : ClaimedOperation where
  operation :=
    { id := 20, sessionId := 1, sourceEventId := 0, kind := .llm
      gatewayConnectionId := some "llm", targetOperationId := none, previousOperationId := none
      gatewayIdempotencyKey := Uuid.toText 20, requestHash := "null"
      gatewayJobId := some 40, status := .accepted, result := none, error := none, createdAt := 0
      completedAt := none }
  request := none
  phase := .resultRetrieval
  attemptId := 6
  attemptNumber := 2
  leaseToken := 5
  recoveringUncertain := false

/-- The claim of its submission. -/
def firstSubmission : ClaimedOperation where
  operation :=
    { earlyRetrieval.operation with gatewayJobId := none, status := .submitting }
  request := some "null"
  phase := .submission
  attemptId := 4
  attemptNumber := 1
  leaseToken := 3
  recoveringUncertain := false

/-- The claim of the receipt of the callback. -/
def callbackClaim : ClaimedCallbackReceipt where
  receipt :=
    { id := 7, gatewayConnectionId := "llm", gatewayEventId := 50, gatewayJobId := 40
      payload := "\x7b\x7d", operationId := none, status := .processing, receivedAt := 0 }
  leaseToken := 8

/-- The model request of a first turn is accepted as job 40 and its result is being read; then the
callback of the job arrives and is matched. -/
def matchedCallback : List StoreCall :=
  firstTurn ++
    [.claimOperation (fun _ => false) .submission 1000,
      .recordOperationAccepted firstSubmission 40 0 (some 200),
      .claimOperation (fun _ => false) .resultRetrieval 1000,
      .recordCallbackReceipt "llm" 50 40 "\x7b\x7d",
      .claimCallbackReceipt (fun _ => false) 1000,
      .matchCallbackReceipt callbackClaim 0]

theorem matchedCallback_run :
    Run plainCodec (replay plainCodec stillClock matchedCallback).1
      (replay plainCodec stillClock matchedCallback).2 := by
  refine Run.replay fun n call hcall => ?_
  match n, hcall with
  | 0, rfl | 1, rfl | 2, rfl => exact .of_unclaimed rfl rfl rfl
  | 3, rfl => exact .of_handler rfl (by decide) rfl rfl
  | 4, rfl => exact .of_unclaimed rfl rfl rfl
  | 5, rfl => exact .of_operation rfl (List.mem_singleton.mpr rfl)
  | 6, rfl | 7, rfl | 8, rfl => exact .of_unclaimed rfl rfl rfl
  | 9, rfl => exact .of_receipt rfl (by decide)

theorem earlyRetrieval_issued :
    earlyRetrieval ∈ operationClaims (replay plainCodec stillClock matchedCallback).1 := by
  have hclaims : operationClaims (replay plainCodec stillClock matchedCallback).1 =
      [firstSubmission, earlyRetrieval] := rfl
  rw [hclaims]
  exact List.mem_cons_of_mem _ List.mem_cons_self

/-- The hint is lost: the read that began before the callback puts off the next attempt. -/
theorem callback_hint_lost : ¬HintKept plainCodec fun _ _ _ _ _ _ => True := by
  intro kept
  let db := (replay plainCodec stillClock matchedCallback).2
  let hinted := (exec plainCodec stillClock db (.completeCallbackReceipt callbackClaim)).2
  let late : StoreCall := .recordOperationPendingResult earlyRetrieval 30 (some 200)
  let lost := (exec plainCodec stillClock hinted late).2
  have hlate := kept _ db callbackClaim stillClock matchedCallback_run
    (.of_receipt rfl (by decide)) rfl _ rfl 20 rfl
    ⟨_, List.mem_cons_self, _, List.mem_cons_self, rfl, rfl⟩
    _ lost (.step late stillClock .refl (.of_operation rfl ?_) ?_ trivial) _ List.mem_cons_self _
    List.mem_cons_self rfl rfl
  · exact absurd hlate.1 (by decide)
  · rw [List.append_nil, operationClaims_append]
    exact List.mem_append_left _ earlyRetrieval_issued
  · exact fun _ _ _ _ hsince => absurd hsince List.not_mem_nil

/-- The callback of a first turn, with a lease that is renewed afterwards. -/
theorem callback_hint_kept_renewed :
    let db := (replay plainCodec stillClock matchedCallback).2
    let hinted := (exec plainCodec stillClock db (.completeCallbackReceipt callbackClaim)).2
    let renewed := (exec plainCodec stillClock hinted (.renewOperationClaim earlyRetrieval 1000)).2
    ∀ s ∈ renewed.sessions, ∀ o ∈ s.operations, o.id = 20 → o.DueBy 0 := by
  refine callback_hint_kept plainCodec _ _ callbackClaim stillClock matchedCallback_run
    (.of_receipt rfl (by decide)) rfl _ rfl 20 rfl
    ⟨_, List.mem_cons_self, _, List.mem_cons_self, rfl, rfl⟩ _ _
    (.step (.renewOperationClaim earlyRetrieval 1000) stillClock .refl (.of_operation rfl ?_) ?_ ?_)
  · rw [List.append_nil, operationClaims_append]
    exact List.mem_append_left _ earlyRetrieval_issued
  · exact fun _ _ record => by cases record
  · rintro ⟨_, _, record, -⟩
    cases record

end AgentPlatform.Store
