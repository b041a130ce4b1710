import AgentPlatform.Store.Drawn

/-!
# Stored requests

The request of an operation is staged with it, and nothing rewrites its text: it is stored as it was
staged until it is removed for good. So every claim of an operation that shows a request shows the
same one.
-/

namespace AgentPlatform.Store

/-! ## The book of requests -/

/-- The texts that are stored of requests, and the operations that were staged. -/
structure RequestBook where
  requests : List (OperationId × RawJson)
  operations : List OperationId

def Session.requestBook (s : Session) : RequestBook where
  requests := s.requests.map fun r => (r.operationId, r.request)
  operations := s.operations.map (·.id)

namespace RequestBook

/-- Every request is of a staged operation, which has one. -/
structure Sound (b : RequestBook) : Prop where
  distinct : (b.requests.map (·.1)).Nodup
  owned : ∀ r ∈ b.requests, r.1 ∈ b.operations

/-- What a transaction does to the book. -/
inductive Step (b : RequestBook) : RequestBook → Prop
  | same : Step b b
  | removed (id : OperationId) : Step b { b with requests := b.requests.filter (·.1 ≠ id) }
  | staged (rows : List (OperationId × RawJson)) (distinct : (rows.map (·.1)).Nodup)
      (fresh : ∀ r ∈ rows, r.1 ∉ b.operations) :
      Step b { requests := b.requests ++ rows, operations := b.operations ++ rows.map (·.1) }

variable {b b' : RequestBook}

theorem Step.of_eq (h : b' = b) : Step b b' := h ▸ .same

theorem Step.sound (step : Step b b') (h : b.Sound) : b'.Sound := by
  cases step with
  | same => exact h
  | removed id =>
    refine ⟨?_, fun r hr => h.owned r (List.mem_of_mem_filter hr)⟩
    exact h.distinct.sublist (List.Sublist.map _ List.filter_sublist)
  | staged rows distinct fresh =>
    refine ⟨?_, fun r hr => ?_⟩
    · rw [List.map_append, List.nodup_append]
      refine ⟨h.distinct, distinct, fun x hx y hy => ?_⟩
      obtain ⟨r, hr, rfl⟩ := List.mem_map.mp hx
      obtain ⟨r', hr', rfl⟩ := List.mem_map.mp hy
      exact fun heq => fresh r' hr' (heq ▸ h.owned r hr)
    · rcases List.mem_append.mp hr with hold | hnew
      · exact List.mem_append_left _ (h.owned r hold)
      · exact List.mem_append_right _ (List.mem_map_of_mem hnew)

/-- A request of an operation that was staged before is the one that was stored. -/
theorem Step.kept (step : Step b b') {r : OperationId × RawJson} (hr : r ∈ b'.requests)
    (staged : r.1 ∈ b.operations) : r ∈ b.requests := by
  cases step with
  | same => exact hr
  | removed id => exact List.mem_of_mem_filter hr
  | staged rows distinct fresh =>
    rcases List.mem_append.mp hr with hold | hnew
    · exact hold
    · exact absurd staged (fresh r hnew)

theorem Step.operations (step : Step b b') {id : OperationId} (h : id ∈ b.operations) :
    id ∈ b'.operations := by
  cases step with
  | same | removed => exact h
  | staged rows distinct fresh => exact List.mem_append_left _ h

end RequestBook

/-! ## The shelf -/

/-- The book of requests with the time that the request of each operation was removed. -/
structure RequestShelf where
  requests : List (OperationId × RawJson)
  operations : List (OperationId × Option Timestamp)

def Session.requestShelf (s : Session) : RequestShelf where
  requests := s.requests.map fun r => (r.operationId, r.request)
  operations := s.operations.map fun o => (o.id, o.requestRemovedAt)

namespace RequestShelf

/-- What a transaction does to the shelf. `ended` are the operations that ended before it; it stages
the requests that it is indexed by. -/
inductive Step (ended : OperationId → Prop) (b : RequestShelf) :
    List (OperationId × RawJson) → RequestShelf → Prop
  | same : Step ended b [] b
  | removed (id : OperationId) (removedAt : Timestamp) (finished : ended id) : Step ended b []
      { requests := b.requests.filter (·.1 ≠ id)
        operations := b.operations.map fun o => if o.1 = id then (o.1, some removedAt) else o }
  | staged (rows : List (OperationId × RawJson)) (distinct : (rows.map (·.1)).Nodup)
      (fresh : ∀ r ∈ rows, ∀ o ∈ b.operations, o.1 ≠ r.1) :
      Step ended b rows
        { requests := b.requests ++ rows
          operations := b.operations ++ rows.map fun r => (r.1, none) }

variable {ended : OperationId → Prop} {rows : List (OperationId × RawJson)} {b b' : RequestShelf}

theorem Step.of_eq (h : b' = b) : b.Step ended [] b' := h ▸ .same

def book (b : RequestShelf) : RequestBook where
  requests := b.requests
  operations := b.operations.map (·.1)

theorem Step.book (step : b.Step ended rows b') : b.book.Step b'.book := by
  cases step with
  | same => exact .same
  | removed id removedAt finished =>
    have hids : (b.operations.map fun o => if o.1 = id then (o.1, some removedAt) else o).map (·.1) =
        b.operations.map (·.1) := by
      rw [List.map_map]
      refine List.map_congr_left fun o _ => ?_
      by_cases h : o.1 = id <;> simp [h]
    exact cast (congrArg _ (congrArg (RequestBook.mk _) hids.symm)) (RequestBook.Step.removed id)
  | staged rows distinct fresh =>
    have hids : (b.operations ++ rows.map fun r => (r.1, (none : Option Timestamp))).map (·.1) =
        b.operations.map (·.1) ++ rows.map (·.1) := by
      simp
    have hstaged : b.book.Step
        { requests := b.requests ++ rows
          operations := b.operations.map (·.1) ++ rows.map (·.1) } := by
      refine .staged rows distinct fun r hr hin => ?_
      obtain ⟨o, ho, heq⟩ := List.mem_map.mp hin
      exact fresh r hr o ho heq
    exact cast (congrArg _ (congrArg (RequestBook.mk _) hids.symm)) hstaged

end RequestShelf

theorem Session.requestShelf_book (s : Session) : s.requestShelf.book = s.requestBook := by
  simp [Session.requestShelf, Session.requestBook, RequestShelf.book]

/-- The requests that a call stages. -/
def StoreCall.stagedRequests : StoreCall → List (OperationId × RawJson)
  | .commitHandlerOutcome _ outcome => outcome.operations.map fun o => (o.id, o.request)
  | _ => []

/-- An operation of a session that ended. -/
def Session.Ended (s : Session) (id : OperationId) : Prop :=
  ∃ o ∈ s.operations, o.id = id ∧ o.status.terminal = true

/-! ## Every transaction -/

section

variable {codec : Codec} {clock : Clock} {s s' : Session} {ended : OperationId → Prop}
  {rows : List (OperationId × RawJson)}

/-- Rows that are rewritten in other columns. -/
theorem Session.requestShelf_updateOperations (s : Session) (p : OperationRow → Bool)
    {f : OperationRow → OperationRow}
    (keeps : ∀ o, ((f o).id, (f o).requestRemovedAt) = (o.id, o.requestRemovedAt)) :
    (s.updateOperations p f).requestShelf = s.requestShelf := by
  have hids := Table.map_update_of_eq (p := p) (f := f)
    (g := fun o => (o.id, o.requestRemovedAt)) keeps s.operations
  exact congrArg (RequestShelf.mk _) hids

theorem Session.requestShelf_due (s : Session) (id : OperationId) {f : OperationRow → OperationRow}
    (due : ∀ o, ∃ t ≤ o.nextAttemptAt, f o = o.due t) :
    (s.updateOperations (·.id = id) f).requestShelf = s.requestShelf := by
  refine s.requestShelf_updateOperations _ fun o => ?_
  obtain ⟨t, -, hf⟩ := due o
  rw [hf]
  rfl

theorem Session.requestShelf_expireRequest (s : Session) (id : OperationId)
    (expiresAt : Option Timestamp) : (s.expireRequest id expiresAt).requestShelf = s.requestShelf := by
  cases expiresAt with
  | none => rfl
  | some expiresAt =>
    have hrows : (Table.update (fun r => r.operationId = id)
        (fun r : OperationRequestRow => { r with expiresAt := some expiresAt }) s.requests).map
          (fun r => (r.operationId, r.request)) = s.requests.map fun r => (r.operationId, r.request) := by
      refine Table.map_update_of_eq (fun _ => ?_) _
      rfl
    exact congrArg (fun rows => { s.requestShelf with requests := rows }) hrows

theorem Session.requestShelf_settled (s : Session) (clock : Clock) (id : OperationId)
    {f : OperationRow → OperationRow}
    (keeps : ∀ o, ((f o).id, (f o).requestRemovedAt) = (o.id, o.requestRemovedAt))
    (expiresAt : Option Timestamp) (e : EventRow) :
    (s.settled clock id f expiresAt e).requestShelf = s.requestShelf :=
  (Session.requestShelf_expireRequest _ id expiresAt).trans
    (s.requestShelf_updateOperations _ keeps)

theorem Session.requestShelf_of_sansUpdates (h : s'.sansUpdates = s.sansUpdates) :
    s'.requestShelf = s.requestShelf := by
  have : s'.sansUpdates.requestShelf = s.sansUpdates.requestShelf := congrArg Session.requestShelf h
  exact this

/-- Staged requests are those of the outcome. -/
theorem Session.stageOperations_requests {claim : HandlerClaim} {taken : OperationId → Bool}
    {operations : List NewOperation}
    (h : stageOperations codec clock claim taken operations s = .ok s') :
    s'.requestShelf =
      { requests := s.requestShelf.requests ++ operations.map fun o => (o.id, o.request)
        operations := s.requestShelf.operations ++ operations.map fun o => (o.id, none) } := by
  induction operations generalizing s with
  | nil =>
    cases h
    simp
  | cons operation operations ih =>
    simp only [Session.stageOperations] at h
    split at h
    · cases h
    · split at h
      · cases h
      · split at h
        · cases h
        · rw [ih h]
          simp [Session.requestShelf, NewOperation.row, Session.emitUpdate,
            Session.emitUpdateWithEvent]

theorem Session.Commit.requestShelf {taken : TakenIds} {eventId : EventId} {claim : HandlerClaim}
    {outcome : OutcomeCommit} (c : s.Commit codec clock taken eventId claim outcome s') :
    s.requestShelf.Step ended (outcome.operations.map fun o => (o.id, o.request))
      s'.requestShelf := by
  have happended : c.appended.requestShelf = s.requestShelf := by
    rw [Session.appendHistory_frame c.history]
    rfl
  have hannounced : (c.appended.announceHistory clock claim outcome.history.length
      c.historySequence).requestShelf = s.requestShelf :=
    (Session.requestShelf_of_sansUpdates (Session.sansUpdates_announceHistory ..)).trans happended
  have hstaged := Session.stageOperations_requests c.operations
  have hwaiting : c.waiting.requestShelf = c.staged.requestShelf := by
    rw [Session.requestShelf_of_sansUpdates (Session.createWaits_frame c.waits)]
    rfl
  have hcancelled : c.cancelled.requestShelf = c.waiting.requestShelf := by
    rw [Session.requestShelf_of_sansUpdates (Session.cancelWaits_frame c.cancellations)]
    rfl
  have hsaved : s'.requestShelf = c.cancelled.requestShelf := by
    rw [Session.requestShelf_of_sansUpdates c.result]
    rfl
  obtain ⟨hdistinct, hfresh⟩ := Session.stageOperations_fresh c.operations
  have hids : (outcome.operations.map fun o => (o.id, o.request)).map (·.1) =
      outcome.operations.map (·.id) := by
    rw [List.map_map]
    rfl
  have hrows : outcome.operations.map (fun o => (o.id, (none : Option Timestamp))) =
      (outcome.operations.map fun o => (o.id, o.request)).map fun r => (r.1, none) := by
    rw [List.map_map]
    rfl
  rw [hsaved, hcancelled, hwaiting, hstaged, hannounced, hrows]
  refine .staged _ (hids ▸ hdistinct) fun r hr o ho heq => ?_
  obtain ⟨operation, hoperation, rfl⟩ := List.mem_map.mp hr
  rw [← hannounced] at ho
  obtain ⟨row, hrow, rfl⟩ := List.mem_map.mp ho
  exact (hfresh operation hoperation).2 row hrow heq

/-- Every transaction takes a step of the shelf. -/
theorem SessionStep.requestShelf {db : Db} {call : StoreCall} {reply : Reply}
    (step : SessionStep codec clock db call reply s s') :
    s.requestShelf.Step s.Ended call.stagedRequests s'.requestShelf := by
  cases step with
  | commitHandlerOutcome session h =>
    obtain ⟨c⟩ := Session.commitHandlerOutcome_ok h
    exact c.requestShelf
  | patchSessionMetadata h =>
    simp only [Session.patchMetadata] at h
    split at h <;> cases h
    exact .same
  | enqueueExternalEvent session external h =>
    simp only [Session.enqueueExternalEvent] at h
    split at h
    · split at h <;> cases h
      exact .same
    · simp only [Session.insertExternalEvent] at h
      split at h
      · cases h
      · rename_i hinsert
        obtain ⟨-, rfl⟩ := Session.insertEvent_ok hinsert
        cases h
        exact .same
  | claimNextEvent claimable => exact .same
  | renewEventClaim session h =>
    simp only [Session.renewEventClaim] at h
    split at h
    · cases h
    · split at h <;> cases h
      exact .same
  | @recordHandlerFailure _ _ _ _ _ blocked _ session h =>
    simp only [Session.recordHandlerFailure] at h
    split at h <;> cases h
    cases blocked <;> exact .same
  | abandonHandlerAttempt session h =>
    simp only [Session.abandonHandlerAttempt] at h
    split at h <;> cases h
    exact .same
  | retryBlockedEvent h =>
    simp only [Session.retryBlockedEvent] at h
    split at h
    · split at h <;> cases h
      exact .same
    · split at h <;> cases h
      exact .same
  | resolveWait h =>
    simp only [Session.resolveWait] at h
    split at h
    · cases h
    · split at h
      · split at h
        · cases h
        · split at h <;> cases h
          exact .same
      · split at h
        · cases h
        · split at h
          · cases h
          · rename_i hfinish
            obtain ⟨-, -, rfl⟩ := Session.finishWait_ok hfinish
            cases h
            exact .same
  | expireWait h =>
    simp only [Session.expireWait] at h
    split at h
    · cases h
    · split at h
      · cases h
        exact .same
      · split at h
        · cases h
        · rename_i hfinish
          obtain ⟨-, -, rfl⟩ := Session.finishWait_ok hfinish
          cases h
          exact .same
  | pruneUpdates h =>
    simp only [Session.pruneUpdates] at h
    split at h <;> cases h <;> exact .same
  | @claimOperation _ _ phase _ o leaseMs ho claimable =>
    refine .of_eq ((Session.requestShelf_of_sansUpdates (Session.claimOperation_eq ..)).trans ?_)
    exact s.requestShelf_updateOperations _ fun _ => rfl
  | deferOperation session h =>
    obtain ⟨o, -, -, -, -, rfl⟩ := Session.deferOperation_ok h
    exact .of_eq (s.requestShelf_updateOperations _ fun _ => rfl)
  | recordOperationAccepted session h =>
    obtain ⟨o, -, -, -, -, -, rfl⟩ := Session.recordOperationAccepted_ok h
    exact .of_eq (s.requestShelf_updateOperations _ fun _ => rfl)
  | renewOperationClaim found h =>
    obtain ⟨o, leaseMs, -, rfl⟩ := Session.renewOperationClaim_ok h
    exact .of_eq (s.requestShelf_updateOperations _ fun _ => rfl)
  | recordOperationRetry session h =>
    obtain ⟨o, status, -, -, -, rfl⟩ := Session.recordOperationRetry_ok h
    exact .of_eq (s.requestShelf_updateOperations _ fun _ => rfl)
  | recordOperationPendingResult session h =>
    obtain ⟨o, -, -, -, -, hresult⟩ := Session.recordOperationPendingResult_ok h
    refine .of_eq ((Session.requestShelf_of_sansUpdates hresult).trans ?_)
    exact s.requestShelf_updateOperations _ fun _ => rfl
  | completeWithdrawal session phase kind target h =>
    obtain ⟨o, row, events, s₁, e, -, -, -, -, hwithdraw, -, -, -, hresult⟩ :=
      Session.completeWithdrawal_ok h
    have htarget : s₁.requestShelf = s.requestShelf := by
      rcases Session.withdrawTarget_ok hwithdraw with ⟨-, -, rfl⟩ | ⟨-, e₁, -, -, -, hs₁⟩
      · rfl
      · rw [hs₁]
        refine s.requestShelf_settled clock _ (fun _ => ?_) _ e₁
        rfl
    refine .of_eq ((Session.requestShelf_of_sansUpdates hresult).trans (Eq.trans ?_ htarget))
    refine s₁.requestShelf_settled clock _ (fun _ => ?_) _ e
    rfl
  | completeOperation session terminal h =>
    obtain ⟨o, e, -, -, -, -, -, hresult⟩ := Session.completeOperation_ok h
    refine .of_eq ((Session.requestShelf_of_sansUpdates hresult).trans ?_)
    refine s.requestShelf_settled clock _ (fun _ => ?_) _ e
    rfl
  | @deleteExpiredOperationRequest _ _ _ id _ h =>
    simp only [Session.deleteExpiredOperationRequest] at h
    split at h
    · rename_i hremovable
      cases h
      simp only [Session.requestRemovable, Bool.and_eq_true, List.any_eq_true,
        decide_eq_true_eq] at hremovable
      obtain ⟨-, o, ho, hid, hterminal⟩ := hremovable
      have hrows : (s.requests.filter fun r => r.operationId ≠ id).map
          (fun r => (r.operationId, r.request)) = s.requestShelf.requests.filter (·.1 ≠ id) := by
        rw [Session.requestShelf, List.filter_map]
        rfl
      have hoperations : (Table.update (fun o : OperationRow => o.id = id)
          (fun o => { o with requestRemovedAt := some (clock.reading 1) }) s.operations).map
            (fun o => (o.id, o.requestRemovedAt)) = s.requestShelf.operations.map fun o =>
              if o.1 = id then (o.1, some (clock.reading 1)) else o := by
        simp only [Table.update, Session.requestShelf, List.map_map]
        refine List.map_congr_left fun o _ => ?_
        by_cases h : o.id = id <;> simp [h]
      have hremoved : s.requestShelf.Step s.Ended [] _ :=
        .removed id (clock.reading 1) ⟨o, ho, hid, hterminal⟩
      rw [← hrows, ← hoperations] at hremoved
      exact hremoved
    · cases h
      exact .same

/-- Every transaction takes a step of the book. -/
theorem SessionStep.requestBook {db : Db} {call : StoreCall} {reply : Reply}
    (step : SessionStep codec clock db call reply s s') : s.requestBook.Step s'.requestBook := by
  rw [← s.requestShelf_book, ← s'.requestShelf_book]
  exact step.requestShelf.book

/-! ## Claims of one operation -/

/-- The requests that claims showed are those that are stored, and the same for an operation. -/
structure RequestsShown (trace : List Entry) (s : Session) : Prop where
  sound : s.requestBook.Sound
  stored : ∀ claim ∈ operationClaims trace, claim.operation.sessionId = s.id →
    claim.operation.id ∈ s.requestBook.operations ∧ ∀ request, claim.request = some request →
      ∀ r ∈ s.requestBook.requests, r.1 = claim.operation.id → r.2 = request
  same : ∀ claim ∈ operationClaims trace, ∀ claim' ∈ operationClaims trace,
    claim.operation.sessionId = s.id → claim'.operation.sessionId = s.id →
    claim'.operation.id = claim.operation.id → ∀ request request', claim.request = some request →
      claim'.request = some request' → request' = request

/-- A claim of a session shows a request that the session stores. -/
theorem SessionStep.shows {db : Db} {call : StoreCall} {reply : Reply}
    (step : SessionStep codec clock db call reply s s') {claim : ClaimedOperation}
    (issued : reply = .claimedOperation (some claim)) :
    claim.operation.id ∈ s.requestBook.operations ∧ ∀ request, claim.request = some request →
      (claim.operation.id, request) ∈ s.requestBook.requests := by
  cases step with
  | @claimOperation _ _ phase _ o leaseMs ho claimable =>
    cases issued
    refine ⟨List.mem_map.mpr ⟨o, ho, rfl⟩, fun request hrequest => ?_⟩
    have hfound : (s.requests.find? (·.operationId = o.id)).map (·.request) = some request := by
      cases phase <;> first | exact hrequest | cases hrequest
    obtain ⟨r, hr, rfl⟩ := Option.map_eq_some_iff.mp hfound
    have hid : r.operationId = o.id := by simpa using List.find?_some hr
    exact List.mem_map.mpr ⟨r, List.mem_of_find?_eq_some hr, Prod.ext hid rfl⟩
  | _ => cases issued

/-- A request that is stored is the only one of its operation. -/
theorem RequestBook.Sound.only {b : RequestBook} (h : b.Sound) {r r' : OperationId × RawJson}
    (hr : r ∈ b.requests) (hr' : r' ∈ b.requests) (same : r.1 = r'.1) : r = r' :=
  List.inj_on_of_nodup_map h.distinct hr hr' same

theorem requestsShown_rule (codec : Codec) : SessionRule codec RequestsShown where
  create trace clock session absent unclaimed := by
    have hnone : ∀ claim ∈ operationClaims (trace ++ [{
        call := .createSession session, clock
        reply := .session (Session.create clock session).record }]),
        claim.operation.sessionId ≠ session.id := by
      intro claim hclaim
      rw [operationClaims_concat] at hclaim
      exact unclaimed claim (by simpa [Entry.issuedOperationClaim] using hclaim)
    exact ⟨⟨List.nodup_nil, fun _ h => absurd h List.not_mem_nil⟩,
      fun claim hclaim hid => absurd hid (hnone claim hclaim),
      fun claim hclaim _ _ hid => absurd hid (hnone claim hclaim)⟩
  step trace db call clock reply s s' registered admissible step h := by
    have hbook := step.requestBook
    have hcases {claim : ClaimedOperation}
        (hclaim : claim ∈ operationClaims (trace ++ [⟨call, clock, reply⟩])) :
        claim ∈ operationClaims trace ∨ reply = .claimedOperation (some claim) := by
      rw [operationClaims_concat] at hclaim
      exact (List.mem_append.mp hclaim).imp_right fun hnew =>
        issuedOperationClaim_reply.mp (Option.mem_toList.mp hnew)
    refine ⟨hbook.sound h.sound, fun claim hclaim hid => ?_,
      fun claim hclaim claim' hclaim' hid hid' hop request request' hrequest hrequest' => ?_⟩
    · rw [step.id_eq] at hid
      rcases hcases hclaim with hold | hnew
      · obtain ⟨hstaged, hstored⟩ := h.stored claim hold hid
        refine ⟨hbook.operations hstaged, fun request hrequest r hr hop => ?_⟩
        exact hstored request hrequest r (hbook.kept hr (hop ▸ hstaged)) hop
      · obtain ⟨hstaged, hshown⟩ := step.shows hnew
        refine ⟨hbook.operations hstaged, fun request hrequest r hr hop => ?_⟩
        have hkept := hbook.kept hr (hop ▸ hstaged)
        exact congrArg Prod.snd (h.sound.only hkept (hshown request hrequest) hop)
    · rw [step.id_eq] at hid hid'
      rcases hcases hclaim with hold | hnew
      · rcases hcases hclaim' with hold' | hnew'
        · exact h.same claim hold claim' hold' hid hid' hop request request' hrequest hrequest'
        · have hshown := (step.shows hnew').2 request' hrequest'
          exact (h.stored claim hold hid).2 request hrequest _ hshown hop
      · rcases hcases hclaim' with hold' | hnew'
        · have hshown := (step.shows hnew).2 request hrequest
          exact ((h.stored claim' hold' hid').2 request' hrequest' _ hshown hop.symm).symm
        · cases hnew.symm.trans hnew'
          exact Option.some.inj (hrequest'.symm.trans hrequest)
  foreign trace entry s foreign h := by
    have hold {claim : ClaimedOperation} (hclaim : claim ∈ operationClaims (trace ++ [entry]))
        (hid : claim.operation.sessionId = s.id) : claim ∈ operationClaims trace := by
      rw [operationClaims_concat] at hclaim
      rcases List.mem_append.mp hclaim with hold | hnew
      · exact hold
      · exact absurd hid (foreign.operationClaim claim (Option.mem_toList.mp hnew))
    exact ⟨h.sound, fun claim hclaim hid => h.stored claim (hold hclaim hid) hid,
      fun claim hclaim claim' hclaim' hid hid' =>
        h.same claim (hold hclaim hid) claim' (hold hclaim' hid') hid hid'⟩
  due trace s id f due h := by
    have hbook : (s.updateOperations (·.id = id) f).requestBook = s.requestBook := by
      rw [← Session.requestShelf_book, s.requestShelf_due id due, Session.requestShelf_book]
    refine ⟨hbook ▸ h.sound, ?_, h.same⟩
    rw [hbook]
    exact h.stored

end

/-- The claims of one operation are of its session. -/
theorem Run.claim_session {codec : Codec} {trace : List Entry} {db : Db} (run : Run codec trace db)
    {claim claim' : ClaimedOperation} (issued : claim ∈ operationClaims trace)
    (issued' : claim' ∈ operationClaims trace) (same : claim'.operation.id = claim.operation.id) :
    claim'.operation.sessionId = claim.operation.sessionId := by
  obtain ⟨s, hs, hid⟩ := List.mem_map.mp (run.registered.claims claim issued)
  obtain ⟨o, ho, hop, -⟩ := ((run.ledgerInvariant hs).known claim issued hid.symm).staged
  obtain ⟨s', hs', hid'⟩ := List.mem_map.mp (run.registered.claims claim' issued')
  obtain ⟨o', ho', hop', -⟩ := ((run.ledgerInvariant hs').known claim' issued' hid'.symm).staged
  have := run.operation_owner hs' hs ho' ho (hop'.trans (same.trans hop.symm))
  rw [← hid, ← hid', this]

/-- The claims of one operation show one request. -/
theorem Run.claim_request {codec : Codec} {trace : List Entry} {db : Db} (run : Run codec trace db)
    {claim claim' : ClaimedOperation} (issued : claim ∈ operationClaims trace)
    (issued' : claim' ∈ operationClaims trace) (same : claim'.operation.id = claim.operation.id)
    {request request' : RawJson} (shown : claim.request = some request)
    (shown' : claim'.request = some request') : request' = request := by
  obtain ⟨s, hs, hid⟩ := List.mem_map.mp (run.registered.claims claim issued)
  have hsession := run.claim_session issued issued' same
  exact (run.forall_sessions (requestsShown_rule codec) s hs).same claim issued claim' issued'
    hid.symm (hsession.trans hid.symm) same request request' shown shown'

end AgentPlatform.Store
