import AgentPlatform.Store.RequestBook

/-!
# Requests outlive their work

What a run staged is stored as it was staged until its operation has ended, and cleanup marks the
operation whose request it removes. So an operation lacks its request exactly when it is marked, and
every claim for submission or cancellation shows one.
-/

namespace AgentPlatform.Store

/-! ## The log of staged requests -/

/-- The requests that a run staged in session `id`, in order. -/
def stagedRequests (trace : List Entry) (id : SessionId) : List (OperationId × RawJson) :=
  ((commits trace).filter (·.1.sessionId = id)).flatMap fun c =>
    c.2.operations.map fun o => (o.id, o.request)

theorem stagedRequests_concat (trace : List Entry) (entry : Entry) (id : SessionId) :
    stagedRequests (trace ++ [entry]) id =
      stagedRequests trace id ++ stagedRequests [entry] id := by
  have hone : commits [entry] = entry.committed.toList := commits_concat [] entry
  simp only [stagedRequests, commits_concat, hone, List.filter_append, List.flatMap_append]

/-- An entry that commits nothing for a session stages nothing in it. -/
theorem Entry.Foreign.staged {entry : Entry} {id : SessionId} (h : entry.Foreign id) :
    stagedRequests [entry] id = [] := by
  have hone : commits [entry] = entry.committed.toList := commits_concat [] entry
  simp only [stagedRequests, hone]
  cases hcommitted : entry.committed with
  | none => rfl
  | some c =>
    have hother : c.1.sessionId ≠ id := h.committed c hcommitted
    simp [hother]

/-- A transaction stages what its call asks for. -/
theorem SessionStep.staged {codec : Codec} {clock : Clock} {db : Db} {call : StoreCall}
    {reply : Reply} {s s' : Session} (step : SessionStep codec clock db call reply s s') :
    stagedRequests [⟨call, clock, reply⟩] s.id = call.stagedRequests := by
  cases step with
  | commitHandlerOutcome session h =>
    simp [stagedRequests, commits, Entry.committed, session, StoreCall.stagedRequests]
  | _ => rfl

/-! ## What the shelf keeps -/

namespace RequestShelf

/-- A shelf of staged requests `log`: it stores those whose operations are not marked. -/
structure Keeps (log : List (OperationId × RawJson)) (b : RequestShelf) : Prop where
  distinct : (log.map (·.1)).Nodup
  operations : b.operations.map (·.1) = log.map (·.1)
  requests : ∀ r, r ∈ b.requests ↔ r ∈ log ∧ (r.1, none) ∈ b.operations

variable {ended : OperationId → Prop} {log rows : List (OperationId × RawJson)}
  {b b' : RequestShelf}

theorem Keeps.empty : Keeps [] ⟨[], []⟩ :=
  ⟨List.nodup_nil, rfl, fun _ => by simp⟩

theorem Keeps.step (h : Keeps log b) (step : b.Step ended rows b') : Keeps (log ++ rows) b' := by
  cases step with
  | same => rwa [List.append_nil]
  | removed id removedAt finished =>
    rw [List.append_nil]
    refine ⟨h.distinct, Eq.trans ?_ h.operations, fun r => ?_⟩
    · rw [List.map_map]
      refine List.map_congr_left fun o _ => ?_
      by_cases ho : o.1 = id <;> simp [ho]
    · have hunmarked : (r.1, none) ∈ b.operations.map (fun o =>
          if o.1 = id then (o.1, some removedAt) else o) ↔ (r.1, none) ∈ b.operations ∧ r.1 ≠ id := by
        rw [List.mem_map]
        constructor
        · rintro ⟨o, ho, heq⟩
          by_cases hid : o.1 = id
          · simp [hid] at heq
          · rw [if_neg hid] at heq
            exact ⟨heq ▸ ho, fun h => hid (heq ▸ h)⟩
        · rintro ⟨ho, hid⟩
          exact ⟨(r.1, none), ho, if_neg hid⟩
      rw [hunmarked, List.mem_filter, h.requests, decide_eq_true_eq]
      exact and_assoc
  | staged rows distinct fresh =>
    have hnew : ∀ r ∈ rows, ∀ r' ∈ log, r'.1 ≠ r.1 := by
      intro r hr r' hr' heq
      have hstaged : r'.1 ∈ b.operations.map (·.1) := h.operations ▸ List.mem_map_of_mem hr'
      obtain ⟨o, ho, hid⟩ := List.mem_map.mp hstaged
      exact fresh r hr o ho (hid.trans heq)
    refine ⟨?_, ?_, fun r => ?_⟩
    · rw [List.map_append, List.nodup_append]
      refine ⟨h.distinct, distinct, fun x hx y hy => ?_⟩
      obtain ⟨r', hr', rfl⟩ := List.mem_map.mp hx
      obtain ⟨r, hr, rfl⟩ := List.mem_map.mp hy
      exact hnew r hr r' hr'
    · rw [List.map_append, List.map_append, h.operations, List.map_map]
      rfl
    · rw [List.mem_append, List.mem_append, List.mem_append, h.requests]
      constructor
      · rintro (⟨hlog, ho⟩ | hrow)
        · exact ⟨.inl hlog, .inl ho⟩
        · exact ⟨.inr hrow, .inr (List.mem_map.mpr ⟨r, hrow, rfl⟩)⟩
      · rintro ⟨hlog | hrow, ho⟩
        · rcases ho with ho | ho
          · exact .inl ⟨hlog, ho⟩
          · obtain ⟨r', hr', heq⟩ := List.mem_map.mp ho
            exact absurd (congrArg Prod.fst heq).symm (hnew r' hr' r hlog)
        · exact .inr hrow

/-- A mark is old, or of an operation that had ended. -/
theorem Step.marked (step : b.Step ended rows b') {id : OperationId} {removedAt : Timestamp}
    (marked : (id, some removedAt) ∈ b'.operations) :
    (id, some removedAt) ∈ b.operations ∨ ended id := by
  cases step with
  | same => exact .inl marked
  | removed id' removedAt' finished =>
    obtain ⟨o, ho, heq⟩ := List.mem_map.mp marked
    by_cases hid : o.1 = id'
    · rw [if_pos hid] at heq
      have hsame : id' = id := hid.symm.trans (Prod.mk.inj heq).1
      exact .inr (hsame ▸ finished)
    · rw [if_neg hid] at heq
      exact .inl (heq ▸ ho)
  | staged rows distinct fresh =>
    rcases List.mem_append.mp marked with hold | hnew
    · exact .inl hold
    · obtain ⟨r, -, heq⟩ := List.mem_map.mp hnew
      cases congrArg Prod.snd heq

/-- The request of an operation that is not marked is stored, as it was staged. -/
theorem Keeps.stored (h : Keeps log b) {id : OperationId} (unmarked : (id, none) ∈ b.operations) :
    ∃ request, (id, request) ∈ b.requests ∧ (id, request) ∈ log := by
  have hid : id ∈ log.map (·.1) := h.operations ▸ List.mem_map_of_mem unmarked
  obtain ⟨⟨_, request⟩, hr, rfl⟩ := List.mem_map.mp hid
  exact ⟨request, (h.requests _).mpr ⟨hr, unmarked⟩, hr⟩

/-- An operation that is marked has no request. -/
theorem Keeps.gone (h : Keeps log b) {id : OperationId} {removedAt : Timestamp}
    (marked : (id, some removedAt) ∈ b.operations) : ∀ r ∈ b.requests, r.1 ≠ id := by
  rintro r hr rfl
  have hunmarked := ((h.requests r).mp hr).2
  have hdistinct : (b.operations.map (·.1)).Nodup := h.operations ▸ h.distinct
  cases List.inj_on_of_nodup_map hdistinct marked hunmarked rfl

end RequestShelf

/-! ## Every session -/

/-- A phase that sends the request of its operation. -/
def OperationPhase.sends : OperationPhase → Bool
  | .submission | .cancellation => true
  | .resultRetrieval | .withdrawal => false

/-- A session keeps what was staged in it, marks only what ended, and every claim that sends a
request shows the staged one. -/
structure RequestsKept (trace : List Entry) (s : Session) : Prop where
  keeps : s.requestShelf.Keeps (stagedRequests trace s.id)
  marked : ∀ o ∈ s.operations, o.requestRemovedAt ≠ none → o.status.terminal = true
  shown : ∀ claim ∈ operationClaims trace, claim.operation.sessionId = s.id →
    claim.phase.sends = true → ∃ request, claim.request = some request ∧
      (claim.operation.id, request) ∈ stagedRequests trace s.id

section

variable {codec : Codec} {clock : Clock} {trace : List Entry} {db : Db} {call : StoreCall}
  {reply : Reply} {s s' : Session}

theorem Session.mem_requestShelf {o : OperationRow} (ho : o ∈ s.operations) :
    (o.id, o.requestRemovedAt) ∈ s.requestShelf.operations :=
  List.mem_map_of_mem ho

/-- The request of operation `id` among the rows. -/
def requestOf (rows : List OperationRequestRow) (id : OperationId) : Option RawJson :=
  (rows.find? (·.operationId = id)).map (·.request)

/-- A request that is there is found. -/
theorem exists_requestOf {rows : List OperationRequestRow} {r : OperationRequestRow}
    (hr : r ∈ rows) : ∃ r' ∈ rows, r'.operationId = r.operationId ∧
      requestOf rows r.operationId = some r'.request := by
  have hsome : (rows.find? (·.operationId = r.operationId)).isSome = true :=
    List.find?_isSome.mpr ⟨r, hr, by simp⟩
  obtain ⟨r', hfind⟩ := Option.isSome_iff_exists.mp hsome
  have hid : r'.operationId = r.operationId := by simpa using List.find?_some hfind
  refine ⟨r', List.mem_of_find?_eq_some hfind, hid, ?_⟩
  rw [requestOf, hfind]
  rfl

theorem requestOf_eq_none {rows : List OperationRequestRow} {id : OperationId} :
    requestOf rows id = none ↔ ∀ r ∈ rows, r.operationId ≠ id := by
  simp [requestOf]

theorem RequestsKept.request_staged (h : RequestsKept trace s) {r : OperationRequestRow}
    (hr : r ∈ s.requests) : (r.operationId, r.request) ∈ stagedRequests trace s.id :=
  ((h.keeps.requests _).mp (List.mem_map.mpr ⟨r, hr, rfl⟩)).1

/-- An operation that is not marked has a request. -/
theorem RequestsKept.stored (h : RequestsKept trace s) {o : OperationRow} (ho : o ∈ s.operations)
    (unmarked : o.requestRemovedAt = none) : ∃ r ∈ s.requests, r.operationId = o.id := by
  have hmem : (o.id, none) ∈ s.requestShelf.operations := unmarked ▸ Session.mem_requestShelf ho
  obtain ⟨request, hstored, -⟩ := h.keeps.stored hmem
  obtain ⟨r, hr, heq⟩ := List.mem_map.mp hstored
  exact ⟨r, hr, congrArg Prod.fst heq⟩

/-- An operation that is marked has none. -/
theorem RequestsKept.gone (h : RequestsKept trace s) {o : OperationRow} (ho : o ∈ s.operations)
    (marked : o.requestRemovedAt ≠ none) : ∀ r ∈ s.requests, r.operationId ≠ o.id := by
  obtain ⟨removedAt, hremoved⟩ := Option.ne_none_iff_exists'.mp marked
  have hmem : (o.id, some removedAt) ∈ s.requestShelf.operations :=
    hremoved ▸ Session.mem_requestShelf ho
  exact fun r hr => h.keeps.gone hmem _ (List.mem_map.mpr ⟨r, hr, rfl⟩)

/-- A claimed operation has not ended. -/
theorem OperationRow.claimable_open {o : OperationRow} {phase : OperationPhase}
    (claimable : o.claimable clock phase = true) : o.status.terminal = false := by
  simp only [OperationRow.claimable, Bool.and_eq_true] at claimable
  have hstatus := OperationStep.eligible_status claimable.1.1
  rcases hstatus with h | h | h <;> rw [h] <;> rfl

theorem RequestsKept.claimed (h : RequestsKept trace s)
    (step : SessionStep codec clock db call reply s s') {claim : ClaimedOperation}
    (issued : reply = .claimedOperation (some claim)) (sends : claim.phase.sends = true) :
    ∃ request, claim.request = some request ∧
      (claim.operation.id, request) ∈ stagedRequests trace s.id := by
  cases step with
  | @claimOperation _ _ phase _ o leaseMs ho claimable =>
    cases issued
    have hunmarked : o.requestRemovedAt = none := by
      by_contra hmarked
      have hended := h.marked o ho hmarked
      rw [OperationRow.claimable_open claimable] at hended
      cases hended
    obtain ⟨r, hr, hid⟩ := h.stored ho hunmarked
    obtain ⟨r', hr', hid', hfound⟩ := exists_requestOf hr
    rw [hid] at hid' hfound
    have hstaged : (o.id, r'.request) ∈ stagedRequests trace s.id := hid' ▸ h.request_staged hr'
    refine ⟨r'.request, ?_, hstaged⟩
    cases phase with
    | submission | cancellation => exact hfound
    | resultRetrieval | withdrawal => cases sends
  | _ => cases issued

/-- An operation that ended before a transaction is there afterwards, ended. -/
theorem Ledger.Step.ended {base : Uuid} {staged : List OperationRow} {l l' : Ledger}
    (step : Ledger.Step base call reply staged l l')
    (unique : (l'.operations.map (·.id)).Nodup) {o : OperationRow} (ho : o ∈ l.operations)
    (finished : o.status.terminal = true) {o' : OperationRow} (ho' : o' ∈ l'.operations)
    (same : o'.id = o.id) : o'.status.terminal = true := by
  obtain ⟨o₁, ho₁, hstep⟩ := step.follows o ho
  have hsame : o₁ = o' := Table.eq_of_key unique ho₁ ho' (hstep.id_eq.trans same.symm)
  exact hsame ▸ (hstep.later.ended finished).1.symm ▸ finished

theorem requestsKept_step (registered : Registered trace db) (admissible : Admissible trace call)
    (step : SessionStep codec clock db call reply s s') (ledger : LedgerInvariant trace s)
    (h : RequestsKept trace s) : RequestsKept (trace ++ [⟨call, clock, reply⟩]) s' := by
  have hshelf := step.requestShelf
  have hlog : stagedRequests (trace ++ [⟨call, clock, reply⟩]) s'.id =
      stagedRequests trace s.id ++ call.stagedRequests := by
    rw [step.id_eq, stagedRequests_concat, step.staged]
  obtain ⟨staged, hledger, -⟩ := step.ledger_step ledger.sound fun claim hclaim =>
    ledger.known claim (admissible.operation claim hclaim)
  have hunique : (s'.operations.map (·.id)).Nodup :=
    (ledgerInvariant_step registered admissible step ledger).sound.unique
  refine ⟨hlog ▸ h.keeps.step hshelf, fun o' ho' hmarked => ?_, fun claim hclaim hid hsends => ?_⟩
  · obtain ⟨removedAt, hremoved⟩ := Option.ne_none_iff_exists'.mp hmarked
    have hmem : (o'.id, some removedAt) ∈ s'.requestShelf.operations :=
      hremoved ▸ Session.mem_requestShelf ho'
    rcases hshelf.marked hmem with hold | ⟨o, ho, hop, hover⟩
    · obtain ⟨o, ho, heq⟩ := List.mem_map.mp hold
      obtain ⟨hop, hremoved⟩ := Prod.mk.inj heq
      have hover := h.marked o ho (Option.ne_none_iff_exists'.mpr ⟨removedAt, hremoved⟩)
      exact hledger.ended hunique ho hover ho' hop.symm
    · exact hledger.ended hunique ho hover ho' hop.symm
  · rw [operationClaims_concat] at hclaim
    rw [hlog]
    have hshown : ∃ request, claim.request = some request ∧
        (claim.operation.id, request) ∈ stagedRequests trace s.id := by
      rcases List.mem_append.mp hclaim with hold | hnew
      · exact h.shown claim hold (hid.trans step.id_eq) hsends
      · have hissued := issuedOperationClaim_reply.mp (Option.mem_toList.mp hnew)
        exact h.claimed step hissued hsends
    obtain ⟨request, hrequest, hstaged⟩ := hshown
    exact ⟨request, hrequest, List.mem_append_left _ hstaged⟩

theorem requestsKept_rule (codec : Codec) :
    SessionRule codec fun trace s => LedgerInvariant trace s ∧ RequestsKept trace s where
  create trace clock session absent unclaimed := by
    refine ⟨(ledgerInvariant_rule codec).create trace clock session absent unclaimed, ?_⟩
    have hlog : stagedRequests (trace ++ [{
        call := .createSession session, clock
        reply := .session (Session.create clock session).record }]) session.id = [] := by
      have hnone : (commits trace).filter (·.1.sessionId = session.id) = [] :=
        List.filter_eq_nil_iff.mpr fun c hc => by simpa using absent c hc
      simp [stagedRequests, commits_concat, Entry.committed, hnone]
    refine ⟨?_, fun o ho => absurd ho List.not_mem_nil, fun claim hclaim hid => ?_⟩
    · have hid : (Session.create clock session).id = session.id := rfl
      rw [hid, hlog]
      exact .empty
    · rw [operationClaims_concat] at hclaim
      exact absurd hid (unclaimed claim (by simpa [Entry.issuedOperationClaim] using hclaim))
  step trace db call clock reply s s' registered admissible step h :=
    ⟨ledgerInvariant_step registered admissible step h.1,
      requestsKept_step registered admissible step h.1 h.2⟩
  foreign trace entry s foreign h := by
    refine ⟨(ledgerInvariant_rule codec).foreign trace entry s foreign h.1, ?_⟩
    have hlog : stagedRequests (trace ++ [entry]) s.id = stagedRequests trace s.id := by
      rw [stagedRequests_concat, foreign.staged, List.append_nil]
    refine ⟨hlog.symm ▸ h.2.keeps, h.2.marked, fun claim hclaim hid hsends => ?_⟩
    rw [operationClaims_concat] at hclaim
    rcases List.mem_append.mp hclaim with hold | hnew
    · exact hlog.symm ▸ h.2.shown claim hold hid hsends
    · exact absurd hid (foreign.operationClaim claim (Option.mem_toList.mp hnew))
  due trace s id f due h := by
    refine ⟨(ledgerInvariant_rule codec).due trace s id f due h.1, ?_⟩
    refine ⟨(s.requestShelf_due id due).symm ▸ h.2.keeps, fun o' ho' hmarked => ?_, h.2.shown⟩
    obtain ⟨o, ho, rfl⟩ := Table.mem_update.mp ho'
    by_cases hid : o.id = id
    · obtain ⟨t, -, hf⟩ := due o
      simp only [hid, decide_true, if_true, hf] at hmarked ⊢
      exact h.2.marked o ho hmarked
    · simp only [hid, decide_false, Bool.false_eq_true, if_false] at hmarked ⊢
      exact h.2.marked o ho hmarked

/-- Every session of every run keeps its requests. -/
theorem Run.requestsKept (run : Run codec trace db) (hs : s ∈ db.sessions) :
    RequestsKept trace s :=
  (run.forall_sessions (requestsKept_rule codec) s hs).2

/-! ## Reading a request -/

/-- `Store::operation_request`. -/
def Db.operationRequest (db : Db) (id : OperationId) : Option RawJson :=
  requestOf (db.sessions.flatMap (·.requests)) id

/-- A request is of the session of its operation. -/
theorem Run.request_owner (run : Run codec trace db) {t : Session} (hs : s ∈ db.sessions)
    (ht : t ∈ db.sessions) {o : OperationRow} (ho : o ∈ s.operations) {r : OperationRequestRow}
    (hr : r ∈ t.requests) (same : r.operationId = o.id) : t = s := by
  have hkeeps := (run.requestsKept ht).keeps
  have hmem : (r.operationId, r.request) ∈ t.requestShelf.requests :=
    List.mem_map.mpr ⟨r, hr, rfl⟩
  obtain ⟨o', ho', heq⟩ := List.mem_map.mp ((hkeeps.requests _).mp hmem).2
  exact run.operation_owner ht hs ho' ho ((congrArg Prod.fst heq).trans same)

/-- The request of an operation that is not marked is read as it was staged. -/
theorem Run.operationRequest_staged (run : Run codec trace db) (hs : s ∈ db.sessions)
    {o : OperationRow} (ho : o ∈ s.operations) (unmarked : o.requestRemovedAt = none) :
    ∃ request, db.operationRequest o.id = some request ∧
      (o.id, request) ∈ stagedRequests trace s.id := by
  have hkept := run.requestsKept hs
  obtain ⟨r, hr, hid⟩ := hkept.stored ho unmarked
  obtain ⟨r', hr', hid', hfound⟩ := exists_requestOf (List.mem_flatMap.mpr ⟨s, hs, hr⟩)
  obtain ⟨t, ht, hr'⟩ := List.mem_flatMap.mp hr'
  have howner := run.request_owner hs ht ho hr' (hid'.trans hid)
  subst howner
  rw [hid] at hid' hfound
  exact ⟨r'.request, hfound, hid' ▸ hkept.request_staged hr'⟩

/-- The request of an operation that is marked is not there. -/
theorem Run.operationRequest_gone (run : Run codec trace db) (hs : s ∈ db.sessions)
    {o : OperationRow} (ho : o ∈ s.operations) (marked : o.requestRemovedAt ≠ none) :
    db.operationRequest o.id = none := by
  refine requestOf_eq_none.mpr fun r hr hid => ?_
  obtain ⟨t, ht, hr⟩ := List.mem_flatMap.mp hr
  have howner := run.request_owner hs ht ho hr hid
  subst howner
  exact (run.requestsKept ht).gone ho marked r hr hid

/-! ## Cleanup in batches -/

/-- The candidates of `Store::delete_expired_operation_requests`, each with its session. -/
def Db.expiredRequests (db : Db) (clock : Clock) (limit : Int) :
    Result (List (OperationId × SessionId)) :=
  if limit < 1 ∨ 1000 < limit then .error (.invalidInput "limit must be between 1 and 1000")
  else
    let expired := db.sessions.flatMap fun s =>
      (s.requests.filter fun r => s.requestRemovable clock r.operationId).map fun r => (s, r)
    let ordered := expired.mergeSort fun c c' => c.2.expiresAt.getD 0 ≤ c'.2.expiresAt.getD 0
    .ok ((ordered.take limit.toNat).map fun (s, r) => (r.operationId, s.id))

/-- One round of `Store::delete_expired_operation_requests`: a transaction of its own, which waits
for the row of the session. -/
def Db.deleteExpiredRequest (db : Db) (clock : Clock) (candidate : OperationId × SessionId) :
    Result (Bool × Db) :=
  db.transact candidate.2 0 fun _ s => .ok (s.deleteExpiredOperationRequest clock candidate.1)

theorem Db.expiredRequests_mem {limit : Int} {candidates : List (OperationId × SessionId)}
    (h : db.expiredRequests clock limit = .ok candidates) {candidate : OperationId × SessionId}
    (hc : candidate ∈ candidates) :
    ∃ s ∈ db.sessions, s.id = candidate.2 ∧ ∃ o ∈ s.operations, o.id = candidate.1 := by
  unfold Db.expiredRequests at h
  split at h
  · cases h
  · cases h
    obtain ⟨⟨s, r⟩, hcandidate, rfl⟩ := List.mem_map.mp hc
    have hexpired := List.mem_mergeSort.mp (List.mem_of_mem_take hcandidate)
    obtain ⟨s', hs, hrow⟩ := List.mem_flatMap.mp hexpired
    obtain ⟨r', hr, heq⟩ := List.mem_map.mp hrow
    cases heq
    have hremovable := (List.mem_filter.mp hr).2
    simp only [Session.requestRemovable, Bool.and_eq_true, List.any_eq_true,
      decide_eq_true_eq] at hremovable
    obtain ⟨-, o, ho, hid, -⟩ := hremovable
    exact ⟨s, hs, rfl, o, ho, hid⟩

/-- A round of the batch is the deletion of one request, however long ago its candidate was read. -/
theorem Run.deleteExpiredRequest_eq (run : Run codec trace db) {limit : Int}
    {candidates : List (OperationId × SessionId)}
    (read : db.expiredRequests clock limit = .ok candidates) {candidate : OperationId × SessionId}
    (hc : candidate ∈ candidates) {trace' : List Entry} {db' : Db}
    (later : Continues codec trace db trace' db') (clock' : Clock) :
    db'.deleteExpiredRequest clock' candidate =
      db'.deleteExpiredOperationRequest clock' (fun _ => false) candidate.1 := by
  obtain ⟨s, hs, hsid, o, ho, hop⟩ := Db.expiredRequests_mem read hc
  obtain ⟨s', hs', hsid', o', ho', hlater⟩ := later.later run hs ho
  have hop' : o'.id = candidate.1 := hlater.id.trans hop
  have howner : db'.sessionOfOperation candidate.1 = some candidate.2 := by
    unfold Db.sessionOfOperation
    cases hfind : db'.sessions.find? fun s => s.operations.any (·.id = candidate.1) with
    | none =>
      have hnone := List.find?_eq_none.mp hfind s' hs'
      exact absurd (List.any_eq_true.mpr ⟨o', ho', by simpa using hop'⟩) hnone
    | some t =>
      have hany := List.find?_some hfind
      simp only [List.any_eq_true, decide_eq_true_eq] at hany
      obtain ⟨o'', ho'', hop''⟩ := hany
      have ht := List.mem_of_find?_eq_some hfind
      have hsame := (later.run run).operation_owner ht hs' ho'' ho' (hop''.trans hop'.symm)
      rw [hsame, Option.map_some, hsid', hsid]
  simp only [Db.deleteExpiredOperationRequest, howner, Bool.false_eq_true, if_false]
  rfl

end

end AgentPlatform.Store
