import AgentPlatform.Store.ReceiptSteps
import AgentPlatform.Store.Hints

/-!
# Callback receipts over runs

A gateway job is carried by one operation at most, from its acceptance on. So a receipt that was
matched stays matched with that operation, and what a step keeps of a receipt every run keeps.
-/

namespace AgentPlatform.Store

open Fallible

variable {codec : Codec} {clock : Clock} {trace : List Entry} {db : Db}

/-! ## The operation of a job -/

/-- An operation of the database carries the gateway job. -/
def Db.Carries (db : Db) (id : OperationId) (connection : GatewayConnectionId) (jobId : Uuid) :
    Prop :=
  ∃ s ∈ db.sessions, ∃ o ∈ s.operations, o.id = id ∧ o.mapsJob (some connection) jobId = true

theorem Db.Carries.of_found {connection : GatewayConnectionId} {jobId : Uuid} {id : OperationId}
    (h : db.operationOfJob connection jobId = some id) : db.Carries id connection jobId := by
  obtain ⟨o, hfound, rfl⟩ := Option.map_eq_some_iff.mp h
  obtain ⟨s, hs, ho⟩ := List.mem_flatMap.mp (List.mem_of_find?_eq_some hfound)
  have hmaps := List.find?_some hfound
  exact ⟨s, hs, o, ho, rfl, hmaps⟩

theorem Db.Carries.found {connection : GatewayConnectionId} {jobId : Uuid} {id : OperationId}
    (h : db.Carries id connection jobId) :
    ∃ id', db.operationOfJob connection jobId = some id' := by
  obtain ⟨s, hs, o, ho, rfl, hmaps⟩ := h
  cases hfound : db.operationOfJob connection jobId with
  | some id' => exact ⟨id', rfl⟩
  | none =>
    have hnone := List.find?_eq_none.mp (Option.map_eq_none_iff.mp hfound)
    exact absurd hmaps (hnone o (List.mem_flatMap.mpr ⟨s, hs, ho⟩))

theorem OperationRow.mapsJob_iff {o : OperationRow} {connection : GatewayConnectionId}
    {jobId : Uuid} : o.mapsJob (some connection) jobId = true ↔
      o.gatewayConnectionId = some connection ∧ o.gatewayJobId = some jobId := by
  simp [OperationRow.mapsJob]

/-- The job of an operation after a call is the one before, or the call recorded it. -/
theorem operationStep_maps {base : Uuid} {call : StoreCall} {reply : Reply} {v v' : OperationView}
    (step : OperationStep base call reply v v') {connection : GatewayConnectionId} {jobId : Uuid}
    (maps : v'.row.mapsJob (some connection) jobId = true) :
    v.row.mapsJob (some connection) jobId = true ∨
      v.row.gatewayConnectionId = some connection ∧ reply = .done ∧
        ∃ claim checkAt httpStatus, claim.operation.id = v.row.id ∧
          call = .recordOperationAccepted claim jobId checkAt httpStatus := by
  have hconnection : v'.row.gatewayConnectionId = v.row.gatewayConnectionId :=
    congrArg (·.gatewayConnectionId) step.effect
  rw [OperationRow.mapsJob_iff, hconnection] at maps
  rw [OperationRow.mapsJob_iff]
  obtain ⟨hsame, hjob⟩ := maps
  cases step with
  | same row running announced =>
    obtain ⟨-, -, -, -, -, -, hsamejob, -⟩ := OperationRow.essence_eq row
    exact .inl ⟨hsame, hsamejob ▸ hjob⟩
  | accepted now held phase submitting unmapped =>
    cases hjob
    exact .inr ⟨hsame, rfl, _, _, _, held.id, rfl⟩
  | claimed | deferred | retried | pendingResult | completed | withdrew | withdrawn =>
    exact .inl ⟨hsame, hjob⟩

/-- A job that is recorded was carried by no operation. -/
theorem Run.accepted_free (run : Run codec trace db) {claim : ClaimedOperation} {jobId : Uuid}
    {checkAt : Timestamp} {httpStatus : Option Int}
    (done : (exec codec clock db (.recordOperationAccepted claim jobId checkAt httpStatus)).1 = .done)
    {s : Session} (hs : s ∈ db.sessions) {o : OperationRow} (ho : o ∈ s.operations)
    (own : claim.operation.id = o.id) :
    ∀ t ∈ db.sessions, ∀ o' ∈ t.operations, o'.mapsJob o.gatewayConnectionId jobId = false := by
  simp only [exec] at done
  cases hresult : db.recordOperationAccepted clock claim jobId checkAt httpStatus with
  | error error =>
    rw [hresult] at done
    cases done
  | ok result =>
    obtain ⟨answer, db'⟩ := result
    simp only [Db.recordOperationAccepted] at hresult
    obtain ⟨s₁, s₂, hs₁, hid, hbody, -⟩ := Db.transact_ok hresult
    obtain ⟨o₁, held, -, -, unmapped, -, -⟩ := Session.recordOperationAccepted_ok hbody
    -- the session that the call locks is the one of the operation
    have hown : o₁.id = o.id := held.id_eq.trans own
    cases run.operation_owner hs₁ hs held.mem ho hown
    cases Table.eq_of_key (run.ledgerInvariant hs).sound.unique held.mem ho hown
    obtain ⟨current, -, hrest⟩ := bind_ok hbody
    split at hrest
    · cases hrest
    split at hrest
    · cases hrest
    next hfree =>
    rw [List.any_eq_true] at hfree
    intro t ht o' ho'
    by_contra hmaps
    rw [Bool.not_eq_false] at hmaps
    refine hfree ⟨o, ho, ?_⟩
    rw [Bool.and_eq_true, Bool.or_eq_true, decide_eq_true_eq]
    refine ⟨own.symm, ?_⟩
    by_cases hsession : t.id = s.id
    · cases Table.eq_of_key run.registered.unique ht hs hsession
      refine .inr (List.any_eq_true.mpr ⟨o', ho', ?_⟩)
      rw [Bool.and_eq_true, decide_eq_true_eq]
      refine ⟨fun hsame => ?_, hmaps⟩
      cases Table.eq_of_key (run.ledgerInvariant hs).sound.unique ho' ho hsame
      simp [OperationRow.mapsJob, unmapped] at hmaps
    · refine .inl (List.any_eq_true.mpr ⟨t, ?_, List.any_eq_true.mpr ⟨o', ho', hmaps⟩⟩)
      exact List.mem_filter.mpr ⟨ht, decide_eq_true (hid ▸ hsession)⟩

/-- An operation that carries a job carries it after any call. -/
theorem Run.carries_forward (run : Run codec trace db) {call : StoreCall}
    (admissible : Admissible trace call) (clock : Clock) {id : OperationId}
    {connection : GatewayConnectionId} {jobId : Uuid} (h : db.Carries id connection jobId) :
    (exec codec clock db call).2.Carries id connection jobId := by
  obtain ⟨s, hs, o, ho, rfl, hmaps⟩ := h
  obtain ⟨owner, hstep⟩ := run.operations_step admissible clock
  obtain ⟨s', hs', -, o', ho', hop⟩ := hstep.forward s hs o ho
  refine ⟨s', hs', o', ho', hop.id_eq, ?_⟩
  obtain ⟨hconnection, hjob⟩ := OperationRow.mapsJob_iff.mp hmaps
  have hsame : o'.gatewayConnectionId = o.gatewayConnectionId :=
    congrArg (·.gatewayConnectionId) hop.effect
  exact OperationRow.mapsJob_iff.mpr ⟨hsame.trans hconnection, hop.later.mapped jobId hjob⟩

/-- An operation that carries a job carried it before a call, or no operation did and the call
recorded it. -/
theorem Run.carries_back (run : Run codec trace db) {call : StoreCall}
    (admissible : Admissible trace call) (clock : Clock) {id : OperationId}
    {connection : GatewayConnectionId} {jobId : Uuid}
    (h : (exec codec clock db call).2.Carries id connection jobId) :
    db.Carries id connection jobId ∨
      (∀ id', ¬ db.Carries id' connection jobId) ∧
        ∃ claim, call.operationClaim = some claim ∧ claim.operation.id = id := by
  obtain ⟨s', hs', o', ho', rfl, hmaps⟩ := h
  obtain ⟨owner, hstep⟩ := run.operations_step admissible clock
  rcases hstep.back s' hs' o' ho' with ⟨s, hs, -, o, ho, hop⟩ | ⟨-, fresh, -⟩
  · rcases operationStep_maps hop hmaps with hold |
      ⟨hconnection, hdone, claim, checkAt, httpStatus, hown, rfl⟩
    · exact .inl ⟨s, hs, o, ho, hop.id_eq.symm, hold⟩
    · refine .inr ⟨?_, claim, rfl, hown.trans hop.id_eq.symm⟩
      rintro id' ⟨t, ht, o₁, ho₁, rfl, hmaps₁⟩
      have hfree := run.accepted_free hdone hs ho hown t ht o₁ ho₁
      have hconnection : o.gatewayConnectionId = some connection := hconnection
      rw [hconnection, hmaps₁] at hfree
      cases hfree
  · have hjob := (OperationRow.mapsJob_iff.mp hmaps).2
    cases fresh.job.symm.trans hjob

/-- A gateway job is carried by one operation at most. -/
theorem Run.carries_unique (run : Run codec trace db) {id id' : OperationId}
    {connection : GatewayConnectionId} {jobId : Uuid} (h : db.Carries id connection jobId)
    (h' : db.Carries id' connection jobId) : id = id' := by
  induction run with
  | start =>
    obtain ⟨s, hs, -⟩ := h
    exact absurd hs List.not_mem_nil
  | step call clock run admissible ih =>
    rcases run.carries_back admissible clock h with hold | ⟨hnone, claim, hcall, hown⟩
    · rcases run.carries_back admissible clock h' with hold' | ⟨hnone', -⟩
      · exact ih hold hold'
      · exact absurd hold (hnone' id)
    · rcases run.carries_back admissible clock h' with hold' | ⟨-, claim', hcall', hown'⟩
      · exact absurd hold' (hnone id')
      · cases hcall.symm.trans hcall'
        exact hown.symm.trans hown'

theorem Run.found_iff (run : Run codec trace db) {id : OperationId}
    {connection : GatewayConnectionId} {jobId : Uuid} :
    db.operationOfJob connection jobId = some id ↔ db.Carries id connection jobId := by
  refine ⟨.of_found, fun h => ?_⟩
  obtain ⟨id', hfound⟩ := h.found
  rw [hfound, run.carries_unique h (.of_found hfound)]

/-- The operation of a job is found by every later call. -/
theorem Run.finds (run : Run codec trace db) {call : StoreCall}
    (admissible : Admissible trace call) (clock : Clock) {id : OperationId}
    {connection : GatewayConnectionId} {jobId : Uuid}
    (h : db.operationOfJob connection jobId = some id) :
    (exec codec clock db call).2.operationOfJob connection jobId = some id :=
  (run.step call clock admissible).found_iff.mpr (run.carries_forward admissible clock (.of_found h))

/-! ## What every run keeps of its receipts -/

/-- A receipt was matched with an operation under a claim. -/
def Entry.Matched (entry : Entry) (claim : ClaimedCallbackReceipt) (id : OperationId) : Prop :=
  (∃ retryAt, entry.call = .matchCallbackReceipt claim retryAt) ∧ entry.reply = .matched (some id)

/-- Receipts of different ids and of different gateway events, each sound, and matched as the run
answered. -/
structure ReceiptsSound (trace : List Entry) (db : Db) : Prop where
  unique : (db.receipts.map (·.id)).Nodup
  drawn : ∀ r ∈ db.receipts, r.id < db.nextUuid
  events : ∀ r ∈ db.receipts, ∀ r' ∈ db.receipts,
    r.gatewayConnectionId = r'.gatewayConnectionId → r.gatewayEventId = r'.gatewayEventId → r = r'
  sound : ∀ r ∈ db.receipts, r.Sound db
  matched : ∀ entry ∈ trace, ∀ claim id, entry.Matched claim id →
    ∃ r ∈ db.receipts, r.id = claim.receipt.id ∧ r.operationId = some id

theorem exec_uuids (codec : Codec) (clock : Clock) (unique : (db.sessions.map (·.id)).Nodup)
    (call : StoreCall) : db.nextUuid ≤ (exec codec clock db call).2.nextUuid := by
  have hstep := exec_cases codec clock unique call
  generalize (exec codec clock db call).1 = reply at hstep
  generalize (exec codec clock db call).2 = db' at hstep ⊢
  cases hstep with
  | quiet sessions uuids quiet => exact uuids
  | create created fresh sessions uuids => exact Nat.le_of_eq uuids.symm
  | session found step => exact Nat.le_add_right _ _
  | due id f due quiet sessions uuids => exact Nat.le_of_eq uuids.symm

theorem exec_match_answer {claim : ClaimedCallbackReceipt} {retryAt : Timestamp} {id : OperationId}
    (h : (exec codec clock db (.matchCallbackReceipt claim retryAt)).1 = .matched (some id)) :
    ∃ r ∈ (exec codec clock db (.matchCallbackReceipt claim retryAt)).2.receipts,
      r.id = claim.receipt.id ∧ r.operationId = some id := by
  simp only [exec] at h ⊢
  cases hresult : db.matchCallbackReceipt clock claim retryAt with
  | error error =>
    rw [hresult] at h
    cases h
  | ok result =>
    rw [hresult] at h
    obtain ⟨r, hlock, hrest⟩ := bind_ok hresult
    obtain ⟨hr, held⟩ := Db.held_of_lock hlock
    cases hrest
    have hfound : db.operationOfJob r.gatewayConnectionId r.gatewayJobId = some id := by
      injection h
    refine ⟨_, Table.mem_update.mpr ⟨r, hr, if_pos (decide_eq_true held.id.symm)⟩, ?_, ?_⟩
    · exact held.id.symm
    · exact hfound

namespace ReceiptsSound

variable {call : StoreCall}

/-- A receipt has a later form after any call. -/
theorem forward (h : ReceiptsSound trace db) {r : CallbackReceiptRow} (hr : r ∈ db.receipts) :
    ∃ r' ∈ (exec codec clock db call).2.receipts, r.Later r' := by
  obtain ⟨r', hr', step⟩ := (exec_receipts codec clock h.unique call).forward hr
  exact ⟨r', hr', step.later (h.sound r hr)⟩

theorem step (h : ReceiptsSound trace db) (run : Run codec trace db)
    (admissible : Admissible trace call) :
    ReceiptsSound (trace ++ [⟨call, clock, (exec codec clock db call).1⟩])
      (exec codec clock db call).2 := by
  have hstep := exec_receipts codec clock h.unique call
  have huuids := exec_uuids codec clock run.registered.unique call
  have finds : ∀ connection jobId id, db.operationOfJob connection jobId = some id →
      (exec codec clock db call).2.operationOfJob connection jobId = some id :=
    fun _ _ _ hfound => run.finds admissible clock hfound
  have unique : ((exec codec clock db call).2.receipts.map (·.id)).Nodup := by
    cases hstep with
    | rewritten g rows steps =>
      have hids : (db.receipts.map g).map (·.id) = db.receipts.map (·.id) := by
        rw [List.map_map]
        exact List.map_congr_left fun r hr => ((steps r hr).later (h.sound r hr)).id
      rw [rows, hids]
      exact h.unique
    | received r rows uuids received =>
      rw [rows, List.map_append, List.nodup_append]
      refine ⟨h.unique, List.nodup_singleton _, ?_⟩
      intro x hx y hy heq
      obtain ⟨r₀, hr₀, rfl⟩ := List.mem_map.mp hx
      have hnew : r₀.id = r.id := heq.trans (List.mem_singleton.mp hy)
      exact Nat.ne_of_lt (h.drawn r₀ hr₀) (hnew.trans received.id)
  refine ⟨unique, ?_, ?_, ?_, ?_⟩
  · intro r' hr'
    rcases hstep.back hr' with ⟨r, hr, step⟩ | ⟨received, uuids⟩
    · rw [(step.later (h.sound r hr)).id]
      exact Nat.lt_of_lt_of_le (h.drawn r hr) huuids
    · rw [received.id]
      exact uuids
  · intro r₁ hr₁ r₂ hr₂ hconnection hevent
    refine Table.eq_of_key unique hr₁ hr₂ ?_
    rcases hstep.back hr₁ with ⟨a₁, ha₁, step₁⟩ | ⟨received₁, -⟩
    · have later₁ := step₁.later (h.sound a₁ ha₁)
      rcases hstep.back hr₂ with ⟨a₂, ha₂, step₂⟩ | ⟨received₂, -⟩
      · have later₂ := step₂.later (h.sound a₂ ha₂)
        have hsame : a₁ = a₂ := h.events a₁ ha₁ a₂ ha₂
          (later₁.connection.symm.trans (hconnection.trans later₂.connection))
          (later₁.event.symm.trans (hevent.trans later₂.event))
        rw [later₁.id, later₂.id, hsame]
      · exact absurd (later₁.event.symm.trans hevent)
          (received₂.new a₁ ha₁ (later₁.connection.symm.trans hconnection))
    · rcases hstep.back hr₂ with ⟨a₂, ha₂, step₂⟩ | ⟨received₂, -⟩
      · have later₂ := step₂.later (h.sound a₂ ha₂)
        exact absurd (later₂.event.symm.trans hevent.symm)
          (received₁.new a₂ ha₂ (later₂.connection.symm.trans hconnection.symm))
      · rw [received₁.id, received₂.id]
  · intro r' hr'
    rcases hstep.back hr' with ⟨r, hr, step⟩ | ⟨received, -⟩
    · exact step.sound (h.sound r hr) finds
    · refine ⟨⟨fun hleased => ?_, fun hprocessing => ?_⟩, fun id hid => ?_⟩
      · rw [received.lease] at hleased
        cases hleased
      · cases received.status.symm.trans hprocessing
      · cases received.operation.symm.trans hid
  · intro entry hentry claim id hmatched
    rcases List.mem_append.mp hentry with hold | hnew
    · obtain ⟨r, hr, hid, hoperation⟩ := h.matched entry hold claim id hmatched
      obtain ⟨r', hr', later⟩ :
          ∃ r' ∈ (exec codec clock db call).2.receipts, r.Later r' := h.forward hr
      exact ⟨r', hr', later.id.trans hid, later.operation id hoperation⟩
    · cases List.mem_singleton.mp hnew
      obtain ⟨⟨retryAt, hcall⟩, hreply⟩ := hmatched
      cases hcall
      exact exec_match_answer hreply

end ReceiptsSound

theorem Run.receiptsSound (run : Run codec trace db) : ReceiptsSound trace db := by
  induction run with
  | start =>
    refine ⟨List.nodup_nil, ?_, ?_, ?_, ?_⟩
    · intro r hr
      cases hr
    · intro r hr
      cases hr
    · intro r hr
      cases hr
    · intro entry hentry
      cases hentry
  | step call clock run admissible ih => exact ih.step run admissible

/-- A receipt is there in every continuation, and nothing of its end is taken back. -/
theorem Continues.receipt {trace' : List Entry} {db' : Db}
    (h : Continues codec trace db trace' db') (run : Run codec trace db) {r : CallbackReceiptRow}
    (hr : r ∈ db.receipts) : ∃ r' ∈ db'.receipts, r.Later r' := by
  induction h with
  | refl => exact ⟨r, hr, .refl r⟩
  | step call clock before admissible ih =>
    obtain ⟨r₁, hr₁, later₁⟩ := ih
    obtain ⟨r₂, hr₂, later₂⟩ := (before.run run).receiptsSound.forward hr₁
    exact ⟨r₂, hr₂, later₁.trans later₂⟩

/-! ## Settling a receipt -/

end AgentPlatform.Store
