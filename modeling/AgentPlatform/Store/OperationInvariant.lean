import AgentPlatform.Store.InboxInvariant
import AgentPlatform.Store.LedgerSteps

/-!
# The operation invariant

Along every run the ledger of every session is sound, and a claim that was ever issued knows its
operation. Operations have different ids across sessions, so that an id names one session; and what
ended, or was mapped to a gateway job, stays so in every continuation of the run.
-/

namespace AgentPlatform.Store

open Ledger

/-! ## Every session -/

/-- The ledger of a session is sound, and its claims and attempts are those of the run. -/
structure LedgerInvariant (trace : List Entry) (s : Session) : Prop where
  sound : s.ledger.Sound
  known : ∀ claim ∈ operationClaims trace, claim.operation.sessionId = s.id → s.ledger.Knows claim
  issued : ∀ a ∈ s.ledger.attempts, ∃ claim ∈ operationClaims trace, claim.leaseToken = a.leaseToken

/-- The claim that an entry issued, read off its reply. -/
theorem issuedOperationClaim_reply {call : StoreCall} {clock : Clock} {reply : Reply}
    {claim : ClaimedOperation} :
    claim ∈ Entry.issuedOperationClaim ⟨call, clock, reply⟩ ↔
      reply = .claimedOperation (some claim) := by
  cases reply with
  | claimedOperation claimed => exact ⟨fun h => by cases h; rfl, fun h => by cases h; rfl⟩
  | _ => exact ⟨fun h => absurd h (Option.not_mem_none claim), fun h => by cases h⟩

theorem ledgerInvariant_step {codec : Codec} {clock : Clock} {trace : List Entry} {db : Db}
    {call : StoreCall} {reply : Reply} {s s' : Session} (registered : Registered trace db)
    (admissible : Admissible trace call) (step : SessionStep codec clock db call reply s s')
    (h : LedgerInvariant trace s) : LedgerInvariant (trace ++ [⟨call, clock, reply⟩]) s' := by
  obtain ⟨staged, hstep, hstages⟩ := step.ledger_step h.sound fun claim hclaim =>
    h.known claim (admissible.operation claim hclaim)
  refine ⟨hstep.sound h.sound hstages.distinct hstages.fresh, ?_, ?_⟩
  · intro claim hclaim hid
    rw [operationClaims_concat] at hclaim
    rcases List.mem_append.mp hclaim with hold | hnew
    · refine hstep.knows (h.known claim hold (hid.trans step.id_eq)) ?_
      exact Nat.ne_of_lt (registered.operationTokens claim hold)
    · refine hstep.knows_issued (issuedOperationClaim_reply.mp (Option.mem_toList.mp hnew)) ?_
      intro a ha
      obtain ⟨claim', hclaim', htoken⟩ := h.issued a ha
      exact htoken ▸ Nat.ne_of_lt (registered.operationTokens claim' hclaim')
  · intro a ha
    rw [operationClaims_concat]
    rcases hstep.attempts a ha with ⟨a₀, ha₀, -, htoken⟩ | ⟨htoken, claim, hreply, -⟩
    · obtain ⟨claim, hclaim, heq⟩ := h.issued a₀ ha₀
      exact ⟨claim, List.mem_append_left _ hclaim, heq.trans htoken.symm⟩
    · refine ⟨claim, List.mem_append_right _ ?_, (hstep.issued claim hreply).1.trans htoken.symm⟩
      exact Option.mem_toList.mpr (issuedOperationClaim_reply.mpr hreply)

/-- An operation that becomes due is otherwise the same. -/
theorem Session.due_step {base : Uuid} {call : StoreCall} (s : Session) (id : OperationId)
    {f : OperationRow → OperationRow} (due : ∀ o, ∃ t ≤ o.nextAttemptAt, f o = o.due t) :
    Ledger.Step base call .done [] s.ledger (s.updateOperations (·.id = id) f).ledger := by
  refine Ledger.step_touch rfl (fun o => ?_) rfl rfl fun _ hreply => by cases hreply
  obtain ⟨t, -, ht⟩ := due o
  rw [ht]
  rfl

theorem ledgerInvariant_rule (codec : Codec) : SessionRule codec LedgerInvariant where
  create trace clock session absent unclaimed := by
    refine ⟨⟨List.nodup_nil, ?_, ?_, ?_⟩, ?_, ?_⟩
    · exact fun o ho => absurd ho List.not_mem_nil
    · exact fun a ha => absurd ha List.not_mem_nil
    · exact fun c hc => absurd hc List.not_mem_nil
    · intro claim hclaim hid
      rw [operationClaims_concat] at hclaim
      exact absurd hid (unclaimed claim (by simpa [Entry.issuedOperationClaim] using hclaim))
    · exact fun a ha => absurd ha List.not_mem_nil
  step trace db call clock reply s s' registered admissible step h :=
    ledgerInvariant_step registered admissible step h
  foreign trace entry s foreign h := by
    refine ⟨h.sound, fun claim hclaim hid => ?_, fun a ha => ?_⟩
    · rw [operationClaims_concat] at hclaim
      rcases List.mem_append.mp hclaim with hold | hnew
      · exact h.known claim hold hid
      · exact absurd hid (foreign.operationClaim claim (Option.mem_toList.mp hnew))
    · obtain ⟨claim, hclaim, heq⟩ := h.issued a ha
      exact ⟨claim, by rw [operationClaims_concat]; exact List.mem_append_left _ hclaim, heq⟩
  due trace s id f due h := by
    have hstep (base : Uuid) : Ledger.Step base (.pruneUpdates s.id 0) .done [] s.ledger
        (s.updateOperations (·.id = id) f).ledger := Session.due_step s id due
    refine ⟨?_, fun claim hclaim hid => ?_, h.issued⟩
    · exact (hstep 0).sound h.sound List.nodup_nil fun _ ho => absurd ho List.not_mem_nil
    · exact (hstep (claim.leaseToken + 1)).knows (h.known claim hclaim hid) (Nat.ne_of_lt (Nat.lt_succ_self _))

/-- Every session of every run satisfies the operation invariant. -/
theorem Run.ledgerInvariant {codec : Codec} {trace : List Entry} {db : Db}
    (run : Run codec trace db) {s : Session} (hs : s ∈ db.sessions) : LedgerInvariant trace s :=
  run.forall_sessions (ledgerInvariant_rule codec) s hs

/-! ## The operations of a database -/

/-- What one call makes of the operations of a database: each takes a step, and new ones, of ids
that no operation had, are all staged in the session `owner`. -/
structure Db.OperationsStep (db : Db) (call : StoreCall) (reply : Reply) (owner : SessionId)
    (db' : Db) : Prop where
  forward : ∀ s ∈ db.sessions, ∀ o ∈ s.operations, ∃ s' ∈ db'.sessions, s'.id = s.id ∧
    ∃ o' ∈ s'.operations,
      OperationStep db.nextUuid call reply (s.ledger.view o) (s'.ledger.view o')
  back : ∀ s' ∈ db'.sessions, ∀ o' ∈ s'.operations,
    (∃ s ∈ db.sessions, s.id = s'.id ∧ ∃ o ∈ s.operations,
      OperationStep db.nextUuid call reply (s.ledger.view o) (s'.ledger.view o')) ∨
    s'.id = owner ∧ o'.Fresh ∧ ∀ s ∈ db.sessions, ∀ o ∈ s.operations, o.id ≠ o'.id

/-- A call that leaves every session, or adds one without operations. -/
theorem Db.OperationsStep.of_mem {db db' : Db} {call : StoreCall} {reply : Reply}
    (kept : ∀ s ∈ db.sessions, s ∈ db'.sessions)
    (added : ∀ s ∈ db'.sessions, s ∈ db.sessions ∨ s.operations = []) (owner : SessionId) :
    db.OperationsStep call reply owner db' where
  forward s hs o ho := ⟨s, kept s hs, rfl, o, ho, .same rfl rfl rfl⟩
  back s' hs' o' ho' := by
    rcases added s' hs' with hold | hnone
    · exact .inl ⟨s', hold, rfl, o', ho', .same rfl rfl rfl⟩
    · rw [hnone] at ho'
      exact absurd ho' List.not_mem_nil

/-- Every call of a run steps the operations of the database. -/
theorem Run.operations_step {codec : Codec} {trace : List Entry} {db : Db}
    (run : Run codec trace db) {call : StoreCall} (admissible : Admissible trace call)
    (clock : Clock) :
    ∃ owner, db.OperationsStep call (exec codec clock db call).1 owner
      (exec codec clock db call).2 := by
  have registered := run.registered
  have hstep := exec_cases codec clock registered.unique call
  generalize (exec codec clock db call).1 = reply at hstep ⊢
  generalize (exec codec clock db call).2 = db' at hstep ⊢
  cases hstep with
  | quiet sessions uuids quiet =>
    exact ⟨0, .of_mem (fun s hs => sessions ▸ hs) (fun s hs => .inl (sessions ▸ hs)) 0⟩
  | create created fresh sessions uuids =>
    refine ⟨0, .of_mem (fun s hs => ?_) (fun s hs => ?_) 0⟩
    · rw [sessions]
      exact List.mem_append_left _ hs
    · rw [sessions] at hs
      rcases List.mem_append.mp hs with hold | hnew
      · exact .inl hold
      · rw [List.mem_singleton.mp hnew]
        exact .inr rfl
  | @session _ s s' found step =>
    have hinvariant := run.ledgerInvariant found
    obtain ⟨staged, hledger, hstages⟩ := step.ledger_step hinvariant.sound fun claim hclaim =>
      hinvariant.known claim (admissible.operation claim hclaim)
    have hunique := (hledger.sound hinvariant.sound hstages.distinct hstages.fresh).unique
    have hput : s' ∈ (db.put s').sessions :=
      Db.mem_put.mpr (.inl ⟨rfl, s, found, step.id_eq.symm⟩)
    refine ⟨s.id, fun t ht o ho => ?_, fun t' ht' o' ho' => ?_⟩
    · by_cases hid : t.id = s.id
      · have := Table.eq_of_key registered.unique ht found hid
        subst this
        obtain ⟨o', ho', hop⟩ := hledger.follows o ho
        exact ⟨s', hput, step.id_eq, o', ho', hop⟩
      · have hother : t.id ≠ s'.id := step.id_eq ▸ hid
        exact ⟨t, Db.mem_put.mpr (.inr ⟨ht, hother⟩), rfl, o, ho, .same rfl rfl rfl⟩
    · rcases Db.mem_put.mp ht' with ⟨rfl, -⟩ | ⟨hold, hother⟩
      · rcases hledger.back hunique ho' with ⟨o, ho, hop⟩ | hnew
        · exact .inl ⟨s, found, step.id_eq.symm, o, ho, hop⟩
        · refine .inr ⟨step.id_eq, (hledger.staged o' hnew).2, fun t ht o ho => ?_⟩
          by_cases hid : t.id = s.id
          · have := Table.eq_of_key registered.unique ht found hid
            subst this
            exact hstages.fresh o' hnew o ho
          · exact hstages.elsewhere o' hnew t ht hid o ho
      · exact .inl ⟨t', hold, rfl, o', ho', .same rfl rfl rfl⟩
  | due id f due quiet sessions uuids =>
    have hdue (s : Session) : Ledger.Step db.nextUuid call .done [] s.ledger
        (s.updateOperations (·.id = id) f).ledger := Session.due_step s id due
    refine ⟨0, fun s hs o ho => ?_, fun s' hs' o' ho' => ?_⟩
    · obtain ⟨o', ho', hop⟩ := (hdue s).follows o ho
      refine ⟨s.updateOperations (·.id = id) f, ?_, rfl, o', ho', hop⟩
      rw [sessions]
      exact List.mem_map.mpr ⟨s, hs, rfl⟩
    · rw [sessions] at hs'
      obtain ⟨s, hs, rfl⟩ := List.mem_map.mp hs'
      have hunique := ((hdue s).sound (run.ledgerInvariant hs).sound List.nodup_nil fun _ ho =>
        absurd ho List.not_mem_nil).unique
      rcases (hdue s).back hunique ho' with ⟨o, ho, hop⟩ | hnew
      · exact .inl ⟨s, hs, rfl, o, ho, hop⟩
      · exact absurd hnew List.not_mem_nil

/-- An operation id names one session. -/
theorem Run.operation_owner {codec : Codec} {trace : List Entry} {db : Db}
    (run : Run codec trace db) {s t : Session} (hs : s ∈ db.sessions) (ht : t ∈ db.sessions)
    {o o' : OperationRow} (ho : o ∈ s.operations) (ho' : o' ∈ t.operations) (heq : o.id = o'.id) :
    s = t := by
  induction run generalizing s t o o' with
  | start => exact absurd hs List.not_mem_nil
  | step call clock run admissible ih =>
    obtain ⟨owner, hstep⟩ := run.operations_step admissible clock
    have hunique := (Run.step call clock run admissible).registered.unique
    refine Table.eq_of_key hunique hs ht ?_
    rcases hstep.back s hs o ho with ⟨s₀, hs₀, hsid, o₀, ho₀, hop⟩ | ⟨howner, -, hfresh⟩
    · rcases hstep.back t ht o' ho' with ⟨t₀, ht₀, htid, o₀', ho₀', hop'⟩ | ⟨-, -, hfresh⟩
      · have := ih hs₀ ht₀ ho₀ ho₀' (hop.id_eq.symm.trans (heq.trans hop'.id_eq))
        rw [← hsid, ← htid, this]
      · exact absurd (hop.id_eq.symm.trans heq) (hfresh s₀ hs₀ o₀ ho₀)
    · rcases hstep.back t ht o' ho' with ⟨t₀, ht₀, htid, o₀', ho₀', hop'⟩ | ⟨howner', -, -⟩
      · exact absurd (hop'.id_eq.symm.trans heq.symm) (hfresh t₀ ht₀ o₀' ho₀')
      · rw [howner, howner']

/-! ## Afterwards -/

/-- The run `trace'` continues the run `trace`. -/
inductive Continues (codec : Codec) (trace : List Entry) (db : Db) : List Entry → Db → Prop
  | refl : Continues codec trace db trace db
  | step {trace' : List Entry} {db' : Db} (call : StoreCall) (clock : Clock)
      (before : Continues codec trace db trace' db') (admissible : Admissible trace' call) :
      Continues codec trace db (trace' ++ [⟨call, clock, (exec codec clock db' call).1⟩])
        (exec codec clock db' call).2

theorem Continues.run {codec : Codec} {trace trace' : List Entry} {db db' : Db}
    (h : Continues codec trace db trace' db') (run : Run codec trace db) : Run codec trace' db' := by
  induction h with
  | refl => exact run
  | step call clock before admissible ih => exact .step call clock ih admissible

/-- An operation is there in every continuation, and nothing of its end is taken back. -/
theorem Continues.later {codec : Codec} {trace trace' : List Entry} {db db' : Db}
    (h : Continues codec trace db trace' db') (run : Run codec trace db) {s : Session}
    (hs : s ∈ db.sessions) {o : OperationRow} (ho : o ∈ s.operations) :
    ∃ s' ∈ db'.sessions, s'.id = s.id ∧ ∃ o' ∈ s'.operations, o.Later o' := by
  induction h with
  | refl => exact ⟨s, hs, rfl, o, ho, .refl o⟩
  | step call clock before admissible ih =>
    obtain ⟨s₁, hs₁, hid₁, o₁, ho₁, hlater₁⟩ := ih
    obtain ⟨owner, hstep⟩ := (before.run run).operations_step admissible clock
    obtain ⟨s₂, hs₂, hid₂, o₂, ho₂, hop⟩ := hstep.forward s₁ hs₁ o₁ ho₁
    exact ⟨s₂, hs₂, hid₂.trans hid₁, o₂, ho₂, hlater₁.trans hop.later⟩

/-! ## In terms of the tables -/

/-- The completion events of an operation in a session. -/
def Session.completionEvents (s : Session) (id : OperationId) : List EventRow :=
  s.events.filter fun e => e.eventType = .operationCompleted && e.operationId == some id

/-- The attempts of an operation that run. -/
def Session.runningOperationAttempts (s : Session) (id : OperationId) : List OperationAttemptRow :=
  s.operationAttempts.filter fun a => a.operationId = id && a.status = .running

/-- An operation whose events and attempts agree with its status, in session `s`. -/
structure Db.OperationSettled (db : Db) (s : Session) (o : OperationRow) : Prop where
  /-- An accepted operation has its gateway job. -/
  accepted : o.status = .accepted → ∃ jobId, o.gatewayJobId = some jobId
  /-- It has one completion event when it ended and none otherwise, in its own session. -/
  completed : (s.completionEvents o.id).map (·.payload) =
    if o.status.terminal then [operationPayload o.id o.kind o.status] else []
  elsewhere : ∀ t ∈ db.sessions, t.id ≠ s.id → t.completionEvents o.id = []
  /-- It is leased exactly when one attempt runs, under the token of the lease. -/
  leased : (∃ lease, o.lease = some lease) ↔
    ∃ a, s.runningOperationAttempts o.id = [a] ∧ o.lease.map (·.token) = some a.leaseToken
  free : o.lease = none → s.runningOperationAttempts o.id = []

/-- The payloads that a view announces are those of the completion events. -/
theorem Session.announced_view (s : Session) (o : OperationRow) :
    (s.ledger.view o).announced = (s.completionEvents o.id).map (·.payload) := by
  have hannounced : (s.ledger.view o).announced =
      (s.events.filterMap (·.completion)).filterMap (announces o.id) := rfl
  rw [hannounced, List.filterMap_filterMap, Session.completionEvents]
  generalize s.events = events
  induction events with
  | nil => rfl
  | cons e events ih =>
    rw [List.filterMap_cons, List.filter_cons, ih]
    by_cases htype : e.eventType = .operationCompleted <;>
      by_cases hid : e.operationId = some o.id <;>
        simp [EventRow.completion, announces, htype, hid]

/-- The life of an operation: it ends once, maps to one gateway job, and tells its end once. -/
theorem operation_lifecycle {codec : Codec} {trace : List Entry} {db : Db}
    (run : Run codec trace db) :
    (∀ s ∈ db.sessions, ∀ o ∈ s.operations, db.OperationSettled s o) ∧
      ∀ (trace' : List Entry) (db' : Db), Continues codec trace db trace' db' →
        ∀ s ∈ db.sessions, ∀ o ∈ s.operations, ∃ s' ∈ db'.sessions, s'.id = s.id ∧
          ∃ o' ∈ s'.operations, o.Later o' := by
  refine ⟨fun s hs o ho => ?_, fun trace' db' continues s hs o ho => continues.later run hs ho⟩
  have hsound := (run.ledgerInvariant hs).sound.views o ho
  have hrunning : (s.runningOperationAttempts o.id).map (·.leaseToken) =
      (o.lease.map (·.token)).toList := hsound.running
  refine
    { accepted := fun haccepted => Option.isSome_iff_exists.mp (hsound.accepted haccepted)
      completed := ?_
      elsewhere := fun t ht hother => ?_
      leased := ?_
      free := fun hfree => ?_ }
  · rw [← Session.announced_view]
    exact hsound.announced
  · refine List.filter_eq_nil_iff.mpr fun e he hcompletes => ?_
    simp only [Bool.and_eq_true, decide_eq_true_eq, beq_iff_eq] at hcompletes
    have hin : (e.operationId, e.payload) ∈ t.ledger.completions :=
      List.mem_filterMap.mpr ⟨e, he, by simp [EventRow.completion, hcompletes.1]⟩
    obtain ⟨o', ho', heq⟩ := (run.ledgerInvariant ht).sound.owned _ hin
    have hid : o.id = o'.id := Option.some.inj (hcompletes.2.symm.trans heq)
    exact hother (congrArg (·.id) (run.operation_owner hs ht ho ho' hid).symm)
  · constructor
    · rintro ⟨lease, hlease⟩
      rw [hlease] at hrunning
      obtain ⟨a, ha, htoken⟩ := List.map_eq_singleton_iff.mp hrunning
      exact ⟨a, ha, by rw [hlease, htoken]; rfl⟩
    · rintro ⟨a, -, htoken⟩
      obtain ⟨lease, hlease, -⟩ := Option.map_eq_some_iff.mp htoken
      exact ⟨lease, hlease⟩
  · rw [hfree] at hrunning
    exact List.map_eq_nil_iff.mp hrunning

/-- The operation that a first turn stages, now and in every continuation. -/
theorem operation_lifecycle_firstTurn :
    let (trace, db) := replay plainCodec stillClock firstTurn
    (∀ s ∈ db.sessions, ∀ o ∈ s.operations, db.OperationSettled s o) ∧
      ∀ (trace' : List Entry) (db' : Db), Continues plainCodec trace db trace' db' →
        ∀ s ∈ db.sessions, ∀ o ∈ s.operations, ∃ s' ∈ db'.sessions, s'.id = s.id ∧
          ∃ o' ∈ s'.operations, o.Later o' :=
  operation_lifecycle firstTurn_run

end AgentPlatform.Store
