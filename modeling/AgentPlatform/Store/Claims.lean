import AgentPlatform.Store.OperationInvariant

/-!
# Issued operation claims

What a worker can rely on of the claim that it was issued: which operation it names, that its phase
takes operations of that kind, and which status it was taken in.
-/

namespace AgentPlatform.Store

open Ledger

variable {codec : Codec} {trace : List Entry} {db : Db}

/-! ## The operation that is claimed -/

/-- The kinds of operation that a phase works on. -/
def OperationPhase.takes (phase : OperationPhase) (kind : OperationKind) : Prop :=
  match phase with
  | .submission => kind = .llm ∨ kind = .execution
  | .resultRetrieval => True
  | .cancellation => kind = .llmCancellation
  | .withdrawal => kind = .withdraw

theorem OperationPhase.takes_of_eligible {phase : OperationPhase} {o : OperationRow}
    (h : phase.eligible o = true) : phase.takes o.kind := by
  cases phase <;> simp [OperationPhase.eligible] at h
  · exact h.2
  · trivial
  · exact h.2
  · exact h.2

/-- Only `claim_operation` issues an operation claim. -/
theorem Run.claims_of_reply (run : Run codec trace db) {call : StoreCall} {clock : Clock}
    {claim : ClaimedOperation} (h : (exec codec clock db call).1 = .claimedOperation (some claim)) :
    ∃ locked phase leaseFor, call = .claimOperation locked phase leaseFor := by
  have hstep := exec_cases codec clock run.registered.unique call
  rw [h] at hstep
  generalize (exec codec clock db call).2 = db' at hstep
  cases hstep with
  | quiet sessions uuids quiet => cases quiet.operationClaim
  | session found step =>
    cases step with
    | claimOperation => exact ⟨_, _, _, rfl⟩

/-- A claim is issued for an operation that its phase may take, and leases it under a new token. -/
theorem Run.claimed_operation (run : Run codec trace db) {clock : Clock}
    {locked : SessionId → Bool} {phase : OperationPhase} {leaseFor : Nat}
    {claim : ClaimedOperation}
    (claimed : (exec codec clock db (.claimOperation locked phase leaseFor)).1 =
      .claimedOperation (some claim)) :
    ∃ s ∈ db.sessions, ∃ o ∈ s.operations, phase.eligible o = true ∧
      o.IssuedAs db.nextUuid phase claim ∧
      ∃ s' ∈ (exec codec clock db (.claimOperation locked phase leaseFor)).2.sessions,
        ∃ lease : Lease, lease.token = db.nextUuid ∧ o.claimed lease ∈ s'.operations := by
  have hstep := exec_cases codec clock run.registered.unique
    (.claimOperation locked phase leaseFor)
  rw [claimed] at hstep
  generalize (exec codec clock db (.claimOperation locked phase leaseFor)).2 = db' at hstep
  cases hstep with
  | quiet sessions uuids quiet => cases quiet.operationClaim
  | @session _ s s' found step =>
    cases step with
    | @claimOperation _ _ _ _ o leaseMs ho claimable =>
      have heligible : phase.eligible o = true := by
        simp only [OperationRow.claimable, Bool.and_eq_true] at claimable
        exact claimable.1.1
      let after := (s.claimOperation clock o phase db.nextUuid (db.nextUuid + 1) leaseMs).2
      refine ⟨s, found, o, ho, heligible, ⟨⟨_, _, rfl⟩, rfl, rfl, rfl⟩, after, ?_,
        { token := db.nextUuid, expiresAt := clock.after 1 leaseMs }, rfl, ?_⟩
      · have hid : after.id = s.id :=
          congrArg (·.id) (Session.claimOperation_eq s clock o phase db.nextUuid (db.nextUuid + 1)
            leaseMs)
        exact Db.mem_put.mpr (.inl ⟨rfl, s, found, hid.symm⟩)
      · have hafter := congrArg Session.operations
          (Session.claimOperation_eq s clock o phase db.nextUuid (db.nextUuid + 1) leaseMs)
        show _ ∈ after.sansUpdates.operations
        rw [hafter]
        exact Table.mem_update.mpr ⟨o, ho, by simp⟩

/-- A claim that is issued has a new token. -/
theorem Run.claimed_token (run : Run codec trace db) {call : StoreCall} {clock : Clock}
    {claim : ClaimedOperation} (h : (exec codec clock db call).1 = .claimedOperation (some claim)) :
    claim.leaseToken = db.nextUuid := by
  obtain ⟨locked, phase, leaseFor, rfl⟩ := run.claims_of_reply h
  obtain ⟨s, hs, o, ho, -, hissued, -⟩ := run.claimed_operation h
  exact hissued.token

/-! ## Every claim of a run -/

/-- An issued claim names an operation of the database. -/
theorem Run.claim_operation (run : Run codec trace db) {claim : ClaimedOperation}
    (issued : claim ∈ operationClaims trace) :
    ∃ s ∈ db.sessions, ∃ o ∈ s.operations, o.id = claim.operation.id ∧
      o.kind = claim.operation.kind ∧
      o.gatewayIdempotencyKey = claim.operation.gatewayIdempotencyKey := by
  obtain ⟨s, hs, hid⟩ := List.mem_map.mp (run.registered.claims claim issued)
  obtain ⟨o, ho, hop⟩ := ((run.ledgerInvariant hs).known claim issued hid.symm).staged
  exact ⟨s, hs, o, ho, hop⟩

/-- An operation id names one row. -/
theorem Run.operation_unique (run : Run codec trace db) {s t : Session} (hs : s ∈ db.sessions)
    (ht : t ∈ db.sessions) {o o' : OperationRow} (ho : o ∈ s.operations) (ho' : o' ∈ t.operations)
    (heq : o.id = o'.id) : o = o' := by
  have := run.operation_owner hs ht ho ho' heq
  subst this
  exact Table.eq_of_key (run.ledgerInvariant hs).sound.unique ho ho' heq

/-- The idempotency key of an operation is its id. -/
theorem Run.operation_key (run : Run codec trace db) {s : Session} (hs : s ∈ db.sessions)
    {o : OperationRow} (ho : o ∈ s.operations) : o.gatewayIdempotencyKey = o.id.toText :=
  ((run.ledgerInvariant hs).sound.views o ho).key

theorem Run.claim_key (run : Run codec trace db) {claim : ClaimedOperation}
    (issued : claim ∈ operationClaims trace) :
    claim.operation.gatewayIdempotencyKey = claim.operation.id.toText := by
  obtain ⟨s, hs, o, ho, hid, -, hkey⟩ := run.claim_operation issued
  rw [← hkey, run.operation_key hs ho, hid]

/-- A claim of an operation has its kind. -/
theorem Run.claim_kind (run : Run codec trace db) {claim : ClaimedOperation}
    (issued : claim ∈ operationClaims trace) {s : Session} (hs : s ∈ db.sessions)
    {o : OperationRow} (ho : o ∈ s.operations) (hid : claim.operation.id = o.id) :
    claim.operation.kind = o.kind := by
  obtain ⟨t, ht, o', ho', hid', hkind, -⟩ := run.claim_operation issued
  rw [← hkind, run.operation_unique ht hs ho' ho (hid'.trans hid)]

/-- A lease is held under the token of an issued claim. -/
theorem Run.lease_issued (run : Run codec trace db) {s : Session} (hs : s ∈ db.sessions)
    {o : OperationRow} (ho : o ∈ s.operations) {lease : Lease} (leased : o.lease = some lease) :
    lease.token < db.nextUuid := by
  have hinvariant := run.ledgerInvariant hs
  have hrunning := (hinvariant.sound.views o ho).running
  have hmem : lease.token ∈ (s.ledger.view o).running := by
    rw [hrunning, show (s.ledger.view o).row = o from rfl, leased]
    exact List.mem_singleton.mpr rfl
  obtain ⟨a, ha, htoken⟩ := List.mem_map.mp hmem
  obtain ⟨claim, hclaim, heq⟩ := hinvariant.issued a (List.mem_of_mem_filter ha)
  rw [← htoken, ← heq]
  exact run.registered.operationTokens claim hclaim

/-- The claims of a run are of operations that their phase takes. -/
theorem Run.claim_takes (run : Run codec trace db) :
    ∀ claim ∈ operationClaims trace, claim.phase.takes claim.operation.kind := by
  induction run with
  | start => exact fun claim hclaim => absurd hclaim List.not_mem_nil
  | step call clock run admissible ih =>
    intro claim hclaim
    rw [operationClaims_concat] at hclaim
    rcases List.mem_append.mp hclaim with hold | hnew
    · exact ih claim hold
    · have hreply := issuedOperationClaim_reply.mp (Option.mem_toList.mp hnew)
      obtain ⟨locked, phase, leaseFor, rfl⟩ := run.claims_of_reply hreply
      obtain ⟨s, hs, o, ho, heligible, hissued, -⟩ := run.claimed_operation hreply
      obtain ⟨lease, sessionId, hrecord⟩ := hissued.record
      rw [hissued.phase, show claim.operation.kind = o.kind by rw [hrecord]; rfl]
      exact OperationPhase.takes_of_eligible heligible

/-! ## The status of a held operation -/

/-- The operation is in the status that the phase works in. -/
def OperationPhase.Holds (phase : OperationPhase) (o : OperationRow) : Prop :=
  o.status = if phase = .resultRetrieval then .accepted else .submitting

/-- An operation that still waits for its submission has no gateway job. -/
def OperationRow.Unmapped (o : OperationRow) : Prop :=
  o.status = .pending ∨ o.status = .submitting → o.gatewayJobId = none

/-- A phase works in the status that a claim leaves. -/
theorem OperationPhase.holds_of_eligible {phase : OperationPhase} {o : OperationRow}
    (h : phase.eligible o = true) (lease : Lease) : phase.Holds (o.claimed lease) := by
  unfold OperationPhase.Holds
  cases phase <;> simp only [OperationPhase.eligible, Bool.and_eq_true, Bool.or_eq_true,
    decide_eq_true_eq] at h
  · rcases h.1 with hstatus | hstatus <;> simp [OperationRow.claimed, hstatus]
  · simp [OperationRow.claimed, h]
  · rcases h.1 with hstatus | hstatus <;> simp [OperationRow.claimed, hstatus]
  · rcases h.1 with hstatus | hstatus <;> simp [OperationRow.claimed, hstatus]

theorem OperationStep.unmapped {base : Uuid} {call : StoreCall} {reply : Reply}
    {v v' : OperationView} (step : OperationStep base call reply v v') (h : v.row.Unmapped) :
    v'.row.Unmapped := by
  cases step with
  | same row running announced =>
    obtain ⟨-, -, -, hstatus, -, -, hjob, -⟩ := OperationRow.essence_eq row
    intro hopen
    rw [hjob]
    exact h (hstatus ▸ hopen)
  | claimed lease eligible token issued =>
    intro hopen
    refine h ?_
    simp only [OperationRow.claimed] at hopen
    split at hopen
    · exact .inl ‹_›
    · exact hopen
  | deferred held phase submitting => exact fun _ => h (.inr submitting)
  | accepted now held phase submitting unmapped =>
    rintro (hstatus | hstatus) <;> cases hstatus
  | retried held next =>
    intro hopen
    refine h ?_
    rcases OperationStep.retryStatus_some next with ⟨hstatus, -⟩ | ⟨-, rfl⟩
    · exact .inr hstatus
    · rcases hopen with hstatus | hstatus <;> cases hstatus
  | pendingResult held accepted => exact h
  | @completed _ status _ _ _ _ _ _ now held terminal allowed =>
    intro (hopen : status = .pending ∨ status = .submitting)
    rcases hopen with rfl | rfl <;> cases terminal
  | withdrew now withdrawn held kind submitting =>
    rintro (hstatus | hstatus) <;> cases hstatus
  | withdrawn now target withdrawable =>
    rintro (hstatus | hstatus) <;> cases hstatus

/-- A claim that holds an operation after a step held it before, or the step issued it. -/
theorem OperationStep.held {base : Uuid} {call : StoreCall} {reply : Reply} {v v' : OperationView}
    (step : OperationStep base call reply v v') {claim : ClaimedOperation}
    (held : v'.HeldBy claim) :
    (v.HeldBy claim ∧ v'.row.status = v.row.status) ∨
      claim.leaseToken = base ∧ ∃ issued, reply = .claimedOperation (some issued) ∧
        issued.phase.Holds v'.row := by
  cases step with
  | same row running announced =>
    obtain ⟨hid, -, -, hstatus, -, -, -, hlease⟩ := OperationRow.essence_eq row
    exact .inl ⟨⟨held.id.trans hid, hlease ▸ held.token⟩, hstatus⟩
  | claimed lease eligible token issued =>
    refine .inr ⟨(Option.some.inj held.token).symm.trans token, _, rfl, ?_⟩
    rw [issued.phase]
    exact OperationPhase.holds_of_eligible eligible lease
  | deferred | accepted | retried | pendingResult | completed | withdrew | withdrawn =>
    cases held.token

/-- Operations that wait for their submission have no gateway job. -/
theorem Run.unmapped (run : Run codec trace db) :
    ∀ s ∈ db.sessions, ∀ o ∈ s.operations, o.Unmapped := by
  induction run with
  | start => exact fun s hs => absurd hs List.not_mem_nil
  | step call clock run admissible ih =>
    obtain ⟨owner, hstep⟩ := run.operations_step admissible clock
    intro s' hs' o' ho'
    rcases hstep.back s' hs' o' ho' with ⟨s, hs, -, o, ho, hop⟩ | ⟨-, hfresh, -⟩
    · exact hop.unmapped (ih s hs o ho)
    · exact fun _ => hfresh.job

/-- An operation that an issued claim holds is in the status that the phase of the claim works
in. -/
theorem Run.claim_holds (run : Run codec trace db) :
    ∀ claim ∈ operationClaims trace, ∀ s ∈ db.sessions, ∀ o ∈ s.operations,
      (s.ledger.view o).HeldBy claim → claim.phase.Holds o := by
  induction run with
  | start => exact fun claim hclaim => absurd hclaim List.not_mem_nil
  | step call clock run admissible ih =>
    rename_i trace db
    obtain ⟨owner, hstep⟩ := run.operations_step admissible clock
    intro claim hclaim s' hs' o' ho' hheld
    rw [operationClaims_concat] at hclaim
    rcases hstep.back s' hs' o' ho' with ⟨s, hs, -, o, ho, hop⟩ | ⟨-, hfresh, -⟩
    · have hreply {issued : ClaimedOperation}
          (h : (exec codec clock db call).1 = .claimedOperation (some issued)) :
          issued.leaseToken = db.nextUuid := run.claimed_token h
      rcases hop.held hheld with ⟨hbefore, hstatus⟩ | ⟨htoken, issued, hissued, hholds⟩
      · rcases List.mem_append.mp hclaim with hold | hnew
        · exact hstatus.trans (ih claim hold s hs o ho hbefore)
        · have htoken := hreply (issuedOperationClaim_reply.mp (Option.mem_toList.mp hnew))
          obtain ⟨lease, hlease, hheld⟩ := Option.map_eq_some_iff.mp hbefore.token
          have hdrawn := run.lease_issued hs ho hlease
          exact absurd (hheld.trans htoken) hdrawn.ne
      · rcases List.mem_append.mp hclaim with hold | hnew
        · exact absurd htoken (run.registered.operationTokens claim hold).ne
        · have hsame := issuedOperationClaim_reply.mp (Option.mem_toList.mp hnew)
          rw [hissued] at hsame
          cases hsame
          exact hholds
    · have htoken := hheld.token
      rw [show (s'.ledger.view o').row = o' from rfl, hfresh.lease] at htoken
      cases htoken

end AgentPlatform.Store
