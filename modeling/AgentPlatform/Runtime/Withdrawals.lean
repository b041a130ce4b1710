import AgentPlatform.Runtime.EndedOperations
import AgentPlatform.Store.EventContents

/-!
# The order of a withdrawal

A withdrawal that succeeds has cancelled its target, and the completion of the target stands before
its own. So whoever handles the completions in their order knows of the target first.
-/

namespace AgentPlatform.Runtime

open Store

variable {Time : Type} {reading : JobReading Time} {codec : Codec} {clock : Clock}
  {trace : List Entry} {db : Db} {s s' : Session} {o : OperationRow}

/-- The target of the withdrawal was cancelled, and was announced before the withdrawal was. -/
def Withdrew (l : Ledger) (o : OperationRow) : Prop :=
  ∃ target ∈ l.operations, o.targetOperationId = some target.id ∧ target.status = .cancelled ∧
    ∃ before, before <+: l.completions ∧ some target.id ∈ before.map (·.1) ∧
      some o.id ∉ before.map (·.1)

/-- A withdrawal has withdrawn its target, as its result is read. -/
structure Withdraws (reading : JobReading Time) (o : OperationRow) : Prop where
  kind : o.kind = .withdraw
  status : o.status = .succeeded
  result : ∃ text, o.result = some text ∧ reading.decodeResult text = .ok (.withdraw true)

/-- What was withdrawn stays so while completions are added. -/
theorem Withdrew.step {base : Uuid} {call : StoreCall} {reply : Reply} {staged : List OperationRow}
    {l l' : Ledger} {o' : OperationRow} (step : Ledger.Step base call reply staged l l')
    (completions : l.completions <+: l'.completions) (effect : o'.effect = o.effect)
    (h : Withdrew l o) : Withdrew l' o' := by
  obtain ⟨target, htarget, hnames, hcancelled, before, hbefore, hold, hnot⟩ := h
  obtain ⟨target', htarget', hlater⟩ := step.follows target htarget
  have hid : target'.id = target.id := hlater.id_eq
  have hended : (l.view target).row.status.terminal = true := by
    show target.status.terminal = true
    rw [hcancelled]
    rfl
  have hstatus : target'.status = target.status := (hlater.later.ended hended).1
  have hnamed : o'.targetOperationId = o.targetOperationId :=
    congrArg OperationEffect.targetOperationId effect
  have hself : o'.id = o.id := congrArg OperationEffect.id effect
  refine ⟨target', htarget', ?_, hstatus.trans hcancelled, before, hbefore.trans completions, ?_, ?_⟩
  · rw [hnamed, hnames, hid]
  · rwa [hid]
  · rwa [hself]

/-- An operation that has not ended is not announced. -/
theorem unannounced {l : Ledger} (sound : l.Sound) (ho : o ∈ l.operations)
    (working : o.status.terminal = false) : some o.id ∉ l.completions.map (·.1) := by
  intro hmem
  obtain ⟨c, hc, hid⟩ := List.mem_map.mp hmem
  have hannounced := (sound.views o ho).announced
  have hstatus : (l.view o).row.status.terminal = false := working
  rw [hstatus] at hannounced
  have hin : c.2 ∈ (l.view o).announced :=
    List.mem_filterMap.mpr ⟨c, hc, by simp [Ledger.announces, hid]⟩
  rw [hannounced] at hin
  exact absurd hin List.not_mem_nil

/-- A completed withdrawal that has withdrawn its target. -/
theorem completeWithdrawal_withdrew {eventId : EventId} {claim : ClaimedOperation}
    {targetId : OperationId} {expiresAt : Option Timestamp} {r : Bool × List EventRecord}
    (sound : s.ledger.Sound)
    (h : s.completeWithdrawal clock eventId claim targetId expiresAt = .ok (r, s'))
    (ho : o ∈ s'.operations) (own : o.id = claim.operation.id)
    (names : o.targetOperationId = some targetId) (withdraws : Withdraws reading o) :
    Withdrew s'.ledger o := by
  obtain ⟨held, t, events, s₁, e, hholds, hsubmitting, htarget, -, hwithdraw, rfl, -, -, hresult⟩ :=
    Session.completeWithdrawal_ok h
  have htid : t.id = targetId := by simpa using List.find?_some htarget
  have ht : t ∈ s.ledger.operations := List.mem_of_find?_eq_some htarget
  have hheld : held.id = claim.operation.id := hholds.id_eq
  let f (o : OperationRow) : OperationRow :=
    { o with
      result := some (withdrawalResult t.withdrawable), status := .succeeded
      completedAt := some clock.now, lease := none }
  let g (a : OperationAttemptRow) : OperationAttemptRow :=
    { a with
      status := .succeeded, httpStatus := none, error := none, finishedAt := some clock.now }
  have hledger : s'.ledger = s₁.ledger.record claim.operation.id f claim.ends g
      [(some claim.operation.id, operationPayload claim.operation.id .withdraw .succeeded)] := by
    rw [Session.ledger_of_sansUpdates hresult]
    exact Session.settled_ledger ..
  have hwithdrawable : t.withdrawable = true := by
    have hrow : o ∈ s'.ledger.operations := ho
    rw [congrArg Ledger.operations hledger] at hrow
    obtain ⟨o₁, ho₁, rfl⟩ := Table.mem_update.mp hrow
    split at withdraws
    · obtain ⟨text, htext, hread⟩ := withdraws.result
      cases htext
      rw [decode_withdrawalResult] at hread
      exact OperationResult.withdraw.inj (Except.ok.inj hread)
    · rename_i hother
      rw [if_neg hother] at own
      exact absurd (decide_eq_true own) hother
  rcases Session.withdrawTarget_ledger g hwithdraw with ⟨hno, -⟩ | ⟨-, htook⟩
  · rw [hwithdrawable] at hno
    cases hno
  · have hpending : t.status = .pending := by
      simp only [OperationRow.withdrawable, Bool.and_eq_true, decide_eq_true_eq] at hwithdrawable
      exact hwithdrawable.1
    have hne : t.id ≠ claim.operation.id := by
      intro heq
      have hsame := Table.eq_of_key sound.unique ht hholds.mem (heq.trans hheld.symm)
      rw [hsame, hsubmitting] at hpending
      cases hpending
    rw [hledger, htook]
    refine ⟨{ t with status := .cancelled, completedAt := some clock.now, lease := none }, ?_, ?_,
      rfl, s.completions ++ [(some t.id, operationPayload t.id t.kind .cancelled)],
      List.prefix_append _ _, ?_, ?_⟩
    · refine Table.mem_update.mpr ⟨_, Table.mem_update.mpr ⟨t, ht, rfl⟩, ?_⟩
      simp [hne]
    · rw [names, htid]
    · simp
    · have hunannounced := unannounced sound hholds.mem (by rw [hsubmitting]; rfl)
      rw [hheld, ← own] at hunannounced
      rw [List.map_append, List.mem_append, not_or]
      refine ⟨hunannounced, ?_⟩
      rw [own]
      simpa using fun h => hne h.symm

/-! ## Every run -/

/-- A claim names the target of its operation. -/
theorem claim_target (run : Run codec trace db) {claim : ClaimedOperation}
    (issued : claim ∈ operationClaims trace) (hs : s ∈ db.sessions) (ho : o ∈ s.operations)
    (own : claim.operation.id = o.id) :
    claim.operation.targetOperationId = o.targetOperationId := by
  obtain ⟨trace₀, db₀, -, s₀, -, o₀, -, -, ⟨lease, sessionId, hrecord⟩, t, ht, o', ho', heffect,
    hlater⟩ := (issuance run issued).issued
  have hid : claim.operation.id = o₀.id := congrArg (·.id) hrecord
  have hsame : o' = o := run.operation_unique ht hs ho' ho (hlater.id.trans (hid.symm.trans own))
  subst hsame
  have htarget : claim.operation.targetOperationId = o₀.targetOperationId :=
    congrArg (·.targetOperationId) hrecord
  have heffectTarget : o'.targetOperationId = o₀.targetOperationId :=
    congrArg (·.targetOperationId) heffect
  exact htarget.trans heffectTarget.symm

/-- Nobody but the store ends a withdrawal with a result. -/
theorem withdrawal_phase (run : Run codec trace db) {claim : ClaimedOperation}
    (issued : claim ∈ operationClaims trace) (kind : claim.operation.kind = .withdraw)
    {lock : OperationLock} {status : OperationStatus} :
    completionAllowed claim.phase lock status = false := by
  cases hphase : claim.phase with
  | withdrawal => rfl
  | submission =>
    rcases (claim_phase run issued).1 hphase with h | h <;> rw [kind] at h <;> cases h
  | cancellation =>
    have h := (claim_phase run issued).2 hphase
    rw [kind] at h
    cases h
  | resultRetrieval =>
    rcases retrieval_kind run issued hphase with h | h <;> rw [kind] at h <;> cases h

/-- An operation has withdrawn its target before a call or by its own completion. -/
theorem withdraws_step {base : Uuid} {call : StoreCall} {reply : Reply} {v v' : OperationView}
    (step : OperationStep base call reply v v')
    (excluded : ∀ claim ∈ call.operationClaim, claim.operation.id = v.row.id →
      ∀ lock status, completionAllowed claim.phase lock status = false)
    (withdraws : Withdraws reading v'.row) :
    Withdraws reading v.row ∨ ∃ claim ∈ call.operationClaim, claim.operation.id = v.row.id ∧
      ∃ expiresAt, call = .completeWithdrawal claim expiresAt := by
  have hstatus := withdraws.status
  cases step with
  | same row running announced =>
    obtain ⟨-, hkind, -, hsame, hresult, -⟩ := OperationRow.essence_eq row
    exact .inl ⟨hkind ▸ withdraws.kind, hsame ▸ hstatus, hresult ▸ withdraws.result⟩
  | claimed lease eligible token issued =>
    simp only [OperationRow.claimed] at hstatus
    split at hstatus
    · cases hstatus
    · exact .inl ⟨withdraws.kind, hstatus, withdraws.result⟩
  | deferred held | accepted now held => cases hstatus
  | retried held next =>
    rcases OperationStep.retryStatus_some next with ⟨-, rfl | rfl⟩ | ⟨-, rfl⟩ <;> cases hstatus
  | pendingResult held accepted => exact .inl ⟨withdraws.kind, hstatus, withdraws.result⟩
  | completed now held terminal allowed =>
    rw [excluded _ rfl held.id] at allowed
    cases allowed
  | @withdrew claim expiresAt _ v now withdrawn held kind submitting =>
    exact .inr ⟨claim, rfl, held.id, expiresAt, rfl⟩
  | withdrawn now target withdrawable => cases hstatus

/-- One transaction of a session. -/
theorem withdrew_step {call : StoreCall} {reply : Reply} (run : Run codec trace db)
    (admissible : Admissible trace call) (hs : s ∈ db.sessions)
    (step : SessionStep codec clock db call reply s s')
    (before : ∀ o ∈ s.operations, Withdraws reading o → Withdrew s.ledger o) :
    ∀ o ∈ s'.operations, Withdraws reading o → Withdrew s'.ledger o := by
  intro o' ho' withdraws
  have hinvariant := run.ledgerInvariant hs
  obtain ⟨staged, hledger, hstages⟩ := step.ledger_step hinvariant.sound fun claim hclaim =>
    hinvariant.known claim (admissible.operation claim hclaim)
  have hunique := (hledger.sound hinvariant.sound hstages.distinct hstages.fresh).unique
  rcases hledger.back hunique ho' with ⟨o, ho, hop⟩ | hnew
  · have hkind : o.kind = .withdraw :=
      (congrArg OperationEffect.kind hop.effect).symm.trans withdraws.kind
    have hexcluded : ∀ claim ∈ call.operationClaim, claim.operation.id = o.id →
        ∀ lock status, completionAllowed claim.phase lock status = false := by
      intro claim hclaim hown lock status
      have hissued := admissible.operation claim hclaim
      have htells := claim_tells run hissued hs ho hown
      exact withdrawal_phase run hissued (htells.kind.symm.trans hkind)
    rcases withdraws_step hop hexcluded withdraws with hbefore | ⟨claim, hclaim, hown, expiresAt, rfl⟩
    · refine (before o ho hbefore).step hledger ?_ hop.effect
      show s.completions <+: s'.completions
      rw [s.completions_contents, s'.completions_contents]
      exact step.goesOn.contents.filterMap _
    · have htarget := claim_target run (admissible.operation claim hclaim) hs ho hown
      have heffect : o'.targetOperationId = o.targetOperationId :=
        congrArg OperationEffect.targetOperationId hop.effect
      cases step with
      | completeWithdrawal session phase kind target h =>
        exact completeWithdrawal_withdrew hinvariant.sound h ho' (hop.id_eq.trans hown.symm)
          (heffect.trans (htarget.symm.trans target)) withdraws
  · have hpending := (hledger.staged o' hnew).2.status
    rw [withdraws.status] at hpending
    cases hpending

/-- Whatever happens, a withdrawal that has withdrawn its target is announced behind it. -/
theorem withdraws_withdrew (run : Run codec trace db) (hs : s ∈ db.sessions) (ho : o ∈ s.operations)
    (withdraws : Withdraws reading o) : Withdrew s.ledger o := by
  induction run generalizing s o with
  | start => cases hs
  | @step trace db call clock run admissible ih =>
    have hstep := exec_cases codec clock run.registered.unique call
    generalize (exec codec clock db call).1 = reply at hstep hs
    generalize (exec codec clock db call).2 = db' at hstep hs
    cases hstep with
    | quiet sessions uuids quiet => exact ih (sessions ▸ hs) ho withdraws
    | create created fresh sessions uuids =>
      rw [sessions] at hs
      rcases List.mem_append.mp hs with hold | hnew
      · exact ih hold ho withdraws
      · rw [List.mem_singleton.mp hnew] at ho
        exact absurd ho List.not_mem_nil
    | @session _ s₀ s₁ found step =>
      rcases Db.mem_put.mp hs with ⟨rfl, -⟩ | ⟨hold, -⟩
      · exact withdrew_step run admissible found step (fun o ho => ih found ho) o ho withdraws
      · exact ih hold ho withdraws
    | due id f due quiet sessions uuids =>
      rw [sessions] at hs
      obtain ⟨s₀, hs₀, rfl⟩ := List.mem_map.mp hs
      have hsound := (run.ledgerInvariant hs₀).sound
      have hledger : Ledger.Step 0 (.pruneUpdates s₀.id 0) .done [] s₀.ledger
        (s₀.updateOperations (·.id = id) f).ledger := Session.due_step s₀ id due
      have hunique := (hledger.sound hsound List.nodup_nil fun _ ho => absurd ho List.not_mem_nil).unique
      rcases hledger.back hunique ho with ⟨o₀, ho₀, hop⟩ | hnew
      · rcases withdraws_step hop (fun claim hclaim => absurd hclaim (Option.not_mem_none claim))
          withdraws with hbefore | ⟨claim, hclaim, -⟩
        · exact (ih hs₀ ho₀ hbefore).step hledger List.prefix_rfl hop.effect
        · exact absurd hclaim (Option.not_mem_none claim)
      · exact absurd hnew List.not_mem_nil

end AgentPlatform.Runtime
