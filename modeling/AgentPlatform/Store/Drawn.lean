import AgentPlatform.Store.Claims
import AgentPlatform.Store.EventRows

/-!
# What calls draw

Event ids, attempt ids and lease tokens are drawn from the supply of the database, so the ids of a
session's events are behind the supply, an attempt has the id and the token of one issued claim, and
no two claims have the same token.
-/

namespace AgentPlatform.Store

open Fallible

/-! ## Event ids -/

section

variable {codec : Codec} {clock : Clock} {s s' : Session}

/-- The events of a session after a call are those before and new ones of ids below `bound`. -/
def Session.EventsBelow (s s' : Session) (bound : Uuid) : Prop :=
  ∀ e' ∈ s'.events, (∃ e ∈ s.events, e.id = e'.id) ∨ e'.id < bound

theorem SessionStep.eventsBelow {db : Db} {call : StoreCall} {reply : Reply}
    (step : SessionStep codec clock db call reply s s') :
    s.EventsBelow s' (db.nextUuid + call.draws) :=
  fun e' he' => (step.events_drawn e' he').imp_right And.right

/-- Event ids are drawn from the supply. -/
theorem Run.event_drawn {trace : List Entry} {db : Db} (run : Run codec trace db) :
    ∀ s ∈ db.sessions, ∀ e ∈ s.events, e.id < db.nextUuid := by
  induction run with
  | start => exact fun s hs => absurd hs List.not_mem_nil
  | step call clock run admissible ih =>
    rename_i trace db
    have hstep := exec_cases codec clock run.registered.unique call
    generalize (exec codec clock db call).1 = reply at hstep
    generalize (exec codec clock db call).2 = db' at hstep ⊢
    intro t ht e he
    cases hstep with
    | quiet sessions uuids quiet =>
      exact Nat.lt_of_lt_of_le (ih t (sessions ▸ ht) e he) uuids
    | create created fresh sessions uuids =>
      rw [uuids]
      rw [sessions] at ht
      rcases List.mem_append.mp ht with hold | hnew
      · exact ih t hold e he
      · rw [List.mem_singleton.mp hnew] at he
        exact absurd he List.not_mem_nil
    | @session _ s s' found step =>
      rcases Db.mem_put.mp ht with ⟨rfl, -⟩ | ⟨hold, -⟩
      · rcases step.eventsBelow e he with ⟨e₀, he₀, hid⟩ | hdrawn
        · exact hid ▸ Nat.lt_add_right _ (ih s found e₀ he₀)
        · exact hdrawn
      · exact Nat.lt_add_right _ (ih t hold e he)
    | due id f due quiet sessions uuids =>
      rw [uuids]
      rw [sessions] at ht
      obtain ⟨s, hs, rfl⟩ := List.mem_map.mp ht
      exact ih s hs e he

/-! ## Operation attempts -/

/-- The attempts of a session after a call: those before, in their ids and tokens, and the attempt
of the claim that the call issued. -/
def Session.AttemptsFrom (s s' : Session) (reply : Reply) : Prop :=
  ∀ a' ∈ s'.operationAttempts,
    (∃ a ∈ s.operationAttempts, a.id = a'.id ∧ a.leaseToken = a'.leaseToken) ∨
      ∃ claim, reply = .claimedOperation (some claim) ∧ claim.attemptId = a'.id ∧
        claim.leaseToken = a'.leaseToken

theorem Session.AttemptsFrom.of_eq {reply : Reply}
    (attempts : s'.operationAttempts = s.operationAttempts) : s.AttemptsFrom s' reply :=
  fun a ha => .inl ⟨a, attempts ▸ ha, rfl, rfl⟩

theorem Session.AttemptsFrom.of_update {reply : Reply} {p : OperationAttemptRow → Bool}
    {f : OperationAttemptRow → OperationAttemptRow}
    (attempts : s'.operationAttempts = Table.update p f s.operationAttempts)
    (keeps : ∀ a, (f a).id = a.id ∧ (f a).leaseToken = a.leaseToken) : s.AttemptsFrom s' reply := by
  intro a' ha'
  rw [attempts] at ha'
  obtain ⟨a, ha, rfl⟩ := Table.mem_update.mp ha'
  refine .inl ⟨a, ha, ?_⟩
  split
  · exact ⟨(keeps a).1.symm, (keeps a).2.symm⟩
  · exact ⟨rfl, rfl⟩

/-- Attempts rewritten in a session that has the attempts of `s`. -/
theorem Session.AttemptsFrom.of_based {t : Session} {reply : Reply}
    {p : OperationAttemptRow → Bool} {f : OperationAttemptRow → OperationAttemptRow}
    (base : t.operationAttempts = s.operationAttempts)
    (attempts : s'.operationAttempts = Table.update p f t.operationAttempts)
    (keeps : ∀ a, (f a).id = a.id ∧ (f a).leaseToken = a.leaseToken) : s.AttemptsFrom s' reply :=
  .of_update (base ▸ attempts) keeps

theorem SessionStep.attemptsFrom {db : Db} {call : StoreCall} {reply : Reply}
    (step : SessionStep codec clock db call reply s s') : s.AttemptsFrom s' reply := by
  have leaves := step.leavesWork
  cases step with
  | @commitHandlerOutcome _ _ claim outcome _ session h =>
    obtain ⟨c⟩ := Session.commitHandlerOutcome_ok h
    refine .of_eq ?_
    have hsaved : s'.operationAttempts = c.cancelled.operationAttempts :=
      congrArg (·.operationAttempts) c.result
    have hcancelled : c.cancelled.operationAttempts = c.waiting.operationAttempts :=
      congrArg (·.operationAttempts) (Session.cancelWaits_frame c.cancellations)
    have hcreated : c.waiting.operationAttempts = c.staged.operationAttempts :=
      congrArg (·.operationAttempts) (Session.createWaits_frame c.waits)
    have hstaged : c.staged.operationAttempts = (c.appended.announceHistory clock claim
        outcome.history.length c.historySequence).operationAttempts :=
      congrArg (·.operationAttempts) (Session.stageOperations_frame c.operations)
    have hannounced : (c.appended.announceHistory clock claim outcome.history.length
        c.historySequence).operationAttempts = c.appended.operationAttempts :=
      congrArg (·.operationAttempts) (Session.sansUpdates_announceHistory ..)
    have happended : c.appended.operationAttempts = s.operationAttempts :=
      congrArg (·.operationAttempts) (Session.appendHistory_frame c.history)
    rw [hsaved, hcancelled, hcreated, hstaged, hannounced, happended]
  | @claimOperation _ _ phase _ o leaseMs ho claimable =>
    intro a' ha'
    have hattempts := congrArg (·.operationAttempts) (Session.claimOperation_eq s clock o phase
      db.nextUuid (db.nextUuid + 1) leaseMs)
    have hfound := (show (s.claimOperation clock o phase db.nextUuid (db.nextUuid + 1)
      leaseMs).2.operationAttempts = _ from hattempts) ▸ ha'
    rcases List.mem_append.mp hfound with hold | hnew
    · obtain ⟨a, ha, rfl⟩ := Table.mem_update.mp hold
      refine .inl ⟨a, ha, ?_⟩
      split <;> exact ⟨rfl, rfl⟩
    · rw [List.mem_singleton.mp hnew]
      exact .inr ⟨_, rfl, rfl, rfl⟩
  | deferOperation session h =>
    obtain ⟨o, -, -, -, -, rfl⟩ := Session.deferOperation_ok h
    exact .of_update rfl fun _ => ⟨rfl, rfl⟩
  | recordOperationAccepted session h =>
    obtain ⟨o, -, -, -, -, -, rfl⟩ := Session.recordOperationAccepted_ok h
    exact .of_update rfl fun _ => ⟨rfl, rfl⟩
  | renewOperationClaim found h =>
    obtain ⟨o, leaseMs, -, rfl⟩ := Session.renewOperationClaim_ok h
    exact .of_eq rfl
  | recordOperationRetry session h =>
    obtain ⟨o, status, -, -, -, rfl⟩ := Session.recordOperationRetry_ok h
    exact .of_update rfl fun _ => ⟨rfl, rfl⟩
  | recordOperationPendingResult session h =>
    obtain ⟨o, -, -, -, -, hresult⟩ := Session.recordOperationPendingResult_ok h
    refine .of_update (congrArg (·.operationAttempts) hresult) fun _ => ?_
    exact ⟨rfl, rfl⟩
  | completeWithdrawal session phase kind target h =>
    obtain ⟨o, row, events, s₁, e, -, -, -, -, hwithdraw, -, -, -, hresult⟩ :=
      Session.completeWithdrawal_ok h
    have htarget : s₁.operationAttempts = s.operationAttempts := by
      rcases Session.withdrawTarget_ok hwithdraw with ⟨-, -, rfl⟩ | ⟨-, e₁, -, -, -, hs₁⟩
      · rfl
      · rw [hs₁, Session.operationAttempts_settled]
    refine .of_based ((s₁.operationAttempts_settled clock _ _ _ e).trans htarget)
      (congrArg (·.operationAttempts) hresult) fun _ => ?_
    exact ⟨rfl, rfl⟩
  | completeOperation session terminal h =>
    obtain ⟨o, e, -, -, -, -, -, hresult⟩ := Session.completeOperation_ok h
    refine .of_based (s.operationAttempts_settled clock _ _ _ e)
      (congrArg (·.operationAttempts) hresult) fun _ => ?_
    exact ⟨rfl, rfl⟩
  | deleteExpiredOperationRequest h =>
    simp only [Session.deleteExpiredOperationRequest] at h
    split at h <;> cases h <;> exact .of_eq rfl
  | _ => exact .of_eq (leaves rfl).operationAttempts

end

section

variable {codec : Codec} {trace : List Entry} {db : Db}

/-- An attempt has the id and the token of an issued claim. -/
def AttemptsClaimed (trace : List Entry) (s : Session) : Prop :=
  ∀ a ∈ s.operationAttempts, ∃ claim ∈ operationClaims trace,
    claim.attemptId = a.id ∧ claim.leaseToken = a.leaseToken

theorem AttemptsClaimed.mono {entry : Entry} {s : Session} (h : AttemptsClaimed trace s) :
    AttemptsClaimed (trace ++ [entry]) s := by
  intro a ha
  obtain ⟨claim, hclaim, hkey⟩ := h a ha
  rw [operationClaims_concat]
  exact ⟨claim, List.mem_append_left _ hclaim, hkey⟩

theorem attemptsClaimed_rule (codec : Codec) : SessionRule codec AttemptsClaimed where
  create trace clock session absent unclaimed := fun a ha => absurd ha List.not_mem_nil
  step trace db call clock reply s s' registered admissible step h := by
    intro a' ha'
    rcases step.attemptsFrom a' ha' with ⟨a, ha, hid, htoken⟩ | ⟨claim, hreply, hid, htoken⟩
    · obtain ⟨claim, hclaim, hid', htoken'⟩ := h.mono a ha
      exact ⟨claim, hclaim, hid'.trans hid, htoken'.trans htoken⟩
    · refine ⟨claim, ?_, hid, htoken⟩
      rw [operationClaims_concat]
      exact List.mem_append_right _
        (Option.mem_toList.mpr (issuedOperationClaim_reply.mpr hreply))
  foreign trace entry s foreign h := h.mono
  due trace s id f due h := h

/-- No two claims have the same token. -/
theorem Run.claim_unique (run : Run codec trace db) {claim claim' : ClaimedOperation}
    (h : claim ∈ operationClaims trace) (h' : claim' ∈ operationClaims trace)
    (token : claim.leaseToken = claim'.leaseToken) : claim = claim' := by
  induction run with
  | start => exact absurd h List.not_mem_nil
  | step call clock run admissible ih =>
    rename_i trace db
    rw [operationClaims_concat] at h h'
    have hnew {c : ClaimedOperation}
        (hc : c ∈ (Entry.issuedOperationClaim ⟨call, clock, (exec codec clock db call).1⟩).toList) :=
      issuedOperationClaim_reply.mp (Option.mem_toList.mp hc)
    have hdrawn := run.registered.operationTokens
    rcases List.mem_append.mp h with hold | hissued
    · rcases List.mem_append.mp h' with hold' | hissued'
      · exact ih hold hold'
      · exact absurd (token.trans (run.claimed_token (hnew hissued'))) (hdrawn claim hold).ne
    · rcases List.mem_append.mp h' with hold' | hissued'
      · exact absurd (token.symm.trans (run.claimed_token (hnew hissued))) (hdrawn claim' hold').ne
      · have := (hnew hissued).symm.trans (hnew hissued')
        cases this
        rfl

/-- A claim that holds its operation ends one attempt. -/
theorem Run.ends_once (run : Run codec trace db) {s : Session} (hs : s ∈ db.sessions)
    {claim : ClaimedOperation} (issued : claim ∈ operationClaims trace)
    (session : claim.operation.sessionId = s.id) {clock : Clock} {o : OperationRow}
    (held : s.HoldsOperation clock claim o) : s.operationAttempts.countP claim.ends = 1 := by
  have hinvariant := run.ledgerInvariant hs
  have hknown := hinvariant.known claim issued session
  have hclaimed := run.forall_sessions (attemptsClaimed_rule codec) s hs
  obtain ⟨ho, hheld⟩ := held.heldBy
  have hrunning := (hinvariant.sound.views o ho).running
  rw [hheld.token] at hrunning
  obtain ⟨a, ha, htoken⟩ := List.map_eq_singleton_iff.mp hrunning
  have hruns : ∀ b ∈ s.operationAttempts, claim.ends b = true → Ledger.runs o.id b = true := by
    intro b hb hends
    have hop : b.operationId = o.id := (hknown.own hb hends).trans hheld.id
    simp only [ClaimedOperation.ends, Bool.and_eq_true, decide_eq_true_eq] at hends
    simp [Ledger.runs, hends.2, hop]
  have hown : claim.ends a = true := by
    have hmem : a ∈ s.operationAttempts.filter (Ledger.runs o.id) := ha ▸ List.mem_cons_self
    obtain ⟨hin, hrun⟩ := List.mem_filter.mp hmem
    obtain ⟨claim', hissued, hid, htoken'⟩ := hclaimed a hin
    have := run.claim_unique hissued issued (htoken'.trans htoken)
    subst this
    simp only [Ledger.runs, Bool.and_eq_true, decide_eq_true_eq] at hrun
    simp [ClaimedOperation.ends, hid, htoken, hrun.2]
  have hfilter : s.operationAttempts.filter claim.ends = [a] := by
    have hsub : s.operationAttempts.filter claim.ends =
        (s.operationAttempts.filter (Ledger.runs o.id)).filter claim.ends := by
      rw [List.filter_filter]
      refine List.filter_congr fun b hb => ?_
      by_cases hends : claim.ends b = true
      · rw [hends, hruns b hb hends]
        rfl
      · simp [hends]
    have hrunning' : s.operationAttempts.filter (Ledger.runs o.id) = [a] := ha
    rw [hsub, hrunning']
    simp [hown]
  rw [List.countP_eq_length_filter, hfilter]
  rfl

end

end AgentPlatform.Store
