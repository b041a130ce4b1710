import AgentPlatform.Store.Ledger

/-!
# The transactions step the ledger

For each transaction, what its success does to the ledger of the session it locks. A worker's record
is fenced by the lease token, so it ends the one attempt that runs for its operation.
-/

namespace AgentPlatform.Store

open Ledger

/-! ## A record under a claim -/

section

variable {base : Uuid} {call : StoreCall} {reply : Reply} {l : Ledger} {claim : ClaimedOperation}

/-- The attempts that a claim ends are of its operation. -/
theorem Ledger.Knows.own (known : l.Knows claim) {a : OperationAttemptRow} (ha : a ∈ l.attempts)
    (ends : claim.ends a = true) : a.operationId = claim.operation.id := by
  simp only [ClaimedOperation.ends, Bool.and_eq_true, decide_eq_true_eq] at ends
  exact known.token a ha ends.1.2

/-- A claim that holds its operation ends the one attempt that runs for it. -/
theorem Ledger.Sound.ends_running (sound : l.Sound) (known : l.Knows claim) {o : OperationRow}
    (ho : o ∈ l.operations) (held : (l.view o).HeldBy claim)
    (count : l.attempts.countP claim.ends = 1) :
    ∀ a ∈ l.attempts, runs o.id a = true → claim.ends a = true := by
  have hrunning := (sound.views o ho).running
  rw [held.token] at hrunning
  have hlength : (l.attempts.filter (runs o.id)).length = 1 := by
    have := congrArg List.length hrunning
    simpa [view] using this
  obtain ⟨b, hb⟩ := List.length_eq_one_iff.mp hlength
  obtain ⟨a₁, ha₁, hends⟩ := List.countP_pos_iff.mp (count ▸ Nat.one_pos)
  have hruns₁ : runs o.id a₁ = true := by
    have hop := known.own ha₁ hends
    simp only [ClaimedOperation.ends, Bool.and_eq_true, decide_eq_true_eq] at hends
    simp [runs, hends.2, hop, held.id]
    rfl
  have hsingle : ∀ a ∈ l.attempts, runs o.id a = true → a = b := by
    intro a ha hruns
    have : a ∈ l.attempts.filter (runs o.id) := List.mem_filter.mpr ⟨ha, hruns⟩
    rw [hb] at this
    exact List.mem_singleton.mp this
  intro a ha hruns
  rw [hsingle a ha hruns, ← hsingle a₁ ha₁ hruns₁]
  exact hends

/-- The operation that a claim holds in a session. -/
theorem Session.HoldsOperation.heldBy {s : Session} {clock : Clock} {o : OperationRow}
    (h : s.HoldsOperation clock claim o) :
    o ∈ s.ledger.operations ∧ (s.ledger.view o).HeldBy claim := by
  obtain ⟨lease, hlease, htoken, -⟩ := h.leased
  have hid : o.id = claim.operation.id := by simpa using List.find?_some h.found
  refine ⟨List.mem_of_find?_eq_some h.found, hid.symm, ?_⟩
  simp [view, hlease, htoken]

/-- A record that keeps its rows' ids. -/
theorem Ledger.record_ids {id : OperationId} {f : OperationRow → OperationRow}
    {ends : OperationAttemptRow → Bool} {g : OperationAttemptRow → OperationAttemptRow}
    {announced : List (Option OperationId × RawJson)} (keeps : ∀ o, (f o).id = o.id) :
    (l.record id f ends g announced).operations.map (·.id) = l.operations.map (·.id) :=
  Table.map_update_of_eq keeps _

/-- A record under a claim is a step when it is one of its operation. -/
theorem Ledger.step_record (sound : l.Sound) (known : l.Knows claim) {o : OperationRow}
    (ho : o ∈ l.operations) (held : (l.view o).HeldBy claim)
    (count : l.attempts.countP claim.ends = 1) {f : OperationRow → OperationRow}
    {g : OperationAttemptRow → OperationAttemptRow} (keeps : ∀ o, (f o).id = o.id)
    (finishes : Finishes g) (payloads : List RawJson)
    (quiet : ∀ claim, reply ≠ .claimedOperation (some claim))
    (step : OperationStep base call reply (l.view o)
      { row := f o, running := [], announced := (l.view o).announced ++ payloads }) :
    Ledger.Step base call reply [] l
      (l.record claim.operation.id f claim.ends g
        (payloads.map fun p => (some claim.operation.id, p))) where
  ids := by simpa using Ledger.record_ids keeps
  follows o' ho' := by
    by_cases hid : o'.id = claim.operation.id
    · have hsame : o' = o := Table.eq_of_key sound.unique ho' ho (hid.trans held.id)
      subst hsame
      refine ⟨f o', Table.mem_update.mpr ⟨o', ho', by simp [hid]⟩, ?_⟩
      have hview := Ledger.view_record_own (keeps o') finishes
        (sound.ends_running known ho held count) payloads
      rw [hid] at hview
      rw [hview]
      exact step
    · refine ⟨o', Table.mem_update.mpr ⟨o', ho', by simp [hid]⟩, ?_⟩
      rw [Ledger.view_record_other finishes hid (fun a ha hends => known.own ha hends)
        (by simp)]
      exact .same rfl rfl rfl
  staged o ho := absurd ho List.not_mem_nil
  attempts a ha := by
    obtain ⟨a₀, ha₀, rfl⟩ := Table.mem_update.mp ha
    refine .inl ⟨a₀, ha₀, ?_⟩
    split
    · exact ⟨finishes.operation a₀, finishes.token a₀⟩
    · exact ⟨rfl, rfl⟩
  completions c hc := by
    rcases List.mem_append.mp hc with hold | hnew
    · exact .inl hold
    · obtain ⟨p, -, rfl⟩ := List.mem_map.mp hnew
      exact .inr ⟨o, ho, congrArg some held.id⟩
  issued claim h := absurd h (quiet claim)

/-- A record under a claim after another operation was rewritten, whose attempts are left alone. -/
theorem Ledger.step_record_pair (sound : l.Sound) (known : l.Knows claim) {o : OperationRow}
    (ho : o ∈ l.operations) (held : (l.view o).HeldBy claim)
    (count : l.attempts.countP claim.ends = 1) {f : OperationRow → OperationRow}
    {g : OperationAttemptRow → OperationAttemptRow} (keeps : ∀ o, (f o).id = o.id)
    (finishes : Finishes g) {p : RawJson}
    (quiet : ∀ claim, reply ≠ .claimedOperation (some claim))
    (step : OperationStep base call reply (l.view o)
      { row := f o, running := [], announced := (l.view o).announced ++ [p] })
    {t : OperationRow} (ht : t ∈ l.operations) (other : t.id ≠ claim.operation.id)
    {f' : OperationRow → OperationRow} {p' : RawJson} (keeps' : ∀ o, (f' o).id = o.id)
    (step' : OperationStep base call reply (l.view t)
      { l.view t with row := f' t, announced := (l.view t).announced ++ [p'] }) :
    Ledger.Step base call reply [] l
      ((l.record t.id f' (fun _ => false) g [(some t.id, p')]).record claim.operation.id f
        claim.ends g [(some claim.operation.id, p)]) := by
  have hattempts : (l.record t.id f' (fun _ => false) g [(some t.id, p')]).attempts =
      l.attempts := Table.update_of_none fun _ _ => rfl
  generalize hfirst : l.record t.id f' (fun _ => false) g [(some t.id, p')] = l₁ at hattempts
  have hids : l₁.operations.map (·.id) = l.operations.map (·.id) := by
    rw [← hfirst]
    exact Ledger.record_ids keeps'
  have hmem : ∀ o' ∈ l.operations, (if o'.id = t.id then f' o' else o') ∈ l₁.operations := by
    intro o' ho'
    rw [← hfirst]
    exact Table.mem_update.mpr ⟨o', ho', by simp⟩
  have hsecond : ∀ o' ∈ l₁.operations, (if o'.id = claim.operation.id then f o' else o') ∈
      (l₁.record claim.operation.id f claim.ends g [(some claim.operation.id, p)]).operations :=
    fun o' ho' => Table.mem_update.mpr ⟨o', ho', by simp⟩
  have hsame : ∀ o' : OperationRow, o'.id ≠ claim.operation.id →
      (l₁.record claim.operation.id f claim.ends g [(some claim.operation.id, p)]).view o' =
        l₁.view o' := by
    intro o' hne
    exact Ledger.view_record_other finishes hne
      (fun a ha hends => known.own (hattempts ▸ ha) hends) (by simp)
  have huntouched : ∀ o' : OperationRow, o'.id ≠ t.id → l₁.view o' = l.view o' := by
    intro o' hne
    rw [← hfirst]
    exact Ledger.view_record_other finishes hne nofun (by simp)
  refine
    { ids := ?_
      follows := fun o' ho' => ?_
      staged := fun o ho => absurd ho List.not_mem_nil
      attempts := fun a ha => ?_
      completions := fun c hc => ?_
      issued := fun claim h => absurd h (quiet claim) }
  · rw [Ledger.record_ids keeps, hids]
    exact (List.append_nil _).symm
  · by_cases hself : o'.id = claim.operation.id
    · have := Table.eq_of_key sound.unique ho' ho (hself.trans held.id)
      subst this
      have hne : o'.id ≠ t.id := fun heq => other (heq.symm.trans hself)
      have hin := hmem o' ho'
      rw [if_neg hne] at hin
      have hin' := hsecond o' hin
      rw [if_pos hself] at hin'
      refine ⟨f o', hin', ?_⟩
      have hview := Ledger.view_record_own (l := l₁) (keeps o') finishes
        (hattempts ▸ sound.ends_running known ho held count) [p]
      rw [huntouched o' hne, hself] at hview
      exact hview ▸ step
    · by_cases htarget : o'.id = t.id
      · have := Table.eq_of_key sound.unique ho' ht htarget
        subst this
        have hin := hmem o' ho'
        rw [if_pos rfl] at hin
        have hin' := hsecond (f' o') hin
        rw [if_neg (by rw [keeps']; exact hself)] at hin'
        refine ⟨f' o', hin', ?_⟩
        have hview := Ledger.view_record_untouched (l := l) (g := g) (keeps' o')
          (fun _ _ => Eq.refl false) [p']
        rw [hsame (f' o') (by rw [keeps']; exact hself), ← hfirst]
        exact hview ▸ step'
      · have hin := hmem o' ho'
        rw [if_neg htarget] at hin
        have hin' := hsecond o' hin
        rw [if_neg hself] at hin'
        refine ⟨o', hin', ?_⟩
        rw [hsame o' hself, huntouched o' htarget]
        exact .same rfl rfl rfl
  · obtain ⟨a₀, ha₀, rfl⟩ := Table.mem_update.mp ha
    refine .inl ⟨a₀, hattempts ▸ ha₀, ?_⟩
    split
    · exact ⟨finishes.operation a₀, finishes.token a₀⟩
    · exact ⟨rfl, rfl⟩
  · rcases List.mem_append.mp hc with hfirst' | hlast
    · rw [← hfirst] at hfirst'
      rcases List.mem_append.mp hfirst' with hold | hnew
      · exact .inl hold
      · rw [List.mem_singleton.mp hnew]
        exact .inr ⟨t, ht, rfl⟩
    · rw [List.mem_singleton.mp hlast]
      exact .inr ⟨o, ho, congrArg some held.id⟩

/-- A rewriting of rows that only moves times. -/
theorem Ledger.step_touch {p : OperationRow → Bool} {f : OperationRow → OperationRow}
    {l' : Ledger} (operations : l'.operations = Table.update p f l.operations)
    (touches : ∀ o, (f o).essence = o.essence)
    (attempts : l'.attempts = l.attempts) (completions : l'.completions = l.completions)
    (quiet : ∀ claim, reply ≠ .claimedOperation (some claim)) :
    Ledger.Step base call reply [] l l' where
  ids := by
    rw [operations, Table.map_update_of_eq fun o => (OperationRow.essence_eq (touches o)).1]
    simp
  follows o ho := by
    have hmem : (if p o then f o else o) ∈ l'.operations := by
      rw [operations]
      exact Table.mem_update.mpr ⟨o, ho, rfl⟩
    refine ⟨_, hmem, ?_⟩
    have hessence : (if p o then f o else o).essence = o.essence := by
      split
      · exact touches o
      · rfl
    have hid := (OperationRow.essence_eq hessence).1
    refine .same hessence ?_ ?_
    · simp only [view, attempts, hid]
    · simp only [view, completions, hid]
  staged o ho := absurd ho List.not_mem_nil
  attempts a ha := .inl ⟨a, attempts ▸ ha, rfl, rfl⟩
  completions c hc := .inl (completions ▸ hc)
  issued claim h := absurd h (quiet claim)

/-- A call that leaves the ledger alone. -/
theorem Ledger.step_same {l' : Ledger} (h : l' = l)
    (quiet : ∀ claim, reply ≠ .claimedOperation (some claim)) :
    Ledger.Step base call reply [] l l' := by
  subst h
  exact Ledger.step_touch (p := fun _ => false) (f := id)
    (Table.update_of_none fun _ _ => rfl).symm (fun _ => rfl) rfl rfl quiet

end

/-! ## Claims and commits -/

/-- A claim is a step. -/
theorem Ledger.step_claim {base : Uuid} {l : Ledger} (sound : l.Sound) {o : OperationRow}
    (ho : o ∈ l.operations) {phase : OperationPhase} {locked : SessionId → Bool} {leaseFor : Nat}
    (eligible : phase.eligible o = true) {claim : ClaimedOperation}
    (issued : o.IssuedAs base phase claim) {lease : Lease} (token : lease.token = base)
    {g : OperationAttemptRow → OperationAttemptRow} (finishes : Finishes g)
    {a : OperationAttemptRow} (operation : a.operationId = o.id) (running : a.status = .running)
    (attemptToken : a.leaseToken = base) :
    Ledger.Step base (.claimOperation locked phase leaseFor) (.claimedOperation (some claim)) [] l
      (l.claim o.id lease g a) := by
  obtain ⟨lease', sessionId, hrecord⟩ := issued.record
  have hid : claim.operation.id = o.id := by rw [hrecord]; rfl
  have hkind : claim.operation.kind = o.kind := by rw [hrecord]; rfl
  have hkey : claim.operation.gatewayIdempotencyKey = o.gatewayIdempotencyKey := by
    rw [hrecord]
    rfl
  refine
    { ids := ?_
      follows := fun o' ho' => ?_
      staged := fun o' ho' => absurd ho' List.not_mem_nil
      attempts := fun a' ha' => ?_
      completions := fun c hc => .inl ?_
      issued := fun claim' hclaim => ?_ }
  · have hids : (l.record o.id (·.claimed lease) (runs o.id) g []).operations.map (·.id) =
        l.operations.map (·.id) := Ledger.record_ids fun _ => rfl
    exact hids.trans (List.append_nil _).symm
  · by_cases hsame : o'.id = o.id
    · have := Table.eq_of_key sound.unique ho' ho hsame
      subst this
      refine ⟨o'.claimed lease, Table.mem_update.mpr ⟨o', ho', by simp⟩, ?_⟩
      rw [Ledger.view_claim_own finishes operation running, attemptToken]
      exact .claimed (v := l.view o') lease eligible token issued
    · refine ⟨o', Table.mem_update.mpr ⟨o', ho', by simp [hsame]⟩, ?_⟩
      rw [Ledger.view_claim_other finishes hsame operation]
      exact .same rfl rfl rfl
  · rcases List.mem_append.mp ha' with hold | hnew
    · obtain ⟨a₀, ha₀, rfl⟩ := Table.mem_update.mp hold
      refine .inl ⟨a₀, ha₀, ?_⟩
      split
      · exact ⟨finishes.operation a₀, finishes.token a₀⟩
      · exact ⟨rfl, rfl⟩
    · rw [List.mem_singleton.mp hnew]
      exact .inr ⟨attemptToken, claim, rfl, operation.trans hid.symm⟩
  · simpa [Ledger.claim, Ledger.record] using hc
  · cases hclaim
    exact ⟨issued.token, o, ho, hid.symm, hkind.symm, hkey.symm⟩

section

variable {codec : Codec} {clock : Clock} {s s' : Session} {base : Uuid}

theorem Session.claimOperation_step {o : OperationRow} {phase : OperationPhase}
    {locked : SessionId → Bool} {leaseFor : Nat} (sound : s.ledger.Sound) (ho : o ∈ s.operations)
    (claimable : o.claimable clock phase = true) (attemptId : Uuid) (leaseMs : Int) :
    Ledger.Step base (.claimOperation locked phase leaseFor)
      (.claimedOperation (some (s.claimOperation clock o phase base attemptId leaseMs).1)) []
      s.ledger (s.claimOperation clock o phase base attemptId leaseMs).2.ledger := by
  have heligible : phase.eligible o = true := by
    simp only [OperationRow.claimable, Bool.and_eq_true] at claimable
    exact claimable.1.1
  rw [Session.ledger_of_sansUpdates (Session.claimOperation_eq ..)]
  generalize hclaim : (s.claimOperation clock o phase base attemptId leaseMs).1 = claim
  have hissued : o.IssuedAs base phase claim := by
    rw [← hclaim]
    exact ⟨⟨_, _, rfl⟩, rfl, rfl, rfl⟩
  let lease : Lease := { token := base, expiresAt := clock.after 1 leaseMs }
  let attempt := OperationAttemptRow.new clock attemptId o.id claim.attemptNumber phase base
  let finish (a : OperationAttemptRow) : OperationAttemptRow :=
    { a with status := .unknown, finishedAt := some clock.now }
  have hfinishes : Finishes finish := ⟨fun _ => rfl, fun _ => rfl, fun _ h => by cases h⟩
  have hstep : Ledger.Step base (.claimOperation locked phase leaseFor)
      (.claimedOperation (some claim)) [] s.ledger (s.ledger.claim o.id lease finish attempt) :=
    Ledger.step_claim sound ho heligible hissued rfl hfinishes rfl rfl rfl
  exact hstep

/-- Cancelled waits announce no completion. -/
theorem Session.cancelWaits_completions {waitIds : List WaitId} {tick : Nat}
    {eventId : EventId} {sequence next : EventSequence}
    (h : cancelWaits clock waitIds tick eventId sequence s = .ok (next, s')) :
    s'.completions = s.completions := by
  induction waitIds generalizing tick eventId sequence s with
  | nil =>
    cases h
    rfl
  | cons waitId waitIds ih =>
    unfold Session.cancelWaits at h
    split at h
    · cases h
    · split at h
      · exact ih h
      · split at h
        · cases h
        · rename_i hfinish
          have hwait := (Session.finishWait_leavesWork hfinish fun _ => rfl).completions
          have hrest := ih h
          exact hrest.trans hwait

/-- Staged operations have ids that no operation had. -/
theorem Session.stageOperations_fresh {claim : HandlerClaim} {taken : OperationId → Bool}
    {operations : List NewOperation}
    (h : stageOperations codec clock claim taken operations s = .ok s') :
    (operations.map (·.id)).Nodup ∧ ∀ operation ∈ operations,
      taken operation.id = false ∧ ∀ o ∈ s.operations, o.id ≠ operation.id := by
  induction operations generalizing s with
  | nil => exact ⟨List.nodup_nil, fun _ h => absurd h List.not_mem_nil⟩
  | cons operation operations ih =>
    simp only [Session.stageOperations] at h
    split at h
    · cases h
    · split at h
      · cases h
      · rename_i hfree
        simp only [Bool.or_eq_true, not_or, Bool.not_eq_true, List.any_eq_false,
          decide_eq_true_eq] at hfree
        split at h
        · cases h
        · obtain ⟨hnodup, hfresh⟩ := ih h
          refine ⟨?_, ?_⟩
          · rw [List.map_cons, List.nodup_cons]
            refine ⟨fun hin => ?_, hnodup⟩
            obtain ⟨other, hother, heq⟩ := List.mem_map.mp hin
            have := (hfresh other hother).2 (operation.row codec clock claim)
              (List.mem_append_right _ List.mem_cons_self)
            exact this heq.symm
          · intro other hother
            rcases List.mem_cons.mp hother with rfl | hrest
            · exact hfree
            · obtain ⟨htaken, hothers⟩ := hfresh other hrest
              exact ⟨htaken, fun o ho => hothers o (List.mem_append_left _ ho)⟩

/-- Cancelled waits leave the ledger. -/
theorem Session.cancelWaits_ledger {waitIds : List WaitId} {tick : Nat} {eventId : EventId}
    {sequence next : EventSequence}
    (h : cancelWaits clock waitIds tick eventId sequence s = .ok (next, s')) :
    s'.ledger = s.ledger := by
  have hcompletions := Session.cancelWaits_completions h
  have hframe := Session.cancelWaits_frame h
  have hoperations : s'.operations = s.operations := congrArg (·.operations) hframe
  have hattempts : s'.operationAttempts = s.operationAttempts :=
    congrArg (·.operationAttempts) hframe
  rw [Session.ledger, hoperations, hattempts, hcompletions]
  rfl

theorem Session.stageOperations_ledger {claim : HandlerClaim} {taken : OperationId → Bool}
    {operations : List NewOperation}
    (h : stageOperations codec clock claim taken operations s = .ok s') :
    s'.ledger =
      { s.ledger with
        operations := s.ledger.operations ++ operations.map (·.row codec clock claim) } := by
  rw [Session.ledger_of_sansUpdates (Session.stageOperations_frame h),
    Session.stageOperations_rows h]
  rfl

/-- A commit adds the operations of its outcome to the ledger. -/
theorem Session.Commit.ledger {taken : TakenIds} {eventId : EventId} {claim : HandlerClaim}
    {outcome : OutcomeCommit} (c : s.Commit codec clock taken eventId claim outcome s') :
    s'.ledger =
      { s.ledger with
        operations := s.ledger.operations ++
          outcome.operations.map (·.row codec clock claim) } := by
  have happended : c.appended.ledger = s.ledger := by
    rw [Session.appendHistory_frame c.history]
    rfl
  have hwaiting : c.waiting.ledger = c.staged.ledger := by
    rw [Session.ledger_of_sansUpdates (Session.createWaits_frame c.waits)]
    rfl
  have hsaved : (c.cancelled.saved clock claim outcome c.historySequence c.eventSequence).ledger =
      c.cancelled.ledger := by
    have hcompletions := c.cancelled.completions_updateEvents (·.id = claim.eventId)
      (f := fun e => { e with status := .handled, handledAt := some clock.now, lastError := none })
      fun _ => rfl
    exact congrArg (Ledger.mk c.cancelled.operations c.cancelled.operationAttempts) hcompletions
  rw [Session.ledger_of_sansUpdates c.result, hsaved, Session.cancelWaits_ledger c.cancellations,
    hwaiting, Session.stageOperations_ledger c.operations,
    Session.ledger_of_sansUpdates (Session.sansUpdates_announceHistory ..), happended]

/-- Rows that no other session and no operation of this one has the ids of. -/
structure Session.Stages (db : Db) (s : Session) (staged : List OperationRow) : Prop where
  distinct : (staged.map (·.id)).Nodup
  fresh : ∀ o ∈ staged, ∀ o' ∈ s.operations, o'.id ≠ o.id
  elsewhere : ∀ o ∈ staged, ∀ t ∈ db.sessions, t.id ≠ s.id → ∀ o' ∈ t.operations, o'.id ≠ o.id

theorem Session.Stages.none (db : Db) (s : Session) : s.Stages db [] :=
  ⟨List.nodup_nil, fun _ h => absurd h List.not_mem_nil, fun _ h => absurd h List.not_mem_nil⟩

/-- Newly staged rows are a step. -/
theorem Ledger.step_stage {call : StoreCall} {reply : Reply} {l : Ledger}
    {staged : List OperationRow} (fresh : ∀ o ∈ staged, o.Fresh)
    (quiet : ∀ claim, reply ≠ .claimedOperation (some claim)) :
    Ledger.Step base call reply staged l { l with operations := l.operations ++ staged } where
  ids := List.map_append
  follows o ho := ⟨o, List.mem_append_left _ ho, .same rfl rfl rfl⟩
  staged o ho := ⟨List.mem_append_right _ ho, fresh o ho⟩
  attempts a ha := .inl ⟨a, ha, rfl, rfl⟩
  completions _ hc := .inl hc
  issued claim h := absurd h (quiet claim)

theorem Session.commitHandlerOutcome_stages {db : Db} {call : StoreCall} {reply : Reply}
    {eventId : EventId} {claim : HandlerClaim} {outcome : OutcomeCommit} {r : Unit}
    (h : s.commitHandlerOutcome codec clock (db.takenIds s.id) eventId claim outcome = .ok (r, s'))
    (quiet : ∀ claim, reply ≠ .claimedOperation (some claim)) :
    ∃ staged, Ledger.Step base call reply staged s.ledger s'.ledger ∧ s.Stages db staged := by
  obtain ⟨c⟩ := Session.commitHandlerOutcome_ok h
  obtain ⟨hnodup, hfresh⟩ := Session.stageOperations_fresh c.operations
  have hold : (c.appended.announceHistory clock claim outcome.history.length
      c.historySequence).operations = s.operations := by
    have happended : c.appended.operations = s.operations := by
      rw [Session.appendHistory_frame c.history]
    exact (congrArg (·.operations) (Session.sansUpdates_announceHistory ..)).trans happended
  refine ⟨outcome.operations.map (·.row codec clock claim), ?_, ?_, ?_, ?_⟩
  · rw [c.ledger]
    refine Ledger.step_stage (fun o ho => ?_) quiet
    obtain ⟨operation, -, rfl⟩ := List.mem_map.mp ho
    exact ⟨rfl, rfl, rfl, rfl⟩
  · rw [List.map_map]
    exact hnodup
  · intro o ho o' ho'
    obtain ⟨operation, hoperation, rfl⟩ := List.mem_map.mp ho
    exact (hfresh operation hoperation).2 o' (hold ▸ ho')
  · intro o ho t ht hother o' ho' heq
    obtain ⟨operation, hoperation, rfl⟩ := List.mem_map.mp ho
    have htaken := (hfresh operation hoperation).1
    simp only [Db.takenIds, List.any_eq_false] at htaken
    have hin : t ∈ db.others s.id := List.mem_filter.mpr ⟨ht, by simpa using hother⟩
    have := htaken t hin
    simp only [List.any_eq_true, not_exists, not_and] at this
    exact this o' ho' (decide_eq_true heq)

end

/-! ## Records -/

section

variable {clock : Clock} {s s' : Session} {base : Uuid} {claim : ClaimedOperation}
  {call : StoreCall} {reply : Reply}

theorem Session.recorded_ledger (s : Session) (claim : ClaimedOperation)
    (f : OperationRow → OperationRow) (g : OperationAttemptRow → OperationAttemptRow) :
    (s.recorded claim f g).ledger = s.ledger.record claim.operation.id f claim.ends g [] := by
  simp only [Ledger.record, List.append_nil]
  rfl

/-- A settled operation announces its completion. -/
theorem Session.settled_ledger (s : Session) (clock : Clock) (id : OperationId)
    (f : OperationRow → OperationRow) (expiresAt : Option Timestamp) (eventId : EventId)
    (kind : OperationKind) (status : OperationStatus) (sequence : EventSequence)
    (ends : OperationAttemptRow → Bool) (g : OperationAttemptRow → OperationAttemptRow) :
    ((s.settled clock id f expiresAt
        (operationEvent clock eventId id kind status sequence)).updateOperationAttempts ends
        g).ledger =
      s.ledger.record id f ends g [(some id, operationPayload id kind status)] := by
  have hcompletions : (s.events ++ [operationEvent clock eventId id kind status sequence]).filterMap
      (·.completion) = s.completions ++ [(some id, operationPayload id kind status)] :=
    List.filterMap_append
  unfold Ledger.record
  rw [show s.ledger.completions = s.completions from rfl, ← hcompletions]
  cases expiresAt <;> rfl

/-- A worker's record that announces nothing. -/
theorem Session.recorded_step (sound : s.ledger.Sound) (known : s.ledger.Knows claim)
    {o : OperationRow} (held : s.HoldsOperation clock claim o)
    (count : s.operationAttempts.countP claim.ends = 1) {f : OperationRow → OperationRow}
    {g : OperationAttemptRow → OperationAttemptRow}
    (same : s'.sansUpdates = (s.recorded claim f g).sansUpdates) (keeps : ∀ o, (f o).id = o.id)
    (finishes : Finishes g) (quiet : ∀ claim, reply ≠ .claimedOperation (some claim))
    (step : OperationStep base call reply (s.ledger.view o)
      { s.ledger.view o with row := f o, running := [] }) :
    Ledger.Step base call reply [] s.ledger s'.ledger := by
  obtain ⟨ho, hheld⟩ := held.heldBy
  rw [Session.ledger_of_sansUpdates same, Session.recorded_ledger]
  refine Ledger.step_record sound known ho hheld count keeps finishes [] quiet ?_
  rw [List.append_nil]
  exact step

/-- What a withdrawal does to its target, in the ledger. -/
theorem Session.withdrawTarget_ledger {target : OperationRow} {expiresAt : Option Timestamp}
    {eventId : EventId} {events : List EventRow} (g : OperationAttemptRow → OperationAttemptRow)
    (h : s.withdrawTarget clock target expiresAt eventId = .ok (events, s')) :
    (target.withdrawable = false ∧ s'.ledger = s.ledger) ∨
      (target.withdrawable = true ∧ s'.ledger =
        s.ledger.record target.id
          (fun o => { o with status := .cancelled, completedAt := some clock.now, lease := none })
          (fun _ => false) g
          [(some target.id, operationPayload target.id target.kind .cancelled)]) := by
  rcases Session.withdrawTarget_ok h with ⟨hnot, -, rfl⟩ | ⟨hyes, e, -, rfl, -, rfl⟩
  · exact .inl ⟨hnot, rfl⟩
  · refine .inr ⟨hyes, ?_⟩
    have hattempts : ∀ s : Session, s.updateOperationAttempts (fun _ => false) g = s := by
      intro s
      unfold Session.updateOperationAttempts
      rw [Table.update_of_none fun _ _ => rfl]
    rw [← Session.settled_ledger s clock target.id _ expiresAt eventId, hattempts]

/-- A withdrawal ends itself, and its target when that can still be taken back. -/
theorem Session.completeWithdrawal_step {eventId : EventId} {targetId : OperationId}
    {expiresAt : Option Timestamp} {r : Bool × List EventRecord} (sound : s.ledger.Sound)
    (known : s.ledger.Knows claim) (kind : claim.operation.kind = .withdraw)
    (target : claim.operation.targetOperationId = some targetId)
    (h : s.completeWithdrawal clock eventId claim targetId expiresAt = .ok (r, s')) :
    Ledger.Step base (.completeWithdrawal claim expiresAt) (.withdrawn r) [] s.ledger s'.ledger := by
  obtain ⟨o, t, events, s₁, e, hholds, hsubmitting, htarget, -, hwithdraw, rfl, -, hcount, hresult⟩ :=
    Session.completeWithdrawal_ok h
  obtain ⟨ho, hheld⟩ := hholds.heldBy
  have htid : t.id = targetId := by simpa using List.find?_some htarget
  have ht : t ∈ s.ledger.operations := List.mem_of_find?_eq_some htarget
  have hkind : o.kind = .withdraw := by
    obtain ⟨o', ho', hid, hkind, -⟩ := known.staged
    rw [← Table.eq_of_key sound.unique ho' ho (hid.trans hheld.id)]
    exact hkind.trans kind
  -- The rewriting of the withdrawal itself, whatever became of its target.
  let f (o : OperationRow) : OperationRow :=
    { o with
      result := some (withdrawalResult t.withdrawable), status := .succeeded
      completedAt := some clock.now, lease := none }
  let g (a : OperationAttemptRow) : OperationAttemptRow :=
    { a with
      status := .succeeded, httpStatus := none, error := none, finishedAt := some clock.now }
  have hfinishes : Finishes g := ⟨fun _ => rfl, fun _ => rfl, fun _ h => by cases h⟩
  have hself : OperationStep base (.completeWithdrawal claim expiresAt) (.withdrawn r)
      (s.ledger.view o) { row := f o, running := [], announced := (s.ledger.view o).announced ++
        [operationPayload claim.operation.id .withdraw .succeeded] } := by
    rw [hheld.id]
    exact .withdrew clock.now t.withdrawable hheld hkind hsubmitting
  have hledger : s'.ledger = s₁.ledger.record claim.operation.id f claim.ends g
      [(some claim.operation.id, operationPayload claim.operation.id .withdraw .succeeded)] := by
    rw [Session.ledger_of_sansUpdates hresult]
    exact Session.settled_ledger ..
  rcases Session.withdrawTarget_ledger g hwithdraw with ⟨-, hsame⟩ | ⟨hyes, htook⟩
  · rw [hledger, hsame]
    refine Ledger.step_record sound known ho hheld hcount ?_ hfinishes
      [operationPayload claim.operation.id .withdraw .succeeded] ?_ hself
    · exact fun _ => rfl
    · intro claim hreply
      cases hreply
  · have hpending : t.status = .pending := by
      simp only [OperationRow.withdrawable, Bool.and_eq_true, decide_eq_true_eq] at hyes
      exact hyes.1
    have hne : t.id ≠ claim.operation.id := by
      intro heq
      have := Table.eq_of_key sound.unique ht ho (heq.trans hheld.id)
      rw [this, hsubmitting] at hpending
      cases hpending
    rw [hledger, htook]
    refine Ledger.step_record_pair sound known ho hheld hcount (f := f) ?_ hfinishes
      (p := operationPayload claim.operation.id .withdraw .succeeded) ?_ hself ht hne ?_ ?_
    · exact fun _ => rfl
    · intro claim hreply
      cases hreply
    · exact fun _ => rfl
    · exact .withdrawn clock.now (target.trans (congrArg some htid.symm)) hyes

/-- A completion ends its operation, with the kind that the operation was staged with. -/
theorem Session.completeOperation_step {eventId : EventId} {status : OperationStatus}
    {result : Option RawJson} {error : Option Value} {expiresAt : Option Timestamp}
    {httpStatus : Option Int} {r : EventRecord} (sound : s.ledger.Sound)
    (known : s.ledger.Knows claim) (terminal : status.terminal = true)
    (h : s.completeOperation clock eventId claim status result error expiresAt httpStatus =
      .ok (r, s')) :
    Ledger.Step base (.completeOperation claim status result error expiresAt httpStatus)
      (.completed r) [] s.ledger s'.ledger := by
  obtain ⟨o, e, hholds, hallowed, rfl, -, hcount, hresult⟩ := Session.completeOperation_ok h
  obtain ⟨ho, hheld⟩ := hholds.heldBy
  have hkind : o.kind = claim.operation.kind := by
    obtain ⟨o', ho', hid, hkind, -⟩ := known.staged
    rw [← Table.eq_of_key sound.unique ho' ho (hid.trans hheld.id)]
    exact hkind
  rw [Session.ledger_of_sansUpdates hresult, Session.settled_ledger]
  let f (o : OperationRow) : OperationRow :=
    { o with result, error, status, completedAt := some clock.now, lease := none }
  have hself : OperationStep base
      (.completeOperation claim status result error expiresAt httpStatus) (.completed r)
      (s.ledger.view o) { row := f o, running := [], announced := (s.ledger.view o).announced ++
        [operationPayload claim.operation.id claim.operation.kind status] } := by
    rw [hheld.id, ← hkind]
    exact .completed clock.now hheld terminal hallowed
  refine Ledger.step_record sound known ho hheld hcount (f := f) ?_ ?_
    [operationPayload claim.operation.id claim.operation.kind status] ?_ hself
  · exact fun _ => rfl
  · exact ⟨fun _ => rfl, fun _ => rfl, fun _ h => by cases h⟩
  · intro _ hreply
    cases hreply

end

/-! ## Every transaction -/

/-- Every transaction steps the ledger of the session that it locks. -/
theorem SessionStep.ledger_step {codec : Codec} {clock : Clock} {db : Db} {call : StoreCall}
    {reply : Reply} {s s' : Session} (step : SessionStep codec clock db call reply s s')
    (sound : s.ledger.Sound)
    (known : ∀ claim ∈ call.operationClaim, claim.operation.sessionId = s.id →
      s.ledger.Knows claim) :
    ∃ staged, Ledger.Step db.nextUuid call reply staged s.ledger s'.ledger ∧ s.Stages db staged := by
  have hleaves := step.leavesWork
  cases step with
  | claimOperation found claimable =>
    exact ⟨[], Session.claimOperation_step sound found claimable _ _, .none db s⟩
  | commitHandlerOutcome session h =>
    exact Session.commitHandlerOutcome_stages h fun _ hreply => by cases hreply
  | deferOperation session h =>
    obtain ⟨o, hheld, hphase, hstatus, hcount, rfl⟩ := Session.deferOperation_ok h
    refine ⟨[], ?_, .none db s⟩
    exact Session.recorded_step sound (known _ rfl session) hheld hcount rfl (fun _ => rfl)
      ⟨fun _ => rfl, fun _ => rfl, fun _ h => by cases h⟩ (fun _ hreply => by cases hreply)
      (.deferred hheld.heldBy.2 hphase hstatus)
  | recordOperationAccepted session h =>
    obtain ⟨o, hheld, hphase, hstatus, hunmapped, hcount, rfl⟩ :=
      Session.recordOperationAccepted_ok h
    refine ⟨[], ?_, .none db s⟩
    exact Session.recorded_step sound (known _ rfl session) hheld hcount rfl (fun _ => rfl)
      ⟨fun _ => rfl, fun _ => rfl, fun _ h => by cases h⟩ (fun _ hreply => by cases hreply)
      (.accepted clock.now hheld.heldBy.2 hphase hstatus hunmapped)
  | renewOperationClaim found h =>
    obtain ⟨o, leaseMs, -, rfl⟩ := Session.renewOperationClaim_ok h
    refine ⟨[], ?_, .none db s⟩
    refine Ledger.step_touch rfl (fun o => ?_) rfl rfl fun _ hreply => by cases hreply
    cases hlease : o.lease <;> simp [OperationRow.essence, hlease]
  | recordOperationRetry session h =>
    obtain ⟨o, status, hheld, hnext, hcount, rfl⟩ := Session.recordOperationRetry_ok h
    refine ⟨[], ?_, .none db s⟩
    refine Session.recorded_step sound (known _ rfl session) hheld hcount rfl (fun _ => rfl)
      ⟨fun _ => rfl, fun _ => rfl, fun _ => ?_⟩ (fun _ hreply => by cases hreply)
      (.retried hheld.heldBy.2 hnext)
    split <;> intro h <;> cases h
  | recordOperationPendingResult session h =>
    obtain ⟨o, hheld, -, hstatus, hcount, hresult⟩ := Session.recordOperationPendingResult_ok h
    refine ⟨[], ?_, .none db s⟩
    exact Session.recorded_step sound (known _ rfl session) hheld hcount hresult (fun _ => rfl)
      ⟨fun _ => rfl, fun _ => rfl, fun _ h => by cases h⟩ (fun _ hreply => by cases hreply)
      (.pendingResult hheld.heldBy.2 hstatus)
  | completeWithdrawal session phase kind target h =>
    exact ⟨[], Session.completeWithdrawal_step sound (known _ rfl session) kind target h, .none db s⟩
  | completeOperation session terminal h =>
    exact ⟨[], Session.completeOperation_step sound (known _ rfl session) terminal h, .none db s⟩
  | deleteExpiredOperationRequest h =>
    refine ⟨[], ?_, .none db s⟩
    simp only [Session.deleteExpiredOperationRequest] at h
    split at h <;> cases h
    · exact Ledger.step_touch rfl (fun _ => rfl) rfl rfl fun _ hreply => by cases hreply
    · exact Ledger.step_same rfl fun _ hreply => by cases hreply
  | _ =>
    refine ⟨[], ?_, .none db s⟩
    exact Ledger.step_same (hleaves rfl).ledger fun _ hreply => by cases hreply

end AgentPlatform.Store
