import AgentPlatform.Store.Frames

/-!
# Induction over runs, one session at a time

A run changes one session at a time, so what every session satisfies is proved from what its own
transactions keep and what the rest of the run cannot touch. `Run.forall_sessions` is that rule; the
facts about ids and tokens that it hands out are proved first.
-/

namespace AgentPlatform.Store

/-! ## The log -/

/-- The outcomes that a run committed, in order. -/
def commits (trace : List Entry) : List (HandlerClaim × OutcomeCommit) :=
  trace.filterMap (·.committed)

/-- The sessions that a run created, in order. -/
def created (trace : List Entry) : List NewSession := trace.filterMap (·.created)

/-- The log of one entry that is added. -/
theorem handlerClaims_concat (trace : List Entry) (entry : Entry) :
    handlerClaims (trace ++ [entry]) = handlerClaims trace ++ entry.issuedHandlerClaim.toList := by
  cases h : entry.issuedHandlerClaim <;> simp [handlerClaims, h]

theorem operationClaims_concat (trace : List Entry) (entry : Entry) :
    operationClaims (trace ++ [entry]) =
      operationClaims trace ++ entry.issuedOperationClaim.toList := by
  cases h : entry.issuedOperationClaim <;> simp [operationClaims, h]

theorem commits_concat (trace : List Entry) (entry : Entry) :
    commits (trace ++ [entry]) = commits trace ++ entry.committed.toList := by
  cases h : entry.committed <;> simp [commits, h]

theorem created_concat (trace : List Entry) (entry : Entry) :
    created (trace ++ [entry]) = created trace ++ entry.created.toList := by
  cases h : entry.created <;> simp [created, h]

/-! ## Writing one session back -/

theorem Db.mem_put {db : Db} {s' t : Session} :
    t ∈ (db.put s').sessions ↔
      (t = s' ∧ ∃ s ∈ db.sessions, s.id = s'.id) ∨ (t ∈ db.sessions ∧ t.id ≠ s'.id) := by
  simp only [Db.put, Table.mem_update, decide_eq_true_eq]
  constructor
  · rintro ⟨s, hs, rfl⟩
    by_cases h : s.id = s'.id
    · exact .inl ⟨by simp [h], s, hs, h⟩
    · exact .inr ⟨by simpa [h] using hs, by simp [h]⟩
  · rintro (⟨rfl, s, hs, h⟩ | ⟨ht, h⟩)
    · exact ⟨s, hs, by simp [h]⟩
    · exact ⟨t, ht, by simp [h]⟩

theorem Db.ids_put (db : Db) (s' : Session) :
    (db.put s').sessions.map (·.id) = db.sessions.map (·.id) := by
  refine Table.map_update_of_mem fun s _ h => ?_
  exact (of_decide_eq_true h).symm

/-! ## What a step issues -/

section

variable {codec : Codec} {clock : Clock} {db : Db} {call : StoreCall} {reply : Reply}
  {s s' : Session}

/-- An entry that issues and commits nothing for session `id`. -/
structure Entry.Foreign (entry : Entry) (id : SessionId) : Prop where
  handlerClaim : ∀ claim ∈ entry.issuedHandlerClaim, claim.sessionId ≠ id
  operationClaim : ∀ claim ∈ entry.issuedOperationClaim, claim.operation.sessionId ≠ id
  committed : ∀ c ∈ entry.committed, c.1.sessionId ≠ id
  created : ∀ session ∈ entry.created, session.id ≠ id

theorem Entry.Quiet.foreign {entry : Entry} (h : entry.Quiet) (id : SessionId) :
    entry.Foreign id where
  handlerClaim := by simp [h.handlerClaim]
  operationClaim := by simp [h.operationClaim]
  committed := by simp [h.committed]
  created := by simp [h.created]

/-- Nothing holds a missing value back. -/
theorem forall_mem_of_none {α : Type} {P : α → Prop} {o : Option α} (h : o = none) :
    ∀ a ∈ o, P a := by
  simp [h]

/-- What a step of a session issues and commits is of that session. -/
theorem SessionStep.foreign (step : SessionStep codec clock db call reply s s') {id : SessionId}
    (other : id ≠ s.id) : Entry.Foreign { call, clock, reply } id := by
  cases step with
  | claimNextEvent claimable =>
    refine ⟨?_, forall_mem_of_none rfl, forall_mem_of_none rfl, forall_mem_of_none rfl⟩
    intro claim hclaim
    cases hclaim
    exact other.symm
  | claimOperation found claimable =>
    refine ⟨forall_mem_of_none rfl, ?_, forall_mem_of_none rfl, forall_mem_of_none rfl⟩
    intro claim hclaim
    cases hclaim
    exact other.symm
  | commitHandlerOutcome session h =>
    refine ⟨forall_mem_of_none rfl, forall_mem_of_none rfl, ?_, forall_mem_of_none rfl⟩
    intro c hc
    cases hc
    exact fun h => other (h.symm.trans session)
  | _ => exact Entry.Quiet.foreign ⟨rfl, rfl, rfl, rfl⟩ id

/-- A claim that a step issues has the token that the step drew. -/
theorem SessionStep.handlerToken (step : SessionStep codec clock db call reply s s')
    {claim : HandlerClaim}
    (issued : claim ∈ Entry.issuedHandlerClaim { call, clock, reply }) :
    claim.leaseToken = db.nextUuid ∧ 0 < call.draws := by
  cases step with
  | claimNextEvent claimable =>
    cases issued
    exact ⟨rfl, Nat.two_pos⟩
  | _ => exact (Option.not_mem_none claim issued).elim

theorem SessionStep.operationToken (step : SessionStep codec clock db call reply s s')
    {claim : ClaimedOperation}
    (issued : claim ∈ Entry.issuedOperationClaim { call, clock, reply }) :
    claim.leaseToken = db.nextUuid ∧ 0 < call.draws := by
  cases step with
  | claimOperation found claimable =>
    cases issued
    exact ⟨rfl, Nat.two_pos⟩
  | _ => exact (Option.not_mem_none claim issued).elim

theorem SessionStep.created (step : SessionStep codec clock db call reply s s') :
    Entry.created { call, clock, reply } = none := by
  cases step <;> rfl

end

/-! ## What every run keeps -/

/-- Sessions have different ids, they are the created ones, and every issued token was drawn. -/
structure Registered (trace : List Entry) (db : Db) : Prop where
  unique : (db.sessions.map (·.id)).Nodup
  created : (created trace).map (·.id) = db.sessions.map (·.id)
  handlerTokens : ∀ claim ∈ handlerClaims trace, claim.leaseToken < db.nextUuid
  operationTokens : ∀ claim ∈ operationClaims trace, claim.leaseToken < db.nextUuid
  commits : ∀ c ∈ commits trace, c.1.sessionId ∈ db.sessions.map (·.id)
  claims : ∀ claim ∈ operationClaims trace, claim.operation.sessionId ∈ db.sessions.map (·.id)

/-- A quiet entry registers nothing. -/
theorem Registered.quiet {trace : List Entry} {db db' : Db} (h : Registered trace db)
    {entry : Entry} (quiet : entry.Quiet)
    (ids : db'.sessions.map (·.id) = db.sessions.map (·.id)) (uuids : db.nextUuid ≤ db'.nextUuid) :
    Registered (trace ++ [entry]) db' where
  unique := ids ▸ h.unique
  created := by
    rw [created_concat, quiet.created, ids]
    simpa using h.created
  handlerTokens := by
    intro claim hclaim
    rw [handlerClaims_concat, quiet.handlerClaim] at hclaim
    exact Nat.lt_of_lt_of_le (h.handlerTokens claim (by simpa using hclaim)) uuids
  operationTokens := by
    intro claim hclaim
    rw [operationClaims_concat, quiet.operationClaim] at hclaim
    exact Nat.lt_of_lt_of_le (h.operationTokens claim (by simpa using hclaim)) uuids
  commits := by
    intro c hc
    rw [commits_concat, quiet.committed] at hc
    rw [ids]
    exact h.commits c (by simpa using hc)
  claims := by
    intro claim hclaim
    rw [operationClaims_concat, quiet.operationClaim] at hclaim
    rw [ids]
    exact h.claims claim (by simpa using hclaim)

theorem Registered.create {trace : List Entry} {db db' : Db} (h : Registered trace db)
    {clock : Clock} {session : NewSession} (fresh : ∀ s ∈ db.sessions, s.id ≠ session.id)
    (sessions : db'.sessions = db.sessions ++ [Session.create clock session])
    (uuids : db'.nextUuid = db.nextUuid) :
    Registered (trace ++ [{
      call := .createSession session, clock
      reply := .session (Session.create clock session).record }]) db' where
  unique := by
    rw [sessions, List.map_append, List.nodup_append]
    refine ⟨h.unique, by simp, ?_⟩
    rintro x hx y hy rfl
    obtain ⟨s, hs, rfl⟩ := List.mem_map.mp hx
    exact fresh s hs (by simpa [Session.create] using hy)
  created := by
    rw [created_concat, sessions, List.map_append, List.map_append, h.created]
    rfl
  handlerTokens := by
    intro claim hclaim
    rw [handlerClaims_concat] at hclaim
    rw [uuids]
    exact h.handlerTokens claim (by simpa [Entry.issuedHandlerClaim] using hclaim)
  operationTokens := by
    intro claim hclaim
    rw [operationClaims_concat] at hclaim
    rw [uuids]
    exact h.operationTokens claim (by simpa [Entry.issuedOperationClaim] using hclaim)
  commits := by
    intro c hc
    rw [commits_concat] at hc
    rw [sessions, List.map_append]
    exact List.mem_append_left _ (h.commits c (by simpa [Entry.committed] using hc))
  claims := by
    intro claim hclaim
    rw [operationClaims_concat] at hclaim
    rw [sessions, List.map_append]
    exact List.mem_append_left _ (h.claims claim (by simpa [Entry.issuedOperationClaim] using hclaim))

theorem Registered.session {codec : Codec} {clock : Clock} {trace : List Entry} {db : Db}
    (h : Registered trace db) {call : StoreCall} {reply : Reply} {s s' : Session}
    (found : s ∈ db.sessions) (step : SessionStep codec clock db call reply s s') :
    Registered (trace ++ [⟨call, clock, reply⟩])
      { db.put s' with nextUuid := db.nextUuid + call.draws } where
  unique := (db.ids_put s').symm ▸ h.unique
  created := by
    rw [created_concat, step.created]
    simpa [db.ids_put s'] using h.created
  handlerTokens := by
    intro claim hclaim
    rw [handlerClaims_concat] at hclaim
    rcases List.mem_append.mp hclaim with hold | hnew
    · exact Nat.lt_add_right _ (h.handlerTokens claim hold)
    · obtain ⟨htoken, hdraws⟩ := step.handlerToken (Option.mem_toList.mp hnew)
      rw [htoken]
      exact Nat.lt_add_of_pos_right hdraws
  operationTokens := by
    intro claim hclaim
    rw [operationClaims_concat] at hclaim
    rcases List.mem_append.mp hclaim with hold | hnew
    · exact Nat.lt_add_right _ (h.operationTokens claim hold)
    · obtain ⟨htoken, hdraws⟩ := step.operationToken (Option.mem_toList.mp hnew)
      rw [htoken]
      exact Nat.lt_add_of_pos_right hdraws
  commits := by
    intro c hc
    rw [commits_concat] at hc
    have hids : ({ db.put s' with nextUuid := db.nextUuid + call.draws } : Db).sessions.map (·.id) =
        db.sessions.map (·.id) := db.ids_put s'
    rw [hids]
    rcases List.mem_append.mp hc with hold | hnew
    · exact h.commits c hold
    · by_contra hnone
      have hother : c.1.sessionId ≠ s.id := fun heq => hnone (heq ▸ List.mem_map_of_mem found)
      exact (step.foreign hother).committed c (Option.mem_toList.mp hnew) rfl
  claims := by
    intro claim hclaim
    rw [operationClaims_concat] at hclaim
    have hids : ({ db.put s' with nextUuid := db.nextUuid + call.draws } : Db).sessions.map (·.id) =
        db.sessions.map (·.id) := db.ids_put s'
    rw [hids]
    rcases List.mem_append.mp hclaim with hold | hnew
    · exact h.claims claim hold
    · by_contra hnone
      have hother : claim.operation.sessionId ≠ s.id :=
        fun heq => hnone (heq ▸ List.mem_map_of_mem found)
      exact (step.foreign hother).operationClaim claim (Option.mem_toList.mp hnew) rfl

theorem Run.registered {codec : Codec} {trace : List Entry} {db : Db} (run : Run codec trace db) :
    Registered trace db := by
  induction run with
  | start =>
    exact ⟨List.nodup_nil, rfl, by simp [handlerClaims], by simp [operationClaims],
      by simp [AgentPlatform.Store.commits], by simp [operationClaims]⟩
  | step call clock run admissible ih =>
    rename_i trace db
    have hstep := exec_cases codec clock ih.unique call
    generalize (exec codec clock db call).1 = reply at hstep ⊢
    generalize (exec codec clock db call).2 = db' at hstep ⊢
    cases hstep with
    | quiet sessions uuids quiet => exact ih.quiet quiet (by rw [sessions]) uuids
    | create created fresh sessions uuids =>
      subst created
      exact ih.create fresh sessions uuids
    | session found step => exact ih.session found step
    | due id f due quiet sessions uuids =>
      refine ih.quiet quiet ?_ (Nat.le_of_eq uuids.symm)
      rw [sessions, List.map_map]
      rfl

/-! ## The rule -/

/-- What has to be shown of a property of sessions so that every session of every run has it. -/
structure SessionRule (codec : Codec) (P : List Entry → Session → Prop) : Prop where
  /-- A new session has it; the run committed nothing and claimed nothing for it yet. -/
  create : ∀ (trace : List Entry) (clock : Clock) (session : NewSession),
    (∀ c ∈ commits trace, c.1.sessionId ≠ session.id) →
    (∀ claim ∈ operationClaims trace, claim.operation.sessionId ≠ session.id) →
    P (trace ++ [{
      call := .createSession session, clock
      reply := .session (Session.create clock session).record }]) (Session.create clock session)
  /-- A transaction on the session keeps it. -/
  step : ∀ (trace : List Entry) (db : Db) (call : StoreCall) (clock : Clock) (reply : Reply)
    (s s' : Session), Registered trace db → Admissible trace call →
    SessionStep codec clock db call reply s s' → P trace s → P (trace ++ [⟨call, clock, reply⟩]) s'
  /-- A transaction elsewhere keeps it. -/
  foreign : ∀ (trace : List Entry) (entry : Entry) (s : Session), entry.Foreign s.id →
    P trace s → P (trace ++ [entry]) s
  /-- An operation that becomes due keeps it. -/
  due : ∀ (trace : List Entry) (s : Session) (id : OperationId) (f : OperationRow → OperationRow),
    (∀ o, ∃ t ≤ o.nextAttemptAt, f o = o.due t) → P trace s → P trace (s.updateOperations (·.id = id) f)

/-- Every session of a run has what the rule was shown for. -/
theorem Run.forall_sessions {codec : Codec} {P : List Entry → Session → Prop}
    (rule : SessionRule codec P) {trace : List Entry} {db : Db} (run : Run codec trace db) :
    ∀ s ∈ db.sessions, P trace s := by
  induction run with
  | start => exact fun s hs => absurd hs List.not_mem_nil
  | step call clock run admissible ih =>
    rename_i trace db
    have registered := run.registered
    have hstep := exec_cases codec clock registered.unique call
    generalize (exec codec clock db call).1 = reply at hstep ⊢
    generalize (exec codec clock db call).2 = db' at hstep ⊢
    intro t ht
    cases hstep with
    | quiet sessions uuids quiet =>
      rw [sessions] at ht
      exact rule.foreign _ _ t (quiet.foreign t.id) (ih t ht)
    | create created fresh sessions uuids =>
      subst created
      rw [sessions] at ht
      rcases List.mem_append.mp ht with hold | hnew
      · refine rule.foreign _ _ t ⟨forall_mem_of_none rfl, forall_mem_of_none rfl,
          forall_mem_of_none rfl, ?_⟩ (ih t hold)
        intro session hsession
        cases hsession
        exact (fresh t hold).symm
      · rw [List.mem_singleton.mp hnew]
        refine rule.create _ clock _ (fun c hc heq => ?_) fun claim hclaim heq => ?_
        · obtain ⟨s, hs, hid⟩ := List.mem_map.mp (registered.commits c hc)
          exact fresh s hs (hid.trans heq)
        · obtain ⟨s, hs, hid⟩ := List.mem_map.mp (registered.claims claim hclaim)
          exact fresh s hs (hid.trans heq)
    | @session _ s s' found step =>
      rcases Db.mem_put.mp ht with ⟨rfl, -⟩ | ⟨hold, hother⟩
      · exact rule.step _ _ _ clock _ s t registered admissible step (ih s found)
      · rw [step.id_eq] at hother
        exact rule.foreign _ _ t (step.foreign hother) (ih t hold)
    | due id f due quiet sessions uuids =>
      rw [sessions] at ht
      obtain ⟨s, hs, rfl⟩ := List.mem_map.mp ht
      exact rule.due _ s id f due (rule.foreign _ _ s (quiet.foreign s.id) (ih s hs))

/-! ## One session over a call -/

/-- A session after a call: untouched, changed by the transaction of the call, or with operations
that became due. -/
inductive Session.After (codec : Codec) (clock : Clock) (db : Db) (call : StoreCall) (reply : Reply)
    (s : Session) : Session → Prop
  | same : After codec clock db call reply s s
  | step {s' : Session} (h : SessionStep codec clock db call reply s s') :
      After codec clock db call reply s s'
  | due (id : OperationId) (f : OperationRow → OperationRow)
      (due : ∀ o, ∃ t ≤ o.nextAttemptAt, f o = o.due t) :
      After codec clock db call reply s (s.updateOperations (·.id = id) f)

/-- A session that is there is there after every call. -/
theorem Run.session_after {codec : Codec} {trace : List Entry} {db : Db} (run : Run codec trace db)
    (call : StoreCall) (clock : Clock) {s : Session} (hs : s ∈ db.sessions) :
    ∃ s' ∈ (exec codec clock db call).2.sessions, s'.id = s.id ∧
      s.After codec clock db call (exec codec clock db call).1 s' := by
  have unique := run.registered.unique
  have hstep := exec_cases codec clock unique call
  generalize (exec codec clock db call).1 = reply at hstep ⊢
  generalize (exec codec clock db call).2 = db' at hstep ⊢
  cases hstep with
  | quiet sessions uuids quiet => exact ⟨s, sessions ▸ hs, rfl, .same⟩
  | create created fresh sessions uuids =>
    exact ⟨s, sessions ▸ List.mem_append_left _ hs, rfl, .same⟩
  | @session _ t t' found step =>
    by_cases hid : s.id = t.id
    · have := Table.eq_of_key unique hs found hid
      subst this
      exact ⟨t', Db.mem_put.mpr (.inl ⟨rfl, s, hs, step.id_eq.symm⟩), step.id_eq, .step step⟩
    · exact ⟨s, Db.mem_put.mpr (.inr ⟨hs, fun h => hid (h.trans step.id_eq)⟩), rfl, .same⟩
  | due id f due quiet sessions uuids =>
    refine ⟨_, ?_, ?_, .due id f due⟩
    · rw [sessions]
      exact List.mem_map_of_mem hs
    · rfl

end AgentPlatform.Store
