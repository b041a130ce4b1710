import AgentPlatform.Store.UpdatePages

/-!
# Replay

A client that loads a session and then follows its log from the cursor it was given hears of every
change that is shown: the transaction that makes the change appends an update after every cursor
that was handed out before.
-/

namespace AgentPlatform.Store

/-! ## What is shown of one resource -/

namespace Session

def eventStatus (s : Session) (id : EventId) : Option EventStatus :=
  (s.events.find? (·.id = id)).map (·.status)

def operationFace (s : Session) (id : OperationId) : Option OperationFace :=
  (s.operations.find? (·.id = id)).map (·.face)

def requestAvailable (s : Session) (id : OperationId) : Bool :=
  s.requests.any (·.operationId = id)

def waitStatus (s : Session) (id : WaitId) : Option WaitStatus :=
  (s.waits.find? (·.id = id)).map (·.status)

/-- A transaction that leads from `s` to `s'` appends an update that names a resource, after every
cursor of which `cursors` holds. -/
def Announces (s s' : Session) (cursors : Nat → Prop) (kind : UpdateKind) (key : String)
    (id : Uuid) : Prop :=
  ∃ u ∈ s'.updates, u ∉ s.updates ∧ u.kind = kind ∧ u.payload.get key = some (.uuid id) ∧
    ∀ cursor, cursors cursor → cursor < u.sequence

/-- Whatever is shown differently after a transaction is announced by it. -/
structure ToldOf (s s' : Session) (cursors : Nat → Prop) : Prop where
  event : ∀ id, s'.eventStatus id ≠ s.eventStatus id →
    s.Announces s' cursors .eventChanged "event_id" id
  operation : ∀ id, s'.operationFace id ≠ s.operationFace id ∨
    s'.requestAvailable id ≠ s.requestAvailable id →
    s.Announces s' cursors .operationChanged "operation_id" id
  wait : ∀ id, s'.waitStatus id ≠ s.waitStatus id →
    s.Announces s' cursors .waitChanged "wait_id" id
  session : s'.name ≠ s.name ∨ s'.metadata ≠ s.metadata ∨ s'.status ≠ s.status ∨
    s'.stateVersion ≠ s.stateVersion → s.Announces s' cursors .sessionChanged "session_id" s.id
  processing : s'.processingEnabled ≠ s.processingEnabled ∨
    s'.processingError ≠ s.processingError ∨ s'.processingRevision ≠ s.processingRevision →
    ∃ u ∈ s'.updates, u ∉ s.updates ∧ u.kind = .processingChanged ∧
      ∀ cursor, cursors cursor → cursor < u.sequence

variable {s s' : Session} {cursors : Nat → Prop}

theorem find?_column {α β : Type} {key : α → Uuid} {column : α → β} (rows : List α) (id : Uuid) :
    (rows.find? (key · = id)).map column =
      (((rows.map fun r => (key r, column r)).filter (·.1 = id)).head?).map (·.2) := by
  induction rows with
  | nil => rfl
  | cons r rows ih => by_cases h : key r = id <;> simp [h, ih]

/-- An update that was told is appended after every cursor below the log. -/
theorem Logs.announced {told : List Told} (h : s.Logs told s') (logged : s.Logged)
    (below : ∀ cursor, cursors cursor → cursor < s.nextUpdateSequence) {kind : UpdateKind}
    {payload : Value} (named : (kind, payload) ∈ told) :
    ∃ u ∈ s'.updates, u ∉ s.updates ∧ u.kind = kind ∧ u.payload = payload ∧
      ∀ cursor, cursors cursor → cursor < u.sequence := by
  obtain ⟨rows, hupdates, htold, hrows⟩ := h.rows
  rw [← htold] at named
  obtain ⟨u, hu, heq⟩ := List.mem_map.mp named
  have hafter := (hrows.mem hu).1
  refine ⟨u, hupdates ▸ List.mem_append_right _ hu, fun hold => ?_, congrArg (·.1) heq,
    congrArg (·.2) heq, fun cursor hcursor => Nat.lt_of_lt_of_le (below cursor hcursor) hafter⟩
  have hbefore := (logged.rows.mem hold).2
  rw [← logged.next] at hbefore
  exact Nat.not_le_of_lt hbefore hafter

/-- A change whose resources are all announced. -/
theorem ToldOf.of_differs {c : Change} (differs : s.visible.Differs c s'.visible)
    (events : ∀ id ∈ c.events, s.Announces s' cursors .eventChanged "event_id" id)
    (operations : ∀ id ∈ c.operations, s.Announces s' cursors .operationChanged "operation_id" id)
    (waits : ∀ id ∈ c.waits, s.Announces s' cursors .waitChanged "wait_id" id)
    (session : c.session = true → s.Announces s' cursors .sessionChanged "session_id" s.id)
    (processing : c.processing = true → ∃ u ∈ s'.updates, u ∉ s.updates ∧
      u.kind = .processingChanged ∧ ∀ cursor, cursors cursor → cursor < u.sequence) :
    s.ToldOf s' cursors where
  event id hid := by
    refine events id ?_
    by_contra hother
    refine hid ?_
    have hsame := differs.events id hother
    simp only [eventStatus, find?_column]
    exact congrArg (fun rows => rows.head?.map (·.2)) hsame
  operation id hid := by
    refine operations id ?_
    by_contra hother
    rcases hid with hid | hid
    · refine hid ?_
      have hsame := differs.operations id hother
      simp only [operationFace, find?_column]
      exact congrArg (fun rows => rows.head?.map (·.2)) hsame
    · refine hid (Bool.eq_iff_iff.mpr ?_)
      have hsame := differs.requests id hother
      simpa [requestAvailable, Session.visible] using hsame
  wait id hid := by
    refine waits id ?_
    by_contra hother
    refine hid ?_
    have hsame := differs.waits id hother
    simp only [waitStatus, find?_column]
    exact congrArg (fun rows => rows.head?.map (·.2)) hsame
  session hshown := by
    refine session ?_
    by_contra hother
    obtain ⟨hname, hmetadata, hstatus, hversion⟩ := differs.session (Bool.eq_false_iff.mpr hother)
    rcases hshown with h | h | h | h
    · exact h hname
    · exact h hmetadata
    · exact h hstatus
    · exact h hversion
  processing hshown := by
    refine processing ?_
    by_contra hother
    obtain ⟨henabled, herror, hrevision⟩ := differs.processing (Bool.eq_false_iff.mpr hother)
    rcases hshown with h | h | h
    · exact h henabled
    · exact h herror
    · exact h hrevision

/-- Where nothing that is shown changed, nothing has to be announced. -/
theorem ToldOf.of_visible (same : s'.visible = s.visible) : s.ToldOf s' cursors :=
  .of_differs (.of_eq same .none) (fun _ h => absurd h List.not_mem_nil)
    (fun _ h => absurd h List.not_mem_nil) (fun _ h => absurd h List.not_mem_nil)
    (fun h => (by cases h)) (fun h => (by cases h))

/-- Updates that name a change announce it. -/
theorem Tells.toldOf (h : s.Tells s') (logged : s.Logged)
    (below : ∀ cursor, cursors cursor → cursor < s.nextUpdateSequence) : s.ToldOf s' cursors := by
  obtain ⟨c, told, hdiffers, hlogs, hnames⟩ := h
  have hannounced {kind key id} (hnamed : Names told kind key id) :
      s.Announces s' cursors kind key id := by
    obtain ⟨payload, hmem, hkey⟩ := hnamed
    obtain ⟨u, hu, hnew, hkind, hpayload, hcursors⟩ := hlogs.announced logged below hmem
    exact ⟨u, hu, hnew, hkind, hpayload ▸ hkey, hcursors⟩
  refine .of_differs hdiffers (fun id hid => hannounced (hnames.events id hid))
    (fun id hid => hannounced (hnames.operations id hid))
    (fun id hid => hannounced (hnames.waits id hid)) (fun h => hannounced (hnames.session h))
    fun h => ?_
  obtain ⟨payload, hmem⟩ := hnames.processing h
  obtain ⟨u, hu, hnew, hkind, -, hcursors⟩ := hlogs.announced logged below hmem
  exact ⟨u, hu, hnew, hkind, hcursors⟩

theorem pruneUpdates_visible {before : Timestamp} {removed : Nat}
    (h : s.pruneUpdates before = (removed, s')) : s'.visible = s.visible := by
  simp only [Session.pruneUpdates] at h
  split at h <;> cases h <;> rfl

/-- Every call announces what it changes. -/
theorem After.toldOf {codec : Codec} {clock : Clock} {db : Db} {call : StoreCall} {reply : Reply}
    (h : s.After codec clock db call reply s') (unique : (s.operations.map (·.id)).Nodup)
    (logged : s.Logged) (below : ∀ cursor, cursors cursor → cursor < s.nextUpdateSequence) :
    s.ToldOf s' cursors := by
  cases h with
  | same => exact .of_visible rfl
  | due id f due =>
    refine .of_visible (visible_updateOperations s id fun o _ _ => ?_)
    obtain ⟨t, -, hf⟩ := due o
    rw [hf]
    exact ⟨rfl, rfl⟩
  | step h =>
    rcases h.tells unique with htells | ⟨before, removed, hprune⟩
    · exact htells.toldOf logged below
    · exact .of_visible (pruneUpdates_visible hprune)

end Session

/-! ## Cursors -/

/-- A cursor into the log of session `id` that a read of the database answers. -/
inductive Db.Shows (db : Db) (id : SessionId) : Nat → Prop
  | cursor {cursor : Nat} {retained : Int} (read : db.updateCursor id = .ok (cursor, retained)) :
      Shows db id cursor
  | through {after limit : Int} {through : Option Int} {page : UpdatePage} {cursor : Nat}
      (read : db.updates id after through limit = .ok page)
      (last : page.throughSequence = cursor) : Shows db id cursor
  | update {after limit : Int} {through : Option Int} {page : UpdatePage} {u : UpdateRecord}
      (read : db.updates id after through limit = .ok page) (listed : u ∈ page.updates) :
      Shows db id u.sequence

/-- A cursor that was handed out at some database of the run. -/
def HandedOut (codec : Codec) (trace : List Entry) (db : Db) (id : SessionId) (cursor : Nat) :
    Prop :=
  ∃ trace₀ db₀, Run codec trace₀ db₀ ∧ Continues codec trace₀ db₀ trace db ∧ db₀.Shows id cursor

section

variable {codec : Codec} {trace : List Entry} {db : Db} {s : Session}

theorem Db.session?_some {id : SessionId} (h : db.session? id = some s) :
    s ∈ db.sessions ∧ s.id = id := by
  have hlookup : Table.lookup (fun s : Session => s.id) id db.sessions = some s := h
  have hid := Table.lookup_key hlookup
  exact ⟨Table.lookup_mem hlookup, hid⟩

/-- A page is of a session that is there, and ends within its log. -/
theorem Db.updates_read {id : SessionId} {after limit : Int} {through : Option Int}
    {page : UpdatePage} (h : db.updates id after through limit = .ok page) :
    ∃ s ∈ db.sessions, s.id = id ∧ page.throughSequence < s.nextUpdateSequence ∧
      ∀ u ∈ page.updates, ∃ row ∈ s.updates, row.record id = u := by
  unfold Db.updates at h
  split at h
  · cases h
  · split at h
    · cases h
    · rename_i s hsession
      obtain ⟨hs, hid⟩ := Db.session?_some hsession
      dsimp only at h
      split at h
      · cases h
      · split at h
        · cases h
        · rename_i hthrough
          cases h
          refine ⟨s, hs, hid, ?_, fun u hu => ?_⟩
          · dsimp only
            omega
          · obtain ⟨row, hrow, rfl⟩ := List.mem_map.mp hu
            exact ⟨row, List.mem_of_mem_filter (List.mem_of_mem_take (List.mem_of_mem_take hrow)),
              rfl⟩

/-- A read answers cursors of the log only. -/
theorem Db.Shows.below {id : SessionId} {cursor : Nat} (h : db.Shows id cursor)
    (logged : ∀ s ∈ db.sessions, s.Logged) :
    ∃ s ∈ db.sessions, s.id = id ∧ cursor < s.nextUpdateSequence := by
  cases h with
  | cursor read =>
    unfold Db.updateCursor at read
    split at read
    · cases read
    · rename_i s hsession
      obtain ⟨hs, hid⟩ := Db.session?_some hsession
      refine ⟨s, hs, hid, ?_⟩
      have hcursor := congrArg Prod.fst (Except.ok.inj read)
      dsimp only at hcursor
      omega
  | through read last =>
    obtain ⟨s, hs, hid, hthrough, -⟩ := Db.updates_read read
    exact ⟨s, hs, hid, by omega⟩
  | update read listed =>
    obtain ⟨s, hs, hid, -, hrows⟩ := Db.updates_read read
    obtain ⟨row, hrow, rfl⟩ := hrows _ listed
    have hlogged := logged s hs
    refine ⟨s, hs, hid, ?_⟩
    rw [hlogged.next]
    exact (hlogged.rows.mem hrow).2

theorem HandedOut.below (run : Run codec trace db) (hs : s ∈ db.sessions) {cursor : Nat}
    (h : HandedOut codec trace db s.id cursor) : cursor < s.nextUpdateSequence := by
  obtain ⟨trace₀, db₀, run₀, continues, hshows⟩ := h
  obtain ⟨s₀, hs₀, hid₀, hcursor⟩ := hshows.below run₀.logged
  obtain ⟨s₁, hs₁, hid₁, hlater⟩ := continues.log_later run₀ hs₀
  have := Table.eq_of_key run.registered.unique hs₁ hs (hid₁.trans hid₀)
  subst this
  exact Nat.lt_of_lt_of_le hcursor hlater.next

/-! ## Every call -/

theorem settle_failed {α : Type} {reply : α → Reply} {result : Result (α × Db)} {error : StoreError}
    (answers : ∀ a, reply a ≠ .failed error) (h : (settle db reply result).1 = .failed error) :
    (settle db reply result).2 = db := by
  cases result with
  | error _ => rfl
  | ok result => exact absurd h (answers result.1)

/-- A call that fails rolls back. -/
theorem exec_failed {clock : Clock} {call : StoreCall} {error : StoreError}
    (h : (exec codec clock db call).1 = .failed error) : (exec codec clock db call).2 = db := by
  cases call <;> exact settle_failed (fun _ => Reply.noConfusion) h

/-- Every transaction of every run announces what it changes of what is shown, after every cursor
that was handed out before; one that fails changes nothing. -/
theorem replay_misses_nothing (run : Run codec trace db) (call : StoreCall) (clock : Clock)
    (admissible : Admissible trace call) :
    (∀ s ∈ db.sessions, ∀ s' ∈ (exec codec clock db call).2.sessions, s'.id = s.id →
      s.ToldOf s' (HandedOut codec trace db s.id)) ∧
      ∀ error, (exec codec clock db call).1 = .failed error →
        (exec codec clock db call).2 = db := by
  refine ⟨fun s hs s' hs' hid => ?_, fun error => exec_failed⟩
  obtain ⟨t, ht, htid, hafter⟩ := run.session_after call clock hs
  have hunique := (run.step call clock admissible).registered.unique
  have := Table.eq_of_key hunique ht hs' (htid.trans hid.symm)
  subst this
  exact hafter.toldOf (run.operations_distinct hs) (run.logged s hs) fun cursor handed =>
    handed.below run hs

/-- The staged operation of a first turn is claimed, which the log of its session tells. -/
theorem replay_misses_nothing_firstTurn :
    let call := .claimOperation (fun _ => false) .submission 1000
    let (trace, db) := replay plainCodec stillClock firstTurn
    (∀ s ∈ db.sessions, ∀ s' ∈ (exec plainCodec stillClock db call).2.sessions, s'.id = s.id →
      s.ToldOf s' (HandedOut plainCodec trace db s.id)) ∧
      ∀ error, (exec plainCodec stillClock db call).1 = .failed error →
        (exec plainCodec stillClock db call).2 = db :=
  replay_misses_nothing firstTurn_run _ stillClock (.of_unclaimed rfl rfl rfl)

end

end AgentPlatform.Store
