import AgentPlatform.Lib.KeysetPaging
import AgentPlatform.Store.UpdatePages
import Mathlib.Data.Prod.Lex

/-!
# Lists that are read in pages

Sessions, the waits of a session and its operations are listed newest first, by their time of
creation and then by id. Each list is a query of its own; all three are pages below a key.
-/

namespace AgentPlatform.Store

open Keyset

/-! ## Cursors -/

/-- `SessionCursor`, `WaitCursor` and the cursor of `operations_summary`: the columns of the last row
of a page. -/
structure RowCursor where
  createdAt : Timestamp
  id : Uuid
deriving DecidableEq, Repr

abbrev SessionCursor := RowCursor

abbrev WaitCursor := RowCursor

abbrev OperationCursor := RowCursor

/-- How `(created_at,id)` is compared. -/
abbrev RowKey := Timestamp ×ₗ Uuid

def RowCursor.key (cursor : RowCursor) : RowKey := toLex (cursor.createdAt, cursor.id)

/-- The cursor of a key. -/
def RowCursor.ofKey (key : RowKey) : RowCursor := ⟨(ofLex key).1, (ofLex key).2⟩

@[simp] theorem RowCursor.key_ofKey (key : RowKey) : (RowCursor.ofKey key).key = key := rfl

@[simp] theorem RowCursor.ofKey_key (cursor : RowCursor) : RowCursor.ofKey cursor.key = cursor := rfl

def Session.rowKey (s : Session) : RowKey := toLex (s.createdAt, s.id)

def WaitRow.rowKey (w : WaitRow) : RowKey := toLex (w.createdAt, w.id)

def OperationRow.rowKey (o : OperationRow) : RowKey := toLex (o.createdAt, o.id)

/-- `ORDER BY created_at DESC,id DESC LIMIT`. -/
def newest {α : Type} (key : α → RowKey) (limit : Int) (rows : List α) : List α :=
  (rows.mergeSort fun r r' => key r' ≤ key r).take limit.toNat

/-- Rows that are stored newest first. -/
theorem newest_of_pairwise {α : Type} {key : α → RowKey} {rows : List α}
    (sorted : rows.Pairwise fun r r' => key r' ≤ key r) (limit : Int) :
    newest key limit rows = rows.take limit.toNat := by
  rw [newest, List.mergeSort_of_pairwise (sorted.imp fun h => decide_eq_true h)]

/-! ## Sessions -/

/-- `SessionSummary`. -/
structure SessionSummary where
  id : SessionId
  projectId : ProjectId
  harnessId : HarnessId
  harnessVersion : HarnessVersion
  name : Option String
  metadata : Value
  status : SessionStatus
  stateVersion : StateVersion
  processingEnabled : Bool
  processingError : Option Value
  processingRevision : Nat
  blockedEventId : Option EventId
  createdAt : Timestamp
  updatedAt : Timestamp

/-- `session_summary_from_row`. -/
def Session.summary (s : Session) : SessionSummary where
  id := s.id
  projectId := s.projectId
  harnessId := s.harnessId
  harnessVersion := s.harnessVersion
  name := s.name
  metadata := s.metadata
  status := s.status
  stateVersion := s.stateVersion
  processingEnabled := s.processingEnabled
  processingError := s.processingError
  processingRevision := s.processingRevision
  blockedEventId :=
    (Table.firstBy (·.sequence) (s.events.filter fun e => e.status = .blocked)).map (·.id)
  createdAt := s.createdAt
  updatedAt := s.updatedAt

def SessionSummary.cursor (session : SessionSummary) : SessionCursor where
  createdAt := session.createdAt
  id := session.id

/-- `SessionFilter`. -/
structure SessionFilter where
  projectId : Option ProjectId
  status : Option SessionStatus
  harnessId : Option HarnessId
  cursor : Option SessionCursor
  limit : Option Int

/-- `SessionPage`. -/
structure SessionPage where
  sessions : List SessionSummary
  nextCursor : Option SessionCursor

/-- The conditions that a session has to meet. -/
def SessionFilter.selects (filter : SessionFilter) (s : Session) : Bool :=
  filter.projectId.all (s.projectId = ·) && filter.status.all (s.status = ·) &&
    filter.harnessId.all (s.harnessId = ·)

/-- `Store::list_sessions`. -/
def Db.listSessions (db : Db) (filter : SessionFilter) : Result SessionPage :=
  let limit := filter.limit.getD 50
  if limit < 1 ∨ 100 < limit then .error (.invalidInput "limit must be between 1 and 100")
  else
    let rows := newest Session.rowKey (limit + 1) <| db.sessions.filter fun s =>
      filter.selects s && filter.cursor.all fun cursor => s.rowKey < cursor.key
    let sessions := rows.map (·.summary)
    let hasMore := limit.toNat < sessions.length
    let sessions := sessions.take limit.toNat
    .ok
      { sessions
        nextCursor :=
          if hasMore then
            sessions.getLast?.map (·.cursor)
          else none }

/-! ## Waits -/

/-- `WaitRecord`. -/
structure WaitRecord where
  id : WaitId
  sessionId : SessionId
  sourceEventId : EventId
  mode : WaitMode
  payload : RawJson
  responseSchema : Option RawJson
  expiresAt : Option Timestamp
  status : WaitStatus
  resolutionPayload : Option RawJson
  createdAt : Timestamp
  finishedAt : Option Timestamp

/-- `wait_from_row`. -/
def WaitRow.record (w : WaitRow) (sessionId : SessionId) : WaitRecord where
  id := w.id
  sessionId := sessionId
  sourceEventId := w.sourceEventId
  mode := w.mode
  payload := w.payload
  responseSchema := w.responseSchema
  expiresAt := w.expiresAt
  status := w.status
  resolutionPayload := w.resolutionPayload
  createdAt := w.createdAt
  finishedAt := w.finishedAt

def WaitRecord.cursor (wait : WaitRecord) : WaitCursor where
  createdAt := wait.createdAt
  id := wait.id

/-- `WaitFilter`. -/
structure WaitFilter where
  status : Option WaitStatus
  cursor : Option WaitCursor
  limit : Option Int

/-- `WaitPage`. -/
structure WaitPage where
  waits : List WaitRecord
  nextCursor : Option WaitCursor

def WaitFilter.selects (filter : WaitFilter) (w : WaitRow) : Bool :=
  filter.status.all (w.status = ·)

/-- `Store::list_waits`. The session is looked up in a statement of its own; sessions are never
removed. -/
def Db.listWaits (db : Db) (sessionId : SessionId) (filter : WaitFilter) : Result WaitPage :=
  let limit := filter.limit.getD 50
  if limit < 1 ∨ 100 < limit then .error (.invalidInput "limit must be between 1 and 100")
  else
    match db.session? sessionId with
    | none => .error (.sessionNotFound sessionId)
    | some s =>
      let rows := newest WaitRow.rowKey (limit + 1) <| s.waits.filter fun w =>
        filter.selects w && filter.cursor.all fun cursor => w.rowKey < cursor.key
      let waits := rows.map (·.record s.id)
      let hasMore := limit.toNat < waits.length
      let waits := waits.take limit.toNat
      .ok
        { waits
          nextCursor :=
            if hasMore then
              waits.getLast?.map (·.cursor)
            else none }

/-! ## Operations -/

/-- `OperationSummary`. -/
structure OperationSummary where
  id : OperationId
  sessionId : SessionId
  sourceEventId : EventId
  kind : OperationKind
  status : OperationStatus
  gatewayConnectionId : Option GatewayConnectionId
  gatewayJobId : Option Uuid
  targetOperationId : Option OperationId
  previousOperationId : Option OperationId
  requestAvailable : Bool
  requestExpiresAt : Option Timestamp
  requestRemovedAt : Option Timestamp
  createdAt : Timestamp
  completedAt : Option Timestamp

def OperationSummary.cursor (operation : OperationSummary) : OperationCursor where
  createdAt := operation.createdAt
  id := operation.id

/-- A row of the query of `operations_summary`, which joins the stored request if there is one. -/
def Session.operationSummary (s : Session) (o : OperationRow) : OperationSummary where
  id := o.id
  sessionId := s.id
  sourceEventId := o.sourceEventId
  kind := o.kind
  status := o.status
  gatewayConnectionId := o.gatewayConnectionId
  gatewayJobId := o.gatewayJobId
  targetOperationId := o.targetOperationId
  previousOperationId := o.previousOperationId
  requestAvailable := (s.requests.find? (·.operationId = o.id)).isSome
  requestExpiresAt := (s.requests.find? (·.operationId = o.id)).bind (·.expiresAt)
  requestRemovedAt := o.requestRemovedAt
  createdAt := o.createdAt
  completedAt := o.completedAt

/-- The conditions that `operations_summary` is asked for. -/
structure OperationFilter where
  kind : Option OperationKind
  status : Option OperationStatus
  sourceEvent : Option EventId

def OperationFilter.selects (filter : OperationFilter) (o : OperationRow) : Bool :=
  filter.kind.all (o.kind = ·) && filter.status.all (o.status = ·) &&
    filter.sourceEvent.all (o.sourceEventId = ·)

/-- `Store::operations_summary`. The session is looked up in a statement of its own. -/
def Db.operationsSummary (db : Db) (sessionId : SessionId) (cursor : Option OperationCursor)
    (limit : Int) (filter : OperationFilter) : Result (List OperationSummary) :=
  if limit < 1 ∨ 1000 < limit then .error (.invalidInput "limit must be 1..1000")
  else
    match db.session? sessionId with
    | none => .error (.sessionNotFound sessionId)
    | some s =>
      let rows := newest OperationRow.rowKey limit <| s.operations.filter fun o =>
        filter.selects o && cursor.all fun cursor => o.rowKey < cursor.key
      .ok (rows.map s.operationSummary)

/-! ## As pages below a key -/

section

variable {db : Db}

/-- Rows that are shown in another form, cut at the limit, with the cursor of the last one. -/
theorem page_shown {α β : Type} (key : α → RowKey) (shown : α → β) (cursorOf : β → RowCursor)
    (agrees : ∀ r, cursorOf (shown r) = .ofKey (key r)) (keep : α → Bool)
    (cursor : Option RowCursor) {limit : Int} (positive : 1 ≤ limit) (table : List α) :
    let rows := (newest key (limit + 1) <| table.filter fun r =>
      keep r && cursor.all fun cursor => key r < cursor.key).map shown
    let page := Keyset.page key keep (cursor.map (·.key)) limit.toNat table
    rows.take limit.toNat = page.rows.map shown ∧
      (if limit.toNat < rows.length then (rows.take limit.toNat).getLast?.map cursorOf else none) =
        page.next.map .ofKey := by
  have hlimit : (limit + 1).toNat = limit.toNat + 1 := by omega
  have hafter : (fun r => keep r && cursor.all fun cursor => decide (key r < cursor.key)) =
      fun r => keep r && (cursor.map (·.key)).all fun k => decide (key r < k) := by
    funext r
    cases cursor <;> rfl
  intro rows page
  have hrows : rows = ((below key keep (cursor.map (·.key)) table).take (limit.toNat + 1)).map shown := by
    simp only [rows, newest, hlimit, hafter, below]
  have htake : rows.take limit.toNat = page.rows.map shown := by
    rw [hrows, ← List.map_take, List.take_take, Nat.min_eq_left (Nat.le_succ _), page_rows]
  refine ⟨htake, ?_⟩
  have hcursor : cursorOf ∘ shown = RowCursor.ofKey ∘ key := funext agrees
  rw [htake, page_next, page_rows, hrows, List.length_map, List.length_take, List.getLast?_map,
    Option.map_map, hcursor]
  generalize below key keep (cursor.map (·.key)) table = selected
  by_cases hmore : limit.toNat < selected.length
  · rw [if_pos hmore, if_pos (by omega), Option.map_map]
  · rw [if_neg hmore, if_neg (by omega)]
    rfl

/-- A page of sessions is the page below the cursor. -/
theorem Db.listSessions_ok {filter : SessionFilter} {page : SessionPage}
    (h : db.listSessions filter = .ok page) : 0 < (filter.limit.getD 50).toNat ∧
      let listed := Keyset.page Session.rowKey filter.selects (filter.cursor.map (·.key))
        (filter.limit.getD 50).toNat db.sessions
      page.sessions = listed.rows.map (·.summary) ∧ page.nextCursor = listed.next.map .ofKey := by
  unfold Db.listSessions at h
  dsimp only at h
  split at h
  · cases h
  · cases h
    have hlimit : 1 ≤ filter.limit.getD 50 := by omega
    exact ⟨by omega, page_shown Session.rowKey Session.summary SessionSummary.cursor (fun _ => rfl)
      filter.selects filter.cursor hlimit db.sessions⟩

theorem Db.listWaits_ok {sessionId : SessionId} {filter : WaitFilter} {page : WaitPage}
    (h : db.listWaits sessionId filter = .ok page) : 0 < (filter.limit.getD 50).toNat ∧
      ∃ s, db.session? sessionId = some s ∧
        let listed := Keyset.page WaitRow.rowKey filter.selects (filter.cursor.map (·.key))
          (filter.limit.getD 50).toNat s.waits
        page.waits = listed.rows.map (·.record s.id) ∧ page.nextCursor = listed.next.map .ofKey := by
  unfold Db.listWaits at h
  dsimp only at h
  split at h
  · cases h
  · split at h
    · cases h
    · rename_i s hsession
      cases h
      have hlimit : 1 ≤ filter.limit.getD 50 := by omega
      exact ⟨by omega, s, hsession,
        page_shown WaitRow.rowKey (·.record s.id) WaitRecord.cursor (fun _ => rfl) filter.selects
          filter.cursor hlimit s.waits⟩

/-- One more operation than the page is to have is asked for; the page is cut by the caller. -/
theorem Db.operationsSummary_ok {sessionId : SessionId} {cursor : Option OperationCursor}
    {limit : Int} {filter : OperationFilter} {rows : List OperationSummary} (positive : 1 ≤ limit)
    (h : db.operationsSummary sessionId cursor (limit + 1) filter = .ok rows) :
    ∃ s, db.session? sessionId = some s ∧
      let listed := Keyset.page OperationRow.rowKey filter.selects (cursor.map (·.key)) limit.toNat
        s.operations
      rows.take limit.toNat = listed.rows.map s.operationSummary ∧
        (if limit.toNat < rows.length then
          (rows.take limit.toNat).getLast?.map (·.cursor)
        else none) = listed.next.map .ofKey := by
  unfold Db.operationsSummary at h
  split at h
  · cases h
  · split at h
    · cases h
    · rename_i s hsession
      cases h
      exact ⟨s, hsession, page_shown OperationRow.rowKey s.operationSummary OperationSummary.cursor
        (fun _ => rfl) filter.selects cursor positive s.operations⟩

end

/-! ## Other transactions -/

/-- Rows come in, and columns other than `created_at` and `id` change. -/
def Retains {α : Type} (key : α → RowKey) (rows rows' : List α) : Prop :=
  ∀ r ∈ rows, ∃ r' ∈ rows', key r' = key r

structure Session.Extends (s s' : Session) : Prop where
  key : s'.rowKey = s.rowKey
  waits : Retains WaitRow.rowKey s.waits s'.waits
  operations : Retains OperationRow.rowKey s.operations s'.operations

/-- Transactions that insert rows of the listed tables and change other columns lead from `db` to
`db'`. -/
def Db.Extends (db db' : Db) : Prop := ∀ s ∈ db.sessions, ∃ s' ∈ db'.sessions, s.Extends s'

/-- The primary keys of the listed tables. -/
structure Db.Keyed (db : Db) : Prop where
  sessions : (db.sessions.map (·.id)).Nodup
  waits : ∀ s ∈ db.sessions, (s.waits.map (·.id)).Nodup
  operations : ∀ s ∈ db.sessions, (s.operations.map (·.id)).Nodup

theorem Retains.refl {α : Type} (key : α → RowKey) (rows : List α) : Retains key rows rows :=
  fun r hr => ⟨r, hr, rfl⟩

theorem Retains.trans {α : Type} {key : α → RowKey} {rows rows' rows'' : List α}
    (h : Retains key rows rows') (h' : Retains key rows' rows'') : Retains key rows rows'' := by
  intro r hr
  obtain ⟨r', hr', hkey⟩ := h r hr
  obtain ⟨r'', hr'', hkey'⟩ := h' r' hr'
  exact ⟨r'', hr'', hkey'.trans hkey⟩

theorem Session.Extends.refl (s : Session) : s.Extends s := ⟨rfl, .refl _ _, .refl _ _⟩

theorem Session.Extends.trans {s s' s'' : Session} (h : s.Extends s') (h' : s'.Extends s'') :
    s.Extends s'' where
  key := h'.key.trans h.key
  waits := h.waits.trans h'.waits
  operations := h.operations.trans h'.operations

theorem Session.Extends.id_eq {s s' : Session} (h : s.Extends s') : s'.id = s.id :=
  congrArg (fun key : RowKey => (ofLex key).2) h.key

theorem Db.Extends.refl (db : Db) : db.Extends db := fun s hs => ⟨s, hs, .refl s⟩

theorem Db.Extends.trans {db db' db'' : Db} (h : db.Extends db') (h' : db'.Extends db'') :
    db.Extends db'' := by
  intro s hs
  obtain ⟨s', hs', hextends⟩ := h s hs
  obtain ⟨s'', hs'', hextends'⟩ := h' s' hs'
  exact ⟨s'', hs'', hextends.trans hextends'⟩

end AgentPlatform.Store
