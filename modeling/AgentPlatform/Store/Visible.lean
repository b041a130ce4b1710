import AgentPlatform.Lib.Numbered
import AgentPlatform.Store.Drawn

/-!
# What readers see of a session

The columns that the routes of the server show, the change that each transaction makes to them, and
the updates that it appends to the log of the session. Every change is told: the transaction appends
an update that names what it changed.
-/

namespace AgentPlatform.Store

open Fallible

/-! ## Columns that are shown -/

/-- The columns of an operation that are shown. -/
structure OperationFace where
  status : OperationStatus
  gatewayJobId : Option Uuid
  result : Option RawJson
  error : Option Value

def OperationRow.face (o : OperationRow) : OperationFace :=
  { status := o.status, gatewayJobId := o.gatewayJobId, result := o.result, error := o.error }

/-- What is shown of a session; an operation's request is available while it is stored. -/
structure Visible where
  events : List (EventId × EventStatus)
  operations : List (OperationId × OperationFace)
  requests : List OperationId
  waits : List (WaitId × WaitStatus)
  name : Option String
  metadata : Value
  status : SessionStatus
  stateVersion : StateVersion
  processingEnabled : Bool
  processingError : Option Value
  processingRevision : Nat

def Session.visible (s : Session) : Visible where
  events := s.events.map fun e => (e.id, e.status)
  operations := s.operations.map fun o => (o.id, o.face)
  requests := s.requests.map (·.operationId)
  waits := s.waits.map fun w => (w.id, w.status)
  name := s.name
  metadata := s.metadata
  status := s.status
  stateVersion := s.stateVersion
  processingEnabled := s.processingEnabled
  processingError := s.processingError
  processingRevision := s.processingRevision

/-- The resources of a session that a transaction may change. -/
structure Change where
  events : List EventId
  operations : List OperationId
  waits : List WaitId
  session : Bool
  processing : Bool

namespace Change

def none : Change := { events := [], operations := [], waits := [], session := false, processing := false }

def event (id : EventId) : Change := { none with events := [id] }

def operation (id : OperationId) : Change := { none with operations := [id] }

def wait (id : WaitId) : Change := { none with waits := [id] }

def ofSession : Change := { none with session := true }

def ofProcessing : Change := { none with processing := true }

/-- One change and then another. -/
def and (c c' : Change) : Change where
  events := c.events ++ c'.events
  operations := c.operations ++ c'.operations
  waits := c.waits ++ c'.waits
  session := c.session || c'.session
  processing := c.processing || c'.processing

end Change

/-- Nothing is shown differently outside a change. -/
structure Visible.Differs (v : Visible) (c : Change) (v' : Visible) : Prop where
  events : ∀ id ∉ c.events, v'.events.filter (·.1 = id) = v.events.filter (·.1 = id)
  operations : ∀ id ∉ c.operations,
    v'.operations.filter (·.1 = id) = v.operations.filter (·.1 = id)
  requests : ∀ id ∉ c.operations, id ∈ v'.requests ↔ id ∈ v.requests
  waits : ∀ id ∉ c.waits, v'.waits.filter (·.1 = id) = v.waits.filter (·.1 = id)
  session : c.session = false → v'.name = v.name ∧ v'.metadata = v.metadata ∧
    v'.status = v.status ∧ v'.stateVersion = v.stateVersion
  processing : c.processing = false → v'.processingEnabled = v.processingEnabled ∧
    v'.processingError = v.processingError ∧ v'.processingRevision = v.processingRevision

/-- Updates are not among the columns shown. -/
theorem Session.visible_of_sansUpdates {s s' : Session} (h : s'.sansUpdates = s.sansUpdates) :
    s'.visible = s.visible := by
  have : s'.sansUpdates.visible = s.sansUpdates.visible := congrArg Session.visible h
  exact this

namespace Visible.Differs

variable {v v' v'' : Visible} {c c' : Change}

theorem refl (v : Visible) (c : Change) : v.Differs c v :=
  ⟨fun _ _ => rfl, fun _ _ => rfl, fun _ _ => Iff.rfl, fun _ _ => rfl,
    fun _ => ⟨rfl, rfl, rfl, rfl⟩, fun _ => ⟨rfl, rfl, rfl⟩⟩

theorem of_eq (h : v' = v) (c : Change) : v.Differs c v' := h ▸ refl v c

theorem trans (first : v.Differs c v') (rest : v'.Differs c' v'') : v.Differs (c.and c') v'' where
  events id hid := by
    obtain ⟨h, h'⟩ := not_or.mp (mt List.mem_append.mpr hid)
    exact (rest.events id h').trans (first.events id h)
  operations id hid := by
    obtain ⟨h, h'⟩ := not_or.mp (mt List.mem_append.mpr hid)
    exact (rest.operations id h').trans (first.operations id h)
  requests id hid := by
    obtain ⟨h, h'⟩ := not_or.mp (mt List.mem_append.mpr hid)
    exact (rest.requests id h').trans (first.requests id h)
  waits id hid := by
    obtain ⟨h, h'⟩ := not_or.mp (mt List.mem_append.mpr hid)
    exact (rest.waits id h').trans (first.waits id h)
  session hsession := by
    obtain ⟨h, h'⟩ := Bool.or_eq_false_iff.mp hsession
    obtain ⟨hname, hmetadata, hstatus, hversion⟩ := first.session h
    obtain ⟨hname', hmetadata', hstatus', hversion'⟩ := rest.session h'
    exact ⟨hname'.trans hname, hmetadata'.trans hmetadata, hstatus'.trans hstatus,
      hversion'.trans hversion⟩
  processing hprocessing := by
    obtain ⟨h, h'⟩ := Bool.or_eq_false_iff.mp hprocessing
    obtain ⟨henabled, herror, hrevision⟩ := first.processing h
    obtain ⟨henabled', herror', hrevision'⟩ := rest.processing h'
    exact ⟨henabled'.trans henabled, herror'.trans herror, hrevision'.trans hrevision⟩

end Visible.Differs

/-! ## Rows under a key -/

section

variable {α β : Type} {key : α → Uuid} {column : α → β}

/-- A rewritten row shows under its own key only. -/
theorem filter_key_update {f : α → α} (keeps : ∀ r, key (f r) = key r) {x id : Uuid} (hne : id ≠ x)
    (rows : List α) :
    ((Table.update (fun r => key r = x) f rows).map fun r => (key r, column r)).filter (·.1 = id) =
      (rows.map fun r => (key r, column r)).filter (·.1 = id) := by
  induction rows with
  | nil => rfl
  | cons r rows ih =>
    rw [Table.update_cons, List.map_cons, List.map_cons, List.filter_cons, List.filter_cons, ih]
    by_cases hr : key r = x
    · have hother : ¬key r = id := fun h => hne (h.symm.trans hr)
      simp [hr ▸ hother, hr, keeps]
    · simp [hr]

/-- A row that is added shows under its own key only. -/
theorem filter_key_concat {r : α} {id : Uuid} (hne : id ≠ key r) (rows : List α) :
    ((rows ++ [r]).map fun r => (key r, column r)).filter (·.1 = id) =
      (rows.map fun r => (key r, column r)).filter (·.1 = id) := by
  simp [Ne.symm hne]

end

/-! ## What statements change -/

namespace Visible.Differs

theorem updateEvents (s : Session) (id : EventId) {f : EventRow → EventRow}
    (keeps : ∀ e, (f e).id = e.id := by exact fun _ => rfl) :
    s.visible.Differs (.event id) (s.updateEvents (·.id = id) f).visible :=
  { refl s.visible (.event id) with
    events := fun _ hid => filter_key_update keeps (by simpa [Change.event] using hid) s.events }

theorem updateWaits (s : Session) (id : WaitId) {f : WaitRow → WaitRow}
    (keeps : ∀ w, (f w).id = w.id := by exact fun _ => rfl) :
    s.visible.Differs (.wait id) (s.updateWaits (·.id = id) f).visible :=
  { refl s.visible (.wait id) with
    waits := fun _ hid => filter_key_update keeps (by simpa [Change.wait] using hid) s.waits }

theorem updateOperations (s : Session) (id : OperationId) {f : OperationRow → OperationRow}
    (keeps : ∀ o, (f o).id = o.id := by exact fun _ => rfl) :
    s.visible.Differs (.operation id) (s.updateOperations (·.id = id) f).visible :=
  { refl s.visible (.operation id) with
    operations := fun _ hid =>
      filter_key_update keeps (by simpa [Change.operation] using hid) s.operations }

theorem insertEvent (s : Session) (e : EventRow) {id : EventId} (own : e.id = id) :
    s.visible.Differs (.event id) { s with events := s.events ++ [e] }.visible :=
  { refl s.visible (.event id) with
    events := fun _ hid => filter_key_concat (by simpa [Change.event, own] using hid) s.events }

theorem insertWait (s : Session) (w : WaitRow) {id : WaitId} (own : w.id = id) :
    s.visible.Differs (.wait id) { s with waits := s.waits ++ [w] }.visible :=
  { refl s.visible (.wait id) with
    waits := fun _ hid => filter_key_concat (by simpa [Change.wait, own] using hid) s.waits }

theorem describe (v : Visible) {name : Option String} {metadata : Value} {status : SessionStatus}
    {stateVersion : StateVersion} :
    v.Differs .ofSession { v with name, metadata, status, stateVersion } :=
  { refl v .ofSession with session := fun h => by cases h }

theorem process (v : Visible) {processingEnabled : Bool} {processingError : Option Value}
    {processingRevision : Nat} :
    v.Differs .ofProcessing { v with processingEnabled, processingError, processingRevision } :=
  { refl v .ofProcessing with processing := fun h => by cases h }

/-- An operation that is staged with its request. -/
theorem stage (s : Session) (o : OperationRow) (r : OperationRequestRow) {id : OperationId}
    (own : o.id = id) (own' : r.operationId = id) : s.visible.Differs (.operation id)
      { s with operations := s.operations ++ [o], requests := s.requests ++ [r] }.visible :=
  { refl s.visible (.operation id) with
    operations := fun _ hid =>
      filter_key_concat (by simpa [Change.operation, own] using hid) s.operations
    requests := fun other hid => by
      have hne : other ≠ id := by simpa [Change.operation] using hid
      simp [Session.visible, own', hne] }

/-- A request that is removed. -/
theorem removeRequest (s : Session) (id : OperationId) : s.visible.Differs (.operation id)
    { s with requests := s.requests.filter fun r => r.operationId ≠ id }.visible :=
  { refl s.visible (.operation id) with
    requests := fun other hid => by
      have hne : other ≠ id := by simpa [Change.operation] using hid
      simp only [Session.visible, List.mem_map, List.mem_filter, decide_eq_true_eq]
      constructor
      · rintro ⟨r, ⟨hr, -⟩, rfl⟩
        exact ⟨r, hr, rfl⟩
      · rintro ⟨r, hr, rfl⟩
        exact ⟨r, ⟨hr, hne⟩, rfl⟩ }

end Visible.Differs

theorem Session.visible_expireRequest (s : Session) (id : OperationId)
    (expiresAt : Option Timestamp) : (s.expireRequest id expiresAt).visible = s.visible := by
  cases expiresAt with
  | none => rfl
  | some expiresAt =>
    have hrequests : (Table.update (fun r => r.operationId = id)
        (fun r : OperationRequestRow => { r with expiresAt := some expiresAt }) s.requests).map
          (·.operationId) = s.requests.map (·.operationId) := by
      refine Table.map_update_of_eq (fun _ => ?_) _
      rfl
    exact congrArg (fun requests => { s.visible with requests }) hrequests

/-- An operation that ends, with its completion event. -/
theorem Visible.Differs.settled (s : Session) (clock : Clock) (id : OperationId)
    {f : OperationRow → OperationRow} (keeps : ∀ o, (f o).id = o.id)
    (expiresAt : Option Timestamp) {e : EventRow} {eventId : EventId} (own : e.id = eventId) :
    s.visible.Differs ((Change.operation id).and (.event eventId))
      (s.settled clock id f expiresAt e).visible := by
  have hended : s.visible.Differs (.operation id)
      ((s.updateOperations (·.id = id) f).expireRequest id expiresAt).visible := by
    rw [Session.visible_expireRequest]
    exact .updateOperations s id keeps
  exact hended.trans (.insertEvent _ e own)

/-! ## The log of a session -/

/-- The kind and the payload of an update. -/
abbrev Told := UpdateKind × Value

/-- The session appended updates to its log, and nothing else was done to the log. -/
structure Session.Logs (s : Session) (told : List Told) (s' : Session) : Prop where
  rows : ∃ rows, s'.updates = s.updates ++ rows ∧
    rows.map (fun u => (u.kind, u.payload)) = told ∧
    Numbered (·.sequence) s.nextUpdateSequence rows
  next : s'.nextUpdateSequence = s.nextUpdateSequence + told.length
  retained : s'.retainedUpdateSequence = s.retainedUpdateSequence

namespace Session.Logs

variable {s t s' : Session} {told told' : List Told}

theorem of_eq (updates : s'.updates = s.updates)
    (next : s'.nextUpdateSequence = s.nextUpdateSequence)
    (retained : s'.retainedUpdateSequence = s.retainedUpdateSequence) : s.Logs [] s' :=
  ⟨⟨[], updates.trans (List.append_nil _).symm, rfl, .nil _ _⟩, next, retained⟩

theorem trans (first : s.Logs told t) (rest : t.Logs told' s') : s.Logs (told ++ told') s' := by
  obtain ⟨rows, hupdates, htold, hnumbered⟩ := first.rows
  obtain ⟨rows', hupdates', htold', hnumbered'⟩ := rest.rows
  have hlength : rows.length = told.length := by simpa using congrArg List.length htold
  refine ⟨⟨rows ++ rows', ?_, ?_, ?_⟩, ?_, rest.retained.trans first.retained⟩
  · rw [hupdates', hupdates, List.append_assoc]
  · rw [List.map_append, htold, htold']
  · rw [first.next, ← hlength] at hnumbered'
    exact hnumbered.append hnumbered'
  · rw [rest.next, first.next, List.length_append, Nat.add_assoc]

/-- An emitted update is appended. -/
theorem emit (h : s.Logs told t) (clock : Clock) (kind : UpdateKind) (payload : Value)
    (sourceEventId : Option EventId) :
    s.Logs (told ++ [(kind, payload)]) (t.emitUpdateWithEvent clock kind payload sourceEventId) :=
  h.trans ⟨⟨_, rfl, rfl, .concat (.nil _ _) rfl⟩, rfl, rfl⟩

end Session.Logs

/-! ## Changes that are told -/

/-- An update names a resource. -/
def Names (told : List Told) (kind : UpdateKind) (key : String) (id : Uuid) : Prop :=
  ∃ payload, (kind, payload) ∈ told ∧ payload.get key = some (.uuid id)

theorem Names.mono {told told' : List Told} {kind : UpdateKind} {key : String} {id : Uuid}
    (h : Names told kind key id) (within : told ⊆ told') : Names told' kind key id := by
  obtain ⟨payload, hmem, hkey⟩ := h
  exact ⟨payload, within hmem, hkey⟩

/-- The updates name every resource of a change of session `id`. -/
structure Change.ToldBy (c : Change) (id : SessionId) (told : List Told) : Prop where
  events : ∀ e ∈ c.events, Names told .eventChanged "event_id" e
  operations : ∀ o ∈ c.operations, Names told .operationChanged "operation_id" o
  waits : ∀ w ∈ c.waits, Names told .waitChanged "wait_id" w
  session : c.session = true → Names told .sessionChanged "session_id" id
  processing : c.processing = true → ∃ payload, (.processingChanged, payload) ∈ told

namespace Change.ToldBy

variable {c c' : Change} {id : SessionId} {told told' : List Told}

theorem mono (h : c.ToldBy id told) (within : told ⊆ told') : c.ToldBy id told' where
  events e he := (h.events e he).mono within
  operations o ho := (h.operations o ho).mono within
  waits w hw := (h.waits w hw).mono within
  session hsession := (h.session hsession).mono within
  processing hprocessing := by
    obtain ⟨payload, hmem⟩ := h.processing hprocessing
    exact ⟨payload, within hmem⟩

theorem both (h : c.ToldBy id told) (h' : c'.ToldBy id told) : (c.and c').ToldBy id told where
  events e he := (List.mem_append.mp he).elim (h.events e) (h'.events e)
  operations o ho := (List.mem_append.mp ho).elim (h.operations o) (h'.operations o)
  waits w hw := (List.mem_append.mp hw).elim (h.waits w) (h'.waits w)
  session hsession := (Bool.or_eq_true_iff.mp hsession).elim h.session h'.session
  processing hprocessing := (Bool.or_eq_true_iff.mp hprocessing).elim h.processing h'.processing

theorem none (id : SessionId) (told : List Told) : Change.none.ToldBy id told :=
  ⟨fun _ h => absurd h List.not_mem_nil, fun _ h => absurd h List.not_mem_nil,
    fun _ h => absurd h List.not_mem_nil, fun h => (by cases h), fun h => (by cases h)⟩

theorem event {e : EventId} (h : Names told .eventChanged "event_id" e) :
    (Change.event e).ToldBy id told :=
  { none id told with events := fun _ he => List.mem_singleton.mp he ▸ h }

theorem operation {o : OperationId} (h : Names told .operationChanged "operation_id" o) :
    (Change.operation o).ToldBy id told :=
  { none id told with operations := fun _ ho => List.mem_singleton.mp ho ▸ h }

theorem wait {w : WaitId} (h : Names told .waitChanged "wait_id" w) :
    (Change.wait w).ToldBy id told :=
  { none id told with waits := fun _ hw => List.mem_singleton.mp hw ▸ h }

theorem ofSession (h : Names told .sessionChanged "session_id" id) :
    Change.ofSession.ToldBy id told :=
  { none id told with session := fun _ => h }

theorem ofProcessing (h : ∃ payload, (.processingChanged, payload) ∈ told) :
    Change.ofProcessing.ToldBy id told :=
  { none id told with processing := fun _ => h }

end Change.ToldBy

/-- Whatever changed from one session to the other is told by updates appended to its log. -/
def Session.Tells (s s' : Session) : Prop :=
  ∃ c told, s.visible.Differs c s'.visible ∧ s.Logs told s' ∧ c.ToldBy s.id told

namespace Session.Tells

variable {s t s' : Session}

/-- Nothing that is shown changed, and nothing is told. -/
theorem silent (visible : s'.visible = s.visible) (logs : s.Logs [] s') : s.Tells s' :=
  ⟨.none, [], .of_eq visible _, logs, .none _ _⟩

theorem refl (s : Session) : s.Tells s := silent rfl (.of_eq rfl rfl rfl)

theorem trans (first : s.Tells t) (rest : t.Tells s') (same : t.id = s.id) : s.Tells s' := by
  obtain ⟨c, told, hdiffers, hlogs, htold⟩ := first
  obtain ⟨c', told', hdiffers', hlogs', htold'⟩ := rest
  refine ⟨c.and c', told ++ told', hdiffers.trans hdiffers', hlogs.trans hlogs', ?_⟩
  rw [same] at htold'
  exact (htold.mono (List.subset_append_left _ _)).both
    (htold'.mono (List.subset_append_right _ _))

/-- More may be told than what changed. -/
theorem emit (h : s.Tells t) (clock : Clock) (kind : UpdateKind) (payload : Value)
    (sourceEventId : Option EventId) :
    s.Tells (t.emitUpdateWithEvent clock kind payload sourceEventId) := by
  obtain ⟨c, told, hdiffers, hlogs, htold⟩ := h
  exact ⟨c, _, hdiffers, hlogs.emit clock kind payload sourceEventId,
    htold.mono (List.subset_append_left _ _)⟩

end Session.Tells

end AgentPlatform.Store
