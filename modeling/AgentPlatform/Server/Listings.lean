import AgentPlatform.Server.Cursors
import AgentPlatform.Store.ListedRows

/-!
# Following a cursor

The routes that list sessions, the waits of a session and its operations. A reader asks for a page,
presents the cursor that it is given for the next one, and goes on until it is given none; meanwhile
other transactions insert rows and change columns that are not listed by.
-/

namespace AgentPlatform.Server

open Store

/-! ## The routes -/

/-- `SessionPage` and `WaitPage`. -/
structure Listed (α : Type) where
  data : List α
  nextCursor : Option String

/-- `Page`. -/
structure Page (α : Type) extends Listed α where
  hasMore : Bool

def maxProjectId : Nat := 300

def maxHarnessId : Nat := 100

/-- `validate_text`. -/
def validateText (field value : String) (max : Nat) : Response Unit :=
  if value.isEmpty ∨ max < value.utf8ByteSize then
    .error (.badRequest (field ++ " must contain between 1 and " ++ toString max ++ " bytes"))
  else .ok ()

/-- `ListSessions`. -/
structure ListSessions where
  projectId : Option String
  status : Option SessionStatus
  harnessId : Option String
  cursor : Option String
  limit : Option Int

/-- `list` of `routes/sessions.rs`. -/
def listSessions (codec : TextCodec) (db : Db) (query : ListSessions) :
    Response (Listed SessionSummary) := do
  query.projectId.forM fun projectId => validateText "project_id" projectId maxProjectId
  query.harnessId.forM fun harnessId => validateText "harness_id" harnessId maxHarnessId
  let cursor ← query.cursor.mapM (decodeCursor codec "cursor is invalid")
  let page ← respond <| db.listSessions
    { projectId := query.projectId
      status := query.status
      harnessId := query.harnessId
      cursor
      limit := query.limit }
  .ok { data := page.sessions, nextCursor := page.nextCursor.map (encodeCursor codec) }

/-- `ListWaits`. -/
structure ListWaits where
  status : Option WaitStatus
  cursor : Option String
  limit : Option Int

/-- `list` of `routes/waits.rs`. -/
def listWaits (codec : TextCodec) (sessionId : SessionId) (db : Db) (query : ListWaits) :
    Response (Listed WaitRecord) := do
  let cursor ← query.cursor.mapM (decodeCursor codec "cursor is invalid")
  let page ← respond <| db.listWaits sessionId { status := query.status, cursor, limit := query.limit }
  .ok { data := page.waits, nextCursor := page.nextCursor.map (encodeCursor codec) }

/-- `ListOperations`. -/
structure ListOperations where
  cursor : Option String
  limit : Option Int
  kind : Option OperationKind
  status : Option String
  sourceEventId : Option EventId

/-- `limit`. -/
def pageLimit (raw : Option Int) : Response Int :=
  let limit := raw.getD 50
  if limit < 1 ∨ 100 < limit then .error (.badRequest "limit must be 1..100") else .ok limit

/-- `status`. -/
def operationStatus (raw : Option String) : Response (Option OperationStatus) :=
  raw.mapM fun text =>
    match text with
    | "pending" => .ok .pending
    | "submitting" => .ok .submitting
    | "accepted" => .ok .accepted
    | "succeeded" => .ok .succeeded
    | "failed" => .ok .failed
    | "cancelled" => .ok .cancelled
    | "unknown" => .ok .unknown
    | _ => .error (.badRequest "invalid operation status")

/-- `operations` of `routes/inspection.rs`. -/
def listOperations (codec : TextCodec) (sessionId : SessionId) (db : Db) (query : ListOperations) :
    Response (Page OperationSummary) := do
  let limit ← pageLimit query.limit
  let cursor ← query.cursor.mapM (decodeCursor codec "invalid operation cursor")
  let status ← operationStatus query.status
  let rows ← respond <| db.operationsSummary sessionId cursor (limit + 1)
    { kind := query.kind, status, sourceEvent := query.sourceEventId }
  let hasMore := limit.toNat < rows.length
  let rows := rows.take limit.toNat
  .ok
    { data := rows
      nextCursor := if hasMore then rows.getLast?.map fun row => encodeCursor codec row.cursor else none
      hasMore }

/-! ## Reading a list to its end -/

/-- A page, and the database that it was read from. -/
structure Reading (α : Type) where
  db : Db
  page : Listed α

/-- A list that is read in pages: the table it shows, how its rows are keyed and selected, and the
route, for a limit and the text of a cursor. -/
structure Listing (ρ α : Type) where
  table : Db → List ρ
  key : ρ → RowKey
  keep : ρ → Bool
  cursorOf : α → RowCursor
  message : String
  answer : Db → Option Int → Option String → Response (Listed α)

namespace Listing

variable {ρ α : Type}

/-- Following the cursors from one text on until there is none. The first of the pages is read from
`db`; each page may have a limit of its own, and other transactions run between two pages. -/
inductive Follows (list : Listing ρ α) : Option String → Db → List (Reading α) → Prop
  | last {cursor : Option String} {db : Db} {limit : Option Int} {page : Listed α}
      (keyed : db.Keyed) (read : list.answer db limit cursor = .ok page)
      (ends : page.nextCursor = none) : Follows list cursor db [⟨db, page⟩]
  | more {cursor : Option String} {db db' : Db} {limit : Option Int} {page : Listed α}
      {text : String} {readings : List (Reading α)} (keyed : db.Keyed)
      (read : list.answer db limit cursor = .ok page) (next : page.nextCursor = some text)
      (others : db.Extends db') (rest : Follows list (some text) db' readings) :
      Follows list cursor db (⟨db, page⟩ :: readings)

/-- The rows that were listed, page after page. -/
def listed (readings : List (Reading α)) : List α := readings.flatMap (·.page.data)

/-- What a reader of all pages is promised. -/
structure Covers (list : Listing ρ α) (db : Db) (readings : List (Reading α)) : Prop where
  /-- The rows are listed in strictly decreasing `(created_at,id)`. -/
  descending : (listed readings).Pairwise fun row row' =>
    (list.cursorOf row').key < (list.cursorOf row).key
  /-- No row is listed twice. -/
  once : ((listed readings).map fun row => (list.cursorOf row).id).Nodup
  /-- A row that was there when the first page was read, and which was selected whenever a page was
  read, is listed. -/
  complete : ∀ r ∈ list.table db,
    (∀ reading ∈ readings, ∀ r' ∈ list.table reading.db, list.key r' = list.key r →
      list.keep r' = true) →
    ∃ row ∈ listed readings, (list.cursorOf row).key = list.key r

/-- Paging through a list covers it, and whichever page has a cursor, the cursor is decoded to the
time and the id of the last row of that page. -/
structure Paged (list : Listing ρ α) (codec : TextCodec) : Prop where
  covers : ∀ {db : Db} {readings : List (Reading α)}, list.Follows none db readings →
    list.Covers db readings
  cursors : ∀ {db : Db} {limit : Option Int} {cursor : Option String} {page : Listed α},
    list.answer db limit cursor = .ok page → ∀ text ∈ page.nextCursor,
      ∃ row, page.data.getLast? = some row ∧
        decodeCursor codec list.message text = .ok (list.cursorOf row)

/-- The route answers the pages of the table below the key of the cursor. -/
structure Pages (list : Listing ρ α) (codec : TextCodec) : Prop where
  page : ∀ {db : Db} {limit : Option Int} {cursor : Option String} {page : Listed α},
    list.answer db limit cursor = .ok page → ∃ (after : Option RowCursor) (size : Nat) (shown : ρ → α),
      cursor.mapM (decodeCursor codec list.message) = .ok after ∧ 0 < size ∧
      (∀ r, list.cursorOf (shown r) = .ofKey (list.key r)) ∧
      let below := Keyset.page list.key list.keep (after.map (·.key)) size (list.table db)
      page.data = below.rows.map shown ∧
        page.nextCursor = below.next.map fun key => encodeCursor codec (.ofKey key)
  distinct : ∀ {db : Db}, db.Keyed → ((list.table db).map fun r => (ofLex (list.key r)).2).Nodup
  retains : ∀ {db db' : Db}, db'.Keyed → db.Extends db' →
    Retains list.key (list.table db) (list.table db')

section

variable {list : Listing ρ α} {codec : TextCodec} {cursor : Option String} {db : Db}
  {readings : List (Reading α)}

theorem Pages.sound (pages : list.Pages codec) {size : Nat} (positive : 0 < size) (keyed : db.Keyed) :
    Keyset.Read.Sound list.key ⟨size, list.table db⟩ where
  positive
  distinct := by
    have hdistinct := pages.distinct keyed
    have hcomp : (list.table db).map (fun r => (ofLex (list.key r)).2) =
        ((list.table db).map list.key).map fun key : RowKey => (ofLex key).2 := by
      rw [List.map_map]
      rfl
    rw [hcomp] at hdistinct
    exact hdistinct.of_map _

/-- The pages are a walk over the tables that they were read from. -/
theorem Follows.walk (follows : list.Follows cursor db readings) (pages : list.Pages codec)
    (documented : codec.Documented) :
    ∃ (after : Option RowCursor) (reads : List (Keyset.Read ρ)) (rows : List ρ),
      cursor.mapM (decodeCursor codec list.message) = .ok after ∧
      Keyset.Walk list.key list.keep (after.map (·.key)) reads rows ∧
      reads.map (·.table) = readings.map (fun reading => list.table reading.db) ∧
      (∀ read ∈ reads, read.Sound list.key) ∧
      (listed readings).map (fun row => (list.cursorOf row).key) = rows.map list.key := by
  have hrows {after : Option RowKey} {size : Nat} {db : Db} {page : Listed α} {shown : ρ → α}
      (agrees : ∀ r, list.cursorOf (shown r) = .ofKey (list.key r))
      (hdata : page.data = (Keyset.page list.key list.keep after size (list.table db)).rows.map shown) :
      page.data.map (fun row => (list.cursorOf row).key) =
        (Keyset.page list.key list.keep after size (list.table db)).rows.map list.key := by
    rw [hdata, List.map_map]
    refine List.map_congr_left fun r _ => ?_
    rw [Function.comp_apply, agrees, RowCursor.key_ofKey]
  induction follows with
  | @last cursor db limit page keyed read ends =>
    obtain ⟨after, size, shown, hafter, hsize, hagrees, hdata, hnext⟩ := pages.page read
    rw [ends, eq_comm, Option.map_eq_none_iff] at hnext
    refine ⟨after, [⟨size, list.table db⟩], _, hafter, .last _ ⟨size, list.table db⟩ hnext, rfl, ?_, ?_⟩
    · intro read hread
      rw [List.mem_singleton.mp hread]
      exact pages.sound hsize keyed
    · rw [listed, List.flatMap_singleton]
      exact hrows hagrees hdata
  | @more cursor db db' limit page text readings keyed read next others rest ih =>
    obtain ⟨after, size, shown, hafter, hsize, hagrees, hdata, hnext⟩ := pages.page read
    rw [next, eq_comm, Option.map_eq_some_iff] at hnext
    obtain ⟨key, hkey, htext⟩ := hnext
    obtain ⟨after', reads, rows, hafter', hwalk, htables, hsound, hlisted⟩ := ih
    have hdecoded : Option.mapM (decodeCursor codec list.message) (some text) =
        .ok (some (.ofKey key)) := by
      rw [Option.mapM_some, ← htext, decodeCursor_encodeCursor documented]
      rfl
    rw [hdecoded] at hafter'
    cases hafter'
    refine ⟨after, ⟨size, list.table db⟩ :: reads, _, hafter,
      .more _ ⟨size, list.table db⟩ hkey hwalk, ?_, ?_, ?_⟩
    · rw [List.map_cons, List.map_cons, htables]
    · intro read hread
      rcases List.mem_cons.mp hread with rfl | hread
      · exact pages.sound hsize keyed
      · exact hsound read hread
    · rw [listed, List.flatMap_cons, List.map_append, List.map_append]
      exact congrArg₂ _ (hrows hagrees hdata) hlisted

/-- The database of the last page has whatever was there before. -/
theorem Follows.final (follows : list.Follows cursor db readings) :
    ∃ db' : Db, db'.Keyed ∧ db.Extends db' ∧ ∀ reading ∈ readings, reading.db.Extends db' := by
  induction follows with
  | @last cursor db limit page keyed read ends =>
    refine ⟨db, keyed, .refl db, fun reading hreading => ?_⟩
    rw [List.mem_singleton.mp hreading]
    exact .refl db
  | @more cursor db db' limit page text readings keyed read next others rest ih =>
    obtain ⟨final, hkeyed, hextends, hreadings⟩ := ih
    refine ⟨final, hkeyed, others.trans hextends, fun reading hreading => ?_⟩
    rcases List.mem_cons.mp hreading with rfl | hreading
    · exact others.trans hextends
    · exact hreadings reading hreading

/-- The database of the first page is part of every later one, which has its keys. -/
theorem Follows.first (follows : list.Follows cursor db readings) :
    ∀ reading ∈ readings, reading.db.Keyed ∧ db.Extends reading.db := by
  induction follows with
  | @last cursor db limit page keyed read ends =>
    intro reading hreading
    rw [List.mem_singleton.mp hreading]
    exact ⟨keyed, .refl db⟩
  | @more cursor db db' limit page text readings keyed read next others rest ih =>
    intro reading hreading
    rcases List.mem_cons.mp hreading with rfl | hreading
    · exact ⟨keyed, .refl db⟩
    · obtain ⟨hkeyed, hextends⟩ := ih reading hreading
      exact ⟨hkeyed, others.trans hextends⟩

/-- A cursor that a page has is decoded to the last row of the page. -/
theorem Pages.lastRow (pages : list.Pages codec) (documented : codec.Documented) {limit : Option Int}
    {page : Listed α} (read : list.answer db limit cursor = .ok page) {text : String}
    (next : text ∈ page.nextCursor) : ∃ row, page.data.getLast? = some row ∧
      decodeCursor codec list.message text = .ok (list.cursorOf row) := by
  obtain ⟨after, size, shown, -, -, hagrees, hdata, hnext⟩ := pages.page read
  rw [Option.mem_def.mp next, eq_comm, Option.map_eq_some_iff] at hnext
  obtain ⟨key, hkey, rfl⟩ := hnext
  obtain ⟨r, hlast, rfl⟩ := Keyset.page_next_last hkey
  refine ⟨shown r, ?_, ?_⟩
  · rw [hdata, List.getLast?_map, hlast, Option.map_some]
  · rw [decodeCursor_encodeCursor documented, hagrees]

/-- Reading a list from its first page to its end covers its rows. -/
theorem Follows.covers (follows : list.Follows none db readings) (pages : list.Pages codec)
    (documented : codec.Documented) : list.Covers db readings := by
  obtain ⟨after, reads, rows, hafter, hwalk, htables, hsound, hlisted⟩ :=
    follows.walk pages documented
  cases hafter
  have hread {read : Keyset.Read ρ} (h : read ∈ reads) :
      ∃ reading ∈ readings, list.table reading.db = read.table := by
    have hmem : read.table ∈ readings.map fun reading => list.table reading.db :=
      htables ▸ List.mem_map_of_mem h
    exact List.mem_map.mp hmem
  have hdescending : ((listed readings).map fun row => (list.cursorOf row).key).Pairwise
      fun key key' => key' < key := by
    rw [hlisted, List.pairwise_map]
    exact hwalk.descending hsound
  refine ⟨List.pairwise_map.mp hdescending, ?_, fun r hr hselected => ?_⟩
  · obtain ⟨final, hkeyed, -, hfinal⟩ := follows.final
    -- every listed key is in the table that the last page was read from, where ids stand once
    have hkept : ∀ key ∈ (listed readings).map fun row => (list.cursorOf row).key,
        ∃ r ∈ list.table final, list.key r = key := by
      intro key hkey
      rw [hlisted] at hkey
      obtain ⟨r, hr, rfl⟩ := List.mem_map.mp hkey
      obtain ⟨⟨read, hin, hr'⟩, -, -⟩ := hwalk.sound hsound r hr
      obtain ⟨reading, hreading, htable⟩ := hread hin
      exact pages.retains hkeyed (hfinal reading hreading) r (htable ▸ hr')
    have hids : ((listed readings).map fun row => (list.cursorOf row).id) =
        ((listed readings).map fun row => (list.cursorOf row).key).map
          fun key : RowKey => (ofLex key).2 := by
      rw [List.map_map]
      rfl
    rw [hids, List.Nodup, List.pairwise_map]
    refine hdescending.imp_of_mem fun hkey hkey' hlt heq => ?_
    obtain ⟨r, hr, rfl⟩ := hkept _ hkey
    obtain ⟨r', hr', rfl⟩ := hkept _ hkey'
    have hsame : r = r' := List.inj_on_of_nodup_map (pages.distinct hkeyed) hr hr' heq
    rw [hsame] at hlt
    exact lt_irrefl _ hlt
  · have hevery : ∀ read ∈ reads, ∃ r' ∈ read.table, list.key r' = list.key r ∧
        list.keep r' = true := by
      intro read hin
      obtain ⟨reading, hreading, htable⟩ := hread hin
      obtain ⟨hkeyed, hextends⟩ := follows.first reading hreading
      obtain ⟨r', hr', hkey⟩ := pages.retains hkeyed hextends r hr
      exact ⟨r', htable ▸ hr', hkey, hselected reading hreading r' hr' hkey⟩
    obtain ⟨r', hr', hkey⟩ := hwalk.complete hsound (fun _ h => absurd h (Option.not_mem_none _)) hevery
    have hmem : list.key r' ∈ (listed readings).map fun row => (list.cursorOf row).key :=
      hlisted ▸ List.mem_map_of_mem hr'
    obtain ⟨row, hrow, heq⟩ := List.mem_map.mp hmem
    exact ⟨row, hrow, heq.trans hkey⟩

theorem Pages.paged (pages : list.Pages codec) (documented : codec.Documented) :
    list.Paged codec where
  covers follows := follows.covers pages documented
  cursors read _ next := pages.lastRow documented read next

end

end Listing

/-! ## The three lists -/

section

variable (codec : TextCodec) (sessionId : SessionId)

/-- The list of sessions, under the conditions of a query. -/
def sessionListing (query : ListSessions) : Listing Session SessionSummary where
  table db := db.sessions
  key := Session.rowKey
  keep s := query.projectId.all (s.projectId = ·) && query.status.all (s.status = ·) &&
    query.harnessId.all (s.harnessId = ·)
  cursorOf := SessionSummary.cursor
  message := "cursor is invalid"
  answer db limit cursor := listSessions codec db { query with limit, cursor }

/-- The list of the waits of a session. -/
def waitListing (query : ListWaits) : Listing WaitRow WaitRecord where
  table db := (db.session? sessionId).elim [] (·.waits)
  key := WaitRow.rowKey
  keep w := query.status.all (w.status = ·)
  cursorOf := WaitRecord.cursor
  message := "cursor is invalid"
  answer db limit cursor := listWaits codec sessionId db { query with limit, cursor }

/-- The list of the operations of a session. A status is asked for by its text. -/
def operationListing (query : ListOperations) : Listing OperationRow OperationSummary where
  table db := (db.session? sessionId).elim [] (·.operations)
  key := OperationRow.rowKey
  keep o := query.kind.all (o.kind = ·) && query.status.all (o.status.asStr = ·) &&
    query.sourceEventId.all (o.sourceEventId = ·)
  cursorOf := OperationSummary.cursor
  message := "invalid operation cursor"
  answer db limit cursor :=
    (listOperations codec sessionId db { query with limit, cursor }).map (·.toListed)

end

section

variable (codec : TextCodec) (sessionId : SessionId)

theorem sessionListing_pages (query : ListSessions) : (sessionListing codec query).Pages codec where
  page := by
    intro db limit cursor page h
    obtain ⟨-, -, h⟩ := Fallible.bind_ok h
    obtain ⟨-, -, h⟩ := Fallible.bind_ok h
    obtain ⟨after, hafter, h⟩ := Fallible.bind_ok h
    obtain ⟨listed, hlisted, h⟩ := Fallible.bind_ok h
    cases h
    obtain ⟨hsize, hrows, hnext⟩ := Db.listSessions_ok (respond_ok hlisted)
    refine ⟨after, _, _, hafter, hsize, fun _ => rfl, hrows, ?_⟩
    dsimp only
    rw [hnext, Option.map_map]
    rfl
  distinct keyed := keyed.sessions
  retains := by
    intro db db' keyed extends' s hs
    obtain ⟨s', hs', hextends⟩ := extends' s hs
    exact ⟨s', hs', hextends.key⟩

/-- A session is found where it was. -/
theorem session?_of_extends {db db' : Db} (keyed : db'.Keyed) (extends' : db.Extends db')
    {s : Session} (h : db.session? sessionId = some s) :
    ∃ s', db'.session? sessionId = some s' ∧ s.Extends s' := by
  obtain ⟨s', hs', hextends⟩ := extends' s (Table.lookup_mem h)
  refine ⟨s', ?_, hextends⟩
  rw [← Table.lookup_key h, ← hextends.id_eq]
  exact Table.lookup_eq_some keyed.sessions hs'

/-- A table of a session, when ids stand once in it and its rows are kept. -/
theorem sessionTable_retains {ρ : Type} {key : ρ → RowKey} {rows : Session → List ρ}
    (retains : ∀ s s' : Session, s.Extends s' → Retains key (rows s) (rows s')) {db db' : Db}
    (keyed : db'.Keyed) (extends' : db.Extends db') :
    Retains key ((db.session? sessionId).elim [] rows) ((db'.session? sessionId).elim [] rows) := by
  cases hsession : db.session? sessionId with
  | none => exact fun r hr => absurd hr List.not_mem_nil
  | some s =>
    obtain ⟨s', hs', hextends⟩ := session?_of_extends sessionId keyed extends' hsession
    rw [hs']
    exact retains s s' hextends

theorem sessionTable_distinct {ρ : Type} {id : ρ → Uuid} {rows : Session → List ρ} {db : Db}
    (distinct : ∀ s ∈ db.sessions, ((rows s).map id).Nodup) :
    (((db.session? sessionId).elim [] rows).map id).Nodup := by
  cases hsession : db.session? sessionId with
  | none => exact List.nodup_nil
  | some s => exact distinct s (Table.lookup_mem hsession)

theorem waitListing_pages (query : ListWaits) :
    (waitListing codec sessionId query).Pages codec where
  page := by
    intro db limit cursor page h
    obtain ⟨after, hafter, h⟩ := Fallible.bind_ok h
    obtain ⟨listed, hlisted, h⟩ := Fallible.bind_ok h
    cases h
    obtain ⟨hsize, s, hs, hrows, hnext⟩ := Db.listWaits_ok (respond_ok hlisted)
    refine ⟨after, _, (·.record s.id), hafter, hsize, fun _ => rfl, ?_⟩
    simp only [waitListing, hs, Option.elim_some]
    refine ⟨hrows, ?_⟩
    rw [hnext, Option.map_map]
    rfl
  distinct keyed := sessionTable_distinct sessionId keyed.waits
  retains keyed extends' :=
    sessionTable_retains sessionId (fun _ _ h => h.waits) keyed extends'

theorem asStr_inj {status status' : OperationStatus} :
    status.asStr = status'.asStr ↔ status = status' := by
  refine ⟨fun h => ?_, congrArg OperationStatus.asStr⟩
  cases status <;> cases status' <;> first | rfl | simp [OperationStatus.asStr] at h

/-- A status that was read from a text is the one that is stored under it. -/
theorem operationStatus_ok {raw : Option String} {status : Option OperationStatus}
    (h : operationStatus raw = .ok status) : raw = status.map (·.asStr) := by
  cases raw with
  | none =>
    cases h
    rfl
  | some text =>
    rw [operationStatus, Option.mapM_some] at h
    split at h <;> cases h <;> rfl

theorem operationStatus_selects {raw : Option String} {status : Option OperationStatus}
    (h : operationStatus raw = .ok status) (o : OperationRow) :
    status.all (o.status = ·) = raw.all (o.status.asStr = ·) := by
  rw [operationStatus_ok h, Option.all_map]
  congr 1
  funext status
  rw [decide_eq_decide, asStr_inj]

theorem pageLimit_ok {raw : Option Int} {limit : Int} (h : pageLimit raw = .ok limit) :
    1 ≤ limit := by
  simp only [pageLimit] at h
  split at h
  · cases h
  · cases h
    omega

theorem operationListing_pages (query : ListOperations) :
    (operationListing codec sessionId query).Pages codec where
  page := by
    intro db limit cursor page h
    cases hanswer : listOperations codec sessionId db { query with limit, cursor } with
    | error error =>
      simp only [operationListing, hanswer] at h
      cases h
    | ok answer =>
      simp only [operationListing, hanswer] at h
      cases h
      obtain ⟨size, hsize, hanswer⟩ := Fallible.bind_ok hanswer
      obtain ⟨after, hafter, hanswer⟩ := Fallible.bind_ok hanswer
      obtain ⟨status, hstatus, hanswer⟩ := Fallible.bind_ok hanswer
      obtain ⟨rows, hrows, hanswer⟩ := Fallible.bind_ok hanswer
      cases hanswer
      have hpositive : 1 ≤ size := pageLimit_ok hsize
      obtain ⟨s, hs, hdata, hnext⟩ := Db.operationsSummary_ok hpositive (respond_ok hrows)
      have hkeep : OperationFilter.selects ⟨query.kind, status, query.sourceEventId⟩ =
          (operationListing codec sessionId query).keep := by
        funext o
        rw [OperationFilter.selects, operationStatus_selects hstatus]
        rfl
      rw [hkeep] at hdata hnext
      refine ⟨after, size.toNat, s.operationSummary, hafter, by omega, fun _ => rfl, ?_⟩
      simp only [operationListing, hs, Option.elim_some] at hdata hnext ⊢
      refine ⟨hdata, ?_⟩
      have hencoded := congrArg (Option.map (encodeCursor codec)) hnext
      rw [Option.map_map] at hencoded
      refine Eq.trans ?_ hencoded
      by_cases hmore : size.toNat < rows.length
      · rw [if_pos hmore, if_pos hmore, Option.map_map, Function.comp_def]
      · rw [if_neg hmore, if_neg hmore]
        rfl
  distinct keyed := sessionTable_distinct sessionId keyed.operations
  retains keyed extends' :=
    sessionTable_retains sessionId (fun _ _ h => h.operations) keyed extends'

end

/-- Each of the three lists, under every filter and page size, is covered by following its cursors
while other transactions run. -/
theorem cursor_paging_covers {codec : TextCodec} (documented : codec.Documented) :
    (∀ query : ListSessions, (sessionListing codec query).Paged codec) ∧
      (∀ (sessionId : SessionId) (query : ListWaits),
        (waitListing codec sessionId query).Paged codec) ∧
      ∀ (sessionId : SessionId) (query : ListOperations),
        (operationListing codec sessionId query).Paged codec :=
  ⟨fun query => (sessionListing_pages codec query).paged documented,
    fun sessionId query => (waitListing_pages codec sessionId query).paged documented,
    fun sessionId query => (operationListing_pages codec sessionId query).paged documented⟩

/-! ## A session that comes in between two pages -/

/-- Times in the shortest RFC 3339 text that has their microseconds. -/
def plainTextCodec : TextCodec where
  writeTime := Rfc3339.text
  readTime := Rfc3339.instant
  readUuid text :=
    if text.toList.all Char.isDigit then some (Nat.ofDigitChars 10 text.toList 0) else none

theorem plainTextCodec_documented : plainTextCodec.Documented where
  writes := Rfc3339.instant_text
  reads _ _ h := h
  uuids id := by
    have htext : id.toText.toList = Nat.toDigits 10 id := Nat.toList_repr
    simp only [plainTextCodec, htext, Json.all_isDigit_toDigits, if_true,
      Nat.ofDigitChars_ten_toDigits]

/-- A page of sessions, from what its parts answer. -/
theorem listSessions_eq {codec : TextCodec} {db : Db} {query : ListSessions}
    {cursor : Option SessionCursor} {page : SessionPage}
    (projectId : query.projectId.forM (fun projectId =>
      validateText "project_id" projectId maxProjectId) = .ok ())
    (harnessId : query.harnessId.forM (fun harnessId =>
      validateText "harness_id" harnessId maxHarnessId) = .ok ())
    (decoded : query.cursor.mapM (decodeCursor codec "cursor is invalid") = .ok cursor)
    (found : db.listSessions ⟨query.projectId, query.status, query.harnessId, cursor, query.limit⟩ =
      .ok page) :
    listSessions codec db query =
      .ok { data := page.sessions, nextCursor := page.nextCursor.map (encodeCursor codec) } := by
  rw [listSessions, Fallible.ok_bind projectId, Fallible.ok_bind harnessId, Fallible.ok_bind decoded,
    found]
  rfl

def newSession (id : SessionId) : NewSession :=
  { id, projectId := "project", harnessId := "harness", harnessVersion := "1"
    configuration := "null", state := "null", name := none, metadata := .null }

def emptySession (id : SessionId) : Session := .create stillClock (newSession id)

def sessionsOf (ids : List SessionId) : Db := { Db.empty with sessions := ids.map emptySession }

def allSessions : ListSessions where
  projectId := none
  status := none
  harnessId := some "harness"
  cursor := none
  limit := none

/-- The two pages of one session each. -/
def createdReadings : List (Reading SessionSummary) :=
  [⟨sessionsOf [2, 1],
      { data := [(emptySession 2).summary]
        nextCursor := some (encodeCursor plainTextCodec ⟨0, 2⟩) }⟩,
    ⟨sessionsOf [2, 1, 3], { data := [(emptySession 1).summary], nextCursor := none }⟩]

theorem createSession_sessionsOf {ids : List SessionId} {id : SessionId} (fresh : id ∉ ids) :
    (exec plainCodec stillClock (sessionsOf ids) (.createSession (newSession id))).2 =
      sessionsOf (ids ++ [id]) := by
  have hnone : (sessionsOf ids).session? (newSession id).id = none := by
    refine Table.lookup_eq_none.mpr fun s hs => ?_
    obtain ⟨id', hid', rfl⟩ := List.mem_map.mp hs
    rintro rfl
    exact fresh hid'
  have hmetadata : jsonb (newSession id).metadata = .ok .null := by
    simp [jsonb, newSession, Value.mentionsNul]
  simp only [exec, Db.createSession, hmetadata, hnone, settle, Option.isSome_none,
    Bool.false_eq_true, if_false]
  rw [sessionsOf, sessionsOf, List.map_append]
  rfl

theorem sessionsOf_run {ids : List SessionId} (distinct : ids.Nodup) :
    ∃ trace, Run plainCodec trace (sessionsOf ids) := by
  induction ids using List.reverseRecOn with
  | nil => exact ⟨[], .start⟩
  | append_singleton ids id ih =>
    obtain ⟨hids, -, hfresh⟩ := List.nodup_append.mp distinct
    obtain ⟨trace, hrun⟩ := ih hids
    have hnext := hrun.step (.createSession (newSession id)) stillClock (.of_unclaimed rfl rfl rfl)
    rw [createSession_sessionsOf fun hid => hfresh id hid id List.mem_cons_self rfl] at hnext
    exact ⟨_, hnext⟩

theorem createdReadings_follow :
    (sessionListing plainTextCodec allSessions).Follows none (sessionsOf [2, 1]) createdReadings := by
  have hvalid : (some "harness").forM (fun harnessId => validateText "harness_id" harnessId maxHarnessId) =
      .ok () := rfl
  have hfirst : listSessions plainTextCodec (sessionsOf [2, 1])
      { allSessions with limit := some 1, cursor := none } =
      .ok
        { data := [(emptySession 2).summary]
          nextCursor := some (encodeCursor plainTextCodec ⟨0, 2⟩) } := by
    have hselected : ((sessionsOf [2, 1]).sessions.filter fun s =>
        SessionFilter.selects ⟨none, none, some "harness", none, some 1⟩ s &&
          Option.all (fun cursor : RowCursor => s.rowKey < cursor.key) none) =
        [emptySession 2, emptySession 1] := rfl
    have hnewest : newest Session.rowKey (1 + 1) [emptySession 2, emptySession 1] =
        [emptySession 2, emptySession 1] := newest_of_pairwise (by decide) 2
    have hpage : (sessionsOf [2, 1]).listSessions ⟨none, none, some "harness", none, some 1⟩ =
        .ok { sessions := [(emptySession 2).summary], nextCursor := some ⟨0, 2⟩ } := by
      simp only [Db.listSessions, hselected, Option.getD_some, hnewest]
      rfl
    exact @listSessions_eq _ _ { allSessions with limit := some 1, cursor := none } none _ rfl hvalid
      rfl hpage
  have hsecond : listSessions plainTextCodec (sessionsOf [2, 1, 3])
      { allSessions with limit := some 1, cursor := some (encodeCursor plainTextCodec ⟨0, 2⟩) } =
      .ok { data := [(emptySession 1).summary], nextCursor := none } := by
    have hselected : ((sessionsOf [2, 1, 3]).sessions.filter fun s =>
        SessionFilter.selects ⟨none, none, some "harness", some ⟨0, 2⟩, some 1⟩ s &&
          Option.all (fun cursor : RowCursor => s.rowKey < cursor.key) (some ⟨0, 2⟩)) =
        [emptySession 1] := rfl
    have hnewest : newest Session.rowKey (1 + 1) [emptySession 1] = [emptySession 1] :=
      newest_of_pairwise (List.pairwise_singleton _ _) 2
    have hpage : (sessionsOf [2, 1, 3]).listSessions
        ⟨none, none, some "harness", some ⟨0, 2⟩, some 1⟩ =
        .ok { sessions := [(emptySession 1).summary], nextCursor := none } := by
      simp only [Db.listSessions, hselected, Option.getD_some, hnewest]
      rfl
    have hcursor := decodeCursor_encodeCursor plainTextCodec_documented ⟨0, 2⟩ "cursor is invalid"
    have hdecoded : (some (encodeCursor plainTextCodec ⟨0, 2⟩)).mapM
        (decodeCursor plainTextCodec "cursor is invalid") = .ok (some ⟨0, 2⟩) := by
      rw [Option.mapM_some, hcursor]
      rfl
    exact @listSessions_eq _ _
      { allSessions with limit := some 1, cursor := some (encodeCursor plainTextCodec ⟨0, 2⟩) }
      (some ⟨0, 2⟩) _ rfl hvalid hdecoded hpage
  obtain ⟨trace, hrun⟩ := sessionsOf_run (by decide : [2, 1].Nodup)
  obtain ⟨trace', hrun'⟩ := sessionsOf_run (by decide : [2, 1, 3].Nodup)
  have hextends := hrun.extends_step 
    (.of_unclaimed rfl rfl rfl : Admissible trace (.createSession (newSession 3))) stillClock
  rw [createSession_sessionsOf (by decide)] at hextends
  exact .more hrun.keyed hfirst rfl hextends (.last hrun'.keyed hsecond rfl)

/-- Session 3 is created after the first page was read: it is the newest, so it is not listed. -/
theorem cursor_paging_covers_created :
    (Listing.listed createdReadings).map (·.id) = [2, 1] ∧
      (sessionListing plainTextCodec allSessions).Covers (sessionsOf [2, 1]) createdReadings :=
  ⟨rfl, ((cursor_paging_covers plainTextCodec_documented).1 allSessions).covers createdReadings_follow⟩

end AgentPlatform.Server
