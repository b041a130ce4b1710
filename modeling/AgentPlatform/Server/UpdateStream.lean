import AgentPlatform.Store.UpdatePages

/-!
# The stream of updates

`update_stream` of `agent-server/src/routes/updates.rs` reads the log of a session from a cursor,
yields what it read one update at a time and reads again, until the server drains, a read fails, or
the log was cut past its cursor. The store goes on meanwhile.
-/

namespace AgentPlatform.Server

open Store

/-! ## The stream -/

/-- An item of the stream. -/
inductive StreamItem where
  | update (update : UpdateRecord)
  | resnapshotRequired

/-- The state of `update_stream`: its cursor, what is left of the page in hand, what it yielded and
whether it ended. Whether there is more only decides if it sleeps before it reads again. -/
structure Feed where
  cursor : Int
  page : List UpdateRecord
  emitted : List StreamItem
  ended : Bool

namespace Feed

def start (after : Int) : Feed := { cursor := after, page := [], emitted := [], ended := false }

/-- A read of the store is answered. -/
def answered (feed : Feed) : Result UpdatePage → Feed
  | .ok page => { feed with page := page.updates }
  | .error .updateCursorExpired =>
    { feed with emitted := feed.emitted ++ [.resnapshotRequired], ended := true }
  | .error _ => { feed with ended := true }

/-- The next update of the page is yielded; the cursor is moved first. -/
def yield (feed : Feed) (update : UpdateRecord) (page : List UpdateRecord) : Feed :=
  { feed with cursor := update.sequence, page, emitted := feed.emitted ++ [.update update] }

/-- One step of the stream. A read may also fail because the database does, and the server may drain
at any point. -/
inductive Step (db : Db) (id : SessionId) : Feed → Feed → Prop
  | read {feed : Feed} {answer : Result UpdatePage} (open' : feed.ended = false)
      (idle : feed.page = []) (answers : answer = db.updates id feed.cursor none 100 ∨
        ∃ error, answer = .error (.database error)) :
      Step db id feed (feed.answered answer)
  | yield {feed : Feed} {update : UpdateRecord} {page : List UpdateRecord}
      (open' : feed.ended = false) (next : feed.page = update :: page) :
      Step db id feed (feed.yield update page)
  | drain {feed : Feed} (open' : feed.ended = false) : Step db id feed { feed with ended := true }

end Feed

/-- A stream that was opened at a cursor, and the store it reads from. -/
inductive Streaming (codec : Codec) (trace : List Entry) (db : Db) (id : SessionId)
    (after : Int) : List Entry → Db → Feed → Prop
  | opened {page : UpdatePage} (read : db.updates id after none 1 = .ok page) :
      Streaming codec trace db id after trace db (.start after)
  | store {trace₁ trace₂ : List Entry} {db₁ db₂ : Db} {feed : Feed}
      (before : Streaming codec trace db id after trace₁ db₁ feed)
      (continues : Continues codec trace₁ db₁ trace₂ db₂) :
      Streaming codec trace db id after trace₂ db₂ feed
  | feed {trace₁ : List Entry} {db₁ : Db} {feed feed' : Feed}
      (before : Streaming codec trace db id after trace₁ db₁ feed)
      (step : Feed.Step db₁ id feed feed') :
      Streaming codec trace db id after trace₁ db₁ feed'

/-! ## What it yielded -/

/-- The updates that a stream yielded, over the session as it is: they follow the cursor it was
opened at without a gap, they are what the log has under their sequences, and the stream tells when
the log was cut past it. -/
structure Feed.Gapless (feed : Feed) (s : Session) (after : Nat) (updates : List UpdateRecord) :
    Prop where
  items : feed.emitted = updates.map .update ∨
    feed.emitted = updates.map .update ++ [.resnapshotRequired] ∧ feed.ended = true ∧
      feed.cursor + 1 < s.retainedUpdateSequence
  sequences : updates.map (·.sequence) = List.range' (after + 1) updates.length
  cursor : feed.cursor = after + updates.length
  logged : ∀ u ∈ s.updates, after < u.sequence → u.sequence ≤ feed.cursor →
    u.record s.id ∈ updates

/-- What a stream yielded and what it holds of its page. -/
structure Feed.Runs (feed : Feed) (s : Session) (after : Nat) (updates : List UpdateRecord) :
    Prop where
  items : feed.emitted = updates.map .update ∨
    feed.emitted = updates.map .update ++ [.resnapshotRequired] ∧ feed.ended = true ∧
      feed.cursor + 1 < s.retainedUpdateSequence
  sequences : (updates ++ feed.page).map (·.sequence) =
    List.range' (after + 1) (updates ++ feed.page).length
  cursor : feed.cursor = (after + updates.length : Nat)
  inside : after + (updates ++ feed.page).length < s.nextUpdateSequence
  logged : ∀ u ∈ s.updates, after < u.sequence → u.sequence ≤ after + (updates ++ feed.page).length →
    u.record s.id ∈ updates ++ feed.page

section

variable {codec : Codec} {trace trace' : List Entry} {db db' : Db} {s s' : Session} {after : Nat}
  {feed feed' : Feed} {updates : List UpdateRecord}

namespace Feed.Runs

/-- An open stream yielded updates only. -/
theorem items_of_open (h : feed.Runs s after updates) (open' : feed.ended = false) :
    feed.emitted = updates.map .update := by
  rcases h.items with hitems | ⟨-, hended, -⟩
  · exact hitems
  · exact absurd (hended.symm.trans open') Bool.noConfusion

/-- The log goes on, and may be cut. -/
theorem later (h : feed.Runs s after updates) (later : s.LogLater s') (hid : s'.id = s.id)
    (logged : s.Logged) (logged' : s'.Logged) : feed.Runs s' after updates where
  items := by
    refine h.items.imp_right fun ⟨hitems, hended, hcut⟩ => ⟨hitems, hended, ?_⟩
    have := later.retained
    omega
  sequences := h.sequences
  cursor := h.cursor
  inside := Nat.lt_of_lt_of_le h.inside later.next
  logged u hu hafter hle := by
    rw [hid]
    have hpassed : u.sequence < s.nextUpdateSequence := Nat.lt_of_le_of_lt hle h.inside
    exact h.logged u (later.known logged logged' hu hpassed) hafter hle

/-- The page of a read continues what was yielded. -/
theorem page (h : feed.Runs s after updates) (open' : feed.ended = false) (idle : feed.page = [])
    (hsession : db.session? s.id = some s) (logged : s.Logged) {page : UpdatePage}
    (read : db.updates s.id feed.cursor none 100 = .ok page) :
    Feed.Runs { feed with page := page.updates } s after updates := by
  have hsequences := h.sequences
  have hlogged := h.logged
  rw [idle, List.append_nil] at hsequences hlogged
  rw [h.cursor] at read
  have hlimit : (1 : Int) ≤ 100 ∧ (100 : Int) ≤ 1000 := by decide
  obtain ⟨hretained, last, hlast, hreaches, hinside, hthrough, hupdates, hmore⟩ :=
    Db.updates_ok hsession logged hlimit read
  have hread : s.ReadFrom (after + updates.length) last page.updates page := by
    have hcount : 0 < (100 : Int).toNat := by decide
    refine .of_take logged hcount hretained hreaches hinside hthrough hupdates ?_
    rw [hmore, s.length_updatesBetween logged hretained hreaches hinside]
  have hrows := hread.rows_between logged hretained hreaches hinside
  have hwithin := hread.within
  refine ⟨.inl (h.items_of_open open'), ?_, h.cursor, ?_, fun u hu hafter hle => ?_⟩
  · rw [List.map_append, hsequences, hread.sequences, List.length_append, ← List.range'_append_1]
    congr 2
    omega
  · simp only [List.length_append]
    omega
  · by_cases hold : u.sequence ≤ after + updates.length
    · exact List.mem_append_left _ (hlogged u hu hafter hold)
    · refine List.mem_append_right _ ?_
      simp only [List.length_append] at hle
      dsimp only
      rw [hrows]
      refine List.mem_map_of_mem (List.mem_filter.mpr ⟨hu, ?_⟩)
      simp only [Bool.and_eq_true, decide_eq_true_eq]
      omega

/-- A read that answers, or fails to. -/
theorem answered (h : feed.Runs s after updates) (open' : feed.ended = false)
    (idle : feed.page = []) (hsession : db.session? s.id = some s) (logged : s.Logged)
    {answer : Result UpdatePage} (answers : answer = db.updates s.id feed.cursor none 100 ∨
      ∃ error, answer = .error (.database error)) :
    (feed.answered answer).Runs s after updates := by
  have hopen := h.items_of_open open'
  cases answer with
  | ok page =>
    rcases answers with hread | ⟨error, herror⟩
    · exact h.page open' idle hsession logged hread.symm
    · cases herror
  | error error =>
    cases error with
    | updateCursorExpired =>
      rcases answers with hread | ⟨error, herror⟩
      · refine ⟨.inr ⟨congrArg (· ++ _) hopen, rfl, ?_⟩, h.sequences, h.cursor, h.inside, h.logged⟩
        have hcursor := h.cursor
        rw [hcursor, Db.updates_eq hsession logged (by decide)] at hread
        split at hread
        · simp only [Feed.answered]
          omega
        · dsimp only at hread
          split at hread <;> cases hread
      · cases herror
    | _ => exact ⟨.inl hopen, h.sequences, h.cursor, h.inside, h.logged⟩

/-- The next update is yielded. -/
theorem yield (h : feed.Runs s after updates) (open' : feed.ended = false) {update : UpdateRecord}
    {page : List UpdateRecord} (next : feed.page = update :: page) :
    (feed.yield update page).Runs s after (updates ++ [update]) := by
  have hsplit : updates ++ feed.page = updates ++ [update] ++ page := by
    rw [next, List.append_assoc]
    rfl
  have hsequences := h.sequences
  have hinside := h.inside
  have hlogged := h.logged
  rw [hsplit] at hsequences hinside hlogged
  refine ⟨.inl ?_, hsequences, ?_, hinside, hlogged⟩
  · rw [Feed.yield, h.items_of_open open', List.map_append]
    rfl
  · have hnumber := congrArg (·[updates.length]?) hsequences
    have hsequence : update.sequence = after + 1 + updates.length := by simpa using hnumber
    simp only [Feed.yield, hsequence, List.length_append, List.length_singleton, Int.natCast_inj]
    omega

/-- What the stream yielded by now. -/
theorem gapless (h : feed.Runs s after updates) : feed.Gapless s after updates := by
  have hboth := h.sequences
  rw [List.map_append, List.length_append, ← List.range'_append_1] at hboth
  obtain ⟨hyielded, hheld⟩ := List.append_inj hboth (by simp)
  refine ⟨h.items, hyielded, h.cursor, fun u hu hafter hle => ?_⟩
  have hcursor := h.cursor
  rcases List.mem_append.mp (h.logged u hu hafter (by rw [List.length_append]; omega)) with hin | hin
  · exact hin
  · have hsequence : u.sequence ∈ feed.page.map (·.sequence) := List.mem_map.mpr ⟨_, hin, rfl⟩
    rw [hheld] at hsequence
    have := (List.mem_range'_1.mp hsequence).1
    omega

end Feed.Runs

/-- What an open stream yielded, whatever the store and the stream did since. -/
theorem Streaming.runs (run : Run codec trace db) (hs : s ∈ db.sessions)
    (h : Streaming codec trace db s.id after trace' db' feed) :
    Continues codec trace db trace' db' ∧ ∃ s' ∈ db'.sessions, s'.id = s.id ∧ ∃ updates,
      feed.Runs s' after updates := by
  induction h with
  | opened read =>
    have hlimit : (1 : Int) ≤ 1 ∧ (1 : Int) ≤ 1000 := by decide
    obtain ⟨-, last, -, hreaches, hinside, -⟩ :=
      Db.updates_ok (run.session?_eq hs) (run.logged s hs) hlimit read
    refine ⟨.refl, s, hs, rfl, [], .inl rfl, rfl, rfl, Nat.lt_of_le_of_lt hreaches hinside, ?_⟩
    intro u _ hafter hle
    exact absurd hle (Nat.not_le_of_lt hafter)
  | store before continues ih =>
    obtain ⟨hbefore, s₁, hs₁, hid₁, updates, hruns⟩ := ih
    have hrun := hbefore.run run
    obtain ⟨s₂, hs₂, hid₂, hlater⟩ := continues.log_later hrun hs₁
    exact ⟨hbefore.trans continues, s₂, hs₂, hid₂.trans hid₁, updates,
      hruns.later hlater hid₂ (hrun.logged s₁ hs₁) ((continues.run hrun).logged s₂ hs₂)⟩
  | feed before step ih =>
    obtain ⟨hbefore, s₁, hs₁, hid₁, updates, hruns⟩ := ih
    have hrun := hbefore.run run
    refine ⟨hbefore, s₁, hs₁, hid₁, ?_⟩
    cases step with
    | read open' idle answers =>
      rw [← hid₁] at answers
      exact ⟨updates, hruns.answered open' idle (hrun.session?_eq hs₁) (hrun.logged s₁ hs₁) answers⟩
    | yield open' next => exact ⟨_, hruns.yield open' next⟩
    | drain open' =>
      exact ⟨updates, .inl (hruns.items_of_open open'), hruns.sequences, hruns.cursor,
        hruns.inside, hruns.logged⟩

end

/-! ## Readers of a session -/

/-- What readers of the pages of session `s` get. -/
structure PagesComplete (codec : Codec) (trace : List Entry) (db : Db) (s : Session) : Prop where
  /-- A cursor below the retained updates is refused; one that is no sequence is refused as such. -/
  refused : ∀ (after : Int) (through : Option Int) (limit : Int), 1 ≤ limit ∧ limit ≤ 1000 →
    after < s.retainedUpdateSequence - 1 → db.updates s.id after through limit =
      .error (if 0 ≤ after then .updateCursorExpired
        else .invalidInput "invalid update sequence or limit")
  /-- From every other cursor a first page is read. -/
  opened : ∀ (after last : Nat) (through : Option Int) (limit : Int), 1 ≤ limit ∧ limit ≤ 1000 →
    s.retainedUpdateSequence ≤ after + 1 →
    through.getD ((s.nextUpdateSequence : Int) - 1) = last → after ≤ last →
    last < s.nextUpdateSequence → ∃ page, db.updates s.id after through limit = .ok page
  /-- What was collected is the front of the updates after the cursor, and all of them in the end. -/
  collected : ∀ (after : Nat) (through : Option Int) (limit : Int) (trace' : List Entry) (db' : Db)
    (collected : List UpdateRecord) (page : UpdatePage), 1 ≤ limit ∧ limit ≤ 1000 →
    Paging codec trace db s.id after through limit trace' db' collected page →
    ∃ last : Nat, through.getD ((s.nextUpdateSequence : Int) - 1) = last ∧
      s.ReadFrom after last collected page ∧
      (page.hasMore = false → collected = (s.updatesBetween after last).map (·.record s.id) ∧
        collected.map (·.sequence) = List.range' (after + 1) (last - after))
  /-- The next read is refused when a cut overtook the reader, and brings updates otherwise. -/
  goesOn : ∀ (after : Nat) (through : Option Int) (limit : Int) (trace₁ trace₂ : List Entry)
    (db₁ db₂ : Db) (collected : List UpdateRecord) (page : UpdatePage), 1 ≤ limit ∧ limit ≤ 1000 →
    Paging codec trace db s.id after through limit trace₁ db₁ collected page →
    page.hasMore = true → Continues codec trace₁ db₁ trace₂ db₂ →
    ∃ s' ∈ db₂.sessions, s'.id = s.id ∧
      if nextCursor after collected + 1 < s'.retainedUpdateSequence then
        db₂.updates s.id (nextCursor after collected) (some page.throughSequence) limit =
          .error .updateCursorExpired
      else ∃ page', db₂.updates s.id (nextCursor after collected) (some page.throughSequence) limit =
        .ok page' ∧ page'.updates ≠ []

/-- What streams of session `s` yield. -/
structure StreamsGapless (codec : Codec) (trace : List Entry) (db : Db) (s : Session) : Prop where
  gapless : ∀ (after : Nat) (trace' : List Entry) (db' : Db) (feed : Feed),
    Streaming codec trace db s.id after trace' db' feed →
    ∃ s' ∈ db'.sessions, s'.id = s.id ∧ ∃ updates, feed.Gapless s' after updates ∧
      -- at its next read the stream ends when a cut overtook it, and goes on otherwise
      (feed.ended = false → feed.page = [] →
        if feed.cursor + 1 < s'.retainedUpdateSequence then
          feed.answered (db'.updates s.id feed.cursor none 100) =
            { feed with emitted := feed.emitted ++ [.resnapshotRequired], ended := true }
        else ∃ page, db'.updates s.id feed.cursor none 100 = .ok page ∧
          (feed.cursor + 1 < s'.nextUpdateSequence → page.updates ≠ []))

variable {codec : Codec} {trace : List Entry} {db : Db} {s : Session}

theorem pagesComplete (run : Run codec trace db) (hs : s ∈ db.sessions) :
    PagesComplete codec trace db s where
  refused after through limit hlimit hold := by
    by_cases hafter : 0 ≤ after
    · obtain ⟨n, rfl⟩ := Int.eq_ofNat_of_zero_le hafter
      rw [Db.updates_eq (run.session?_eq hs) (run.logged s hs) hlimit, if_pos (by omega),
        if_pos hafter]
    · rw [Db.updates, if_pos (.inl (by omega)), if_neg hafter]
  opened after last through limit hlimit retained hlast reaches inside := by
    obtain ⟨page, hpage, -⟩ := Db.updates_page (run.session?_eq hs) (run.logged s hs) hlimit
      retained hlast reaches inside
    exact ⟨page, hpage⟩
  collected after through limit trace' db' collected page hlimit paging := by
    obtain ⟨-, hretained, last, hlast, hreaches, hinside, hread⟩ := paging.readFrom run hs hlimit
    exact ⟨last, hlast, hread, hread.complete (run.logged s hs) hretained hreaches hinside⟩
  goesOn after through limit trace₁ trace₂ db₁ db₂ collected page hlimit paging more continues := by
    obtain ⟨hbefore, hretained, last, hlast, hreaches, hinside, hread⟩ :=
      paging.readFrom run hs hlimit
    have hcontinues := hbefore.trans continues
    have hrun := hcontinues.run run
    obtain ⟨s', hs', hid, hlater⟩ := hcontinues.log_later run hs
    refine ⟨s', hs', hid, ?_⟩
    rw [← hid]
    split
    · rename_i hcut
      rw [Db.updates_eq (hrun.session?_eq hs') (hrun.logged s' hs') hlimit, if_pos hcut]
    · rename_i hkept
      have hmore := hread.more
      rw [more] at hmore
      have hleft := of_decide_eq_true hmore.symm
      have hcursor := nextCursor_eq hread.sequences
      have hnext := hlater.next
      have hthrough : (some page.throughSequence).getD ((s'.nextUpdateSequence : Int) - 1) = last :=
        hread.through
      obtain ⟨page', hpage', hprogress⟩ := Db.updates_page (hrun.session?_eq hs')
        (hrun.logged s' hs') hlimit (Nat.le_of_not_lt hkept) hthrough (by omega) (by omega)
      exact ⟨page', hpage', hprogress (by omega)⟩

theorem streamsGapless (run : Run codec trace db) (hs : s ∈ db.sessions) :
    StreamsGapless codec trace db s where
  gapless after trace' db' feed streaming := by
    obtain ⟨hcontinues, s', hs', hid, updates, hruns⟩ := streaming.runs run hs
    have hrun := hcontinues.run run
    refine ⟨s', hs', hid, updates, hruns.gapless, fun open' idle => ?_⟩
    have hcursor := hruns.cursor
    have hinside := hruns.inside
    rw [idle, List.append_nil] at hinside
    have hlimit : (1 : Int) ≤ 100 ∧ (100 : Int) ≤ 1000 := by decide
    rw [← hid]
    split
    · rename_i hcut
      have hread : db'.updates s'.id feed.cursor none 100 = .error .updateCursorExpired := by
        rw [hcursor, Db.updates_eq (hrun.session?_eq hs') (hrun.logged s' hs') hlimit,
          if_pos (by omega)]
      rw [hread]
      rfl
    · rename_i hkept
      have hlast : (none : Option Int).getD ((s'.nextUpdateSequence : Int) - 1) =
          (s'.nextUpdateSequence - 1 : Nat) := by
        simp only [Option.getD_none]
        omega
      obtain ⟨page, hpage, hprogress⟩ := Db.updates_page (hrun.session?_eq hs')
        (hrun.logged s' hs') hlimit (by omega) hlast (Nat.le_sub_one_of_lt hinside) (by omega)
      rw [hcursor]
      exact ⟨page, hpage, fun hbehind => hprogress (by omega)⟩

/-- The log of updates of every session, in every run: its updates are stored without a gap from the
retained one to the last, and readers of pages and of the stream miss none of them. -/
theorem update_log_gapless (run : Run codec trace db) : ∀ s ∈ db.sessions,
    s.updates.map (·.sequence) = List.range' s.retainedUpdateSequence
        (s.nextUpdateSequence - s.retainedUpdateSequence) ∧
      PagesComplete codec trace db s ∧ StreamsGapless codec trace db s := by
  intro s hs
  have hlogged := run.logged s hs
  refine ⟨?_, pagesComplete run hs, streamsGapless run hs⟩
  rw [hlogged.next, Nat.add_sub_cancel_left]
  exact hlogged.rows

/-- The log of a session that handled its first turn, after a cut. -/
theorem update_log_gapless_pruned :
    let (trace, db) := replay plainCodec stillClock (firstTurn ++ [.pruneUpdates 1 1])
    ∀ s ∈ db.sessions, s.updates.map (·.sequence) = List.range' s.retainedUpdateSequence
        (s.nextUpdateSequence - s.retainedUpdateSequence) ∧
      PagesComplete plainCodec trace db s ∧ StreamsGapless plainCodec trace db s :=
  update_log_gapless (firstTurn_run.step (.pruneUpdates 1 1) stillClock (.of_unclaimed rfl rfl rfl))

end AgentPlatform.Server
