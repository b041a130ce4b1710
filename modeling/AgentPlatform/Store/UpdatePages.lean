import AgentPlatform.Store.UpdateLog

/-!
# Reading the log of updates

`agent-store/src/inspection.rs` reads the log of a session in pages. A reader asks for the updates
after its cursor, up to the sequence that its first page named, and takes the last sequence it got
as its next cursor, while the store goes on and prunes. What it collects is the log itself, and a
cut that overtakes it is told.
-/

namespace AgentPlatform.Store

/-! ## Pages -/

/-- `UpdateRecord`. -/
structure UpdateRecord where
  sessionId : SessionId
  sequence : Nat
  schemaVersion : Nat
  kind : UpdateKind
  payload : Value
  sourceEventId : Option EventId
  createdAt : Timestamp

/-- `UpdatePage`. -/
structure UpdatePage where
  updates : List UpdateRecord
  throughSequence : Int
  retainedSequence : Int
  hasMore : Bool

/-- What a read shows of an update; every update is inserted under the default schema version. -/
def UpdateRow.record (sessionId : SessionId) (u : UpdateRow) : UpdateRecord where
  sessionId
  sequence := u.sequence
  schemaVersion := 1
  kind := u.kind
  payload := u.payload
  sourceEventId := u.sourceEventId
  createdAt := u.createdAt

/-- `Store::update_cursor`: the last update sequence and the first that is retained. -/
def Db.updateCursor (db : Db) (id : SessionId) : Result (Int × Int) :=
  match db.session? id with
  | none => .error (.sessionNotFound id)
  | some s => .ok ((s.nextUpdateSequence : Int) - 1, s.retainedUpdateSequence)

/-- `Store::updates`: one snapshot of the log. Updates stand in the order of their sequences. -/
def Db.updates (db : Db) (id : SessionId) (afterSequence : Int) (throughSequence : Option Int)
    (limit : Int) : Result UpdatePage :=
  if afterSequence < 0 ∨ limit < 1 ∨ 1000 < limit then
    .error (.invalidInput "invalid update sequence or limit")
  else
    match db.session? id with
    | none => .error (.sessionNotFound id)
    | some s =>
      let current : Int := s.nextUpdateSequence - 1
      let retained : Int := s.retainedUpdateSequence
      if afterSequence < retained - 1 then .error .updateCursorExpired
      else
        let through := throughSequence.getD current
        if through < afterSequence ∨ current < through then
          .error (.invalidInput "invalid through_sequence")
        else
          let rows := (s.updates.filter fun u =>
            afterSequence < u.sequence && u.sequence ≤ through).take (limit + 1).toNat
          .ok
            { updates := (rows.take limit.toNat).map (·.record id)
              throughSequence := through
              retainedSequence := retained
              hasMore := decide (limit.toNat < rows.length) }

/-- The updates of a session after one sequence and up to another. -/
def Session.updatesBetween (s : Session) (after through : Nat) : List UpdateRow :=
  between (·.sequence) after through s.updates

section

variable {db : Db} {s : Session}

/-- What a read at a cursor answers. -/
theorem Db.updates_eq (hsession : db.session? s.id = some s) (logged : s.Logged) {after : Nat}
    {through : Option Int} {limit : Int} (hlimit : 1 ≤ limit ∧ limit ≤ 1000) :
    db.updates s.id after through limit =
      if after + 1 < s.retainedUpdateSequence then .error .updateCursorExpired
      else
        let last := through.getD (s.nextUpdateSequence - 1)
        if last < after ∨ s.nextUpdateSequence ≤ last then
          .error (.invalidInput "invalid through_sequence")
        else
          .ok
            { updates := ((s.updatesBetween after last.toNat).take limit.toNat).map (·.record s.id)
              throughSequence := last
              retainedSequence := s.retainedUpdateSequence
              hasMore := decide (limit.toNat < (s.updatesBetween after last.toNat).length) } := by
  have hfirst := logged.first
  simp only [Db.updates, hsession]
  rw [if_neg (by omega)]
  by_cases hexpired : after + 1 < s.retainedUpdateSequence
  · rw [if_pos hexpired, if_pos (by omega)]
  · rw [if_neg hexpired, if_neg (by omega)]
    generalize through.getD ((s.nextUpdateSequence : Int) - 1) = last
    by_cases hinvalid : last < after ∨ s.nextUpdateSequence ≤ last
    · rw [if_pos hinvalid, if_pos (by omega)]
    · rw [if_neg hinvalid, if_neg (by omega)]
      obtain ⟨through, rfl⟩ : ∃ n : Nat, last = n := ⟨last.toNat, by omega⟩
      have hrows : (s.updates.filter fun u : UpdateRow =>
          decide ((after : Int) < u.sequence) && decide ((u.sequence : Int) ≤ through)) =
          s.updatesBetween after through := by
        refine List.filter_congr fun u _ => ?_
        simp
      have htake : limit.toNat ≤ (limit + 1).toNat := by omega
      simp only [hrows, List.take_take, Nat.min_eq_left htake, List.length_take, Int.toNat_natCast]
      congr 2
      refine decide_eq_decide.mpr ?_
      omega

/-- The updates between two sequences of the log are numbered without a gap. -/
theorem Session.map_updatesBetween (logged : s.Logged) {after through : Nat}
    (retained : s.retainedUpdateSequence ≤ after + 1) (reaches : after ≤ through)
    (inside : through < s.nextUpdateSequence) :
    (s.updatesBetween after through).map (·.sequence) =
      List.range' (after + 1) (through - after) :=
  logged.rows.map_between retained reaches (logged.next ▸ inside)

theorem Session.length_updatesBetween (logged : s.Logged) {after through : Nat}
    (retained : s.retainedUpdateSequence ≤ after + 1) (reaches : after ≤ through)
    (inside : through < s.nextUpdateSequence) :
    (s.updatesBetween after through).length = through - after := by
  simpa using congrArg List.length (s.map_updatesBetween logged retained reaches inside)

/-- What a later log still has after a cursor is what the log had there. -/
theorem Session.LogLater.updatesBetween_eq {s' : Session} (later : s.LogLater s')
    (logged : s.Logged) (logged' : s'.Logged) {after middle through : Nat}
    (retained : s.retainedUpdateSequence ≤ after + 1)
    (retained' : s'.retainedUpdateSequence ≤ middle + 1) (le : after ≤ middle)
    (reaches : middle ≤ through) (inside : through < s.nextUpdateSequence) :
    s'.updatesBetween middle through = (s.updatesBetween after through).drop (middle - after) := by
  have hdrop : s.updatesBetween middle through =
      (s.updatesBetween after through).drop (middle - after) :=
    logged.rows.between_eq_drop retained le reaches (logged.next ▸ inside)
  rw [← hdrop]
  have hretained : s.retainedUpdateSequence ≤ middle + 1 := by omega
  refine logged'.rows.ext (fun _ => mem_of_mem_between) (fun u hu => ?_) ?_
  · have hin : u ∈ s.updates := mem_of_mem_between hu
    refine later.kept u hin (Nat.le_trans retained' ?_)
    have hafter : middle < u.sequence := by
      have := (List.mem_filter.mp hu).2
      simp only [Bool.and_eq_true, decide_eq_true_eq] at this
      exact this.1
    exact hafter
  · have hinside : through < s'.nextUpdateSequence := Nat.lt_of_lt_of_le inside later.next
    exact (s'.map_updatesBetween logged' retained' reaches hinside).trans
      (s.map_updatesBetween logged hretained reaches inside).symm

end

/-! ## A reader -/

/-- The next cursor of a reader: the last sequence that it got, or the cursor it started from. -/
def nextCursor (after : Nat) (collected : List UpdateRecord) : Nat :=
  (collected.getLast?.map (·.sequence)).getD after

/-- A reader that started at a cursor, what it collected and the last page it got. It goes on, with
the `through_sequence` of its first page, while there is more; the store goes on between its
reads. -/
inductive Paging (codec : Codec) (trace : List Entry) (db : Db) (id : SessionId) (after : Nat)
    (through : Option Int) (limit : Int) :
    List Entry → Db → List UpdateRecord → UpdatePage → Prop
  | first {page : UpdatePage} (read : db.updates id after through limit = .ok page) :
      Paging codec trace db id after through limit trace db page.updates page
  | next {trace₁ trace₂ : List Entry} {db₁ db₂ : Db} {collected : List UpdateRecord}
      {page page' : UpdatePage}
      (before : Paging codec trace db id after through limit trace₁ db₁ collected page)
      (more : page.hasMore = true) (continues : Continues codec trace₁ db₁ trace₂ db₂)
      (read : db₂.updates id (nextCursor after collected) (some page.throughSequence) limit =
        .ok page') :
      Paging codec trace db id after through limit trace₂ db₂ (collected ++ page'.updates) page'

/-- What a reader has of the log that session `s` had at its first read. -/
structure Session.ReadFrom (s : Session) (after last : Nat) (collected : List UpdateRecord)
    (page : UpdatePage) : Prop where
  through : page.throughSequence = last
  rows : collected = ((s.updatesBetween after last).take collected.length).map (·.record s.id)
  sequences : collected.map (·.sequence) = List.range' (after + 1) collected.length
  more : page.hasMore = decide (collected.length < last - after)
  progress : page.hasMore = true → 0 < collected.length
  within : collected.length ≤ last - after

section

variable {codec : Codec} {trace trace' : List Entry} {db db' : Db} {s : Session} {after last : Nat}
  {collected : List UpdateRecord} {page : UpdatePage}

theorem Continues.trans {trace₁ trace₂ : List Entry} {db₁ db₂ : Db}
    (h : Continues codec trace db trace₁ db₁) (h' : Continues codec trace₁ db₁ trace₂ db₂) :
    Continues codec trace db trace₂ db₂ := by
  induction h' with
  | refl => exact h
  | step call clock before admissible ih => exact .step call clock ih admissible

/-- The reader goes on where it stopped. -/
theorem nextCursor_eq (sequences : collected.map (·.sequence) =
    List.range' (after + 1) collected.length) :
    nextCursor after collected = after + collected.length := by
  rcases collected.eq_nil_or_concat with rfl | ⟨front, u, rfl⟩
  · rfl
  · have hlast := congrArg List.getLast? sequences
    simp only [List.concat_eq_append, List.map_append, List.map_cons, List.map_nil,
      List.length_append, List.length_singleton, List.getLast?_concat, List.range'_1_concat,
      Option.some.injEq] at hlast
    simp only [nextCursor, List.concat_eq_append, List.getLast?_concat, Option.map_some,
      Option.getD_some, hlast, List.length_append, List.length_singleton]
    omega

/-- A page that a read at a cursor of the reader answered. -/
theorem Session.ReadFrom.of_take (logged : s.Logged) {count : Nat} (positive : 0 < count)
    (retained : s.retainedUpdateSequence ≤ after + 1) (reaches : after ≤ last)
    (inside : last < s.nextUpdateSequence) (through : page.throughSequence = last)
    (rows : collected = ((s.updatesBetween after last).take count).map (·.record s.id))
    (more : page.hasMore = decide (count < last - after)) :
    s.ReadFrom after last collected page := by
  have hlength := s.length_updatesBetween logged retained reaches inside
  have hcollected : collected.length = min count (last - after) := by
    rw [rows, List.length_map, List.length_take, hlength]
  have htake : (s.updatesBetween after last).take count =
      (s.updatesBetween after last).take collected.length := by
    rw [hcollected, List.take_eq_take_min, hlength]
  have hwithin : collected.length ≤ last - after := by omega
  have hmore : page.hasMore = decide (collected.length < last - after) := by
    rw [more]
    refine decide_eq_decide.mpr ?_
    omega
  refine ⟨through, htake ▸ rows, ?_, hmore, fun h => ?_, hwithin⟩
  · have hsequences : collected.map (·.sequence) =
        ((s.updatesBetween after last).map (·.sequence)).take collected.length := by
      rw [← List.map_take, ← htake]
      nth_rewrite 1 [rows]
      rw [List.map_map]
      rfl
    rw [hsequences, s.map_updatesBetween logged retained reaches inside,
      List.take_range'_of_length_ge hwithin]
  · rw [hmore] at h
    have := of_decide_eq_true h
    omega

/-- A read that answers a page is at a cursor that is still retained, up to a sequence of the log. -/
theorem Db.updates_ok (hsession : db.session? s.id = some s) (logged : s.Logged)
    {through : Option Int} {limit : Int} (hlimit : 1 ≤ limit ∧ limit ≤ 1000)
    (h : db.updates s.id after through limit = .ok page) :
    s.retainedUpdateSequence ≤ after + 1 ∧ ∃ last : Nat,
      through.getD ((s.nextUpdateSequence : Int) - 1) = last ∧ after ≤ last ∧
      last < s.nextUpdateSequence ∧ page.throughSequence = last ∧
      page.updates = ((s.updatesBetween after last).take limit.toNat).map (·.record s.id) ∧
      page.hasMore = decide (limit.toNat < (s.updatesBetween after last).length) := by
  rw [Db.updates_eq hsession logged hlimit] at h
  split at h
  · cases h
  · rename_i hretained
    generalize through.getD ((s.nextUpdateSequence : Int) - 1) = last at h ⊢
    dsimp only at h
    split at h
    · cases h
    · rename_i hlast
      cases h
      have hcast : last = (last.toNat : Int) := by omega
      exact ⟨by omega, last.toNat, hcast, by omega, by omega, hcast, rfl, rfl⟩

/-- The page after the ones that a reader has. -/
theorem Session.ReadFrom.next {s' : Session} {page' : UpdatePage} {limit : Int}
    (h : s.ReadFrom after last collected page) (hlimit : 1 ≤ limit ∧ limit ≤ 1000)
    (logged : s.Logged) (retained : s.retainedUpdateSequence ≤ after + 1) (reaches : after ≤ last)
    (inside : last < s.nextUpdateSequence) (hid : s'.id = s.id) (later : s.LogLater s')
    (logged' : s'.Logged) (hsession : db'.session? s'.id = some s')
    (read : db'.updates s.id (nextCursor after collected) (some page.throughSequence) limit =
      .ok page') :
    s.ReadFrom after last (collected ++ page'.updates) page' := by
  rw [nextCursor_eq h.sequences, h.through, ← hid] at read
  obtain ⟨hretained', last', hlast', -, -, hthrough', hupdates', hmore'⟩ :=
    Db.updates_ok hsession logged' hlimit read
  have heq : last = last' := Int.ofNat_inj.mp hlast'
  subst heq
  have hreaches : after + collected.length ≤ last := by
    have := h.within
    omega
  have hbetween := later.updatesBetween_eq logged logged' retained hretained'
    (Nat.le_add_right _ _) hreaches inside
  rw [Nat.add_sub_cancel_left] at hbetween
  have hlength := s.length_updatesBetween logged retained reaches inside
  have hcount : 0 < collected.length + limit.toNat := by omega
  refine .of_take logged hcount retained reaches inside hthrough' ?_ ?_
  · rw [hupdates', hbetween, hid, List.take_add, List.map_append]
    exact congrArg (· ++ _) h.rows
  · rw [hmore', hbetween, List.length_drop, hlength]
    refine decide_eq_decide.mpr ?_
    omega

/-- What a reader of pages has, whatever the store did between its reads. -/
theorem Paging.readFrom (run : Run codec trace db) (hs : s ∈ db.sessions) {through : Option Int}
    {limit : Int} (hlimit : 1 ≤ limit ∧ limit ≤ 1000)
    (h : Paging codec trace db s.id after through limit trace' db' collected page) :
    Continues codec trace db trace' db' ∧ s.retainedUpdateSequence ≤ after + 1 ∧ ∃ last : Nat,
      through.getD ((s.nextUpdateSequence : Int) - 1) = last ∧ after ≤ last ∧
      last < s.nextUpdateSequence ∧ s.ReadFrom after last collected page := by
  have logged := run.logged s hs
  induction h with
  | first read =>
    obtain ⟨hretained, last, hlast, hreaches, hinside, hthrough, hupdates, hmore⟩ :=
      Db.updates_ok (run.session?_eq hs) logged hlimit read
    refine ⟨.refl, hretained, last, hlast, hreaches, hinside, ?_⟩
    have hcount : 0 < limit.toNat := by omega
    refine .of_take logged hcount hretained hreaches hinside hthrough hupdates ?_
    rw [hmore, s.length_updatesBetween logged hretained hreaches hinside]
  | next before more continues read ih =>
    obtain ⟨hbefore, hretained, last, hlast, hreaches, hinside, hhas⟩ := ih
    have hcontinues := hbefore.trans continues
    have hrun := hcontinues.run run
    obtain ⟨s', hs', hid, hlater⟩ := hcontinues.log_later run hs
    exact ⟨hcontinues, hretained, last, hlast, hreaches, hinside,
      hhas.next hlimit logged hretained hreaches hinside hid hlater (hrun.logged s' hs')
        (hrun.session?_eq hs') read⟩

/-- The rows that a reader has, by their sequences. -/
theorem Session.ReadFrom.rows_between (h : s.ReadFrom after last collected page)
    (logged : s.Logged) (retained : s.retainedUpdateSequence ≤ after + 1) (reaches : after ≤ last)
    (inside : last < s.nextUpdateSequence) :
    collected = (s.updatesBetween after (after + collected.length)).map (·.record s.id) := by
  have htake : (s.updatesBetween after last).take collected.length =
      s.updatesBetween after (after + collected.length) :=
    logged.rows.take_between retained (logged.next ▸ inside) h.within reaches
  exact htake ▸ h.rows

/-- A reader at its last page has the updates up to its `through_sequence`, once each. -/
theorem Session.ReadFrom.complete (h : s.ReadFrom after last collected page)
    (logged : s.Logged) (retained : s.retainedUpdateSequence ≤ after + 1) (reaches : after ≤ last)
    (inside : last < s.nextUpdateSequence) (done : page.hasMore = false) :
    collected = (s.updatesBetween after last).map (·.record s.id) ∧
      collected.map (·.sequence) = List.range' (after + 1) (last - after) := by
  have hlength : collected.length = last - after := by
    have hmore := h.more
    rw [done] at hmore
    have := of_decide_eq_false hmore.symm
    have := h.within
    omega
  refine ⟨?_, hlength ▸ h.sequences⟩
  have hrows := h.rows
  rwa [hlength, ← s.length_updatesBetween logged retained reaches inside, List.take_length] at hrows

/-- A read where the log is still retained answers a page, which is empty only at the end. -/
theorem Db.updates_page (hsession : db.session? s.id = some s) (logged : s.Logged)
    {through : Option Int} {limit : Int} (hlimit : 1 ≤ limit ∧ limit ≤ 1000)
    (retained : s.retainedUpdateSequence ≤ after + 1)
    (hlast : through.getD ((s.nextUpdateSequence : Int) - 1) = last) (reaches : after ≤ last)
    (inside : last < s.nextUpdateSequence) :
    ∃ page, db.updates s.id after through limit = .ok page ∧
      (after < last → page.updates ≠ []) := by
  rw [Db.updates_eq hsession logged hlimit, if_neg (by omega), hlast]
  dsimp only
  rw [if_neg (by omega)]
  refine ⟨_, rfl, fun hlt hempty => ?_⟩
  have hnone := congrArg List.length hempty
  rw [List.length_map, List.length_take, Int.toNat_natCast,
    s.length_updatesBetween logged retained reaches inside, List.length_nil] at hnone
  omega

end

end AgentPlatform.Store
