import AgentPlatform.Runtime.Sweeping
import AgentPlatform.Store.DueWaits

/-!
# The expiration of waits

The worker of `wait_expiration.rs`: it sweeps the due waits, the earliest deadline first, and calls
`expire_wait` for each. Whatever the rest of the platform does meanwhile, a sweep leaves no wait
pending that was due when it began, unless its call did not reach the store.
-/

namespace AgentPlatform.Runtime

open Store

abbrev WaitExpirationSettings := SweepSettings

/-- `WaitExpirationWorker`: what it scans, and what it calls. -/
def waitExpiration (codec : Codec) : Sweeper codec DueWait RowKeyᵒᵈ where
  scan := Db.dueWaitsAfter
  treats wait call := call = .expireWait wait.id
  key wait := OrderDual.toDual wait.key
  due := Db.dueWaits
  unclaimed := by
    rintro wait _ rfl trace
    exact .of_unclaimed rfl rfl rfl
  scans db clock cursor _ least most := db.dueWaitsAfter_eq clock cursor least most
  distinct run clock := by
    have hdistinct := (run.dueWaits_distinct clock).map OrderDual.toDual.injective
    rwa [List.map_map] at hdistinct

section

variable {codec : Codec} {trace trace' : List Entry} {db db' : Db} {since : Timestamp}
  {settings : WaitExpirationSettings} {attempts : List (Attempt DueWait)}

/-- What a sweep leaves of the waits. -/
structure WaitsSwept (codec : Codec) (since : Timestamp) (db : Db) (attempts : List (Attempt DueWait))
    (db' : Db) : Prop where
  /-- No wait is called for twice, and the earliest deadline comes first. -/
  ordered : attempts.Pairwise fun a a' => a.row.key < a'.row.key
  /-- A wait that is called for has the deadline that it was called for. -/
  due : ∀ attempt ∈ attempts, ∃ s' ∈ db'.sessions, ∃ w' ∈ s'.waits, w'.id = attempt.row.id ∧
    WaitMode.expires w'.mode = true ∧ w'.expiresAt = some attempt.row.expiresAt
  /-- No call that reaches the store fails. -/
  answered : ∀ attempt ∈ attempts, ∀ entry ∈ attempt.entry, ∃ event,
    entry.reply = .waitExpired event
  /-- A wait whose deadline had passed is over, unless its call was lost. -/
  ended : ∀ s ∈ db.sessions, ∀ w ∈ s.waits, w.expired since = true →
    ∃ s' ∈ db'.sessions, s'.id = s.id ∧ ∃ w' ∈ s'.waits, w.Later w' ∧
      (w'.status = .pending → ∃ attempt ∈ attempts, attempt.row.id = w.id ∧ attempt.entry = none)

/-- A wait id names one wait. -/
theorem wait_unique (run : Run codec trace db) {s t : Session} (hs : s ∈ db.sessions)
    (ht : t ∈ db.sessions) {w w' : WaitRow} (hw : w ∈ s.waits) (hw' : w' ∈ t.waits)
    (same : w.id = w'.id) : w = w' := by
  have howner := run.wait_owner hs ht hw hw' same
  subst howner
  exact Table.eq_of_key (run.waitInvariant hs).sound.unique hw hw' same

/-- A wait that is pending was pending before. -/
theorem pending_before (later : Continues codec trace db trace' db') (run : Run codec trace db)
    {s s' : Session} (hs : s ∈ db.sessions) (hs' : s' ∈ db'.sessions) {w w' : WaitRow}
    (hw : w ∈ s.waits) (hw' : w' ∈ s'.waits) (same : w'.id = w.id) (pending : w'.status = .pending) :
    w.status = .pending := by
  obtain ⟨s₁, hs₁, -, w₁, hw₁, hlater⟩ := later.wait_later run hs hw
  have heq : w₁ = w' := wait_unique (later.run run) hs₁ hs' hw₁ hw' (hlater.id_eq.trans same.symm)
  by_contra hended
  have hkept := hlater.settled hended
  rw [← hkept, heq] at hended
  exact hended pending

/-- Whether a wait has expired does not change but with the time. -/
theorem expired_later {w w' : WaitRow} {now : Timestamp} (later : w.Later w')
    (expired : w.expired since = true) (reached : since ≤ now) : w'.expired now = true := by
  obtain ⟨hmode, deadline, hdeadline, hpassed⟩ := WaitRow.expired_iff.mp expired
  have hmode' : w'.mode = w.mode := congrArg WaitEffect.mode later.effect
  have hdeadline' : w'.expiresAt = w.expiresAt := congrArg WaitEffect.expiresAt later.effect
  rw [WaitRow.expired_iff, hmode', hdeadline']
  exact ⟨hmode, deadline, hdeadline, hpassed.trans reached⟩

/-- A call that reached the store ended its wait. -/
theorem ended_of_ran (run : Run codec trace db) {s s' : Session} (hs : s ∈ db.sessions)
    (hs' : s' ∈ db'.sessions) {w w' : WaitRow} (hw : w ∈ s.waits) (hw' : w' ∈ s'.waits)
    (later : w.Later w') (expired : w.expired since = true) {attempt : Attempt DueWait}
    {entry : Entry} (own : attempt.row.id = w.id)
    (ran : attempt.Ran (waitExpiration codec) since trace db trace' db' entry) :
    w'.status ≠ .pending := by
  obtain ⟨trace₁, db₁, hbefore, -, hrun, hafter⟩ := ran.step run
  obtain ⟨s₁, hs₁, -, w₁, hw₁, hlater₁⟩ := hbefore.wait_later run hs hw
  have hcall : entry.call = .expireWait w₁.id := by
    rw [hlater₁.id_eq, ← own]
    exact ran.treats
  obtain ⟨s₂, hs₂, -, w₂, hw₂, hid, hended⟩ :=
    ((hbefore.run run).expireWait_answers hs₁ hw₁ entry.clock).2
      (expired_later hlater₁ expired ran.reached)
  rw [← hcall] at hs₂
  exact fun hpending => hended (pending_before hafter hrun hs₂ hs' hw₂ hw'
    (later.id_eq.trans (hlater₁.id_eq.symm.trans hid.symm)) hpending)

/-- A sweep of the worker, among any calls of the rest of the platform. -/
theorem due_waits_expire (run : Run codec trace db)
    (sweep : Sweeping (waitExpiration codec) settings since none trace db attempts trace' db') :
    WaitsSwept codec since db attempts db' where
  ordered := sweep.ordered run
  due attempt hattempt := by
    obtain ⟨trace₁, db₁, clock, hbefore, hafter, hdue, -⟩ := (sweep.seen attempt hattempt).seen
    obtain ⟨s₁, hs₁, w₁, hw₁, hdue⟩ := Db.mem_dueWaits.mp hdue
    obtain ⟨-, hexpired, hdeadline, hid⟩ := WaitRow.due_eq_some.mp hdue
    obtain ⟨s', hs', -, w', hw', hlater⟩ := hafter.wait_later (hbefore.run run) hs₁ hw₁
    refine ⟨s', hs', w', hw', hlater.id_eq.trans hid, ?_, ?_⟩
    · rw [show w'.mode = w₁.mode from congrArg WaitEffect.mode hlater.effect]
      exact (WaitRow.expired_iff.mp hexpired).1
    · exact (congrArg WaitEffect.expiresAt hlater.effect).trans hdeadline
  answered attempt hattempt entry hentry := by
    obtain ⟨trace₁, db₁, clock, hbefore, -, hdue, hran⟩ := (sweep.seen attempt hattempt).seen
    obtain ⟨s₁, hs₁, w₁, hw₁, hdue⟩ := Db.mem_dueWaits.mp hdue
    have hcall : entry.call = .expireWait attempt.row.id := (hran entry hentry).treats
    obtain ⟨trace₂, db₂, hbetween, hreply, -⟩ := (hran entry hentry).between
    obtain ⟨s₂, hs₂, -, w₂, hw₂, hlater⟩ := hbetween.wait_later (hbefore.run run) hs₁ hw₁
    have hid : attempt.row.id = w₂.id :=
      (WaitRow.due_eq_some.mp hdue).2.2.2.symm.trans hlater.id_eq.symm
    rw [hreply, hcall, hid]
    exact ((hbetween.run (hbefore.run run)).expireWait_answers hs₂ hw₂ entry.clock).1
  ended s hs w hw hexpired := by
    obtain ⟨s', hs', hsid, w', hw', hlater⟩ := sweep.continues.wait_later run hs hw
    refine ⟨s', hs', hsid, w', hw', hlater, fun hpending => ?_⟩
    obtain ⟨-, deadline, hdeadline, -⟩ := WaitRow.expired_iff.mp hexpired
    have hdue (trace₁ : List Entry) (db₁ : Db) (clock : Clock)
        (hbefore : Continues codec trace db trace₁ db₁)
        (hafter : Continues codec trace₁ db₁ trace' db') (hreached : since ≤ clock.reading 0) :
        ⟨w.id, deadline⟩ ∈ db₁.dueWaits clock := by
      obtain ⟨s₁, hs₁, -, w₁, hw₁, hlater₁⟩ := hbefore.wait_later run hs hw
      have hpending₁ := pending_before hafter (hbefore.run run) hs₁ hs' hw₁ hw'
        (hlater.id_eq.trans hlater₁.id_eq.symm) hpending
      have hdeadline₁ : w₁.expiresAt = some deadline :=
        (congrArg WaitEffect.expiresAt hlater₁.effect).trans hdeadline
      exact Db.mem_dueWaits.mpr ⟨s₁, hs₁, w₁, hw₁, WaitRow.due_eq_some.mpr
        ⟨hpending₁, expired_later hlater₁ hexpired hreached, hdeadline₁, hlater₁.id_eq⟩⟩
    obtain ⟨attempt, hattempt, hrow⟩ := sweep.treats_due run hdue
    have hown : attempt.row.id = w.id := congrArg DueWait.id hrow
    refine ⟨attempt, hattempt, hown, ?_⟩
    by_contra hheard
    obtain ⟨entry, hentry⟩ := Option.ne_none_iff_exists'.mp hheard
    obtain ⟨trace₁, db₁, clock, hbefore, -, -, hran⟩ := (sweep.seen attempt hattempt).seen
    exact ended_of_ran run hs hs' hw hw' hlater hexpired hown
      ((hran entry hentry).widen hbefore .refl) hpending

end

/-! ## An overdue wait -/

/-- A session whose handler waits until a time that has passed. -/
def overdueWait : List StoreCall :=
  firstTurn.take 3 ++
    [.commitHandlerOutcome
        { sessionId := 1, eventId := 0, attemptId := 2, leaseToken := 1, inputStateVersion := 0 }
        { state := "null", status := some .waiting, history := [], operations := []
          waits :=
            [{ id := 30, mode := .expiration, payload := "null", responseSchema := none
               expiresAt := some 0 }]
          cancelledWaits := [], progress := [] }]

theorem overdueWait_run :
    Run plainCodec (replay plainCodec stillClock overdueWait).1
      (replay plainCodec stillClock overdueWait).2 := by
  refine Run.replay fun n call hcall => ?_
  match n, hcall with
  | 0, rfl | 1, rfl | 2, rfl => exact .of_unclaimed rfl rfl rfl
  | 3, rfl => exact .of_handler rfl (by decide) rfl rfl

def oneByOne : WaitExpirationSettings := { batchSize := 1, valid := by decide }

theorem overdueWait_scanned :
    (replay plainCodec stillClock overdueWait).2.dueWaitsAfter stillClock none 1 =
      .ok [⟨30, 0⟩] := by
  have hdue : (replay plainCodec stillClock overdueWait).2.dueWaits stillClock = [⟨30, 0⟩] := by
    decide
  rw [Db.dueWaitsAfter, hdue]
  simp

/-- The entry of its expiration, and the database after it. -/
def overdueEntry : Entry :=
  ⟨.expireWait 30, stillClock,
    (exec plainCodec stillClock (replay plainCodec stillClock overdueWait).2 (.expireWait 30)).1⟩

def afterExpiry : Db :=
  (exec plainCodec stillClock (replay plainCodec stillClock overdueWait).2 (.expireWait 30)).2

theorem afterExpiry_scanned : afterExpiry.dueWaitsAfter stillClock (some ⟨30, 0⟩) 1 = .ok [] := by
  have hdue : afterExpiry.dueWaits stillClock = [] := by decide
  rw [Db.dueWaitsAfter, hdue]
  simp

theorem overdueWait_swept :
    Sweeping (waitExpiration plainCodec) oneByOne 0 none
      (replay plainCodec stillClock overdueWait).1 (replay plainCodec stillClock overdueWait).2
      [⟨⟨30, 0⟩, some overdueEntry⟩]
      ((replay plainCodec stillClock overdueWait).1 ++ [overdueEntry]) afterExpiry := by
  have hfirst : Works (waitExpiration plainCodec) 0 (processBatch oneByOne none)
      (replay plainCodec stillClock overdueWait).1 (replay plainCodec stillClock overdueWait).2
      [⟨⟨30, 0⟩, some overdueEntry⟩] (some ⟨30, 0⟩, .ok 1)
      ((replay plainCodec stillClock overdueWait).1 ++ [overdueEntry]) afterExpiry := by
    refine .scan stillClock (le_refl 0) ?_
    have hscan : (waitExpiration plainCodec).scan (replay plainCodec stillClock overdueWait).2
        stillClock none oneByOne.batchSize = .ok [⟨30, 0⟩] := overdueWait_scanned
    rw [hscan]
    exact .treat (.expireWait 30) stillClock rfl (le_refl 0) (.done _)
  have hlast : Works (waitExpiration plainCodec) 0 (processBatch oneByOne (some ⟨30, 0⟩))
      ((replay plainCodec stillClock overdueWait).1 ++ [overdueEntry]) afterExpiry [] (none, .ok 0)
      ((replay plainCodec stillClock overdueWait).1 ++ [overdueEntry]) afterExpiry := by
    refine .scan stillClock (le_refl 0) ?_
    have hscan : (waitExpiration plainCodec).scan afterExpiry stillClock (some ⟨30, 0⟩)
        oneByOne.batchSize = .ok [] := afterExpiry_scanned
    rw [hscan]
    exact .done _
  exact .goOn hfirst (by decide) (.finished hlast)

/-- The wait of that session after a sweep. -/
theorem due_waits_expire_overdueWait :
    WaitsSwept plainCodec 0 (replay plainCodec stillClock overdueWait).2
      [⟨⟨30, 0⟩, some overdueEntry⟩] afterExpiry :=
  due_waits_expire overdueWait_run overdueWait_swept

end AgentPlatform.Runtime
