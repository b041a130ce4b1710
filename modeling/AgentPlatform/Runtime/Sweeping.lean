import AgentPlatform.Lib.Asking
import AgentPlatform.Lib.Sweep
import AgentPlatform.Store.UpdatePages

/-!
# Sweeping workers

The workers of `wait_expiration.rs` and `request_cleanup.rs` of `agent-runtime` have one program:
scan a batch of due rows behind the cursor, call the store for each of them, and go on behind the
last one. An error of a call is kept for the end of the batch. Only the scan and the call differ.

A worker can stop before each of its requests. The rest of the platform calls the store between any
two of them.
-/

namespace AgentPlatform.Runtime

open Store

/-! ## The program -/

/-- What a worker asks of the store. -/
inductive SweepRequest (α : Type) where
  | scan (after : Option α) (limit : Int)
  | treat (row : α)

def SweepRequest.Answer {α : Type} : SweepRequest α → Type
  | .scan .. => Result (List α)
  | .treat _ => Result Unit

abbrev SweepWork (α : Type) := Asking (SweepRequest α) SweepRequest.Answer

/-- The settings that a batch reads, as `validate` admits them. -/
structure SweepSettings where
  batchSize : Int
  valid : 1 ≤ batchSize ∧ batchSize ≤ 1000

section

variable {α : Type}

/-- The loop over a batch, with the first error so far. -/
def treatAll : List α → Option StoreError → SweepWork α (Option StoreError)
  | [], firstError => .done firstError
  | row :: rows, firstError =>
    .ask (.treat row) fun (answer : Result Unit) =>
      match answer with
      | .ok () => treatAll rows firstError
      | .error error => treatAll rows (firstError <|> some error)

/-- What `process_batch_inner` returns after the loop. -/
def batchOutcome (rows : List α) : Option StoreError → Result Nat
  | some error => .error error
  | none => .ok rows.length

/-- `process_batch_inner`: the cursor that it leaves, and what it returns. -/
def processBatch (settings : SweepSettings) (cursor : Option α) :
    SweepWork α (Option α × Result Nat) :=
  .ask (.scan cursor settings.batchSize) fun (answer : Result (List α)) =>
    match answer with
    | .error error => .done (cursor, .error error)
    | .ok rows => do
      let firstError ← treatAll rows none
      pure (rows.getLast?, batchOutcome rows firstError)

end

/-! ## The store -/

/-- What a worker hears of the answer to its call. -/
def heardReply : Reply → Result Unit
  | .failed error => .error error
  | _ => .ok ()

/-- A worker over the store: its scan, and the calls that treat a row. The rows that are due stand
once under their keys, and a scan reads them from the greatest key down. -/
structure Sweeper (codec : Codec) (α κ : Type) [LinearOrder κ] where
  scan : Db → Clock → Option α → Int → Result (List α)
  treats : α → StoreCall → Prop
  key : α → κ
  due : Db → Clock → List α
  unclaimed : ∀ {row call}, treats row call → ∀ trace, Admissible trace call
  scans : ∀ db clock cursor limit, 1 ≤ limit → limit ≤ 1000 → scan db clock cursor limit =
    .ok (Sweep.batch key (cursor.map key) ⟨limit.toNat, due db clock⟩)
  distinct : ∀ {trace db}, Run codec trace db → ∀ clock, ((due db clock).map key).Nodup

/-- A row that a worker asked to treat, and the entry of the call, unless it did not reach the
store. -/
structure Attempt (α : Type) where
  row : α
  entry : Option Entry

section

variable {codec : Codec} {α κ : Type} [LinearOrder κ]

/-- A program runs from one database to another, and treats rows meanwhile. The clock of the store
has reached `since`. -/
inductive Works (sweeper : Sweeper codec α κ) (since : Timestamp) {β : Type} :
    SweepWork α β → List Entry → Db → List (Attempt α) → β → List Entry → Db → Prop
  | done {trace : List Entry} {db : Db} (b : β) : Works sweeper since (.done b) trace db [] b trace db
  /-- The rest of the platform calls the store. -/
  | others {program : SweepWork α β} {trace trace' : List Entry} {db db' : Db}
      {attempts : List (Attempt α)} {b : β} (call : StoreCall) (clock : Clock)
      (admissible : Admissible trace call)
      (rest : Works sweeper since program (trace ++ [⟨call, clock, (exec codec clock db call).1⟩])
        (exec codec clock db call).2 attempts b trace' db') :
      Works sweeper since program trace db attempts b trace' db'
  | scan {cursor : Option α} {limit : Int} {next : Result (List α) → SweepWork α β}
      {trace trace' : List Entry} {db db' : Db} {attempts : List (Attempt α)} {b : β}
      (clock : Clock) (reached : since ≤ clock.reading 0)
      (rest : Works sweeper since (next (sweeper.scan db clock cursor limit)) trace db attempts b
        trace' db') :
      Works sweeper since (.ask (.scan cursor limit) next) trace db attempts b trace' db'
  | scanFailed {cursor : Option α} {limit : Int} {next : Result (List α) → SweepWork α β}
      {trace trace' : List Entry} {db db' : Db} {attempts : List (Attempt α)} {b : β}
      (error : StoreError)
      (rest : Works sweeper since (next (.error error)) trace db attempts b trace' db') :
      Works sweeper since (.ask (.scan cursor limit) next) trace db attempts b trace' db'
  | treat {row : α} {next : Result Unit → SweepWork α β} {trace trace' : List Entry} {db db' : Db}
      {attempts : List (Attempt α)} {b : β} (call : StoreCall) (clock : Clock)
      (treats : sweeper.treats row call) (reached : since ≤ clock.reading 0)
      (rest : Works sweeper since (next (heardReply (exec codec clock db call).1))
        (trace ++ [⟨call, clock, (exec codec clock db call).1⟩]) (exec codec clock db call).2
        attempts b trace' db') :
      Works sweeper since (.ask (.treat row) next) trace db
        (⟨row, some ⟨call, clock, (exec codec clock db call).1⟩⟩ :: attempts) b trace' db'
  /-- The call does not reach the store. -/
  | lost {row : α} {next : Result Unit → SweepWork α β} {trace trace' : List Entry} {db db' : Db}
      {attempts : List (Attempt α)} {b : β} (error : StoreError)
      (rest : Works sweeper since (next (.error error)) trace db attempts b trace' db') :
      Works sweeper since (.ask (.treat row) next) trace db (⟨row, none⟩ :: attempts) b trace' db'

/-- The batches from a cursor on until one is empty. -/
inductive Sweeping (sweeper : Sweeper codec α κ) (settings : SweepSettings) (since : Timestamp) :
    Option α → List Entry → Db → List (Attempt α) → List Entry → Db → Prop
  | finished {cursor next : Option α} {trace trace' : List Entry} {db db' : Db}
      {attempts : List (Attempt α)}
      (batch : Works sweeper since (processBatch settings cursor) trace db attempts (next, .ok 0)
        trace' db') :
      Sweeping sweeper settings since cursor trace db attempts trace' db'
  | goOn {cursor next : Option α} {outcome : Result Nat} {trace trace₁ trace' : List Entry}
      {db db₁ db' : Db} {attempts attempts' : List (Attempt α)}
      (batch : Works sweeper since (processBatch settings cursor) trace db attempts (next, outcome)
        trace₁ db₁)
      (unfinished : outcome ≠ .ok 0)
      (rest : Sweeping sweeper settings since next trace₁ db₁ attempts' trace' db') :
      Sweeping sweeper settings since cursor trace db (attempts ++ attempts') trace' db'

/-! ## One batch -/

variable {sweeper : Sweeper codec α κ} {settings : SweepSettings} {since : Timestamp}
  {trace trace' : List Entry} {db db' : Db} {attempts : List (Attempt α)} {β : Type}
  {program : SweepWork α β} {b : β}

/-- The call of an attempt ran between two databases. -/
structure Attempt.Ran (sweeper : Sweeper codec α κ) (since : Timestamp) (trace : List Entry)
    (db : Db) (trace' : List Entry) (db' : Db) (attempt : Attempt α) (entry : Entry) : Prop where
  treats : sweeper.treats attempt.row entry.call
  reached : since ≤ entry.clock.reading 0
  between : ∃ trace₁ db₁, Continues codec trace db trace₁ db₁ ∧
    entry.reply = (exec codec entry.clock db₁ entry.call).1 ∧
    Continues codec (trace₁ ++ [entry]) (exec codec entry.clock db₁ entry.call).2 trace' db'

theorem Attempt.Ran.widen {trace₀ trace₂ : List Entry} {db₀ db₂ : Db} {attempt : Attempt α}
    {entry : Entry} (h : attempt.Ran sweeper since trace db trace' db' entry)
    (before : Continues codec trace₀ db₀ trace db) (after : Continues codec trace' db' trace₂ db₂) :
    attempt.Ran sweeper since trace₀ db₀ trace₂ db₂ entry := by
  obtain ⟨trace₁, db₁, hbefore, hreply, hafter⟩ := h.between
  exact ⟨h.treats, h.reached, trace₁, db₁, before.trans hbefore, hreply, hafter.trans after⟩

/-- The call of an attempt is a step of the run. -/
theorem Attempt.Ran.step (run : Run codec trace db) {attempt : Attempt α} {entry : Entry}
    (h : attempt.Ran sweeper since trace db trace' db' entry) :
    ∃ trace₁ db₁, Continues codec trace db trace₁ db₁ ∧
      entry.reply = (exec codec entry.clock db₁ entry.call).1 ∧
      Run codec (trace₁ ++ [entry]) (exec codec entry.clock db₁ entry.call).2 ∧
      Continues codec (trace₁ ++ [entry]) (exec codec entry.clock db₁ entry.call).2 trace' db' := by
  obtain ⟨trace₁, db₁, hbefore, hreply, hafter⟩ := h.between
  have hrun := (hbefore.run run).step entry.call entry.clock (sweeper.unclaimed h.treats trace₁)
  rw [← hreply] at hrun
  exact ⟨trace₁, db₁, hbefore, hreply, hrun, hafter⟩

/-- The store goes on while a program works. -/
theorem Works.continues (h : Works sweeper since program trace db attempts b trace' db') :
    Continues codec trace db trace' db' := by
  induction h with
  | done b => exact .refl
  | others call clock admissible rest ih => exact (Continues.refl.step call clock admissible).trans ih
  | scan clock reached rest ih => exact ih
  | scanFailed error rest ih => exact ih
  | treat call clock treats reached rest ih =>
    exact (Continues.refl.step call clock (sweeper.unclaimed treats _)).trans ih
  | lost error rest ih => exact ih

theorem Works.ran (h : Works sweeper since program trace db attempts b trace' db') :
    ∀ attempt ∈ attempts, ∀ entry ∈ attempt.entry,
      attempt.Ran sweeper since trace db trace' db' entry := by
  induction h with
  | done b => exact fun attempt hattempt => absurd hattempt List.not_mem_nil
  | others call clock admissible rest ih =>
    intro attempt hattempt entry hentry
    exact (ih attempt hattempt entry hentry).widen (Continues.refl.step call clock admissible) .refl
  | scan clock reached rest ih => exact ih
  | scanFailed error rest ih => exact ih
  | treat call clock treats reached rest ih =>
    intro attempt hattempt entry hentry
    rcases List.mem_cons.mp hattempt with rfl | hlater
    · rw [← Option.mem_some_iff.mp hentry]
      exact ⟨treats, reached, _, _, .refl, rfl, rest.continues⟩
    · exact (ih attempt hlater entry hentry).widen
        (Continues.refl.step call clock (sweeper.unclaimed treats _)) .refl
  | lost error rest ih =>
    intro attempt hattempt entry hentry
    rcases List.mem_cons.mp hattempt with rfl | hlater
    · exact absurd hentry (Option.not_mem_none entry)
    · exact ih attempt hlater entry hentry

theorem Works.done_attempts (h : Works sweeper since program trace db attempts b trace' db') {a : β}
    (ends : program = .done a) : attempts = [] ∧ b = a := by
  induction h with
  | done b =>
    cases ends
    exact ⟨rfl, rfl⟩
  | others call clock admissible rest ih => exact ih ends
  | scan | scanFailed | treat | lost => cases ends

/-- The loop treats the rows of its batch one after the other, whatever it hears of each. -/
theorem Works.treated {rows : List α} {firstError : Option StoreError}
    {next : Option StoreError → β}
    (h : Works sweeper since program trace db attempts b trace' db')
    (loops : program = treatAll rows firstError >>= fun firstError => .done (next firstError)) :
    attempts.map (·.row) = rows ∧
      ∃ kept, b = next kept ∧ (rows = [] → kept = firstError) := by
  induction h generalizing rows firstError with
  | done b =>
    cases rows with
    | nil =>
      cases loops
      exact ⟨rfl, firstError, rfl, fun _ => rfl⟩
    | cons row rows => cases loops
  | others call clock admissible rest ih => exact ih loops
  | scan | scanFailed =>
    cases rows <;> cases loops
  | treat call clock treats reached rest ih =>
    cases rows with
    | nil => cases loops
    | cons row rows =>
      cases loops
      cases hheard : heardReply (exec codec clock _ call).1 with
      | ok =>
        rw [hheard] at ih
        obtain ⟨hrows, kept, hb, -⟩ := ih rfl
        exact ⟨by rw [List.map_cons, hrows], kept, hb, fun h => absurd h (List.cons_ne_nil _ _)⟩
      | error error =>
        rw [hheard] at ih
        obtain ⟨hrows, kept, hb, -⟩ := ih rfl
        exact ⟨by rw [List.map_cons, hrows], kept, hb, fun h => absurd h (List.cons_ne_nil _ _)⟩
  | lost error rest ih =>
    cases rows with
    | nil => cases loops
    | cons row rows =>
      cases loops
      obtain ⟨hrows, kept, hb, -⟩ := ih rfl
      exact ⟨by rw [List.map_cons, hrows], kept, hb, fun h => absurd h (List.cons_ne_nil _ _)⟩

/-- What a batch leaves: nothing, when its scan failed, or an attempt for each row that it scanned
and the last of them as the cursor. -/
inductive Batched (sweeper : Sweeper codec α κ) (settings : SweepSettings) (since : Timestamp)
    (cursor : Option α) (trace : List Entry) (db : Db) (attempts : List (Attempt α))
    (trace' : List Entry) (db' : Db) : Option α → Result Nat → Prop
  | failed (error : StoreError) (none : attempts = []) :
      Batched sweeper settings since cursor trace db attempts trace' db' cursor (.error error)
  | scanned {trace₁ : List Entry} {db₁ : Db} (clock : Clock) (firstError : Option StoreError)
      (before : Continues codec trace db trace₁ db₁) (after : Continues codec trace₁ db₁ trace' db')
      (reached : since ≤ clock.reading 0)
      (ran : ∀ attempt ∈ attempts, ∀ entry ∈ attempt.entry,
        attempt.Ran sweeper since trace₁ db₁ trace' db' entry)
      (rows : attempts.map (·.row) = Sweep.batch sweeper.key (cursor.map sweeper.key)
        ⟨settings.batchSize.toNat, sweeper.due db₁ clock⟩)
      (idle : attempts.map (·.row) = [] → firstError = none) :
      Batched sweeper settings since cursor trace db attempts trace' db'
        (attempts.map (·.row)).getLast? (batchOutcome (attempts.map (·.row)) firstError)

theorem Batched.earlier {cursor next : Option α} {outcome : Result Nat} {trace₀ : List Entry}
    {db₀ : Db} (h : Batched sweeper settings since cursor trace db attempts trace' db' next outcome)
    (before : Continues codec trace₀ db₀ trace db) :
    Batched sweeper settings since cursor trace₀ db₀ attempts trace' db' next outcome := by
  cases h with
  | failed error none => exact .failed error none
  | scanned clock firstError between after reached ran rows idle =>
    exact .scanned clock firstError (before.trans between) after reached ran rows idle

theorem Works.batched {cursor : Option α}
    {program : SweepWork α (Option α × Result Nat)} {b : Option α × Result Nat}
    (h : Works sweeper since program trace db attempts b trace' db')
    (processes : program = processBatch settings cursor) :
    Batched sweeper settings since cursor trace db attempts trace' db' b.1 b.2 := by
  induction h with
  | done b => cases processes
  | others call clock admissible rest ih =>
    exact (ih processes).earlier (.step call clock .refl admissible)
  | scan clock reached rest ih =>
    cases processes
    rw [sweeper.scans _ _ _ _ settings.valid.1 settings.valid.2] at rest
    obtain ⟨hrows, kept, hb, hidle⟩ := rest.treated rfl
    have hafter := rest.continues
    have hran := rest.ran
    rw [hb, ← hrows]
    exact .scanned clock kept .refl hafter reached hran hrows (hrows ▸ hidle)
  | scanFailed error rest ih =>
    cases processes
    obtain ⟨hnone, hb⟩ := rest.done_attempts rfl
    rw [hb]
    exact .failed error hnone
  | treat | lost => cases processes

/-! ## A sweep -/

variable {cursor : Option α}

theorem Sweeping.continues (h : Sweeping sweeper settings since cursor trace db attempts trace' db') :
    Continues codec trace db trace' db' := by
  induction h with
  | finished batch => exact batch.continues
  | goOn batch unfinished rest ih => exact batch.continues.trans ih

/-- The scans of a sweep read the due rows of databases in between. -/
structure ReadBetween (sweeper : Sweeper codec α κ) (settings : SweepSettings) (since : Timestamp)
    (trace : List Entry) (db : Db) (trace' : List Entry) (db' : Db) (read : Keyset.Read α) :
    Prop where
  between : ∃ trace₁ db₁ clock, Continues codec trace db trace₁ db₁ ∧
    Continues codec trace₁ db₁ trace' db' ∧ since ≤ clock.reading 0 ∧
    read = ⟨settings.batchSize.toNat, sweeper.due db₁ clock⟩

theorem ReadBetween.widen {trace₀ trace₂ : List Entry} {db₀ db₂ : Db} {read : Keyset.Read α}
    (h : ReadBetween sweeper settings since trace db trace' db' read)
    (before : Continues codec trace₀ db₀ trace db) (after : Continues codec trace' db' trace₂ db₂) :
    ReadBetween sweeper settings since trace₀ db₀ trace₂ db₂ read := by
  obtain ⟨trace₁, db₁, clock, hbefore, hafter, hread⟩ := h.between
  exact ⟨trace₁, db₁, clock, before.trans hbefore, hafter.trans after, hread⟩

theorem ReadBetween.sound (run : Run codec trace db) {read : Keyset.Read α}
    (h : ReadBetween sweeper settings since trace db trace' db' read) : read.Sound sweeper.key := by
  obtain ⟨trace₁, db₁, clock, hbefore, -, -, rfl⟩ := h.between
  have hvalid := settings.valid.1
  exact ⟨by simp only; omega, sweeper.distinct (hbefore.run run) clock⟩

/-- A batch that returns no row found none. -/
theorem Batched.finished {next : Option α} {outcome : Result Nat}
    (h : Batched sweeper settings since cursor trace db attempts trace' db' next outcome)
    (ends : outcome = .ok 0) : attempts = [] ∧
      ∃ read, ReadBetween sweeper settings since trace db trace' db' read ∧
        Sweep.batch sweeper.key (cursor.map sweeper.key) read = [] := by
  cases h with
  | failed error none => cases ends
  | scanned clock firstError before after reached ran rows idle =>
    cases firstError with
    | some error => cases ends
    | none =>
      have hlength : (attempts.map (·.row)).length = 0 := Except.ok.inj ends
      have hnone := List.length_eq_zero_iff.mp hlength
      exact ⟨List.map_eq_nil_iff.mp hnone, _, ⟨_, _, clock, before, after, reached, rfl⟩,
        rows ▸ hnone⟩

/-- Any other batch leaves the cursor, or moves it to its last row. -/
theorem Batched.moves {next : Option α} {outcome : Result Nat}
    (h : Batched sweeper settings since cursor trace db attempts trace' db' next outcome)
    (unfinished : outcome ≠ .ok 0) : attempts = [] ∧ next = cursor ∨
      ∃ read, ReadBetween sweeper settings since trace db trace' db' read ∧
        attempts.map (·.row) = Sweep.batch sweeper.key (cursor.map sweeper.key) read ∧
          ∃ last, (attempts.map (·.row)).getLast? = some last ∧ next = some last := by
  cases h with
  | failed error none => exact .inl ⟨none, rfl⟩
  | scanned clock firstError before after reached ran rows idle =>
    refine .inr ⟨_, ⟨_, _, clock, before, after, reached, rfl⟩, rows, ?_⟩
    cases hlast : (attempts.map (·.row)).getLast? with
    | some last => exact ⟨last, rfl, rfl⟩
    | none =>
      have hnone := List.getLast?_eq_none_iff.mp hlast
      rw [idle hnone, hnone] at unfinished
      exact absurd rfl unfinished

/-- A row that is treated was due when it was scanned. -/
structure Attempt.Seen (sweeper : Sweeper codec α κ) (since : Timestamp) (trace : List Entry)
    (db : Db) (trace' : List Entry) (db' : Db) (attempt : Attempt α) : Prop where
  seen : ∃ trace₁ db₁ clock, Continues codec trace db trace₁ db₁ ∧
    Continues codec trace₁ db₁ trace' db' ∧ attempt.row ∈ sweeper.due db₁ clock ∧
    ∀ entry ∈ attempt.entry, attempt.Ran sweeper since trace₁ db₁ trace' db' entry

theorem Attempt.Seen.widen {trace₀ trace₂ : List Entry} {db₀ db₂ : Db} {attempt : Attempt α}
    (h : attempt.Seen sweeper since trace db trace' db')
    (before : Continues codec trace₀ db₀ trace db) (after : Continues codec trace' db' trace₂ db₂) :
    attempt.Seen sweeper since trace₀ db₀ trace₂ db₂ := by
  obtain ⟨trace₁, db₁, clock, hbefore, hafter, hdue, hran⟩ := h.seen
  exact ⟨trace₁, db₁, clock, before.trans hbefore, hafter.trans after, hdue,
    fun entry hentry => (hran entry hentry).widen .refl after⟩

theorem Batched.seen {next : Option α} {outcome : Result Nat}
    (h : Batched sweeper settings since cursor trace db attempts trace' db' next outcome) :
    ∀ attempt ∈ attempts, attempt.Seen sweeper since trace db trace' db' := by
  intro attempt hattempt
  cases h with
  | failed error none =>
    rw [none] at hattempt
    exact absurd hattempt List.not_mem_nil
  | scanned clock firstError before after reached ran rows idle =>
    have hrow : attempt.row ∈ attempts.map (·.row) := List.mem_map.mpr ⟨attempt, hattempt, rfl⟩
    rw [rows] at hrow
    exact ⟨_, _, clock, before, after, (Sweep.mem_batch hrow).1, ran attempt hattempt⟩

theorem Sweeping.seen (h : Sweeping sweeper settings since cursor trace db attempts trace' db') :
    ∀ attempt ∈ attempts, attempt.Seen sweeper since trace db trace' db' := by
  induction h with
  | finished batch => exact (batch.batched rfl).seen
  | goOn batch unfinished rest ih =>
    intro attempt hattempt
    rcases List.mem_append.mp hattempt with hfirst | hlater
    · exact ((batch.batched rfl).seen attempt hfirst).widen .refl rest.continues
    · exact (ih attempt hlater).widen batch.continues .refl

/-- The batches of a worker sweep the due rows. -/
theorem Sweeping.sweeps (h : Sweeping sweeper settings since cursor trace db attempts trace' db') :
    ∃ reads, Sweep.Sweeps sweeper.key (cursor.map sweeper.key) reads (attempts.map (·.row)) ∧
      ∀ read ∈ reads, ReadBetween sweeper settings since trace db trace' db' read := by
  induction h with
  | finished batch =>
    obtain ⟨rfl, read, hread, hempty⟩ := (batch.batched rfl).finished rfl
    exact ⟨[read], .done _ read hempty, fun read' hread' => List.mem_singleton.mp hread' ▸ hread⟩
  | goOn batch unfinished rest ih =>
    obtain ⟨reads, hsweeps, hreads⟩ := ih
    have hlater : ∀ read ∈ reads, ReadBetween sweeper settings since _ _ _ _ read :=
      fun read hread => (hreads read hread).widen batch.continues .refl
    rcases (batch.batched rfl).moves unfinished with
      ⟨rfl, hnext⟩ | ⟨read, hread, hrows, last, hlast, hnext⟩
    · dsimp only at hnext
      subst hnext
      exact ⟨reads, hsweeps, hlater⟩
    · dsimp only at hnext
      subst hnext
      rw [hrows] at hlast
      rw [List.map_append, hrows]
      refine ⟨read :: reads, .more _ read hlast hsweeps, fun read' hread' => ?_⟩
      rcases List.mem_cons.mp hread' with rfl | hrest
      · exact hread.widen .refl rest.continues
      · exact hlater read' hrest

/-! ## What a sweep treats -/

/-- Rows are treated once each, the greatest key first. -/
theorem Sweeping.ordered (run : Run codec trace db)
    (h : Sweeping sweeper settings since none trace db attempts trace' db') :
    attempts.Pairwise fun a a' => sweeper.key a'.row < sweeper.key a.row := by
  obtain ⟨reads, hsweeps, hreads⟩ := h.sweeps
  exact List.pairwise_map.mp
    (hsweeps.descending fun read hread => (hreads read hread).sound run)

/-- A row that is due throughout is treated. -/
theorem Sweeping.treats_due (run : Run codec trace db)
    (h : Sweeping sweeper settings since none trace db attempts trace' db') {row : α}
    (stays : ∀ trace₁ db₁ clock, Continues codec trace db trace₁ db₁ →
      Continues codec trace₁ db₁ trace' db' → since ≤ clock.reading 0 →
        row ∈ sweeper.due db₁ clock) :
    ∃ attempt ∈ attempts, attempt.row = row := by
  obtain ⟨reads, hsweeps, hreads⟩ := h.sweeps
  refine List.mem_map.mp (hsweeps.complete (fun read hread => (hreads read hread).sound run)
    (fun k hk => absurd hk (Option.not_mem_none k)) fun read hread => ?_)
  obtain ⟨trace₁, db₁, clock, hbefore, hafter, hreached, rfl⟩ := (hreads read hread).between
  exact stays trace₁ db₁ clock hbefore hafter hreached

end

end AgentPlatform.Runtime
