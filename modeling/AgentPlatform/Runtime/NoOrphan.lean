import AgentPlatform.Runtime.Guard

/-!
# No orphan gateway job

An operation that ended without a gateway job must have no job: nothing at the gateway works for it,
and no submission of it is on its way. The dispatchers meet this as long as they do not defer a claim
that recovers an uncertain submission. When they do, the operation is pending again while the worker
of the earlier claim may still submit it, and a withdrawal then cancels it too early.
-/

namespace AgentPlatform.Runtime

open Store

/-- LLM and execution operations that ended without a job have none at a gateway, and no submission on
its way. -/
def World.NoOrphan (w : World) : Prop :=
  ∀ s ∈ w.db.sessions, ∀ o ∈ s.operations, o.kind = .llm ∨ o.kind = .execution →
    o.status.terminal = true → o.gatewayJobId = none →
    ¬ w.hasJob o.gatewayIdempotencyKey ∧ ¬ w.inFlight o.gatewayIdempotencyKey

section

variable {codec : Codec} {dispatcher : OperationDispatcher} {w w' : World}

/-! ## Every step -/

theorem Worker.busy_of_asking {worker : Worker} {request : Request}
    {next : request.Answer → Work Unit}
    (asks : worker.position = .running (.ask request next)) : ¬ worker.Idle := by
  unfold Worker.Idle
  rw [asks]
  nofun

theorem Worker.busy_of_awaiting {worker : Worker} {flight : Flight}
    {next : Except GatewayError JobAcknowledgement → Work Unit}
    (awaits : worker.position = .awaiting flight next) : ¬ worker.Idle := by
  unfold Worker.Idle
  rw [awaits]
  nofun

/-- An answer that does not move the stage lets the worker go on. -/
theorem World.Move.next {token : Uuid} {worker : Worker} {request : Request}
    {next : request.Answer → Work Unit} (present : w.workers token = some worker)
    (asks : worker.position = .running (.ask request next)) (answer : request.Answer)
    (stays : ∀ stage, (discipline worker.claim).after stage request answer = stage) :
    World.Move w (w.place token worker.claim (.running (next answer))) token worker := by
  refine .place present (Worker.busy_of_asking asks) (fun possible hkeeps => ?_) fun _ => .inl
  unfold Worker.Keeps at hkeeps
  rw [asks] at hkeeps
  have := hkeeps.2 answer
  rwa [stays] at this

/-- What a waiting worker keeps to, once it is answered. -/
theorem Worker.keeps_answered {worker : Worker} {flight : Flight}
    {next : Except GatewayError JobAcknowledgement → Work Unit}
    (awaits : worker.position = .awaiting flight next)
    (answer : Except GatewayError JobAcknowledgement) {possible : Bool}
    (h : worker.Keeps possible) :
    Worker.Keeps { claim := worker.claim, position := .running (next answer) } possible ∧
      (mayCreate answer = true →
        Worker.Keeps { claim := worker.claim, position := .running (next answer) } true) ∧
      flight.key = worker.claim.operation.gatewayIdempotencyKey := by
  unfold Worker.Keeps at h
  rw [awaits] at h
  obtain ⟨-, hkey, hnext⟩ := h
  have hanswer := hnext answer
  refine ⟨?_, fun hmay => ?_, hkey⟩
  · cases possible with
    | true => exact hanswer
    | false =>
      cases hmay : mayCreate answer with
      | true =>
        rw [hmay] at hanswer
        exact Runtime.Keeps.earlier hanswer
      | false =>
        rw [hmay] at hanswer
        exact hanswer
  · rw [hmay, Bool.or_true] at hanswer
    exact hanswer

/-- The jobs after an answer are those before it, or one of the submission's key. -/
theorem Answers.jobs {jobs jobs' : List Job} {flight : Flight}
    {answer : Except GatewayError JobAcknowledgement} (h : Answers jobs flight answer jobs') :
    ∀ job ∈ jobs', job ∈ jobs ∨ job.key = flight.key ∧ mayCreate answer = true := by
  have admitted (id : Uuid) : ∀ job ∈ createJob jobs flight id, job ∈ jobs ∨ job.key = flight.key := by
    intro job hjob
    unfold createJob at hjob
    split at hjob
    · exact .inl hjob
    · rcases List.mem_append.mp hjob with hold | hnew
      · exact .inl hold
      · exact .inr (by rw [List.mem_singleton.mp hnew])
  intro job hjob
  cases h with
  | accepted id held | uncertain failure id =>
    exact (admitted id job hjob).imp_right fun hkey => ⟨hkey, rfl⟩
  | lost | rejected | retryable | invalidRequest => exact .inl hjob

/-- A call that is no worker's. -/
theorem World.Called.of_store {call : StoreCall} {clock : Clock}
    (admissible : Admissible w.trace call)
    (undispatched : ∀ claim, call.operationClaim = some claim → claim.phase = .submission →
      ∃ leaseFor, call = .renewOperationClaim claim leaseFor) :
    World.Called codec w (w.call codec call clock) call clock where
  trace := rfl
  db := rfl
  touched _ h := h
  admissible := admissible
  workers _ worker h := .inl ⟨worker, h, rfl, id, fun _ => id⟩
  author claim presents phase := .inl (undispatched claim presents phase)

/-- A claim that starts its worker. -/
theorem World.Called.of_claim {locked : SessionId → Bool} {phase : OperationPhase} {leaseFor : Nat}
    {clock : Clock} {claim : ClaimedOperation}
    (claimed : (exec codec clock w.db (.claimOperation locked phase leaseFor)).1 =
      .claimedOperation (some claim)) :
    World.Called codec w
      ((w.call codec (.claimOperation locked phase leaseFor) clock).place claim.leaseToken claim
        (.running (dispatcher.processClaim claim)))
      (.claimOperation locked phase leaseFor) clock where
  trace := rfl
  db := rfl
  touched _ h := h
  admissible := .of_unclaimed rfl rfl rfl
  workers token worker h := by
    by_cases htoken : token = claim.leaseToken
    · subst htoken
      have hsome : some _ = some worker := (Function.update_self _ _ w.workers).symm.trans h
      cases hsome
      exact .inr ⟨claim, claimed, rfl, rfl, keeps_processClaim⟩
    · have hold : w.workers token = some worker :=
        (Function.update_of_ne htoken _ _).symm.trans h
      exact .inl ⟨worker, hold, rfl, id, fun _ => id⟩
  author claim presents := by cases presents

/-- A worker that records the end of its attempt is done. -/
theorem World.Called.of_record (h : w.Sound codec) {token : Uuid} {worker : Worker}
    {call : StoreCall} {next : Unit → Work Unit} {clock : Clock}
    (present : w.workers token = some worker)
    (records : worker.position = .running (.ask (.record call) next)) :
    World.Called codec w
      ((w.call codec call clock).place token worker.claim (.running (next ()))) call clock := by
  have recordable {possible : Bool} (hkeeps : worker.Keeps possible) :
      Recordable worker.claim { possible, recorded := false } call ∧ next () = .done () := by
    unfold Worker.Keeps at hkeeps
    rw [records] at hkeeps
    exact ⟨hkeeps.1.2, Runtime.Keeps.recorded (hkeeps.2 ())⟩
  obtain ⟨htoken, hissued⟩ := h.issued token worker present
  obtain ⟨hrecordable, hdone⟩ := recordable (h.keeps token worker present)
  have replaced {worker' : Worker}
      (hpresent : ((w.call codec call clock).place token worker.claim
        (.running (next ()))).workers token = some worker') :
      worker' = { claim := worker.claim, position := .running (next ()) } := by
    have hsome : some _ = some worker' := (Function.update_self _ _ w.workers).symm.trans hpresent
    cases hsome
    rfl
  refine
    { trace := rfl
      db := rfl
      touched := fun _ h => h
      admissible := .of_operation hrecordable.own hissued
      workers := fun other worker' hpresent => .inl ?_
      author := fun claim presents phase => .inr ⟨?_, fun worker' hpresent => ?_⟩ }
  · by_cases hother : other = token
    · subst hother
      rw [replaced hpresent]
      refine ⟨worker, present, rfl, fun _ => congrArg Position.running hdone, fun possible _ => ?_⟩
      unfold Worker.Keeps
      rw [hdone]
      trivial
    · exact ⟨worker', (Function.update_of_ne hother _ _).symm.trans hpresent, rfl, id, fun _ => id⟩
  · rw [hrecordable.own] at presents
    cases presents
    exact ⟨worker, htoken ▸ present, rfl, fun possible hkeeps => (recordable hkeeps).1⟩
  · rw [hrecordable.own] at presents
    cases presents
    rw [htoken] at hpresent
    rw [replaced hpresent]
    exact congrArg Position.running hdone

/-- Every step keeps the world sound while no recovering submission is deferred. -/
theorem World.Sound.step (h : w.Sound codec) (step : World.Step codec dispatcher w w')
    (safe : World.NoRecoveringDeferral w'.trace) : w'.Sound codec := by
  cases step with
  | store call clock admissible undispatched =>
    refine (World.Called.of_store admissible fun claim presents phase => ?_).sound h safe
    cases call with
    | renewOperationClaim claim leaseFor =>
      cases presents
      exact ⟨leaseFor, rfl⟩
    | deferOperation | recordOperationAccepted | recordOperationRetry
    | recordOperationPendingResult | completeWithdrawal | completeOperation =>
      cases phase.symm.trans (undispatched claim presents)
    | _ => cases presents
  | unclaimed locked phase leaseFor clock none =>
    exact (World.Called.of_store (.of_unclaimed rfl rfl rfl) fun _ presents => by
      cases presents).sound h safe
  | claim locked phase leaseFor clock claim dispatched claimed =>
    exact (World.Called.of_claim claimed).sound h safe
  | read token worker sessionId id next present reads =>
    exact (World.Move.next present reads _ fun _ => rfl).sound h
  | readFailed token worker sessionId id next error present reads =>
    exact (World.Move.next present reads (.error error) fun _ => rfl).sound h
  | now token worker next now present reads =>
    exact (World.Move.next present reads now fun _ => rfl).sound h
  | find token worker connection key next present finds =>
    exact (World.Move.next present finds _ fun _ => rfl).sound h
  | findFailed token worker connection key next error present finds =>
    exact (World.Move.next present finds (.error error) fun _ => rfl).sound h
  | cancel token worker connection jobId next answer present cancels =>
    exact (World.Move.next present cancels answer fun _ => rfl).sound h
  | send token worker connection body next present sends =>
    refine (World.Move.place present (Worker.busy_of_asking sends) (fun possible hkeeps => ?_)
      fun _ => .inl).sound h
    unfold Worker.Keeps at hkeeps
    rw [sends] at hkeeps
    exact ⟨hkeeps.1.2.1, hkeeps.1.2.2, hkeeps.2⟩
  | answer token worker flight next answer jobs present awaits answers =>
    refine (World.Move.place present (Worker.busy_of_awaiting awaits)
      (fun possible hkeeps => (Worker.keeps_answered awaits answer hkeeps).1) ?_).sound h
    obtain ⟨-, hmay, hkey⟩ := Worker.keeps_answered awaits answer (h.keeps token worker present)
    rintro key (⟨job, hjob, rfl⟩ | hflight)
    · rcases answers.jobs job hjob with hold | ⟨hjobKey, hcreate⟩
      · exact .inl (.inl ⟨job, hold, rfl⟩)
      · exact .inr ⟨hjobKey.trans hkey, hmay hcreate⟩
    · exact .inl (.inr hflight)
  | timeout token worker flight next failure present awaits =>
    refine (World.Move.place present (Worker.busy_of_awaiting awaits)
      (fun possible hkeeps => (Worker.keeps_answered awaits _ hkeeps).1) ?_).sound h
    obtain ⟨-, hmay, hkey⟩ := Worker.keeps_answered awaits (.error (.uncertain failure))
      (h.keeps token worker present)
    rintro key (hjob | ⟨flight', hflight, rfl⟩)
    · exact .inl (.inl hjob)
    · rcases List.mem_append.mp hflight with hold | hnew
      · exact .inl (.inr ⟨flight', hold, rfl⟩)
      · rw [List.mem_singleton.mp hnew]
        exact .inr ⟨hkey, hmay rfl⟩
  | land flight answer jobs flying answers =>
    refine h.of_touched rfl rfl rfl ?_
    rintro key (⟨job, hjob, rfl⟩ | ⟨flight', hflight, rfl⟩)
    · rcases answers.jobs job hjob with hold | ⟨hjobKey, -⟩
      · exact .inl ⟨job, hold, rfl⟩
      · exact .inr ⟨flight, flying, hjobKey.symm⟩
    · exact .inr ⟨flight', List.mem_of_mem_erase hflight, rfl⟩
  | record token worker call next clock present records =>
    exact (World.Called.of_record h present records).sound h safe
  | recordFailed token worker call next present records =>
    refine (World.Move.place present (Worker.busy_of_asking records) (fun possible hkeeps => ?_)
      fun _ => .inl).sound h
    unfold Worker.Keeps at hkeeps ⊢
    rw [records] at hkeeps
    rw [Runtime.Keeps.recorded (hkeeps.2 ())]
    trivial
  | stop token worker program present running =>
    exact (World.Move.drop present fun _ => .inl).sound h
  | crash token worker flight next present awaits =>
    refine (World.Move.drop present ?_).sound h
    have hkey := (Worker.keeps_answered awaits (.error (.rejected 0 "" ""))
      (h.keeps token worker present)).2.2
    rintro key (hjob | ⟨flight', hflight, rfl⟩)
    · exact .inl (.inl hjob)
    · rcases List.mem_append.mp hflight with hold | hnew
      · exact .inl (.inr ⟨flight', hold, rfl⟩)
      · rw [List.mem_singleton.mp hnew]
        exact .inr ⟨Worker.busy_of_awaiting awaits, hkey⟩

/-! ## Every run -/

/-- What a step leaves of the calls that were made. -/
theorem World.Step.trace_grows (step : World.Step codec dispatcher w w') : w.trace <+: w'.trace := by
  cases step <;> first | exact List.prefix_rfl | exact List.prefix_append _ _

theorem World.Reachable.sound (reach : World.Reachable codec dispatcher w)
    (safe : World.NoRecoveringDeferral w.trace) : w.Sound codec := by
  induction reach with
  | start =>
    have nobody {token : Uuid} {worker : Worker} (h : World.start.workers token = some worker) :
        False := Option.some_ne_none worker h.symm
    refine ⟨.start, fun _ _ h => (nobody h).elim, fun _ _ h => (nobody h).elim, ?_,
      fun s hs => absurd hs List.not_mem_nil⟩
    rintro key (⟨job, hjob, -⟩ | ⟨flight, hflight, -⟩)
    · exact absurd hjob List.not_mem_nil
    · exact absurd hflight List.not_mem_nil
  | step before step ih =>
    exact (ih fun entry hentry => safe entry (step.trace_grows.subset hentry)).step step safe

/-- While no claim that recovers an uncertain submission is deferred, no job is orphaned. -/
theorem no_orphan_job (reach : World.Reachable codec dispatcher w)
    (safe : World.NoRecoveringDeferral w.trace) : w.NoOrphan := by
  intro s hs o ho kind terminal unmapped
  have h := reach.sound safe
  have hquiet := (h.guarded s hs o ho kind).ended terminal unmapped
  refine ⟨fun hjob => hquiet.untouched (.inl hjob), ?_⟩
  rintro (hflight | ⟨token, worker, flight, next, hpresent, hawaits, hkey⟩)
  · exact hquiet.untouched (.inr hflight)
  · obtain ⟨-, hissued⟩ := h.issued token worker hpresent
    have hown := (Worker.keeps_answered hawaits (.error (.rejected 0 "" ""))
      (h.keeps token worker hpresent)).2.2
    rw [hown, h.run.claim_key hissued, h.run.operation_key hs ho] at hkey
    exact hquiet.unworked token
      ⟨worker, hpresent, Uuid.toText_injective hkey, Worker.busy_of_awaiting hawaits⟩

end

/-! ## Schedules -/

/-- What happens next: a call of the rest of the platform, under the `i`-th claim of its kind that
was issued if it presents one, a dispatcher that claims, or a worker that gets on with its program. -/
inductive Choice where
  | store (call : StoreCall)
  | commit (i : Nat) (outcome : OutcomeCommit)
  | complete (i : Nat) (status : OperationStatus) (result : Option RawJson)
  | claim (phase : OperationPhase) (leaseFor : Nat)
  | go (token : Uuid) (jobId : Uuid)

/-- A call that presents no claim and takes no operation. -/
def StoreCall.free : StoreCall → Bool
  | .createSession _ | .enqueueExternalEvent _ | .claimNextEvent .. => true
  | .claimOperation _ phase _ => phase = .resultRetrieval
  | _ => false

namespace World

variable (codec : Codec) (dispatcher : OperationDispatcher) (clock : Clock) (w : World)

/-- Answer the next request of a worker: reads and records succeed, a submission is accepted. -/
def go (token jobId : Uuid) : Option World :=
  match w.workers token with
  | none => none
  | some worker =>
    match worker.position with
    | .running (.ask (.operationForSession sessionId id) next) =>
      some (w.place token worker.claim (.running (next (.ok (readOperation w.db sessionId id)))))
    | .running (.ask .now next) =>
      some (w.place token worker.claim (.running (next clock.now)))
    | .running (.ask (.submit connection body) next) =>
      some (w.place token worker.claim
        (.awaiting { connection, key := body.idempotencyKey } next))
    | .running (.ask (.record call) next) =>
      some ((w.call codec call clock).place token worker.claim (.running (next ())))
    | .awaiting flight next =>
      let jobs := createJob w.jobs flight jobId
      (jobFor jobs flight.connection flight.key).map fun job =>
        { (w.place token worker.claim (.running (next (.ok { id := job.id })))) with jobs }
    | _ => none

/-- Take one choice. -/
def act : Choice → Option World
  | .store call => if StoreCall.free call then some (w.call codec call clock) else none
  | .commit i outcome => (handlerClaims w.trace)[i]?.map fun claim =>
      w.call codec (.commitHandlerOutcome claim outcome) clock
  | .complete i status result =>
    match (operationClaims w.trace)[i]? with
    | none => none
    | some claim =>
      if claim.phase = .resultRetrieval then
        some (w.call codec (.completeOperation claim status result none none none) clock)
      else none
  | .claim phase leaseFor =>
    if phase = .resultRetrieval then none
    else
      let call := .claimOperation (fun _ => false) phase leaseFor
      match (exec codec clock w.db call).1 with
      | .claimedOperation (some claim) =>
        some ((w.call codec call clock).place claim.leaseToken claim
          (.running (dispatcher.processClaim claim)))
      | _ => none
  | .go token jobId => w.go codec clock token jobId

/-- Take the choices of a schedule, each at its time. -/
def play (w : World) : List (Timestamp × Choice) → Option World
  | [] => some w
  | (now, choice) :: rest =>
    (w.act codec dispatcher { now, reading := fun _ => now, stamp := fun _ => now } choice).bind
      fun w' => w'.play rest

variable {codec dispatcher clock w}

/-- A worker that gets on with its program takes a step. -/
theorem go_step {token jobId : Uuid} {w' : World} (h : w.go codec clock token jobId = some w') :
    World.Step codec dispatcher w w' := by
  unfold go at h
  split at h
  · cases h
  · rename_i worker hpresent
    split at h
    · rename_i hposition
      cases h
      exact .read token worker _ _ _ hpresent hposition
    · rename_i hposition
      cases h
      exact .now token worker _ _ hpresent hposition
    · rename_i hposition
      cases h
      exact .send token worker _ _ _ hpresent hposition
    · rename_i hposition
      cases h
      exact .record token worker _ _ clock hpresent hposition
    · rename_i hposition
      obtain ⟨job, hjob, rfl⟩ := Option.map_eq_some_iff.mp h
      exact .answer token worker _ _ _ _ hpresent hposition (.accepted jobId job hjob)
    · cases h

/-- Every choice is a step. -/
theorem act_step {choice : Choice} {w' : World}
    (h : w.act codec dispatcher clock choice = some w') : World.Step codec dispatcher w w' := by
  cases choice with
  | store call =>
    simp only [act] at h
    split at h
    · rename_i hfree
      cases h
      cases call with
      | createSession | enqueueExternalEvent | claimNextEvent =>
        exact .store _ clock (.of_unclaimed rfl rfl rfl) fun _ presents => by cases presents
      | claimOperation locked phase leaseFor =>
        have hphase : phase = .resultRetrieval := by simpa [StoreCall.free] using hfree
        exact .store _ clock (.of_unclaimed rfl rfl rfl) hphase
      | _ => cases hfree
    · cases h
  | commit i outcome =>
    obtain ⟨claim, hclaim, rfl⟩ := Option.map_eq_some_iff.mp h
    exact .store _ clock (.of_handler rfl (List.mem_of_getElem? hclaim) rfl rfl)
      fun _ presents => by cases presents
  | complete i status result =>
    simp only [act] at h
    split at h
    · cases h
    · rename_i claim hclaim
      split at h
      · rename_i hphase
        cases h
        refine .store _ clock (.of_operation rfl (List.mem_of_getElem? hclaim)) ?_
        rintro _ ⟨⟩
        exact hphase
      · cases h
  | claim phase leaseFor =>
    simp only [act] at h
    split at h
    · cases h
    · rename_i hphase
      split at h
      · rename_i hclaimed
        cases h
        exact .claim _ phase leaseFor clock _ hphase hclaimed
      · cases h
  | go token jobId => exact go_step h

/-- A schedule leads to a reachable world. -/
theorem play_reachable {schedule : List (Timestamp × Choice)} {w' : World}
    (h : w.play codec dispatcher schedule = some w')
    (reach : World.Reachable codec dispatcher w) : World.Reachable codec dispatcher w' := by
  induction schedule generalizing w with
  | nil =>
    cases h
    exact reach
  | cons choice schedule ih =>
    obtain ⟨w₁, hact, hrest⟩ := Option.bind_eq_some_iff.mp h
    exact ih hrest (reach.step (act_step hact))

/-- What a schedule leads to, when it can be taken to its end. -/
theorem exists_of_played {schedule : List (Timestamp × Choice)} {p : World → Bool}
    (h : (World.start.play codec dispatcher schedule).any p = true) :
    ∃ w, World.start.play codec dispatcher schedule = some w ∧
      World.Reachable codec dispatcher w ∧ p w = true := by
  cases hplay : World.start.play codec dispatcher schedule with
  | none =>
    rw [hplay] at h
    cases h
  | some w =>
    rw [hplay] at h
    exact ⟨w, rfl, play_reachable hplay .start, h⟩

/-- An operation that ended without a job has one. -/
def orphans (w : World) : Bool :=
  w.db.sessions.any fun s => s.operations.any fun o =>
    (o.kind = .llm || o.kind = .execution) && o.status.terminal && o.gatewayJobId.isNone &&
      w.jobs.any fun job => job.key = o.gatewayIdempotencyKey

theorem not_noOrphan_of_orphans (h : w.orphans = true) : ¬ w.NoOrphan := by
  intro hnone
  simp only [orphans, List.any_eq_true, Bool.and_eq_true, Bool.or_eq_true, decide_eq_true_eq] at h
  obtain ⟨s, hs, o, ho, ⟨⟨hkind, hterminal⟩, hjob⟩, job, hin, hkey⟩ := h
  exact (hnone s hs o ho hkind hterminal (Option.isNone_iff_eq_none.mp hjob)).1 ⟨job, hin, hkey⟩

/-- No call of the run deferred a recovering submission. -/
def neverDefersRecovering (w : World) : Bool :=
  w.trace.all fun entry =>
    match entry.call with
    | .deferOperation claim _ => !(claim.phase = .submission && claim.recoveringUncertain)
    | _ => true

theorem noRecoveringDeferral_of_never (h : w.neverDefersRecovering = true) :
    NoRecoveringDeferral w.trace := by
  intro entry hentry claim retryAt hcall _ hphase
  have := List.all_eq_true.mp h entry hentry
  rw [hcall] at this
  simpa [hphase] using this

end World

/-! ## A withdrawal in time, and one too early -/

/-- The stored text of a model request. -/
def freshText : RawJson :=
  "\x7b\"kind\":\"llm\",\"connection\":\"llm\",\"request\":\x7b\"mode\":\"fresh\"," ++
    "\"account_id\":\"7\",\"model_id\":\"model\",\"messages\":[],\"tools\":[]," ++
    "\"provider_options\":\x7b\x7d\x7d\x7d"

/-- The stored text of its continuation. -/
def continuationText : RawJson :=
  "\x7b\"kind\":\"llm\",\"connection\":\"llm\",\"request\":\x7b\"mode\":\"continuation\"," ++
    "\"previous_operation_id\":\"21\",\"messages\":[]\x7d\x7d"

/-- A dispatcher with one LLM gateway, which decodes the two texts. -/
def twoTexts : OperationDispatcher where
  settings :=
    { retryDelays := [1000], dependencyDelay := 250, requestRetention := 10000
      resultCheckDelay := 1000, retries := List.cons_ne_nil _ _ }
  gateways connection := if connection = "llm" then some .llm else none
  decodeRequest raw :=
    if raw = freshText then some (.llm "llm" (.fresh 7 "model" none [] [] []))
    else if raw = continuationText then some (.llm "llm" (.continuation 21 []))
    else none
  serializes _ := true

/-- A session stages a model request 21, its continuation 20, and a withdrawal of the latter. -/
def staging : List (Timestamp × Choice) :=
  [(0, .store (.createSession
      { id := 1, projectId := "project", harnessId := "harness", harnessVersion := "1"
        configuration := "null", state := "null", name := none, metadata := .null })),
    (0, .store (.enqueueExternalEvent
      { sessionId := 1, eventType := .userMessage, payload := "null", idempotencyKey := none })),
    (0, .store (.claimNextEvent (fun _ => false) 1000)),
    (0, .commit 0
      { state := "null", status := some .running, history := []
        operations :=
          [{ id := 21, kind := .llm, gatewayConnectionId := some "llm", targetOperationId := none
             previousOperationId := none, request := freshText },
            { id := 20, kind := .llm, gatewayConnectionId := some "llm", targetOperationId := none
              previousOperationId := some 21, request := continuationText },
            { id := 22, kind := .withdraw, gatewayConnectionId := none
              targetOperationId := some 20, previousOperationId := none, request := "null" }]
        waits := [], cancelledWaits := [], progress := [] })]

/-- The continuation is withdrawn while nobody works on it, and then its parent is submitted. -/
def withdrawnInTime : List (Timestamp × Choice) :=
  staging ++
    [(0, .claim .withdrawal 30000), (0, .go 3 0), (0, .go 3 0),
      (0, .claim .submission 30000), (0, .go 7 100), (0, .go 7 100), (0, .go 7 100), (0, .go 7 100)]

/-- The continuation that was withdrawn in time has no job. -/
theorem no_orphan_job_withdrawnInTime :
    ∃ w, World.start.play plainCodec twoTexts withdrawnInTime = some w ∧ w.NoOrphan := by
  have hplayed : ((World.start.play plainCodec twoTexts withdrawnInTime).any
      World.neverDefersRecovering) = true := by decide +kernel
  obtain ⟨w, hplay, hreach, hnever⟩ := World.exists_of_played hplayed
  exact ⟨w, hplay, no_orphan_job hreach (World.noRecoveringDeferral_of_never hnever)⟩

/-- The worker of claim 3 stalls before it reads the parent. The claim 5 that takes over recovers an
uncertain submission and is deferred, for the parent is pending; the withdrawal cancels the
continuation; the parent is submitted and succeeds; and the first worker goes on. -/
def deferredWhileRecovering : List (Timestamp × Choice) :=
  staging ++
    [(0, .claim .submission 30000),
      (30000000, .claim .submission 30000),
      (30000000, .go 5 0), (30000000, .go 5 0), (30000000, .go 5 0),
      (30000000, .claim .withdrawal 30000), (30000000, .go 7 0), (30000000, .go 7 0),
      (30000000, .claim .submission 30000),
      (30000000, .go 11 100), (30000000, .go 11 100), (30000000, .go 11 100),
      (30000000, .go 11 100),
      (40000000, .store (.claimOperation (fun _ => false) .resultRetrieval 30000)),
      (40000000, .complete 4 .succeeded (some "null")),
      (40000000, .go 3 101), (40000000, .go 3 101), (40000000, .go 3 101)]

/-- A continuation that was cancelled by its withdrawal gets a job. -/
theorem orphan_job_deferredWhileRecovering :
    ¬ ∀ w, World.Reachable plainCodec twoTexts w → w.NoOrphan := by
  intro hall
  have hplayed : ((World.start.play plainCodec twoTexts deferredWhileRecovering).any
      World.orphans) = true := by decide +kernel
  obtain ⟨w, -, hreach, horphans⟩ := World.exists_of_played hplayed
  exact World.not_noOrphan_of_orphans horphans (hall w hreach)

end AgentPlatform.Runtime
