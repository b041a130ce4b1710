import AgentPlatform.Runtime.NoOrphan
import AgentPlatform.Runtime.Provenance
import AgentPlatform.Store.RequestBook

/-!
# One gateway job for an operation

Whatever dispatchers do, and however often an operation is submitted, all its submissions are the
same, and the job that the store records of it is the one that the gateway keeps for its key.
-/

namespace AgentPlatform.Runtime

open Store

/-! ## Gateways -/

/-- At most one job for a key at a connection. -/
def Distinct (jobs : List Job) : Prop :=
  ∀ job ∈ jobs, ∀ job' ∈ jobs, job'.connection = job.connection → job'.key = job.key → job' = job

/-- What an answer to a submission leaves at the gateway. -/
structure Answered (jobs : List Job) (flight : Flight)
    (answer : Except GatewayError JobAcknowledgement) (jobs' : List Job) : Prop where
  kept : ∀ job ∈ jobs, job ∈ jobs'
  back : ∀ job ∈ jobs', job ∈ jobs ∨ job.connection = flight.connection ∧ job.key = flight.key
  distinct : Distinct jobs → Distinct jobs'
  told : ∀ ack, answer = .ok ack → ∃ job ∈ jobs', job.key = flight.key ∧ job.id = ack.id

theorem jobFor_some {jobs : List Job} {connection : GatewayConnectionId} {key : String} {job : Job}
    (h : jobFor jobs connection key = some job) :
    job ∈ jobs ∧ job.connection = connection ∧ job.key = key := by
  have hfound := List.find?_some h
  simp only [Bool.and_eq_true, decide_eq_true_eq] at hfound
  exact ⟨List.mem_of_find?_eq_some h, hfound⟩

theorem admit_kept (jobs : List Job) (flight : Flight) (id : Uuid) :
    ∀ job ∈ jobs, job ∈ createJob jobs flight id := by
  intro job hjob
  unfold createJob
  split
  · exact hjob
  · exact List.mem_append_left _ hjob

theorem admit_back (jobs : List Job) (flight : Flight) (id : Uuid) :
    ∀ job ∈ createJob jobs flight id,
      job ∈ jobs ∨ job.connection = flight.connection ∧ job.key = flight.key := by
  intro job hjob
  unfold createJob at hjob
  split at hjob
  · exact .inl hjob
  · rcases List.mem_append.mp hjob with hold | hnew
    · exact .inl hold
    · rw [List.mem_singleton.mp hnew]
      exact .inr ⟨rfl, rfl⟩

/-- A key that has a job gets no other. -/
theorem admit_distinct {jobs : List Job} (h : Distinct jobs) (flight : Flight) (id : Uuid) :
    Distinct (createJob jobs flight id) := by
  unfold createJob
  split
  · exact h
  · rename_i hnone
    have hfree : ∀ job ∈ jobs, job.connection = flight.connection → job.key ≠ flight.key := by
      intro job hjob hconnection hkey
      have := List.find?_eq_none.mp hnone job hjob
      simp [hconnection, hkey] at this
    intro job hjob job' hjob' hconnection hkey
    rcases List.mem_append.mp hjob with hold | hnew
    · rcases List.mem_append.mp hjob' with hold' | hnew'
      · exact h job hold job' hold' hconnection hkey
      · rw [List.mem_singleton.mp hnew'] at hconnection hkey
        exact absurd hkey.symm (hfree job hold hconnection.symm)
    · rw [List.mem_singleton.mp hnew] at hconnection hkey ⊢
      rcases List.mem_append.mp hjob' with hold' | hnew'
      · exact absurd hkey (hfree job' hold' hconnection)
      · exact List.mem_singleton.mp hnew'

theorem Answers.answered {jobs jobs' : List Job} {flight : Flight}
    {answer : Except GatewayError JobAcknowledgement} (h : Answers jobs flight answer jobs') :
    Answered jobs flight answer jobs' := by
  cases h with
  | accepted id job held =>
    obtain ⟨hjob, -, hkey⟩ := jobFor_some held
    refine ⟨admit_kept jobs flight id, admit_back jobs flight id,
      fun h => admit_distinct h flight id, fun ack hack => ?_⟩
    cases hack
    exact ⟨job, hjob, hkey, rfl⟩
  | uncertain failure id =>
    exact ⟨admit_kept jobs flight id, admit_back jobs flight id,
      fun h => admit_distinct h flight id, fun ack hack => by cases hack⟩
  | lost | rejected | retryable | invalidRequest =>
    exact ⟨fun _ h => h, fun _ => .inl, id, fun ack hack => by cases hack⟩

/-! ## What holds in a world -/

namespace World

/-- The store has the job of an operation. -/
def Mapped (w : World) (sessionId : SessionId) (id : OperationId) (jobId : Uuid) : Prop :=
  ∃ s ∈ w.db.sessions, s.id = sessionId ∧ ∃ o ∈ s.operations, o.id = id ∧
    o.gatewayJobId = some jobId

/-- A job or a submission of a key at a connection. -/
def Reached (w : World) (connection : GatewayConnectionId) (key : String) : Prop :=
  (∃ job ∈ w.jobs, job.connection = connection ∧ job.key = key) ∨
    ∃ flight ∈ w.flights, flight.connection = connection ∧ flight.key = key

/-- A claim of the key whose stored request submits to the connection. -/
def Origin (w : World) (dispatcher : OperationDispatcher) (connection : GatewayConnectionId)
    (key : String) : Prop :=
  ∃ claim ∈ operationClaims w.trace, claim.operation.gatewayIdempotencyKey = key ∧
    ∃ raw request, claim.request = some raw ∧ dispatcher.decodeRequest raw = some request ∧
      OperationRequest.submitsTo request = some connection

end World

/-- What a worker knows is so. -/
structure Knowledge.Holds (knows : Knowledge) (w : World) (claim : ClaimedOperation) : Prop where
  reads : ∀ sessionId id record, (sessionId, id, record) ∈ knows.reads →
    ∀ jobId, record.gatewayJobId = some jobId → w.Mapped sessionId id jobId
  jobs : ∀ jobId ∈ knows.jobs, ∃ job ∈ w.jobs,
    job.key = claim.operation.gatewayIdempotencyKey ∧ job.id = jobId

/-- A position of a worker that keeps to its provenance. -/
def Position.Learned (dispatcher : OperationDispatcher) (claim : ClaimedOperation)
    (knows : Knowledge) : Position → Prop
  | .running program => Runtime.Learned dispatcher claim knows program
  | .awaiting flight next => ∃ body, flight.key = body.idempotencyKey ∧
      dispatcher.Submits claim knows flight.connection body ∧
      ∀ answer, Runtime.Learned dispatcher claim
        ((provenance dispatcher claim).after knows (.submit flight.connection body) answer)
        (next answer)

/-- A worker that knows what is so and keeps to its provenance. -/
def Worker.Learned (dispatcher : OperationDispatcher) (w : World) (worker : Worker) : Prop :=
  ∃ knows : Knowledge, knows.Holds w worker.claim ∧
    worker.position.Learned dispatcher worker.claim knows

namespace World

/-- Every worker keeps to its provenance, every job comes from a stored request, and the store has
jobs of the gateway only. -/
structure Traced (w : World) (codec : Codec) (dispatcher : OperationDispatcher) : Prop where
  run : Run codec w.trace w.db
  workers : ∀ token worker, w.workers token = some worker →
    worker.claim ∈ operationClaims w.trace ∧ worker.Learned dispatcher w
  origin : ∀ connection key, w.Reached connection key → w.Origin dispatcher connection key
  distinct : Distinct w.jobs
  mapped : ∀ s ∈ w.db.sessions, ∀ o ∈ s.operations, ∀ jobId, o.gatewayJobId = some jobId →
    ∃ job ∈ w.jobs, job.key = o.gatewayIdempotencyKey ∧ job.id = jobId

/-- What a step leaves of claims, jobs and of what the store has of them. -/
structure Grows (w w' : World) : Prop where
  claims : ∀ claim ∈ operationClaims w.trace, claim ∈ operationClaims w'.trace
  jobs : ∀ job ∈ w.jobs, job ∈ w'.jobs
  mapped : ∀ sessionId id jobId, w.Mapped sessionId id jobId → w'.Mapped sessionId id jobId

/-- A traced world that grew from another one. -/
def Follows (w' : World) (codec : Codec) (dispatcher : OperationDispatcher) (w : World) : Prop :=
  Grows w w' ∧ w'.Traced codec dispatcher

end World

section

variable {codec : Codec} {dispatcher : OperationDispatcher} {w w' : World}

/-- A step that leaves the store alone. -/
theorem World.Grows.of_store (trace : w'.trace = w.trace) (db : w'.db = w.db)
    (jobs : ∀ job ∈ w.jobs, job ∈ w'.jobs) : World.Grows w w' := by
  refine ⟨fun claim hclaim => trace ▸ hclaim, jobs, fun sessionId id jobId hmapped => ?_⟩
  unfold World.Mapped
  rw [db]
  exact hmapped

theorem Knowledge.Holds.grow {knows : Knowledge} {claim : ClaimedOperation}
    (h : knows.Holds w claim) (grows : World.Grows w w') : knows.Holds w' claim where
  reads sessionId id record hread jobId hjob :=
    grows.mapped _ _ _ (h.reads sessionId id record hread jobId hjob)
  jobs jobId hjobId := by
    obtain ⟨job, hjob, hkey⟩ := h.jobs jobId hjobId
    exact ⟨job, grows.jobs job hjob, hkey⟩

theorem Worker.Learned.grow {worker : Worker} (h : worker.Learned dispatcher w)
    (grows : World.Grows w w') : worker.Learned dispatcher w' := by
  obtain ⟨knows, hholds, hposition⟩ := h
  exact ⟨knows, hholds.grow grows, hposition⟩

theorem World.Origin.grow {connection : GatewayConnectionId} {key : String}
    (h : w.Origin dispatcher connection key) (grows : World.Grows w w') :
    w'.Origin dispatcher connection key := by
  obtain ⟨claim, hclaim, horigin⟩ := h
  exact ⟨claim, grows.claims claim hclaim, horigin⟩

/-- A submission of an issued claim has an origin. -/
theorem OperationDispatcher.Submits.origin {claim : ClaimedOperation} {knows : Knowledge}
    {connection : GatewayConnectionId} {body : SubmissionBody}
    (h : dispatcher.Submits claim knows connection body)
    (issued : claim ∈ operationClaims w.trace) :
    w.Origin dispatcher connection body.idempotencyKey := by
  obtain ⟨raw, request, hraw, hdecode, hmakes⟩ := h
  refine ⟨claim, issued, ?_, raw, request, hraw, hdecode, ?_⟩ <;> cases hmakes <;> rfl

theorem Makes.key {claim : ClaimedOperation} {knows : Knowledge} {request : OperationRequest}
    {connection : GatewayConnectionId} {body : SubmissionBody}
    (h : Makes claim knows request connection body) :
    body.idempotencyKey = claim.operation.gatewayIdempotencyKey := by
  cases h <;> rfl

/-- A step that keeps workers to their provenance, and reaches gateways from stored requests. -/
theorem World.Traced.step_of (h : w.Traced codec dispatcher) (grows : World.Grows w w')
    (run : Run codec w'.trace w'.db)
    (workers : ∀ token worker', w'.workers token = some worker' →
      w.workers token = some worker' ∨
        worker'.claim ∈ operationClaims w'.trace ∧ worker'.Learned dispatcher w')
    (origin : ∀ connection key, w'.Reached connection key →
      w.Reached connection key ∨ w.Origin dispatcher connection key)
    (distinct : Distinct w'.jobs)
    (mapped : ∀ s ∈ w'.db.sessions, ∀ o ∈ s.operations, ∀ jobId, o.gatewayJobId = some jobId →
      ∃ job ∈ w'.jobs, job.key = o.gatewayIdempotencyKey ∧ job.id = jobId) :
    w'.Follows codec dispatcher w := by
  refine ⟨grows, run, fun token worker' hpresent => ?_, fun connection key hreached => ?_, distinct,
    mapped⟩
  · rcases workers token worker' hpresent with hold | hnew
    · obtain ⟨hissued, hlearned⟩ := h.workers token worker' hold
      exact ⟨grows.claims _ hissued, hlearned.grow grows⟩
    · exact hnew
  · rcases origin connection key hreached with hold | hnew
    · exact (h.origin connection key hold).grow grows
    · exact hnew.grow grows

/-! ## Steps of workers and gateways -/

/-- A step that leaves the store alone. -/
theorem World.Traced.quiet (h : w.Traced codec dispatcher) (trace : w'.trace = w.trace)
    (db : w'.db = w.db) (jobs : ∀ job ∈ w.jobs, job ∈ w'.jobs)
    (workers : ∀ token worker', w'.workers token = some worker' →
      w.workers token = some worker' ∨
        worker'.claim ∈ operationClaims w.trace ∧ worker'.Learned dispatcher w')
    (origin : ∀ connection key, w'.Reached connection key →
      w.Reached connection key ∨ w.Origin dispatcher connection key)
    (distinct : Distinct w'.jobs) : w'.Follows codec dispatcher w := by
  refine h.step_of (.of_store trace db jobs) ?_ (fun token worker' hpresent => ?_) origin distinct ?_
  · rw [trace, db]
    exact h.run
  · rw [trace]
    exact workers token worker' hpresent
  · rw [db]
    intro s hs o ho jobId hjob
    obtain ⟨job, hmem, hkey⟩ := h.mapped s hs o ho jobId hjob
    exact ⟨job, jobs job hmem, hkey⟩

/-- A worker that moves to another position, while jobs and flights may be added. -/
theorem World.Traced.place (h : w.Traced codec dispatcher) {token : Uuid} {worker : Worker}
    (present : w.workers token = some worker) {position : Position} {jobs : List Job}
    {flights : List Flight} (kept : ∀ job ∈ w.jobs, job ∈ jobs)
    (learned : Worker.Learned dispatcher
      { w.place token worker.claim position with jobs, flights } { claim := worker.claim, position })
    (origin : ∀ connection key, { w with jobs, flights }.Reached connection key →
      w.Reached connection key ∨ w.Origin dispatcher connection key)
    (distinct : Distinct jobs) :
    World.Follows { w.place token worker.claim position with jobs, flights } codec dispatcher w := by
  refine h.quiet rfl rfl kept (fun other worker' hpresent => ?_) origin distinct
  by_cases hother : other = token
  · subst hother
    have hsome : some _ = some worker' := (Function.update_self other _ w.workers).symm.trans hpresent
    cases hsome
    exact .inr ⟨(h.workers other worker present).1, learned⟩
  · exact .inl ((Function.update_of_ne hother _ _).symm.trans hpresent)

/-- A worker that is answered goes on with what it then knows. -/
theorem World.Traced.next (h : w.Traced codec dispatcher) {token : Uuid} {worker : Worker}
    {request : Request} {next : request.Answer → Work Unit}
    (present : w.workers token = some worker)
    (asks : worker.position = .running (.ask request next)) (answer : request.Answer)
    (holds : ∀ knows : Knowledge, knows.Holds w worker.claim →
      (provenance dispatcher worker.claim).allows knows request →
      ((provenance dispatcher worker.claim).after knows request answer).Holds w worker.claim) :
    (w.place token worker.claim (.running (next answer))).Follows codec dispatcher w := by
  obtain ⟨-, knows, hholds, hposition⟩ := h.workers token worker present
  rw [asks] at hposition
  obtain ⟨hallows, hnext⟩ := hposition
  refine h.place present (fun _ h => h) ⟨_, (holds knows hholds hallows).grow ?_, hnext answer⟩
    (fun _ _ => .inl) h.distinct
  exact .of_store rfl rfl fun _ h => h

/-- A worker that was told nothing yet. -/
theorem Knowledge.Holds.nothing (w : World) (claim : ClaimedOperation) :
    Knowledge.Holds { reads := [], jobs := [] } w claim :=
  ⟨fun _ _ _ h => absurd h List.not_mem_nil, fun _ h => absurd h List.not_mem_nil⟩

theorem Knowledge.Holds.told {knows : Knowledge} {claim : ClaimedOperation}
    (h : knows.Holds w claim) {job : Job} (held : job ∈ w.jobs)
    (key : job.key = claim.operation.gatewayIdempotencyKey) :
    Knowledge.Holds { knows with jobs := job.id :: knows.jobs } w claim where
  reads := h.reads
  jobs jobId hjobId := by
    rcases List.mem_cons.mp hjobId with rfl | hold
    · exact ⟨job, held, key, rfl⟩
    · exact h.jobs jobId hold

/-- A record that is read tells of a job that the store has. -/
theorem Knowledge.Holds.read {knows : Knowledge} {claim : ClaimedOperation}
    (h : knows.Holds w claim) (sessionId : SessionId) (id : OperationId) :
    ((provenance dispatcher claim).after knows (.operationForSession sessionId id)
      (.ok (readOperation w.db sessionId id))).Holds w claim := by
  cases hread : readOperation w.db sessionId id with
  | none => exact h
  | some record =>
    refine ⟨fun sessionId' id' record' hin jobId hjob => ?_, h.jobs⟩
    rcases List.mem_cons.mp hin with heq | hold
    · cases heq
      obtain ⟨s, hs, hrecord⟩ := Option.bind_eq_some_iff.mp hread
      obtain ⟨o, ho, rfl⟩ := Option.map_eq_some_iff.mp hrecord
      have hid : s.id = sessionId := by simpa using List.find?_some hs
      have hop : o.id = id := by simpa using List.find?_some ho
      exact ⟨s, List.mem_of_find?_eq_some hs, hid, o, List.mem_of_find?_eq_some ho, hop, hjob⟩
    · exact h.reads _ _ _ hold jobId hjob

/-- What a waiting worker sent has an origin. -/
theorem Worker.Learned.flight {worker : Worker} {flight : Flight}
    {next : Except GatewayError JobAcknowledgement → Work Unit}
    (h : worker.Learned dispatcher w) (issued : worker.claim ∈ operationClaims w.trace)
    (awaits : worker.position = .awaiting flight next) :
    w.Origin dispatcher flight.connection flight.key ∧
      flight.key = worker.claim.operation.gatewayIdempotencyKey := by
  obtain ⟨knows, -, hposition⟩ := h
  rw [awaits] at hposition
  obtain ⟨body, hkey, hsubmits, -⟩ := hposition
  refine ⟨hkey ▸ hsubmits.origin issued, ?_⟩
  obtain ⟨raw, request, -, -, hmakes⟩ := hsubmits
  exact hkey.trans hmakes.key

/-- A waiting worker goes on when it is answered. -/
theorem World.Traced.answered (h : w.Traced codec dispatcher) {token : Uuid} {worker : Worker}
    {flight : Flight} {next : Except GatewayError JobAcknowledgement → Work Unit}
    (present : w.workers token = some worker) (awaits : worker.position = .awaiting flight next)
    (answer : Except GatewayError JobAcknowledgement) {jobs : List Job} {flights : List Flight}
    (kept : ∀ job ∈ w.jobs, job ∈ jobs) (distinct : Distinct jobs)
    (reached : ∀ connection key, { w with jobs, flights }.Reached connection key →
      w.Reached connection key ∨ connection = flight.connection ∧ key = flight.key)
    (told : ∀ ack, answer = .ok ack → ∃ job ∈ jobs, job.key = flight.key ∧ job.id = ack.id) :
    World.Follows
      { w.place token worker.claim (.running (next answer)) with jobs, flights }
      codec dispatcher w := by
  obtain ⟨hissued, hlearned⟩ := h.workers token worker present
  obtain ⟨horigin, hkey⟩ := hlearned.flight hissued awaits
  obtain ⟨knows, hholds, hposition⟩ := hlearned
  rw [awaits] at hposition
  obtain ⟨body, -, -, hnext⟩ := hposition
  refine h.place present kept ⟨_, ?_, hnext answer⟩ (fun connection key hreached => ?_) distinct
  · have hgrown : knows.Holds
        { w.place token worker.claim (.running (next answer)) with jobs, flights } worker.claim :=
      hholds.grow (.of_store rfl rfl kept)
    cases answer with
    | error error => exact hgrown
    | ok ack =>
      obtain ⟨job, hjob, hjobKey, hid⟩ := told ack rfl
      have := hgrown.told hjob (hjobKey.trans hkey)
      rwa [hid] at this
  · rcases reached connection key hreached with hold | ⟨rfl, rfl⟩
    · exact .inl hold
    · exact .inr horigin

/-! ## Store calls -/

/-- The job of an operation after a call is the one before, or the call recorded it. -/
theorem operationStep_job {base : Uuid} {call : StoreCall} {reply : Reply} {v v' : OperationView}
    (step : OperationStep base call reply v v') {jobId : Uuid}
    (job : v'.row.gatewayJobId = some jobId) :
    v.row.gatewayJobId = some jobId ∨ ∃ claim, call.operationClaim = some claim ∧
      claim.phase = .submission ∧ claim.operation.id = v.row.id ∧
      StoreCall.acceptedJob call = some jobId := by
  cases step with
  | same row running announced =>
    obtain ⟨-, -, -, -, -, -, hjob, -⟩ := OperationRow.essence_eq row
    exact .inl (hjob ▸ job)
  | accepted now held phase submitting unmapped => exact .inr ⟨_, rfl, phase, held.id, job⟩
  | claimed | deferred | retried | pendingResult | completed | withdrew | withdrawn =>
    exact .inl job

/-- A store call: workers stay or start under an issued claim, and a job that is recorded is held for
the key of the claim. -/
theorem World.Traced.called (h : w.Traced codec dispatcher) {call : StoreCall} {clock : Clock}
    (admissible : Admissible w.trace call)
    (trace : w'.trace = w.trace ++ [⟨call, clock, (exec codec clock w.db call).1⟩])
    (db : w'.db = (exec codec clock w.db call).2) (jobs : w'.jobs = w.jobs)
    (flights : w'.flights = w.flights)
    (workers : ∀ token worker', w'.workers token = some worker' →
      w.workers token = some worker' ∨ worker'.claim ∈ operationClaims w'.trace ∧
        ∃ knows : Knowledge, knows.Holds w worker'.claim ∧
          worker'.position.Learned dispatcher worker'.claim knows)
    (told : ∀ claim, call.operationClaim = some claim → claim.phase = .submission →
      ∀ jobId ∈ StoreCall.acceptedJob call, ∃ job ∈ w.jobs,
        job.key = claim.operation.gatewayIdempotencyKey ∧ job.id = jobId) :
    w'.Follows codec dispatcher w := by
  obtain ⟨owner, hstep⟩ := h.run.operations_step admissible clock
  have hrun : Run codec w'.trace w'.db := by
    rw [trace, db]
    exact h.run.step call clock admissible
  have hgrows : World.Grows w w' := by
    refine ⟨fun claim hclaim => ?_, fun job hjob => jobs ▸ hjob, ?_⟩
    · rw [trace, operationClaims_concat]
      exact List.mem_append_left _ hclaim
    · rintro sessionId id jobId ⟨s, hs, rfl, o, ho, rfl, hjob⟩
      obtain ⟨s', hs', hid, o', ho', hop⟩ := hstep.forward s hs o ho
      have hlater := hop.later
      exact ⟨s', db ▸ hs', hid, o', ho', hlater.id, hlater.mapped jobId hjob⟩
  refine h.step_of hgrows hrun (fun token worker' hpresent => ?_) (fun connection key hreached => ?_)
    (jobs ▸ h.distinct) fun s' hs' o' ho' jobId hjob => ?_
  · refine (workers token worker' hpresent).imp_right fun ⟨hissued, knows, hholds, hposition⟩ => ?_
    exact ⟨hissued, knows, hholds.grow hgrows, hposition⟩
  · unfold World.Reached at hreached
    rw [jobs, flights] at hreached
    exact .inl hreached
  · rw [jobs, hrun.operation_key hs' ho']
    rw [db] at hs'
    rcases hstep.back s' hs' o' ho' with ⟨s, hs, -, o, ho, hop⟩ | ⟨-, hfresh, -⟩
    · have hid : o'.id = o.id := hop.later.id
      rw [hid]
      rcases operationStep_job hop hjob with hold | ⟨claim, hclaim, hphase, hop, haccepted⟩
      · obtain ⟨job, hmem, hkey, hjobId⟩ := h.mapped s hs o ho jobId hold
        exact ⟨job, hmem, hkey.trans (h.run.operation_key hs ho), hjobId⟩
      · obtain ⟨job, hmem, hkey, hjobId⟩ := told claim hclaim hphase jobId haccepted
        refine ⟨job, hmem, hkey.trans ?_, hjobId⟩
        rw [h.run.claim_key (admissible.operation claim hclaim), hop]
        rfl
    · rw [hfresh.job] at hjob
      cases hjob

/-- Every step keeps the world traced. -/
theorem World.Traced.step (h : w.Traced codec dispatcher) (step : World.Step codec dispatcher w w') :
    w'.Follows codec dispatcher w := by
  cases step with
  | store call clock admissible undispatched =>
    refine h.called admissible rfl rfl rfl rfl (fun _ _ => .inl) fun claim presents phase => ?_
    cases call with
    | recordOperationAccepted =>
      cases phase.symm.trans (undispatched claim presents)
    | _ => exact fun jobId hjob => absurd hjob (Option.not_mem_none jobId)
  | unclaimed locked phase leaseFor clock none =>
    exact h.called (.of_unclaimed rfl rfl rfl) rfl rfl rfl rfl (fun _ _ => .inl)
      fun _ presents => by cases presents
  | claim locked phase leaseFor clock claim dispatched claimed =>
    refine h.called (.of_unclaimed rfl rfl rfl) rfl rfl rfl rfl (fun token worker' hpresent => ?_)
      fun _ presents => by cases presents
    by_cases htoken : token = claim.leaseToken
    · subst htoken
      have hsome : some _ = some worker' := (Function.update_self _ _ w.workers).symm.trans hpresent
      cases hsome
      refine .inr ⟨?_, _, .nothing w claim, learned_processClaim⟩
      show claim ∈ operationClaims (w.trace ++ [_])
      rw [operationClaims_concat]
      exact List.mem_append_right _
        (Option.mem_toList.mpr (issuedOperationClaim_reply.mpr claimed))
    · exact .inl ((Function.update_of_ne htoken _ _).symm.trans hpresent)
  | read token worker sessionId id next present reads =>
    exact h.next present reads _ fun knows hholds _ => hholds.read sessionId id
  | readFailed token worker sessionId id next error present reads =>
    exact h.next present reads (.error error) fun knows hholds _ => hholds
  | now token worker next now present reads =>
    exact h.next present reads now fun knows hholds _ => hholds
  | find token worker connection key next present finds =>
    refine h.next present finds _ fun knows hholds hallows => ?_
    have hkey : key = worker.claim.operation.gatewayIdempotencyKey := hallows
    cases hjob : jobFor w.jobs connection key with
    | none => exact hholds
    | some job =>
      obtain ⟨hmem, -, hjobKey⟩ := jobFor_some hjob
      exact hholds.told hmem (hjobKey.trans hkey)
  | findFailed token worker connection key next error present finds =>
    exact h.next present finds (.error error) fun knows hholds _ => hholds
  | cancel token worker connection jobId next answer present cancels =>
    exact h.next present cancels answer fun knows hholds _ => hholds
  | send token worker connection body next present sends =>
    obtain ⟨hissued, knows, hholds, hposition⟩ := h.workers token worker present
    rw [sends] at hposition
    refine h.place present (fun _ h => h) ⟨knows, hholds.grow (.of_store rfl rfl fun _ h => h),
      body, rfl, hposition.1, hposition.2⟩ (fun _ _ => .inl) h.distinct
  | answer token worker flight next answer jobs present awaits answers =>
    have hanswered := answers.answered
    refine h.answered present awaits answer hanswered.kept (hanswered.distinct h.distinct)
      (fun connection key hreached => ?_) hanswered.told
    rcases hreached with ⟨job, hjob, rfl, rfl⟩ | hflight
    · exact (hanswered.back job hjob).imp (fun hold => .inl ⟨job, hold, rfl, rfl⟩) id
    · exact .inl (.inr hflight)
  | timeout token worker flight next failure present awaits =>
    refine h.answered present awaits (.error (.uncertain failure)) (fun _ h => h) h.distinct
      (fun connection key hreached => ?_) fun ack hack => by cases hack
    rcases hreached with hjob | ⟨flight', hflight, rfl, rfl⟩
    · exact .inl (.inl hjob)
    · rcases List.mem_append.mp hflight with hold | hnew
      · exact .inl (.inr ⟨flight', hold, rfl, rfl⟩)
      · rw [List.mem_singleton.mp hnew]
        exact .inr ⟨rfl, rfl⟩
  | land flight answer jobs flying answers =>
    have hanswered := answers.answered
    refine h.quiet rfl rfl hanswered.kept (fun _ _ => .inl) (fun connection key hreached => .inl ?_)
      (hanswered.distinct h.distinct)
    rcases hreached with ⟨job, hjob, rfl, rfl⟩ | ⟨flight', hflight, hreached⟩
    · rcases hanswered.back job hjob with hold | ⟨hconnection, hkey⟩
      · exact .inl ⟨job, hold, rfl, rfl⟩
      · exact .inr ⟨flight, flying, hconnection.symm, hkey.symm⟩
    · exact .inr ⟨flight', List.mem_of_mem_erase hflight, hreached⟩
  | record token worker call next clock present records =>
    obtain ⟨hissued, knows, hholds, hposition⟩ := h.workers token worker present
    rw [records] at hposition
    obtain ⟨hknown, hnext⟩ := hposition
    refine h.called (.of_operation hknown.own hissued) rfl rfl rfl rfl
      (fun other worker' hpresent => ?_) fun claim presents phase jobId hjob => ?_
    · by_cases hother : other = token
      · subst hother
        have hsome : some _ = some worker' := (Function.update_self _ _ w.workers).symm.trans hpresent
        cases hsome
        refine .inr ⟨?_, knows, hholds, hnext ()⟩
        show worker.claim ∈ operationClaims (w.trace ++ [_])
        rw [operationClaims_concat]
        exact List.mem_append_left _ hissued
      · exact .inl ((Function.update_of_ne hother _ _).symm.trans hpresent)
    · rw [hknown.own] at presents
      cases presents
      exact hholds.jobs jobId (hknown.job jobId hjob)
  | recordFailed token worker call next present records =>
    exact h.next present records () fun knows hholds _ => hholds
  | stop token worker program present running =>
    refine h.quiet rfl rfl (fun _ h => h) (fun other worker' hpresent => .inl ?_)
      (fun _ _ => .inl) h.distinct
    by_cases hother : other = token
    · subst hother
      cases (Function.update_self other _ w.workers).symm.trans hpresent
    · exact (Function.update_of_ne hother _ _).symm.trans hpresent
  | crash token worker flight next present awaits =>
    obtain ⟨hissued, hlearned⟩ := h.workers token worker present
    obtain ⟨horigin, -⟩ := hlearned.flight hissued awaits
    refine h.quiet rfl rfl (fun _ h => h) (fun other worker' hpresent => .inl ?_)
      (fun connection key hreached => ?_) h.distinct
    · by_cases hother : other = token
      · subst hother
        cases (Function.update_self other _ w.workers).symm.trans hpresent
      · exact (Function.update_of_ne hother _ _).symm.trans hpresent
    · rcases hreached with hjob | ⟨flight', hflight, rfl, rfl⟩
      · exact .inl (.inl hjob)
      · rcases List.mem_append.mp hflight with hold | hnew
        · exact .inl (.inr ⟨flight', hold, rfl, rfl⟩)
        · rw [List.mem_singleton.mp hnew]
          exact .inr horigin

/-! ## Every run -/

theorem World.Reachable.traced (reach : World.Reachable codec dispatcher w) :
    w.Traced codec dispatcher := by
  induction reach with
  | start =>
    refine ⟨.start, fun token worker h => (Option.some_ne_none worker h.symm).elim, ?_,
      fun job hjob => absurd hjob List.not_mem_nil, fun s hs => absurd hs List.not_mem_nil⟩
    rintro connection key (⟨job, hjob, -⟩ | ⟨flight, hflight, -⟩)
    · exact absurd hjob List.not_mem_nil
    · exact absurd hflight List.not_mem_nil
  | step before step ih => exact (ih.step step).2

theorem World.Grows.trans {w'' : World} (h : World.Grows w w') (h' : World.Grows w' w'') :
    World.Grows w w'' where
  claims claim hclaim := h'.claims claim (h.claims claim hclaim)
  jobs job hjob := h'.jobs job (h.jobs job hjob)
  mapped sessionId id jobId hmapped := h'.mapped _ _ _ (h.mapped sessionId id jobId hmapped)

/-- A world that comes later is traced, and what was there is there. -/
theorem World.Traced.later (h : w.Traced codec dispatcher)
    (later : Relation.ReflTransGen (World.Step codec dispatcher) w w') :
    w'.Follows codec dispatcher w := by
  induction later with
  | refl => exact ⟨.of_store rfl rfl fun _ h => h, h⟩
  | tail before step ih =>
    obtain ⟨hgrows, htraced⟩ := ih
    obtain ⟨hgrows', htraced'⟩ := htraced.step step
    exact ⟨hgrows.trans hgrows', htraced'⟩

/-- The worker of a claim sends a submission. -/
def World.Sends (w : World) (claim : ClaimedOperation) (connection : GatewayConnectionId)
    (body : SubmissionBody) : Prop :=
  ∃ token next, w.workers token =
    some { claim, position := .running (.ask (.submit connection body) next) }

theorem World.Traced.sends (h : w.Traced codec dispatcher) {claim : ClaimedOperation}
    {connection : GatewayConnectionId} {body : SubmissionBody}
    (sends : w.Sends claim connection body) : claim ∈ operationClaims w.trace ∧
      ∃ knows : Knowledge, knows.Holds w claim ∧
        dispatcher.Submits claim knows connection body := by
  obtain ⟨token, next, hpresent⟩ := sends
  obtain ⟨hissued, knows, hholds, hposition⟩ := h.workers token _ hpresent
  exact ⟨hissued, knows, hholds, hposition.1⟩

/-- Two submissions of one operation are the same. -/
theorem World.Traced.sends_same (h : w.Traced codec dispatcher) (grows : World.Grows w w')
    (h' : w'.Traced codec dispatcher) {claim claim' : ClaimedOperation}
    {connection connection' : GatewayConnectionId} {body body' : SubmissionBody}
    (sends : w.Sends claim connection body) (sends' : w'.Sends claim' connection' body')
    (same : claim'.operation.id = claim.operation.id) : connection' = connection ∧ body' = body := by
  obtain ⟨hissued, knows, hholds, raw, request, hraw, hdecode, hmakes⟩ := h.sends sends
  obtain ⟨hissued', knows', hholds', raw', request', hraw', hdecode', hmakes'⟩ := h'.sends sends'
  replace hissued := grows.claims claim hissued
  have hrequest := h'.run.claim_request hissued hissued' same hraw hraw'
  have hsession := h'.run.claim_session hissued hissued' same
  subst hrequest
  cases hdecode.symm.trans hdecode'
  have hkey : claim'.operation.gatewayIdempotencyKey = claim.operation.gatewayIdempotencyKey := by
    rw [h'.run.claim_key hissued, h'.run.claim_key hissued', same]
  cases hmakes with
  | fresh =>
    cases hmakes'
    exact ⟨rfl, by rw [hkey]⟩
  | execution =>
    cases hmakes'
    exact ⟨rfl, by rw [hkey]⟩
  | continuation read job =>
    cases hmakes' with
    | continuation read' job' =>
      -- the parent may have been read at different times: its job is the same
      obtain ⟨s, hs, hid, o, ho, hop, hjob⟩ := (hholds.grow grows).reads _ _ _ read _ job
      obtain ⟨s', hs', hid', o', ho', hop', hjob'⟩ := hholds'.reads _ _ _ read' _ job'
      have := h'.run.operation_unique hs' hs ho' ho (hop'.trans hop.symm)
      subst this
      cases hjob.symm.trans hjob'
      exact ⟨rfl, by rw [hkey]⟩

/-- One gateway job for an operation. -/
structure World.OneJob (w : World) (codec : Codec) (dispatcher : OperationDispatcher) : Prop where
  /-- A submission is the same as every later one of the operation, at the same connection, and no
  other operation has its key. -/
  same : ∀ w', Relation.ReflTransGen (World.Step codec dispatcher) w w' →
    ∀ claim connection body, w.Sends claim connection body →
      (∀ claim' connection' body', w'.Sends claim' connection' body' →
        claim'.operation.id = claim.operation.id → connection' = connection ∧ body' = body) ∧
      ∀ s ∈ w'.db.sessions, ∀ o ∈ s.operations,
        o.gatewayIdempotencyKey = body.idempotencyKey ↔ o.id = claim.operation.id
  /-- The job that the store has of an operation is the only one that any gateway has for its key. -/
  job : ∀ s ∈ w.db.sessions, ∀ o ∈ s.operations, ∀ jobId, o.gatewayJobId = some jobId →
    ∃ job ∈ w.jobs, job.key = o.gatewayIdempotencyKey ∧ job.id = jobId ∧
      ∀ job' ∈ w.jobs, job'.key = o.gatewayIdempotencyKey → job' = job

/-- However dispatchers and gateways interleave, an operation has one gateway job. -/
theorem one_gateway_job (reach : World.Reachable codec dispatcher w) :
    w.OneJob codec dispatcher := by
  have htraced := reach.traced
  refine ⟨fun w' later claim connection body sends => ?_, fun s hs o ho jobId hjob => ?_⟩
  · obtain ⟨hgrows, htraced'⟩ := htraced.later later
    refine ⟨fun claim' connection' body' sends' same =>
      htraced.sends_same hgrows htraced' sends sends' same, fun s hs o ho => ?_⟩
    obtain ⟨hissued, knows, -, raw, request, -, -, hmakes⟩ := htraced.sends sends
    rw [hmakes.key, htraced.run.claim_key hissued, htraced'.run.operation_key hs ho]
    exact ⟨fun h => Uuid.toText_injective h, fun h => congrArg _ h⟩
  · obtain ⟨job, hmem, hkey, hid⟩ := htraced.mapped s hs o ho jobId hjob
    refine ⟨job, hmem, hkey, hid, fun job' hmem' hkey' => ?_⟩
    obtain ⟨claim, hissued, hclaim, raw, request, hraw, hdecode, hto⟩ :=
      htraced.origin _ _ (.inl ⟨job, hmem, rfl, rfl⟩)
    obtain ⟨claim', hissued', hclaim', raw', request', hraw', hdecode', hto'⟩ :=
      htraced.origin _ _ (.inl ⟨job', hmem', rfl, rfl⟩)
    have hsame : claim'.operation.id = claim.operation.id := by
      have hkeys := hclaim'.trans (hkey'.trans (hkey.symm.trans hclaim.symm))
      rw [htraced.run.claim_key hissued, htraced.run.claim_key hissued'] at hkeys
      exact Uuid.toText_injective hkeys
    have hrequest := htraced.run.claim_request hissued hissued' hsame hraw hraw'
    subst hrequest
    cases hdecode.symm.trans hdecode'
    exact htraced.distinct job hmem job' hmem' (Option.some.inj (hto'.symm.trans hto))
      (hkey'.trans hkey.symm)

end

/-- The store has a job of an operation. -/
def World.mapsJob (w : World) : Bool :=
  w.db.sessions.any fun s => s.operations.any fun o => o.gatewayJobId.isSome

/-- A request that was submitted and accepted, with its continuation withdrawn before. -/
theorem one_gateway_job_accepted :
    ∃ w, World.start.play plainCodec twoTexts withdrawnInTime = some w ∧ w.mapsJob = true ∧
      w.OneJob plainCodec twoTexts := by
  have hplayed : ((World.start.play plainCodec twoTexts withdrawnInTime).any
      World.mapsJob) = true := by decide +kernel
  obtain ⟨w, hplay, hreach, hmaps⟩ := World.exists_of_played hplayed
  exact ⟨w, hplay, hmaps, one_gateway_job hreach⟩

end AgentPlatform.Runtime
