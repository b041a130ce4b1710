import AgentPlatform.Runtime.Discipline
import AgentPlatform.Store.Claims

/-!
# What guards an operation against a second submission

A submission can leave a job behind as long as a worker of the operation is at work, or a submission
is on its way. While an operation is pending, and once it ended without a job, there is neither; and
while it is held by a claim that recovers nothing, only the worker of that claim can submit. These are
kept by every step, provided that no claim that recovers an uncertain submission is deferred.
-/

namespace AgentPlatform.Runtime

open Store

/-! ## Workers -/

/-- A worker that has nothing left to ask. -/
def Worker.Idle (worker : Worker) : Prop := worker.position = .running (.done ())

/-- A worker keeps to the discipline of its claim, when a job is `possible` or not. -/
def Worker.Keeps (worker : Worker) (possible : Bool) : Prop :=
  match worker.position with
  | .running program => Runtime.Keeps worker.claim { possible, recorded := false } program
  | .awaiting flight next =>
    worker.claim.phase = .submission ∧
      flight.key = worker.claim.operation.gatewayIdempotencyKey ∧
      ∀ answer, Runtime.Keeps worker.claim
        { possible := possible || mayCreate answer, recorded := false } (next answer)

namespace World

variable (w : World)

/-- The worker of a token has more to ask for the operation. -/
def Busy (id : OperationId) (token : Uuid) : Prop :=
  ∃ worker, w.workers token = some worker ∧ worker.claim.operation.id = id ∧ ¬ worker.Idle

/-- A gateway holds a job for the key, or may get one from a submission that nobody waits for. -/
def Touched (key : String) : Prop :=
  w.hasJob key ∨ ∃ flight ∈ w.flights, flight.key = key

/-- Nothing of an operation is at a gateway or on its way to one. -/
structure Quiet (o : OperationRow) : Prop where
  untouched : ¬ w.Touched o.gatewayIdempotencyKey
  unworked : ∀ token, ¬ w.Busy o.id token

/-- Only the worker of `claim` works on an operation, and it knows when a job is possible. -/
structure OnlyBy (o : OperationRow) (claim : ClaimedOperation) : Prop where
  alone : ∀ token, w.Busy o.id token → token = claim.leaseToken
  aware : w.Touched o.gatewayIdempotencyKey → ∀ worker,
    w.workers claim.leaseToken = some worker → worker.Keeps true

/-- What guards an LLM or execution operation. -/
structure Guarded (o : OperationRow) : Prop where
  pending : o.status = .pending → w.Quiet o
  held : o.status = .submitting → ∀ claim ∈ operationClaims w.trace,
    claim.operation.id = o.id → claim.phase = .submission →
    o.lease.map (·.token) = some claim.leaseToken → claim.recoveringUncertain = false →
    w.OnlyBy o claim
  ended : o.status.terminal = true → o.gatewayJobId = none → w.Quiet o

/-- Workers keep to their disciplines under issued claims, every key at a gateway is of an issued
claim, and every operation is guarded. -/
structure Sound (codec : Codec) : Prop where
  run : Run codec w.trace w.db
  issued : ∀ token worker, w.workers token = some worker →
    worker.claim.leaseToken = token ∧ worker.claim ∈ operationClaims w.trace
  keeps : ∀ token worker, w.workers token = some worker →
    worker.Keeps worker.claim.recoveringUncertain
  keys : ∀ key, w.Touched key →
    ∃ claim ∈ operationClaims w.trace, claim.operation.gatewayIdempotencyKey = key
  guarded : ∀ s ∈ w.db.sessions, ∀ o ∈ s.operations, o.kind = .llm ∨ o.kind = .execution →
    w.Guarded o

/-- No claim that recovers an uncertain submission was deferred. -/
def NoRecoveringDeferral (trace : List Entry) : Prop :=
  ∀ entry ∈ trace, ∀ claim retryAt, entry.call = .deferOperation claim retryAt →
    entry.reply = .done → claim.phase = .submission → claim.recoveringUncertain = false

end World

/-- A status that asks for no guard. -/
theorem World.Guarded.of_open {w : World} {o : OperationRow}
    (h : o.status = .accepted ∨ o.status = .submitting ∧ o.lease = none) : w.Guarded o := by
  rcases h with h | ⟨h, free⟩
  · refine ⟨fun h' => ?_, fun h' => ?_, fun h' => ?_⟩ <;> rw [h] at h' <;> cases h'
  · refine ⟨fun h' => ?_, fun _ claim _ _ _ hlease => ?_, fun h' => ?_⟩
    · rw [h] at h'
      cases h'
    · rw [free] at hlease
      cases hlease
    · rw [h] at h'
      cases h'

/-- A quiet operation that nobody submits is guarded. -/
theorem World.Quiet.guarded {w : World} {o : OperationRow} (h : w.Quiet o)
    (status : o.status ≠ .submitting) : w.Guarded o :=
  ⟨fun _ => h, fun h' => absurd h' status, fun _ _ => h⟩

theorem World.Quiet.of_effect {w : World} {o o' : OperationRow} (h : w.Quiet o)
    (effect : o'.effect = o.effect) : w.Quiet o' := by
  have hid : o'.id = o.id := congrArg (·.id) effect
  have hkey : o'.gatewayIdempotencyKey = o.gatewayIdempotencyKey :=
    congrArg (·.gatewayIdempotencyKey) effect
  exact ⟨hkey ▸ h.untouched, hid ▸ h.unworked⟩

/-! ## Moves -/

section

variable {codec : Codec} {dispatcher : OperationDispatcher} {w w' : World}

/-- A step of one worker: the store stays, other workers stay, what is new at the gateways has the
worker's key, and then the worker is gone or knows that a job is possible. -/
structure World.Move (w w' : World) (token : Uuid) (worker : Worker) : Prop where
  trace : w'.trace = w.trace
  db : w'.db = w.db
  present : w.workers token = some worker
  others : ∀ other, other ≠ token → w'.workers other = w.workers other
  moved : ∀ worker', w'.workers token = some worker' → worker'.claim = worker.claim ∧
    (worker.Idle → worker'.Idle) ∧ ∀ possible, worker.Keeps possible → worker'.Keeps possible
  touched : ∀ key, w'.Touched key → w.Touched key ∨
    ¬ worker.Idle ∧ key = worker.claim.operation.gatewayIdempotencyKey ∧
      ∀ worker', w'.workers token = some worker' → worker'.Keeps true

namespace World.Move

variable {token : Uuid} {worker : Worker}

/-- A move makes no worker busy. -/
theorem back (move : World.Move w w' token worker) {id : OperationId} {other : Uuid}
    (h : w'.Busy id other) : w.Busy id other := by
  obtain ⟨worker', hpresent, hid, hbusy⟩ := h
  by_cases hother : other = token
  · subst hother
    obtain ⟨hclaim, hidle, -⟩ := move.moved worker' hpresent
    exact ⟨worker, move.present, hclaim ▸ hid, fun h => hbusy (hidle h)⟩
  · rw [move.others other hother] at hpresent
    exact ⟨worker', hpresent, hid, hbusy⟩

/-- What a move leaves untouched: the key of an operation that the worker does not work on. -/
theorem touched_other (move : World.Move w w' token worker) (sound : w.Sound codec) {s : Session}
    (hs : s ∈ w.db.sessions) {o : OperationRow} (ho : o ∈ s.operations)
    (other : ¬ w.Busy o.id token) (h : w'.Touched o.gatewayIdempotencyKey) :
    w.Touched o.gatewayIdempotencyKey := by
  rcases move.touched _ h with hold | ⟨hbusy, hkey, -⟩
  · exact hold
  · have hissued := (sound.issued token worker move.present).2
    rw [sound.run.operation_key hs ho, sound.run.claim_key hissued] at hkey
    exact absurd ⟨worker, move.present, (Uuid.toText_injective hkey).symm, hbusy⟩ other

theorem quiet (move : World.Move w w' token worker) (sound : w.Sound codec) {s : Session}
    (hs : s ∈ w.db.sessions) {o : OperationRow} (ho : o ∈ s.operations) (h : w.Quiet o) :
    w'.Quiet o where
  untouched htouched :=
    h.untouched (move.touched_other sound hs ho (h.unworked token) htouched)
  unworked other hbusy := h.unworked other (move.back hbusy)

theorem onlyBy (move : World.Move w w' token worker) (sound : w.Sound codec) {s : Session}
    (hs : s ∈ w.db.sessions) {o : OperationRow} (ho : o ∈ s.operations) {claim : ClaimedOperation}
    (h : w.OnlyBy o claim) : w'.OnlyBy o claim where
  alone other hbusy := h.alone other (move.back hbusy)
  aware htouched worker' hpresent := by
    by_cases htoken : claim.leaseToken = token
    · rw [htoken] at hpresent
      rcases move.touched _ htouched with hold | ⟨-, -, hknows⟩
      · exact (move.moved worker' hpresent).2.2 true (h.aware hold worker (htoken ▸ move.present))
      · exact hknows worker' hpresent
    · have hother : ¬ w.Busy o.id token := fun hbusy => htoken (h.alone token hbusy).symm
      rw [move.others _ htoken] at hpresent
      exact h.aware (move.touched_other sound hs ho hother htouched) worker' hpresent

/-- Every move keeps the world sound. -/
theorem sound (move : World.Move w w' token worker) (h : w.Sound codec) : w'.Sound codec where
  run := by
    rw [move.trace, move.db]
    exact h.run
  issued other worker' hpresent := by
    rw [move.trace]
    by_cases hother : other = token
    · subst hother
      rw [(move.moved worker' hpresent).1]
      exact h.issued other worker move.present
    · rw [move.others other hother] at hpresent
      exact h.issued other worker' hpresent
  keeps other worker' hpresent := by
    by_cases hother : other = token
    · subst hother
      obtain ⟨hclaim, -, hkeeps⟩ := move.moved worker' hpresent
      rw [hclaim]
      exact hkeeps _ (h.keeps other worker move.present)
    · rw [move.others other hother] at hpresent
      exact h.keeps other worker' hpresent
  keys key htouched := by
    rw [move.trace]
    rcases move.touched key htouched with hold | ⟨-, rfl, -⟩
    · exact h.keys key hold
    · exact ⟨worker.claim, (h.issued token worker move.present).2, rfl⟩
  guarded s hs o ho kind := by
    rw [move.db] at hs
    have hguarded := h.guarded s hs o ho kind
    refine ⟨fun hstatus => move.quiet h hs ho (hguarded.pending hstatus), ?_,
      fun hstatus hjob => move.quiet h hs ho (hguarded.ended hstatus hjob)⟩
    intro hstatus claim hclaim hid hphase htoken hrecovering
    rw [move.trace] at hclaim
    exact move.onlyBy h hs ho (hguarded.held hstatus claim hclaim hid hphase htoken hrecovering)

/-- A worker at a new position, with what it touched at the gateways. -/
theorem place (present : w.workers token = some worker) (busy : ¬ worker.Idle)
    {position : Position} {jobs : List Job} {flights : List Flight}
    (moved : ∀ possible, worker.Keeps possible →
      Worker.Keeps { claim := worker.claim, position } possible)
    (touched : ∀ key, { w with jobs, flights }.Touched key → w.Touched key ∨
      key = worker.claim.operation.gatewayIdempotencyKey ∧
        Worker.Keeps { claim := worker.claim, position } true) :
    World.Move w { w.place token worker.claim position with jobs, flights } token worker := by
  have replaced {worker' : Worker}
      (hpresent : (w.place token worker.claim position).workers token = some worker') :
      worker' = { claim := worker.claim, position } := by
    have hsome : some _ = some worker' :=
      (Function.update_self token _ w.workers).symm.trans hpresent
    cases hsome
    rfl
  refine ⟨rfl, rfl, present, fun other hother => Function.update_of_ne hother _ _, ?_, ?_⟩
  · intro worker' hpresent
    rw [replaced hpresent]
    exact ⟨rfl, fun h => absurd h busy, moved⟩
  · intro key htouched
    rcases touched key htouched with hold | ⟨hkey, hkeeps⟩
    · exact .inl hold
    · exact .inr ⟨busy, hkey, fun worker' hpresent => by rw [replaced hpresent]; exact hkeeps⟩

/-- A worker that is gone, with the submission that it leaves on its way. -/
theorem drop (present : w.workers token = some worker) {flights : List Flight}
    (touched : ∀ key, { w with flights }.Touched key → w.Touched key ∨
      ¬ worker.Idle ∧ key = worker.claim.operation.gatewayIdempotencyKey) :
    World.Move w { w.drop token with flights } token worker := by
  have gone {worker' : Worker} (hpresent : (w.drop token).workers token = some worker') :
      False := by
    have hnone := (Function.update_self token _ w.workers).symm.trans hpresent
    cases hnone
  refine ⟨rfl, rfl, present, fun other hother => Function.update_of_ne hother _ _,
    fun worker' hpresent => (gone hpresent).elim, fun key htouched => ?_⟩
  rcases touched key htouched with hold | ⟨hbusy, hkey⟩
  · exact .inl hold
  · exact .inr ⟨hbusy, hkey, fun worker' hpresent => (gone hpresent).elim⟩

end World.Move

/-- A step of the gateways alone: no key is touched anew. -/
theorem World.Sound.of_touched (h : w.Sound codec) (trace : w'.trace = w.trace) (db : w'.db = w.db)
    (workers : w'.workers = w.workers) (touched : ∀ key, w'.Touched key → w.Touched key) :
    w'.Sound codec := by
  have hquiet {o : OperationRow} (hq : w.Quiet o) : w'.Quiet o :=
    ⟨fun ht => hq.untouched (touched _ ht), fun token => by
      unfold World.Busy
      rw [workers]
      exact hq.unworked token⟩
  refine ⟨by rw [trace, db]; exact h.run, by rw [trace, workers]; exact h.issued,
    by rw [workers]; exact h.keeps, fun key ht => by rw [trace]; exact h.keys key (touched key ht), ?_⟩
  intro s hs o ho kind
  rw [db] at hs
  have hguarded := h.guarded s hs o ho kind
  refine ⟨fun hstatus => hquiet (hguarded.pending hstatus), ?_,
    fun hstatus hjob => hquiet (hguarded.ended hstatus hjob)⟩
  intro hstatus claim hclaim hid hphase htoken hrecovering
  rw [trace] at hclaim
  have honly := hguarded.held hstatus claim hclaim hid hphase htoken hrecovering
  refine ⟨fun token hbusy => honly.alone token ?_, fun ht worker hpresent => ?_⟩
  · unfold World.Busy at hbusy ⊢
    rwa [workers] at hbusy
  · exact honly.aware (touched _ ht) worker (workers ▸ hpresent)

/-! ## Store calls -/

/-- One store call: what workers there are keep to their disciplines, a claim that it issues may
start a worker, and the end of a submission is recorded by the worker of its claim, which is then
done. -/
structure World.Called (codec : Codec) (w w' : World) (call : StoreCall) (clock : Clock) :
    Prop where
  trace : w'.trace = w.trace ++ [⟨call, clock, (exec codec clock w.db call).1⟩]
  db : w'.db = (exec codec clock w.db call).2
  touched : ∀ key, w'.Touched key → w.Touched key
  admissible : Admissible w.trace call
  workers : ∀ token worker', w'.workers token = some worker' →
    (∃ worker, w.workers token = some worker ∧ worker'.claim = worker.claim ∧
      (worker.Idle → worker'.Idle) ∧ ∀ possible, worker.Keeps possible → worker'.Keeps possible) ∨
    ∃ claim, (exec codec clock w.db call).1 = .claimedOperation (some claim) ∧
      token = claim.leaseToken ∧ worker'.claim = claim ∧ worker'.Keeps claim.recoveringUncertain
  author : ∀ claim, call.operationClaim = some claim → claim.phase = .submission →
    (∃ leaseFor, call = .renewOperationClaim claim leaseFor) ∨
    (∃ worker, w.workers claim.leaseToken = some worker ∧ worker.claim = claim ∧
      ∀ possible, worker.Keeps possible →
        Recordable claim { possible, recorded := false } call) ∧
      ∀ worker', w'.workers claim.leaseToken = some worker' → worker'.Idle

namespace World.Called

variable {call : StoreCall} {clock : Clock}

/-- A worker is busy because it was, or because the call issued its claim. -/
theorem back (called : World.Called codec w w' call clock) {id : OperationId} {token : Uuid}
    (h : w'.Busy id token) : w.Busy id token ∨
      ∃ claim, (exec codec clock w.db call).1 = .claimedOperation (some claim) ∧
        claim.operation.id = id ∧ token = claim.leaseToken := by
  obtain ⟨worker', hpresent, hid, hbusy⟩ := h
  rcases called.workers token worker' hpresent with
    ⟨worker, hworker, hclaim, hidle, -⟩ | ⟨claim, hreply, htoken, hclaim, -⟩
  · exact .inl ⟨worker, hworker, hclaim ▸ hid, fun h => hbusy (hidle h)⟩
  · exact .inr ⟨claim, hreply, hclaim ▸ hid, htoken⟩

/-- A claim of an LLM or execution operation submits it, or retrieves its result. -/
theorem phase (sound : w.Sound codec) {claim : ClaimedOperation}
    (issued : claim ∈ operationClaims w.trace) {s : Session} (hs : s ∈ w.db.sessions)
    {o : OperationRow} (ho : o ∈ s.operations) (kind : o.kind = .llm ∨ o.kind = .execution)
    (hid : claim.operation.id = o.id) :
    claim.phase = .submission ∨ claim.phase = .resultRetrieval := by
  have htakes := sound.run.claim_takes claim issued
  rw [sound.run.claim_kind issued hs ho hid] at htakes
  cases hphase : claim.phase with
  | submission => exact .inl rfl
  | resultRetrieval => exact .inr rfl
  | cancellation =>
    rw [hphase] at htakes
    rcases kind with h | h <;> cases h.symm.trans htakes
  | withdrawal =>
    rw [hphase] at htakes
    rcases kind with h | h <;> cases h.symm.trans htakes

/-- The worker that gives an operation up, with no job left possible, leaves it quiet. -/
theorem quiet_of_given_up (called : World.Called codec w w' call clock) (sound : w.Sound codec)
    {o : OperationRow} (guarded : w.Guarded o) (submitting : o.status = .submitting)
    {claim : ClaimedOperation} (presents : call.operationClaim = some claim)
    (phase : claim.phase = .submission) (hid : claim.operation.id = o.id)
    (token : o.lease.map (·.token) = some claim.leaseToken)
    (recorded : ∀ leaseFor, call ≠ .renewOperationClaim claim leaseFor)
    (lost : StoreCall.keepsJob call = false)
    (safe : StoreCall.defers call = true → claim.recoveringUncertain = false) : w'.Quiet o := by
  have hissued := called.admissible.operation claim presents
  rcases called.author claim presents phase with ⟨leaseFor, hrenew⟩ | ⟨hworker, hidle⟩
  · exact absurd hrenew (recorded leaseFor)
  obtain ⟨worker, hpresent, rfl, hrecordable⟩ := hworker
  have himpossible : ¬ worker.Keeps true := by
    intro hkeeps
    rcases (hrecordable true hkeeps).keeps phase rfl with h | ⟨hdefers, hrecovering⟩
    · rw [lost] at h
      cases h
    · rw [safe hdefers] at hrecovering
      cases hrecovering
  have hrecovering : worker.claim.recoveringUncertain = false := by
    cases h : worker.claim.recoveringUncertain with
    | false => rfl
    | true => exact absurd (h ▸ sound.keeps _ worker hpresent) himpossible
  have honly := guarded.held submitting worker.claim hissued hid phase token hrecovering
  refine ⟨fun htouched => ?_, fun other hbusy => ?_⟩
  · exact himpossible (honly.aware (called.touched _ htouched) worker hpresent)
  · rcases called.back hbusy with hold | ⟨claim', hreply, -, -⟩
    · have hother := honly.alone other hold
      subst hother
      obtain ⟨worker', hpresent', -, hbusy'⟩ := hbusy
      exact hbusy' (hidle worker' hpresent')
    · obtain ⟨locked, phase', leaseFor, rfl⟩ := sound.run.claims_of_reply hreply
      cases presents

/-- What is quiet stays quiet while nobody claims it. -/
theorem quiet (called : World.Called codec w w' call clock) {o : OperationRow} (h : w.Quiet o)
    (unclaimed : ∀ claim, (exec codec clock w.db call).1 = .claimedOperation (some claim) →
      claim.operation.id ≠ o.id) : w'.Quiet o := by
  refine ⟨fun htouched => h.untouched (called.touched _ htouched), fun token hbusy => ?_⟩
  rcases called.back hbusy with hold | ⟨claim, hreply, hclaim, -⟩
  · exact h.unworked token hold
  · exact unclaimed claim hreply hclaim

/-- An operation that a call leaves as it was stays guarded. -/
theorem guarded_of_same (called : World.Called codec w w' call clock) (sound : w.Sound codec)
    {o o' : OperationRow} (guarded : w.Guarded o) (row : o'.essence = o.essence)
    (unclaimed : ∀ claim, (exec codec clock w.db call).1 = .claimedOperation (some claim) →
      claim.operation.id ≠ o.id) : w'.Guarded o' := by
  obtain ⟨hid, -, heffect, hstatus, -, -, hjob, htoken⟩ := OperationRow.essence_eq row
  have hkey : o'.gatewayIdempotencyKey = o.gatewayIdempotencyKey :=
    congrArg (·.gatewayIdempotencyKey) heffect
  have hquiet (h : w.Quiet o) : w'.Quiet o' := (called.quiet h unclaimed).of_effect heffect
  refine ⟨fun h => hquiet (guarded.pending (hstatus ▸ h)), ?_,
    fun h hnone => hquiet (guarded.ended (hstatus ▸ h) (hjob ▸ hnone))⟩
  intro hsubmitting claim hclaim hclaimId hphase hlease hrecovering
  rw [called.trace, operationClaims_concat] at hclaim
  rcases List.mem_append.mp hclaim with hold | hnew
  · have honly := guarded.held (hstatus ▸ hsubmitting) claim hold (hid ▸ hclaimId) hphase
      (htoken ▸ hlease) hrecovering
    refine ⟨fun token hbusy => ?_, fun htouched worker' hpresent => ?_⟩
    · rw [hid] at hbusy
      rcases called.back hbusy with hold | ⟨claim', hreply, hclaim, -⟩
      · exact honly.alone token hold
      · exact absurd hclaim (unclaimed claim' hreply)
    · rcases called.workers _ worker' hpresent with
        ⟨worker, hworker, -, -, hkeeps⟩ | ⟨claim', hreply, htoken', -, -⟩
      · exact hkeeps true (honly.aware (called.touched _ (hkey ▸ htouched)) worker hworker)
      · have hold := sound.run.registered.operationTokens claim hold
        rw [htoken', sound.run.claimed_token hreply] at hold
        exact absurd hold (Nat.lt_irrefl _)
  · have hreply := issuedOperationClaim_reply.mp (Option.mem_toList.mp hnew)
    exact absurd (hid ▸ hclaimId) (unclaimed claim hreply)

/-- The operation that a call claims: it was pending, and then the new worker is the only one, or
the claim recovers an earlier submission. -/
theorem guarded_of_claimed (called : World.Called codec w w' call clock) (sound : w.Sound codec)
    {o o' : OperationRow} (guarded : w.Guarded o) {claim : ClaimedOperation}
    (reply : (exec codec clock w.db call).1 = .claimedOperation (some claim))
    {phase : OperationPhase} (eligible : phase.eligible o = true)
    (issued : o.IssuedAs w.db.nextUuid phase claim) {lease : Lease}
    (token : lease.token = w.db.nextUuid) (row : o' = o.claimed lease) : w'.Guarded o' := by
  have hopen := OperationStep.eligible_status eligible
  have hnotPending : o'.status ≠ .pending := by
    rw [row]
    rcases hopen with h | h | h <;> simp [OperationRow.claimed, h]
  have hnotEnded : o'.status.terminal = false := by
    rw [row]
    rcases hopen with h | h | h <;> simp [OperationRow.claimed, h, OperationStatus.terminal]
  refine ⟨fun h => absurd h hnotPending, ?_, fun h => by rw [hnotEnded] at h; cases h⟩
  intro hsubmitting claim' hclaim' hid hphase hlease hrecovering
  have htoken' : claim'.leaseToken = w.db.nextUuid := by
    rw [row] at hlease
    exact (Option.some.inj hlease).symm.trans token
  have hsame : claim' = claim := by
    rw [called.trace, operationClaims_concat] at hclaim'
    rcases List.mem_append.mp hclaim' with hold | hnew
    · have := sound.run.registered.operationTokens claim' hold
      rw [htoken'] at this
      exact absurd this (Nat.lt_irrefl _)
    · have hreply := issuedOperationClaim_reply.mp (Option.mem_toList.mp hnew)
      rw [reply] at hreply
      cases hreply
      rfl
  subst hsame
  -- The claim recovers nothing, so the operation was pending when it was taken.
  have hpending : o.status = .pending := by
    have hnot : o.status ≠ .submitting := by
      rw [issued.recovering] at hrecovering
      exact of_decide_eq_false hrecovering
    rcases hopen with h | h | h
    · exact h
    · exact absurd h hnot
    · rw [row] at hsubmitting
      simp [OperationRow.claimed, h] at hsubmitting
  have hquiet := guarded.pending hpending
  refine ⟨fun token hbusy => ?_, fun htouched => ?_⟩
  · rw [row] at hbusy
    rcases called.back hbusy with hold | ⟨claim, hreply, -, htoken⟩
    · exact absurd hold (hquiet.unworked token)
    · rw [htoken, htoken', sound.run.claimed_token hreply]
  · rw [row] at htouched
    exact absurd (called.touched _ htouched) hquiet.untouched

/-- A call keeps every operation guarded. -/
theorem guarded_step (called : World.Called codec w w' call clock) (sound : w.Sound codec)
    (safe : World.NoRecoveringDeferral w'.trace) {s s' : Session} (hs : s ∈ w.db.sessions)
    {o o' : OperationRow} (ho : o ∈ s.operations) (kind : o.kind = .llm ∨ o.kind = .execution)
    (unclaimed : ∀ claim, (exec codec clock w.db call).1 = .claimedOperation (some claim) →
      claim.operation.id ≠ o.id)
    (step : OperationStep w.db.nextUuid call (exec codec clock w.db call).1 (s.ledger.view o)
      (s'.ledger.view o')) : w'.Guarded o' := by
  have hguarded := sound.guarded s hs o ho kind
  have hsound := (sound.run.ledgerInvariant hs).sound.views o ho
  generalize hv : s.ledger.view o = v at step hsound
  generalize hv' : s'.ledger.view o' = v' at step
  have hrow : v.row = o := by rw [← hv]; rfl
  have hrow' : v'.row = o' := by rw [← hv']; rfl
  have hphase {claim : ClaimedOperation} (presents : call.operationClaim = some claim)
      (hid : claim.operation.id = v.row.id) :
      claim.phase = .submission ∨ claim.phase = .resultRetrieval :=
    phase sound (called.admissible.operation claim presents) hs ho kind (hrow ▸ hid)
  have heffect : o'.effect = o.effect := by
    rw [← hrow, ← hrow']
    exact step.effect
  generalize hreply : (exec codec clock w.db call).1 = reply at step
  cases step with
  | same row running announced =>
    rw [hrow, hrow'] at row
    exact called.guarded_of_same sound hguarded row unclaimed
  | claimed lease eligible token issued =>
    obtain ⟨lease', sessionId, hrecord⟩ := issued.record
    refine absurd ?_ (unclaimed _ hreply)
    rw [hrecord, ← hrow]
    rfl
  | @deferred claim retryAt v held phase submitting =>
    have hsubmission : claim.phase = .submission := by
      rcases hphase rfl held.id with h | h
      · exact h
      · rcases phase with h' | h' <;> cases h.symm.trans h'
    have hquiet : w'.Quiet o := called.quiet_of_given_up sound hguarded (hrow ▸ submitting) rfl
      hsubmission (hrow ▸ held.id) (hrow ▸ held.token) (fun _ h => by cases h) rfl fun _ =>
        safe _ (called.trace ▸ List.mem_append_right _ (List.mem_singleton.mpr rfl)) claim retryAt
          rfl hreply hsubmission
    refine (hquiet.of_effect heffect).guarded ?_
    rw [← hrow']
    intro h
    cases h
  | accepted now held phase submitting unmapped => exact .of_open (.inl (by rw [← hrow']))
  | @retried claim uncertain retryAt httpStatus error v status held next =>
    have hstatus : o'.status = status := by rw [← hrow']
    have hfree : o'.lease = none := by rw [← hrow']
    rcases OperationStep.retryStatus_some next with ⟨hsubmitting, rfl | rfl⟩ | ⟨-, rfl⟩
    · exact .of_open (.inr ⟨hstatus, hfree⟩)
    · -- The retry is certain, so the worker knows of no job.
      have hcertain : claim.phase = .submission ∧ uncertain = false := by
        rcases hphase rfl held.id with h | h
        · rw [h, hsubmitting] at next
          exact ⟨h, by cases uncertain <;> simp_all [retryStatus]⟩
        · rw [h, hsubmitting] at next
          cases next
      have hquiet : w'.Quiet o := called.quiet_of_given_up sound hguarded (hrow ▸ hsubmitting) rfl
        hcertain.1 (hrow ▸ held.id) (hrow ▸ held.token) (fun _ h => by cases h) hcertain.2 fun h => by cases h
      refine (hquiet.of_effect heffect).guarded ?_
      rw [hstatus]
      intro h
      cases h
    · exact .of_open (.inl hstatus)
  | pendingResult held accepted => exact .of_open (.inl (by rw [← hrow']; exact accepted))
  | @completed claim status result error expiresAt httpStatus reply v now held terminal allowed =>
    have hstatus : o'.status = status := by rw [← hrow']
    have hnotSubmitting : o'.status ≠ .submitting := by
      rw [hstatus]
      rintro rfl
      cases terminal
    rcases hphase rfl held.id with h | h
    · have hsubmitting : v.row.status = .submitting := by
        rw [h] at allowed
        simp only [completionAllowed, OperationRow.lock, Bool.and_eq_true,
          decide_eq_true_eq] at allowed
        exact of_decide_eq_true allowed.1.1
      have hquiet : w'.Quiet o := called.quiet_of_given_up sound hguarded (hrow ▸ hsubmitting) rfl h
        (hrow ▸ held.id) (hrow ▸ held.token) (fun _ h => by cases h) rfl fun h => by cases h
      exact (hquiet.of_effect heffect).guarded hnotSubmitting
    · -- A retrieved result ends an accepted operation, which has its job.
      have haccepted : v.row.status = .accepted := by
        rw [h] at allowed
        exact of_decide_eq_true allowed
      obtain ⟨jobId, hjob⟩ := Option.isSome_iff_exists.mp (hsound.accepted haccepted)
      have hmapped : o'.gatewayJobId = some jobId := by
        rw [← hrow']
        exact hjob
      refine ⟨fun h' => ?_, fun h' => absurd h' hnotSubmitting, fun _ hnone => ?_⟩
      · rw [hstatus] at h'
        rw [h'] at terminal
        cases terminal
      · rw [hmapped] at hnone
        cases hnone
  | withdrew now withdrawn held isWithdraw submitting =>
    rw [hrow] at isWithdraw
    rcases kind with h | h <;> cases h.symm.trans isWithdraw
  | withdrawn now target withdrawable =>
    have hpending : o.status = .pending := by
      rw [hrow] at withdrawable
      simp only [OperationRow.withdrawable, Bool.and_eq_true, decide_eq_true_eq] at withdrawable
      exact withdrawable.1
    refine ((called.quiet (hguarded.pending hpending) unclaimed).of_effect heffect).guarded ?_
    rw [← hrow']
    intro h
    cases h

/-- A call keeps the world sound while no recovering submission is deferred. -/
theorem sound (called : World.Called codec w w' call clock) (h : w.Sound codec)
    (safe : World.NoRecoveringDeferral w'.trace) : w'.Sound codec where
  run := by
    rw [called.trace, called.db]
    exact h.run.step call clock called.admissible
  issued token worker' hpresent := by
    rw [called.trace, operationClaims_concat]
    rcases called.workers token worker' hpresent with
      ⟨worker, hworker, hclaim, -, -⟩ | ⟨claim, hreply, htoken, hclaim, -⟩
    · obtain ⟨htoken, hissued⟩ := h.issued token worker hworker
      exact ⟨hclaim ▸ htoken, List.mem_append_left _ (hclaim ▸ hissued)⟩
    · refine ⟨by rw [htoken, hclaim], List.mem_append_right _ ?_⟩
      rw [hclaim]
      exact Option.mem_toList.mpr (issuedOperationClaim_reply.mpr hreply)
  keeps token worker' hpresent := by
    rcases called.workers token worker' hpresent with
      ⟨worker, hworker, hclaim, -, hkeeps⟩ | ⟨claim, -, -, hclaim, hkeeps⟩
    · rw [hclaim]
      exact hkeeps _ (h.keeps token worker hworker)
    · rw [hclaim]
      exact hkeeps
  keys key htouched := by
    obtain ⟨claim, hclaim, hkey⟩ := h.keys key (called.touched key htouched)
    rw [called.trace, operationClaims_concat]
    exact ⟨claim, List.mem_append_left _ hclaim, hkey⟩
  guarded s' hs' o' ho' kind := by
    obtain ⟨owner, hsteps⟩ := h.run.operations_step called.admissible clock
    have hrun := h.run.step call clock called.admissible
    rw [called.db] at hs'
    rcases hsteps.back s' hs' o' ho' with ⟨s, hs, -, o, ho, hstep⟩ | ⟨-, hfresh, hnew⟩
    · have hkind : o.kind = o'.kind := (congrArg (·.kind) hstep.effect).symm
      by_cases hclaims : ∃ claim, (exec codec clock w.db call).1 = .claimedOperation (some claim) ∧
          claim.operation.id = o.id
      · obtain ⟨claim, hreply, hid⟩ := hclaims
        obtain ⟨locked, phase, leaseFor, rfl⟩ := h.run.claims_of_reply hreply
        obtain ⟨t, ht, o₀, ho₀, heligible, hissued, t', ht', lease, htoken, hin⟩ :=
          h.run.claimed_operation hreply
        obtain ⟨lease', sessionId, hrecord⟩ := hissued.record
        have hsame : o₀ = o :=
          h.run.operation_unique ht hs ho₀ ho (by rw [← hid, hrecord]; rfl)
        subst hsame
        exact called.guarded_of_claimed h (h.guarded s hs o₀ ho (hkind ▸ kind)) hreply heligible
          hissued htoken (hrun.operation_unique hs' ht' ho' hin hstep.id_eq)
      · exact called.guarded_step h safe hs ho (hkind ▸ kind)
          (fun claim hreply hid => hclaims ⟨claim, hreply, hid⟩) hstep
    · -- A new operation has an id that no claim and no key names yet.
      have hquiet : w'.Quiet o' := by
        refine ⟨fun htouched => ?_, fun token hbusy => ?_⟩
        · obtain ⟨claim, hclaim, hkey⟩ := h.keys _ (called.touched _ htouched)
          obtain ⟨s, hs, o, ho, hid, -, -⟩ := h.run.claim_operation hclaim
          rw [h.run.claim_key hclaim, hfresh.key, ← hid] at hkey
          exact hnew s hs o ho (Uuid.toText_injective hkey)
        · rcases called.back hbusy with ⟨worker, hpresent, hid, -⟩ | ⟨claim, hreply, hid, -⟩
          · obtain ⟨s, hs, o, ho, hid', -, -⟩ :=
              h.run.claim_operation (h.issued token worker hpresent).2
            exact hnew s hs o ho (hid'.trans hid)
          · obtain ⟨locked, phase, leaseFor, rfl⟩ := h.run.claims_of_reply hreply
            obtain ⟨t, ht, o₀, ho₀, -, hissued, -⟩ := h.run.claimed_operation hreply
            obtain ⟨lease', sessionId, hrecord⟩ := hissued.record
            refine hnew t ht o₀ ho₀ ?_
            rw [← hid, hrecord]
            rfl
      refine hquiet.guarded ?_
      rw [hfresh.status]
      nofun

end World.Called

end

end AgentPlatform.Runtime
