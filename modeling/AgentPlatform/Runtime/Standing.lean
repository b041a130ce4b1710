import AgentPlatform.Harness.Completions
import AgentPlatform.Harness.Contexts
import AgentPlatform.Runtime.Deployment
import AgentPlatform.Runtime.Withdrawals
import AgentPlatform.Store.RequestBook

/-!
# What a stored session stands for

The tables of a session of the basic Codex harness stand for a session of the harness: its state, its
history, the operations that it staged, and the outcomes that were delivered to it. The commit of an
outcome delivers one more stimulus to the harness's session, which is what the event that was handled
brings; no other call changes what the tables stand for.
-/

namespace AgentPlatform.Runtime

open Json Store
open Harness (Stimulus Delivery allowedFor)

/-! ## Outcomes that are told -/

section

variable {Time : Type} {reading : JobReading Time} {runtime : CompletionRuntime Time}
  {dispatcher : OperationDispatcher} {trace : List Entry} {o : OperationRow}
  {outcome : OperationOutcome}

theorem JobWire.Tells.allowed {wire : JobWire} {kind : OperationKind}
    (h : wire.Tells reading kind outcome) : allowedFor kind outcome = true := by
  cases h with
  | assistantResponse | executionResponse | answered | cancelled | unknown => rfl
  | failed => cases kind <;> rfl

/-- What ends an operation is an outcome of its kind. -/
theorem Told.allowed (h : Told runtime dispatcher trace o outcome) :
    allowedFor o.kind outcome = true := by
  cases h with
  | retrieved issued own hears retrieved connection job tells => exact tells.allowed
  | @failed _ _ failure _ _ issued own hears source =>
    simp [allowedFor, Harness.succeedsAs, Harness.Cancellation.failureOf, source.alone]
  | cancellation issued own hears kind =>
    rw [kind]
    rfl
  | withdrawal issued own kind =>
    rw [kind]
    rfl
  | withdrawn issued target =>
    cases o.kind <;> rfl

/-- An operation that ended as a confirmed withdrawal has withdrawn its target. -/
theorem Ended.withdraws (h : Ended runtime dispatcher trace o (.succeeded (.withdraw true))) :
    Withdraws runtime.reading o := by
  have hstatus : o.status = .succeeded := by
    have hword := h.holds.status
    cases hs : o.status <;> rw [hs] at hword <;> first | rfl | exact absurd hword (by decide)
  have hreads := h.holds.reads (o.record 0) rfl rfl rfl rfl
  simp only [JobReading.outcome, OperationRow.record, hstatus, JobReading.parseResult] at hreads
  refine ⟨(h.holds.kind _ rfl).symm, hstatus, ?_⟩
  cases hresult : o.result with
  | none =>
    rw [hresult] at hreads
    cases hreads
  | some text =>
    rw [hresult] at hreads
    refine ⟨text, rfl, ?_⟩
    cases hdecode : runtime.reading.decodeResult text with
    | error error =>
      simp only [hdecode] at hreads
      cases hreads
    | ok result =>
      simp only [hdecode] at hreads
      cases hreads
      rfl

end

/-! ## Completions in their order -/

section

variable {codec : Codec} {trace : List Entry} {db : Db} {s : Session} {n : Nat} {e : EventContent}

/-- The operations whose completions are among the first events. -/
def completedBefore (s : Session) (n : Nat) : List (Option OperationId) :=
  ((s.contents.take n).filterMap (·.completion)).map (·.1)

theorem completedBefore_succ (place : s.contents[n]? = some e) :
    completedBefore s (n + 1) =
      completedBefore s n ++ (e.completion.map (·.1)).toList := by
  rw [completedBefore, List.take_add_one, place, List.filterMap_append, List.map_append]
  cases h : e.completion <;> simp [completedBefore, h]

theorem completions_split (place : s.contents[n]? = some e) :
    ∃ rest, s.completions =
      (s.contents.take n).filterMap (·.completion) ++ (e.completion.toList ++ rest) := by
  refine ⟨(s.contents.drop (n + 1)).filterMap (·.completion), ?_⟩
  have hsplit : s.contents = s.contents.take n ++ e :: s.contents.drop (n + 1) := by
    obtain ⟨hlt, hget⟩ := List.getElem?_eq_some_iff.mp place
    rw [← hget, List.getElem_cons_drop, List.take_append_drop]
  rw [s.completions_contents]
  conv_lhs => rw [hsplit]
  rw [List.filterMap_append]
  cases h : e.completion <;> simp [h]

/-- The operation of a completion ended as it says, and was not announced before. -/
theorem completion_place (run : Run codec trace db) (hs : s ∈ db.sessions)
    (place : s.contents[n]? = some e) (completes : e.eventType = .operationCompleted) :
    ∃ o ∈ s.operations, e.operationId = some o.id ∧ o.status.terminal = true ∧
      e.payload = operationPayload o.id o.kind o.status ∧ some o.id ∉ completedBefore s n := by
  have hsound := (run.ledgerInvariant hs).sound
  obtain ⟨rest, hsplit⟩ := completions_split place
  have hcompletion : e.completion = some (e.operationId, e.payload) := if_pos completes
  rw [hcompletion] at hsplit
  have hmem : (e.operationId, e.payload) ∈ s.ledger.completions := by
    rw [show s.ledger.completions = s.completions from rfl, hsplit]
    simp
  obtain ⟨o, ho, hid⟩ := hsound.owned _ hmem
  have hannounced := (hsound.views o ho).announced
  have hall : (s.ledger.view o).announced = s.completions.filterMap (Ledger.announces o.id) := rfl
  have hself : Ledger.announces o.id (e.operationId, e.payload) = some e.payload := if_pos hid
  rw [hall, hsplit] at hannounced
  simp only [Option.toList_some, List.filterMap_append, List.filterMap_cons, hself,
    List.singleton_append] at hannounced
  have hended : o.status.terminal = true := by
    by_contra hworking
    rw [show (s.ledger.view o).row.status = o.status from rfl, if_neg hworking] at hannounced
    simp at hannounced
  rw [show (s.ledger.view o).row = o from rfl, if_pos hended, List.append_eq_singleton_iff]
    at hannounced
  rcases hannounced with ⟨hbefore, hnow⟩ | ⟨-, hnone⟩
  · refine ⟨o, ho, hid, hended, (List.cons.inj hnow).1, fun hin => ?_⟩
    obtain ⟨c, hc, hcid⟩ := List.mem_map.mp hin
    have hlisted : c.2 ∈ ((s.contents.take n).filterMap (·.completion)).filterMap
        (Ledger.announces o.id) :=
      List.mem_filterMap.mpr ⟨c, hc, if_pos hcid⟩
    rw [hbefore] at hlisted
    cases hlisted
  · cases hnone

/-- What is announced before a completion is among the completions before it. -/
theorem before_place {before : List (Option OperationId × RawJson)} {id : OperationId}
    (place : s.contents[n]? = some e) (completes : e.eventType = .operationCompleted)
    (own : e.operationId = some id) (listed : before <+: s.completions)
    (absent : some id ∉ before.map (·.1)) {x : Option OperationId} (hx : x ∈ before.map (·.1)) :
    x ∈ completedBefore s n := by
  obtain ⟨rest, hsplit⟩ := completions_split place
  have hcompletion : e.completion = some (e.operationId, e.payload) := if_pos completes
  have hpast : (s.contents.take n).filterMap (·.completion) ++ [(e.operationId, e.payload)] <+:
      s.completions := by
    rw [hsplit, hcompletion, Option.toList_some, ← List.append_assoc]
    exact List.prefix_append _ _
  have hshorter : before <+: (s.contents.take n).filterMap (·.completion) := by
    rcases List.prefix_or_prefix_of_prefix listed hpast with hshort | hlong
    · rcases List.prefix_concat_iff.mp hshort with rfl | hshort
      · exact absurd (by simp [own]) absent
      · exact hshort
    · have hin : (e.operationId, e.payload) ∈ before := hlong.subset (by simp)
      exact absurd (own ▸ List.mem_map_of_mem hin) absent
  exact (hshorter.map _).subset hx

end

/-! ## What a stored session stands for -/

/-- What was staged, apart from the event that it was staged for. -/
def unsourced (effect : OperationEffect) : OperationEffect := { effect with sourceEventId := 0 }

/-- The operation ended, and the harness reads the outcome of it. -/
def Finished (reading : JobReading Timestamp) (s : Session) (id : OperationId)
    (outcome : OperationOutcome) : Prop :=
  ∃ o ∈ s.operations, o.id = id ∧ o.status.terminal = true ∧
    reading.outcome (o.record s.id) = .ok (some outcome)

/-- The stored session `s` stands for the session `t` of the harness. -/
structure Stands (d : Deployment) (codec : Codec) (s : Session) (t : Harness.Session) : Prop where
  id : t.id = s.id
  state : d.states.encode t.state = .ok s.state
  status : t.status = s.status
  supply : t.nextId = d.supply s.id s.stateVersion
  history : s.effects.history.map (·.message) = t.history.map d.preparation.messageText
  end_history : s.nextHistorySequence = t.history.length + 1
  staged : s.effects.operations.map unsourced =
    t.staged.map fun x => (d.preparation.newOperation x).effect codec 0
  requests : ∀ r ∈ s.requestShelf.requests, ∃ x ∈ t.staged,
    r = (x.id, (d.preparation.newOperation x).request)
  /-- The completions that were delivered are those among the handled events. -/
  delivered : t.completed.map (fun c => some c.1) = completedBefore s s.stateVersion
  outcomes : ∀ c ∈ t.completed, Finished d.runtime.reading s c.1 c.2

section

variable {d : Deployment} {codec : Codec} {trace : List Entry} {db : Db} {s s' : Session}
  {t : Harness.Session}

/-- A staged operation has its row. -/
theorem Stands.row (h : Stands d codec s t) {x : StagedOperation} (hx : x ∈ t.staged) :
    ∃ o ∈ s.operations, unsourced o.effect = (d.preparation.newOperation x).effect codec 0 := by
  have hmem : (d.preparation.newOperation x).effect codec 0 ∈ s.effects.operations.map unsourced := by
    rw [h.staged]
    exact List.mem_map_of_mem hx
  obtain ⟨effect, heffect, hsame⟩ := List.mem_map.mp hmem
  obtain ⟨o, ho, rfl⟩ := List.mem_map.mp heffect
  exact ⟨o, ho, hsame⟩

/-- A row is of a staged operation. -/
theorem Stands.of_row (h : Stands d codec s t) {o : OperationRow} (ho : o ∈ s.operations) :
    ∃ x ∈ t.staged, unsourced o.effect = (d.preparation.newOperation x).effect codec 0 := by
  have hmem : unsourced o.effect ∈
      t.staged.map fun x => (d.preparation.newOperation x).effect codec 0 := by
    rw [← h.staged]
    exact List.mem_map_of_mem (List.mem_map_of_mem ho)
  obtain ⟨x, hx, hsame⟩ := List.mem_map.mp hmem
  exact ⟨x, hx, hsame.symm⟩

/-- The completions among the handled events stay the same while events are added. -/
theorem completedBefore_of_prefix {n : Nat} (contents : s.contents <+: s'.contents)
    (within : n ≤ s.contents.length) : completedBefore s' n = completedBefore s n := by
  obtain ⟨added, hadded⟩ := contents
  rw [completedBefore, ← hadded, List.take_append_of_le_length within, completedBefore]

theorem version_within (run : Run codec trace db) (hs : s ∈ db.sessions) :
    s.stateVersion ≤ s.contents.length := by
  obtain ⟨q, hrepresents, -⟩ := (run.inboxInvariant hs).queue
  have hids : s.events.map (·.id) = q.items := hrepresents.ids
  have hversion : s.stateVersion = q.done.length := hrepresents.version
  have hlength : s.contents.length = q.items.length := by
    rw [← hids, List.length_map, Session.contents, List.length_map]
  rw [hversion, hlength, FencedQueue.items, List.length_append, List.length_map]
  exact Nat.le_add_right _ _

/-- What has ended reads the same after a call. -/
theorem finished_step {call : StoreCall} {clock : Clock} (run : Run codec trace db)
    (admissible : Admissible trace call) (hs : s ∈ db.sessions)
    (hs' : s' ∈ (exec codec clock db call).2.sessions) (same : s'.id = s.id)
    {reading : JobReading Timestamp} {id : OperationId} {outcome : OperationOutcome}
    (finished : Finished reading s id outcome) : Finished reading s' id outcome := by
  obtain ⟨o, ho, rfl, hended, hreads⟩ := finished
  obtain ⟨u, hu, hid, o', ho', hrecord⟩ :=
    ended_record (.step call clock .refl admissible) run hs ho hended
  have hunique := (Run.step call clock run admissible).registered.unique
  have hsame : u = s' := Table.eq_of_key hunique hu hs' (hid.trans same.symm)
  subst hsame
  refine ⟨o', ho', congrArg (·.id) hrecord, ?_, ?_⟩
  · have hstatus : o'.status = o.status := congrArg (·.status) hrecord
    rw [hstatus]
    exact hended
  · rw [hrecord]
    exact hreads

/-! ### The stimulus of an event -/

/-- The event brings the stimulus to the session. -/
structure Brings (d : Deployment) (s : Session) (t : Harness.Session) (event : SessionEvent)
    (context : Harness.HarnessContext) (stimulus : Stimulus) : Prop where
  admitted : t.admits stimulus = true
  kind : ∀ delivery : Delivery, delivery.stimulus = stimulus → (t.event delivery).kind = event.kind
  reads : context.ReadsAs event (t.context stimulus)
  delivered : (t.outcomes stimulus).map (fun c => some c.1) = completedBefore s (s.stateVersion + 1)
  outcomes : ∀ c ∈ t.outcomes stimulus, Finished d.runtime.reading s c.1 c.2

section

variable {e : EventContent} {event : SessionEvent} {context : Harness.HarnessContext}

/-- An event that is no completion. -/
theorem Stands.brings_other (h : Stands d codec s t) (place : s.contents[s.stateVersion]? = some e)
    (other : e.eventType ≠ .operationCompleted)
    (history : context.historyThroughSequence = s.nextHistorySequence - 1)
    (kind : ∀ id kind status, event.kind ≠ .operationCompleted id kind status) :
    ∃ stimulus, Brings d s t event context stimulus := by
  have hnone : e.completion = none := if_neg other
  have hdelivered : t.completed.map (fun c => some c.1) = completedBefore s (s.stateVersion + 1) := by
    rw [completedBefore_succ place, hnone, h.delivered]
    simp
  have hreads (stimulus : Stimulus) : context.ReadsAs event (t.context stimulus) := by
    refine ⟨?_, fun id k status hkind => absurd hkind (kind id k status)⟩
    rw [history, h.end_history, Nat.add_sub_cancel]
    rfl
  cases hkind : event.kind with
  | userMessage message =>
    refine ⟨.userMessage message, rfl, fun delivery hstimulus => ?_, hreads _, hdelivered, h.outcomes⟩
    rw [Harness.Session.event, hstimulus, hkind]
  | cancellationRequested reason =>
    refine ⟨.cancellationRequested reason, rfl, fun delivery hstimulus => ?_, hreads _, hdelivered,
      h.outcomes⟩
    rw [Harness.Session.event, hstimulus, hkind]
  | waitResumed waitId reason =>
    refine ⟨.waitResumed waitId reason, rfl, fun delivery hstimulus => ?_, hreads _, hdelivered,
      h.outcomes⟩
    rw [Harness.Session.event, hstimulus, hkind]
  | operationCompleted id k status => exact absurd hkind (kind id k status)

/-- The record that a reader of the store finds. -/
theorem readOperation_eq (run : Run codec trace db) (hs : s ∈ db.sessions) {o : OperationRow}
    (ho : o ∈ s.operations) : readOperation db s.id o.id = some (o.record s.id) := by
  have hsession : db.sessions.find? (·.id = s.id) = some s :=
    Table.lookup_eq_some run.registered.unique hs
  have hrow : s.operations.find? (·.id = o.id) = some o :=
    Table.lookup_eq_some (run.ledgerInvariant hs).sound.unique ho
  rw [readOperation, hsession, Option.bind_some, hrow, Option.map_some]

/-- While a completion is handled, the handler reads of its operation how it ended. -/
theorem Deployment.Context.reads_completed {claimed : ClaimedEvent}
    (h : d.Context codec trace db claimed context) (run : Run codec trace db)
    (hs : s ∈ db.sessions) (own : claimed.session.id = s.id)
    (completes : claimed.event.eventType = .operationCompleted) {o : OperationRow}
    (ho : o ∈ s.operations) (announced : claimed.event.operationId = some o.id)
    {outcome : OperationOutcome}
    (reads : d.runtime.reading.outcome (o.record s.id) = .ok (some outcome))
    {record : Option Harness.OperationRecord} (answer : context.operation o.id = .ok record) :
    record = some { kind := o.kind, outcome := some outcome } := by
  obtain ⟨found, hanswer, hfound⟩ := h.operation o.id
  rw [hanswer] at answer
  cases found with
  | error error => cases answer
  | ok found =>
    obtain ⟨trace₀, db₀, hrun, hlater, hissued, hread⟩ := hfound found rfl
    obtain ⟨s₀, hs₀, hhanded⟩ := hrun.handedOut claimed hissued
    obtain ⟨o₀, ho₀, hid, hended, -⟩ := completion_place hrun hs₀ hhanded.place completes
    have hsame : o₀.id = o.id := Option.some.inj (hid.symm.trans announced)
    obtain ⟨u, hu, hsession, o', ho', hrecord⟩ := ended_record hlater hrun hs₀ ho₀ hended
    have hu' : u = s := by
      refine Table.eq_of_key run.registered.unique hu hs ?_
      rw [hsession, ← own, hhanded.id]
    subst hu'
    have hrow : o' = o := by
      refine run.operation_unique hu hs ho' ho ?_
      have hid' : o'.id = o₀.id := congrArg (·.id) hrecord
      rw [hid', hsame]
    subst hrow
    rw [hhanded.id, ← hsame, readOperation_eq hrun hs₀ ho₀, ← hrecord] at hread
    rw [hread] at answer
    simp only [contextOperation, JobReading.operation, reads] at answer
    cases answer
    rfl

/-- An operation that ended is read by a handler that reads at once. -/
theorem Finished.contextAt {claimed : ClaimedEvent} {id : OperationId} {outcome : OperationOutcome}
    (h : Finished d.runtime.reading s id outcome) (run : Run codec trace db)
    (hs : s ∈ db.sessions) (own : claimed.session.id = s.id) :
    ∃ record, (d.contextAt db claimed).operation id = .ok record := by
  obtain ⟨o, ho, rfl, -, hreads⟩ := h
  refine ⟨some { kind := o.kind, outcome := some outcome }, ?_⟩
  simp only [Deployment.contextAt, own, readOperation_eq run hs ho, contextOperation,
    JobReading.operation, hreads]
  rfl

/-- A withdrawal may end as confirmed: its target's completion was delivered before. -/
theorem Stands.withdrew (h : Stands d codec s t) (run : Run codec trace db) (hs : s ∈ db.sessions)
    (place : s.contents[s.stateVersion]? = some e) (completes : e.eventType = .operationCompleted)
    {o : OperationRow} (ho : o ∈ s.operations) (own : e.operationId = some o.id)
    (withdraws : Withdraws d.runtime.reading o) {target : OperationId}
    (names : o.targetOperationId = some target) : t.endedCancelled target = true := by
  obtain ⟨row, hrow, hnames, hcancelled, before, hlisted, htold, habsent⟩ :=
    withdraws_withdrew run hs ho withdraws
  have htarget : target = row.id := Option.some.inj (names.symm.trans hnames)
  have hin : some row.id ∈ completedBefore s s.stateVersion :=
    before_place place completes own hlisted habsent htold
  rw [← h.delivered] at hin
  obtain ⟨c, hc, hcid⟩ := List.mem_map.mp hin
  obtain ⟨row', hrow', hid, -, hreads⟩ := h.outcomes c hc
  have hsame : row' = row :=
    run.operation_unique hs hs hrow' hrow (hid.trans (Option.some.inj hcid))
  subst hsame
  simp only [JobReading.outcome, OperationRow.record, show row'.status = .cancelled from hcancelled]
    at hreads
  have hcancel : c.2 = .cancelled := (Option.some.inj (Except.ok.inj hreads)).symm
  rw [Harness.Session.endedCancelled, List.any_eq_true]
  exact ⟨c, hc, by simp [htarget, Option.some.inj hcid, hcancel, OperationOutcome.status]⟩

/-- The row of a staged operation has its id, its kind and its target. -/
theorem row_of_effect {o : OperationRow} {x : StagedOperation}
    (same : unsourced o.effect = (d.preparation.newOperation x).effect codec 0) :
    o.id = x.id ∧ o.kind = x.request.kind ∧
      ∀ target, x.request = .withdraw target → o.targetOperationId = some target := by
  have htarget : o.targetOperationId = (d.preparation.newOperation x).targetOperationId :=
    congrArg OperationEffect.targetOperationId same
  refine ⟨congrArg OperationEffect.id same, congrArg OperationEffect.kind same, fun target hx => ?_⟩
  rw [htarget, OutcomePreparation.newOperation, hx]

/-- A completion brings the outcome that its operation ended with. -/
theorem Stands.brings_completion (h : Stands d codec s t) (documented : d.Documented)
    (runs : d.Runs codec trace db) (hs : s ∈ db.sessions) (numbered : t.Numbered)
    {claimed : ClaimedEvent} (handed : s.HandedOut claimed)
    (current : claimed.session.stateVersion = s.stateVersion)
    (hcontext : d.Context codec trace db claimed context)
    (completes : claimed.event.eventType = .operationCompleted)
    (decoded : fromStr (EventKind.readPayload d.codecs .operationCompleted)
      (Doc.ofRaw claimed.event.payload).text = some event.kind) :
    ∃ stimulus, Brings d s t event context stimulus := by
  have run := runs.run
  have hplace : s.contents[s.stateVersion]? = some claimed.event.content := current ▸ handed.place
  obtain ⟨o, ho, hid, hended, hpayload, hnew⟩ := completion_place run hs hplace completes
  obtain ⟨x, hx, heffect⟩ := h.of_row ho
  obtain ⟨hxid, hxkind, hxtarget⟩ := row_of_effect heffect
  rw [show claimed.event.payload = operationPayload o.id o.kind o.status from hpayload] at decoded
  obtain ⟨status, hstatus, hkind⟩ := readPayload_operationPayload (documented.uuidRead _) decoded
  obtain ⟨outcome, ends⟩ := ended_outcome documented.codecs run runs.served hs ho hended
  have hreads : d.runtime.reading.outcome (o.record s.id) = .ok (some outcome) :=
    ends.holds.reads (o.record s.id) rfl rfl rfl rfl
  have hsame : outcome.status = status := by
    have hword : OperationOutcomeStatus.ofStr outcome.status.asStr = some outcome.status := by
      cases outcome.status <;> rfl
    rw [ends.holds.status, hstatus] at hword
    exact (Option.some.inj hword).symm
  have hopen : t.isCompleted x.id = false := by
    rw [← Bool.not_eq_true, Harness.Session.isCompleted_iff]
    rintro ⟨outcome', hmem⟩
    refine hnew ?_
    rw [← h.delivered, hxid]
    exact List.mem_map.mpr ⟨_, hmem, rfl⟩
  have hmay : t.mayEnd x outcome = true := by
    rw [Harness.Session.mayEnd, ← hxkind, ends.told.allowed, Bool.true_and]
    cases hrequest : x.request with
    | llm | execution | llmCancellation => rfl
    | withdraw target =>
      dsimp only
      cases hconfirms : Harness.confirmsWithdrawal outcome with
      | false => rfl
      | true =>
        have hwithdrawn : outcome = .succeeded (.withdraw true) := by
          unfold Harness.confirmsWithdrawal at hconfirms
          split at hconfirms
          · rw [hconfirms]
          · cases hconfirms
        subst hwithdrawn
        exact h.withdrew run hs hplace completes ho hid ends.withdraws (hxtarget target hrequest)
  refine ⟨.completed x.id outcome,
    Harness.Session.admits_outstanding numbered (Harness.Session.mem_outstanding.mpr ⟨hx, hopen⟩) hmay,
    fun delivery hstimulus => ?_, ⟨?_, ?_⟩, ?_, ?_⟩
  · rw [Harness.Session.event, hstimulus, hkind, hxid, hxkind, ← hsame]
    simp [Harness.Session.kindOf, numbered.operation_eq hx]
  · rw [hcontext.history, (handed.current current).2.2, h.end_history, Nat.add_sub_cancel]
    rfl
  · intro id kind status' hcompleted record hrecord
    rw [hkind] at hcompleted
    cases hcompleted
    have hfound := hcontext.reads_completed run hs handed.id completes ho hid hreads hrecord
    have hfresh : t.completed.find? (·.1 == x.id) = none := by
      rw [List.find?_eq_none]
      intro c hc hcid
      rw [← Bool.not_eq_true, Harness.Session.isCompleted_iff] at hopen
      exact hopen ⟨c.2, by simpa [← beq_iff_eq.mp hcid] using hc⟩
    rw [hfound, hxid, hxkind]
    simp [Harness.Session.context, numbered.operation_eq hx, Harness.Session.outcomes, hfresh]
  · have hcompletion : claimed.event.content.completion =
        some (claimed.event.operationId, claimed.event.payload) := if_pos completes
    have hannounced : claimed.event.operationId = some x.id := hid.trans (congrArg some hxid)
    rw [completedBefore_succ hplace, hcompletion, ← h.delivered, hannounced]
    simp [Harness.Session.outcomes]
  · intro c hc
    rcases List.mem_append.mp hc with hold | hlast
    · exact h.outcomes c hold
    · rw [List.mem_singleton.mp hlast]
      exact ⟨o, ho, hxid, hended, hreads⟩

/-- The event is one that the harness's platform delivers the stimulus with. -/
theorem Brings.delivery {stimulus : Stimulus} (h : Brings d s t event context stimulus)
    (session : t.id = event.sessionId) (dated : event.date.isEmpty = false) :
    ∃ delivery : Delivery, delivery.stimulus = stimulus ∧ t.event delivery = event := by
  let delivery : Delivery :=
    { eventId := event.id, sequence := event.sequence, timestampMillis := event.timestampMillis
      date := event.date, stimulus, dated }
  have hkind := h.kind delivery rfl
  refine ⟨delivery, rfl, ?_⟩
  obtain ⟨id, sessionId, sequence, millis, date, kind⟩ := event
  exact (SessionEvent.mk.injEq ..).mpr ⟨rfl, session, rfl, rfl, rfl, hkind⟩

/-! ### One call -/

/-- Requests are added by the call that stages them. -/
theorem shelf_requests {ended : OperationId → Prop} {rows : List (OperationId × RawJson)}
    {b b' : RequestShelf} (step : b.Step ended rows b') {r : OperationId × RawJson}
    (hr : r ∈ b'.requests) : r ∈ b.requests ∨ r ∈ rows := by
  cases step with
  | same => exact .inl hr
  | removed id removedAt finished => exact .inl (List.mem_of_mem_filter hr)
  | staged rows distinct fresh => exact List.mem_append.mp hr

/-- Nothing was committed to the session. -/
structure Undisturbed (s s' : Session) : Prop where
  id : s'.id = s.id
  effects : s'.effects = s.effects
  subject : s'.subject = s.subject
  status : s'.status = s.status
  requests : ∀ r ∈ s'.requestShelf.requests, r ∈ s.requestShelf.requests
  contents : s.contents <+: s'.contents

theorem undisturbed_due (s : Session) (id : OperationId) {f : OperationRow → OperationRow}
    (due : ∀ o, ∃ next ≤ o.nextAttemptAt, f o = o.due next) :
    Undisturbed s (s.updateOperations (·.id = id) f) := by
  refine ⟨rfl, s.effects_updateOperations _ fun o => ?_, rfl, rfl, fun r hr => ?_, List.prefix_rfl⟩
  · obtain ⟨next, -, hf⟩ := due o
    rw [hf]
    rfl
  · rwa [s.requestShelf_due id due] at hr

theorem undisturbed_step {call : StoreCall} {clock : Clock} {reply : Reply}
    (step : SessionStep codec clock db call reply s s')
    (uncommitted : Entry.committed ⟨call, clock, reply⟩ = none)
    (unstaged : call.stagedRequests = []) : Undisturbed s s' := by
  have heffects := step.effects
  have hgoes := step.goesOn
  rw [uncommitted] at heffects
  refine ⟨step.id_eq, heffects, hgoes.subject, ?_, fun r hr => ?_, hgoes.contents⟩
  · rw [hgoes.status, Entry.statusAfter, uncommitted]
    rfl
  · rcases shelf_requests step.requestShelf hr with hold | hnew
    · exact hold
    · rw [unstaged] at hnew
      cases hnew

/-- A call that commits nothing leaves what the session stands for. -/
theorem Stands.undisturbed (h : Stands d codec s t) (same : Undisturbed s s')
    (within : s.stateVersion ≤ s.contents.length)
    (finished : ∀ id outcome, Finished d.runtime.reading s id outcome →
      Finished d.runtime.reading s' id outcome) : Stands d codec s' t := by
  have hversion : s'.stateVersion = s.stateVersion := congrArg (·.version) same.effects
  have hstate : s'.state = s.state := congrArg (·.state) same.effects
  have hnext : s'.nextHistorySequence = s.nextHistorySequence :=
    congrArg (·.nextHistorySequence) same.effects
  refine ⟨h.id.trans same.id.symm, hstate ▸ h.state, h.status.trans same.status.symm, ?_, ?_, ?_, ?_,
    fun r hr => h.requests r (same.requests r hr), ?_, fun c hc => finished _ _ (h.outcomes c hc)⟩
  · rw [same.id, hversion]
    exact h.supply
  · rw [same.effects]
    exact h.history
  · rw [hnext]
    exact h.end_history
  · rw [same.effects]
    exact h.staged
  · rw [hversion, completedBefore_of_prefix same.contents within]
    exact h.delivered

/-! ### A commit -/

theorem map_message_historyEffects (codec : Codec) (eventId : EventId) (sequence : HistorySequence)
    (entries : List NewHistoryEntry) :
    (historyEffects codec eventId sequence entries).map (·.message) = entries.map (·.message) := by
  induction entries generalizing sequence with
  | nil => rfl
  | cons entry entries ih => rw [historyEffects, List.map_cons, List.map_cons, ih]

/-- What an invocation leaves, committed, is what the harness's session becomes. -/
theorem Stands.after (h : Stands d codec s t) {clock : Clock} {claim : HandlerClaim}
    {commit : OutcomeCommit} {stimulus : Stimulus}
    {result : OutcomeBuilder Harness.BasicCodexState} {outcome : SerializedOutcome}
    (step : SessionStep codec clock db (.commitHandlerOutcome claim commit) .done s s')
    (left : SerializedOutcome.fromTyped d.states result.outcome = .ok outcome)
    (prepared : d.preparation.Prepared outcome commit)
    (used : d.supply s.id (s.stateVersion + 1) = result.nextId)
    (brings : Brings d s t event context stimulus) (within : s.stateVersion + 1 ≤ s.contents.length)
    (finished : ∀ id outcome, Finished d.runtime.reading s id outcome →
      Finished d.runtime.reading s' id outcome) :
    Stands d codec s' (t.after stimulus result) := by
  obtain ⟨hstate, hhistory, hoperations, -, -, -, hstatus⟩ := SerializedOutcome.fromTyped_ok left
  have heffects : s'.effects = s.effects.apply codec (claim, commit) := step.effects
  have hgoes := step.goesOn
  have hversion : s'.stateVersion = s.stateVersion + 1 := congrArg (·.version) heffects
  have hmessages : commit.history.map (·.message) =
      result.outcome.history.map d.preparation.messageText := by
    rw [prepared.history, hhistory]
  have hstaged : commit.operations = result.outcome.operations.map d.preparation.newOperation := by
    rw [prepared.operations, hoperations]
  refine ⟨h.id.trans step.id_eq.symm, ?_, ?_, ?_, ?_, ?_, ?_, fun r hr => ?_, ?_, fun c hc => ?_⟩
  · have hsaved : s'.state = commit.state := congrArg (·.state) heffects
    rw [hsaved, prepared.state]
    exact hstate
  · rw [hgoes.status]
    show result.outcome.status.getD t.status = commit.status.getD s.status
    rw [prepared.status, hstatus, h.status]
  · rw [step.id_eq, hversion, used]
    rfl
  · rw [heffects]
    show (_ ++ historyEffects codec claim.eventId s.nextHistorySequence commit.history).map _ =
      (t.history ++ result.outcome.history).map _
    rw [List.map_append, List.map_append, map_message_historyEffects, hmessages, h.history]
  · have hnext : s'.nextHistorySequence = s.nextHistorySequence + commit.history.length :=
      congrArg (·.nextHistorySequence) heffects
    have hlength : commit.history.length = result.outcome.history.length := by
      simpa using congrArg List.length hmessages
    show _ = (t.history ++ result.outcome.history).length + 1
    rw [hnext, h.end_history, hlength, List.length_append]
    omega
  · rw [heffects]
    show (_ ++ commit.operations.map (NewOperation.effect codec claim.eventId)).map unsourced =
      (t.staged ++ result.outcome.operations).map _
    rw [List.map_append, List.map_append, h.staged, hstaged, List.map_map, List.map_map]
    rfl
  · rcases shelf_requests step.requestShelf hr with hold | hnew
    · obtain ⟨x, hx, hrequest⟩ := h.requests r hold
      exact ⟨x, List.mem_append_left _ hx, hrequest⟩
    · rw [show (StoreCall.commitHandlerOutcome claim commit).stagedRequests =
        commit.operations.map fun o => (o.id, o.request) from rfl, hstaged, List.map_map] at hnew
      obtain ⟨x, hx, rfl⟩ := List.mem_map.mp hnew
      exact ⟨x, List.mem_append_right _ hx, rfl⟩
  · rw [hversion, completedBefore_of_prefix hgoes.contents within]
    exact brings.delivered
  · exact finished _ _ (brings.outcomes c hc)

theorem Deployment.Documented.uuid_writes (documented : d.Documented) (id : Uuid) :
    d.codecs.uuid.Writes id := by
  refine ⟨?_, ?_⟩
  · rw [documented.uuidText, documented.uuidRead]
  · rw [documented.uuidText]
    intro h
    cases h

/-- The event that was handed out brings its stimulus. -/
theorem Stands.brings (h : Stands d codec s t) (documented : d.Documented)
    (runs : d.Runs codec trace db) (hs : s ∈ db.sessions) (numbered : t.Numbered)
    {claimed : ClaimedEvent} (handed : s.HandedOut claimed)
    (current : claimed.session.stateVersion = s.stateVersion)
    (hcontext : d.Context codec trace db claimed context)
    (decoded : decodeEventRecord d.codecs d.eventError claimed.event = .ok event) :
    ∃ stimulus, Brings d s t event context stimulus := by
  obtain ⟨-, -, eventType, htype, hpayload⟩ :=
    decodeEventRecord_ok (documented.uuid_writes _) decoded
  have hplace : s.contents[s.stateVersion]? = some claimed.event.content := current ▸ handed.place
  by_cases hcompletes : claimed.event.eventType = .operationCompleted
  · rw [hcompletes] at htype
    cases htype
    exact h.brings_completion documented runs hs numbered handed current hcontext hcompletes hpayload
  · refine h.brings_other hplace hcompletes ?_ fun id kind status hkind => ?_
    · rw [hcontext.history, (handed.current current).2.2]
    · obtain ⟨doc, -, hread⟩ := Option.bind_eq_some_iff.mp hpayload
      have hsame := readPayload_eventType hread
      rw [hkind] at hsame
      subst hsame
      cases hstored : claimed.event.eventType with
      | operationCompleted => exact hcompletes hstored
      | userMessage | cancellationRequested | waitResumed =>
        rw [hstored] at htype
        cases htype

/-- A session of the basic Codex harness. -/
structure Basic (s : Session) : Prop where
  id : s.harnessId = harnessId
  version : s.harnessVersion = harnessVersion

theorem Basic.of_subject (h : Basic s) (same : s'.subject = s.subject) : Basic s' where
  id := (congrArg SessionSubject.harnessId same).trans h.id
  version := (congrArg SessionSubject.harnessVersion same).trans h.version

/-- A commit of the deployment delivers one more stimulus to the harness's session. -/
theorem Stands.commit (h : Stands d codec s t) (documented : d.Documented)
    (runs : d.Runs codec trace db) (hs : s ∈ db.sessions)
    (basic : Basic s)
    {config : Harness.BasicCodexConfig} (configured : d.configs.decode s.configuration = .ok config)
    (reach : t.Reachable (d.agent config)) {clock : Clock} {claim : HandlerClaim}
    {commit : OutcomeCommit}
    (step : SessionStep codec clock db (.commitHandlerOutcome claim commit) .done s s')
    (commits : d.Commits codec trace db claim commit .done)
    (finished : ∀ id outcome, Finished d.runtime.reading s id outcome →
      Finished d.runtime.reading s' id outcome) :
    ∃ delivery t', Harness.Session.Step (d.agent config) t delivery t' ∧ Stands d codec s' t' := by
  obtain ⟨claimed, hissued, rfl, event, outcome, harness, context, next, hdecoded, hregistry,
    hcontext, hhandle, hprepared, used⟩ := commits.earned
  have hversion : s.stateVersion = claimed.claim.inputStateVersion ∧ claimed.session.id = s.id := by
    cases step with
    | commitHandlerOutcome session hcommit =>
      obtain ⟨c⟩ := Session.commitHandlerOutcome_ok hcommit
      exact ⟨c.version, session⟩
  have current : claimed.session.stateVersion = s.stateVersion := hversion.1.symm
  have handed := runs.run.handedOut_session hissued hs hversion.2
  obtain ⟨hstate, -, hthrough⟩ := handed.current current
  have hid : claimed.session.harnessId = harnessId :=
    (congrArg SessionSubject.harnessId handed.subject).trans basic.id
  have hrelease : claimed.session.harnessVersion = harnessVersion :=
    (congrArg SessionSubject.harnessVersion handed.subject).trans basic.version
  have hconfiguration : claimed.session.configuration = s.configuration :=
    congrArg SessionSubject.configuration handed.subject
  rw [hid, hrelease, Deployment.registry_basicCodex] at hregistry
  cases hregistry
  obtain ⟨config', typed, result, hconfig, htyped, hresult, hleft, hnext⟩ :=
    d.adapter.handle_ok hhandle
  rw [hconfiguration] at hconfig
  obtain rfl : config' = config := Except.ok.inj (hconfig.symm.trans configured)
  rw [hstate] at htyped
  obtain rfl : typed = t.state := documented.states _ _ _ h.state htyped
  obtain ⟨hsession, hdated, -⟩ := decodeEventRecord_ok (documented.uuid_writes _) hdecoded
  have hkept := reach.kept
  obtain ⟨stimulus, brings⟩ :=
    h.brings documented runs hs hkept.numbered handed current hcontext hdecoded
  obtain ⟨delivery, rfl, hevent⟩ :=
    brings.delivery (h.id.trans (handed.event.symm.trans hsession.symm)) hdated
  rw [hversion.2, current, ← h.supply] at hresult
  have hinvoke : t.invoke (d.agent config') delivery = .ok result := by
    rw [Harness.Session.invoke, hevent]
    exact Harness.Handler.handle_readsAs brings.reads hresult
  refine ⟨delivery, t.after delivery.stimulus result, ⟨brings.admitted, result, hinvoke, rfl⟩, ?_⟩
  have hused : d.supply s.id (s.stateVersion + 1) = result.nextId := by
    rw [hnext, ← used rfl, hversion.2, current]
  have hwithin : s.stateVersion + 1 ≤ s.contents.length :=
    current ▸ (List.getElem?_eq_some_iff.mp handed.place).1
  exact h.after step hleft hprepared hused brings hwithin finished

end

end

end AgentPlatform.Runtime
