import AgentPlatform.Store.OperationSteps

/-!
# The ledger of a session

The operations of a session, their attempts and their completion events, and how each transaction
rewrites them: a record of one operation, a claim, or newly staged rows. Operations keep out of each
other's way: a lease token names the attempts of one operation only.
-/

namespace AgentPlatform.Store

structure Ledger where
  operations : List OperationRow
  attempts : List OperationAttemptRow
  completions : List (Option OperationId × RawJson)

def Session.ledger (s : Session) : Ledger where
  operations := s.operations
  attempts := s.operationAttempts
  completions := s.completions

theorem Session.ledger_of_sansUpdates {s s' : Session} (h : s'.sansUpdates = s.sansUpdates) :
    s'.ledger = s.ledger := by
  have : s'.sansUpdates.ledger = s.sansUpdates.ledger := congrArg Session.ledger h
  exact this

theorem Session.LeavesWork.ledger {s s' : Session} (h : s.LeavesWork s') : s'.ledger = s.ledger := by
  unfold Session.ledger
  rw [h.operations, h.operationAttempts, h.completions]

/-- A row as it is staged. -/
structure OperationRow.Fresh (o : OperationRow) : Prop where
  status : o.status = .pending
  lease : o.lease = none
  job : o.gatewayJobId = none
  key : o.gatewayIdempotencyKey = o.id.toText

namespace Ledger

/-! ## Reading one operation -/

/-- An attempt of operation `id` that runs. -/
def runs (id : OperationId) (a : OperationAttemptRow) : Bool :=
  a.operationId = id && a.status = .running

/-- The completion of operation `id`, if the pair is one. -/
def announces (id : OperationId) (c : Option OperationId × RawJson) : Option RawJson :=
  if c.1 = some id then some c.2 else none

/-- What the ledger records of an operation. -/
def view (l : Ledger) (o : OperationRow) : OperationView where
  row := o
  running := (l.attempts.filter (runs o.id)).map (·.leaseToken)
  announced := l.completions.filterMap (announces o.id)

/-! ## Rewriting one operation -/

/-- Rewrite operation `id`, end the attempts that `ends` selects, and announce completions. -/
def record (l : Ledger) (id : OperationId) (f : OperationRow → OperationRow)
    (ends : OperationAttemptRow → Bool) (g : OperationAttemptRow → OperationAttemptRow)
    (announced : List (Option OperationId × RawJson)) : Ledger where
  operations := Table.update (fun o => o.id = id) f l.operations
  attempts := Table.update ends g l.attempts
  completions := l.completions ++ announced

/-- A rewriting of an attempt row that ends it. -/
structure Finishes (g : OperationAttemptRow → OperationAttemptRow) : Prop where
  operation : ∀ a, (g a).operationId = a.operationId
  token : ∀ a, (g a).leaseToken = a.leaseToken
  status : ∀ a, (g a).status ≠ .running

theorem Finishes.runs {g : OperationAttemptRow → OperationAttemptRow} (h : Finishes g)
    (id : OperationId) (a : OperationAttemptRow) : Ledger.runs id (g a) = false := by
  simp [Ledger.runs, h.status a]

section

variable {l : Ledger} {id : OperationId} {f : OperationRow → OperationRow}
  {ends : OperationAttemptRow → Bool} {g : OperationAttemptRow → OperationAttemptRow}
  {announced : List (Option OperationId × RawJson)}

/-- Another operation reads the same after a record. -/
theorem view_record_other {o : OperationRow} (finishes : Finishes g) (ho : o.id ≠ id)
    (own : ∀ a ∈ l.attempts, ends a = true → a.operationId = id)
    (about : ∀ c ∈ announced, c.1 = some id) :
    (l.record id f ends g announced).view o = l.view o := by
  have hattempts : (Table.update ends g l.attempts).filter (runs o.id) =
      l.attempts.filter (runs o.id) := by
    refine Table.filter_update_of_not fun a ha hsel => ⟨?_, finishes.runs o.id a⟩
    simp [runs, own a ha hsel, ho.symm]
  have hannounced : announced.filterMap (announces o.id) = [] := by
    refine List.filterMap_eq_nil_iff.mpr fun c hc => ?_
    simp [announces, about c hc, ho.symm]
  simp only [view, record, hattempts, List.filterMap_append, hannounced, List.append_nil]

/-- The operation itself has the payloads announced, and no attempt running when all were ended. -/
theorem view_record_own {o : OperationRow} (keeps : (f o).id = o.id) (finishes : Finishes g)
    (all : ∀ a ∈ l.attempts, runs o.id a = true → ends a = true) (payloads : List RawJson) :
    (l.record o.id f ends g (payloads.map fun p => (some o.id, p))).view (f o) =
      { row := f o, running := [], announced := (l.view o).announced ++ payloads } := by
  have hattempts : (Table.update ends g l.attempts).filter (runs o.id) = [] := by
    refine List.filter_eq_nil_iff.mpr fun a ha hruns => ?_
    obtain ⟨a₀, ha₀, rfl⟩ := Table.mem_update.mp ha
    split at hruns
    · rw [finishes.runs] at hruns
      cases hruns
    · rename_i hnot
      exact hnot (all a₀ ha₀ hruns)
  have hannounced : (payloads.map fun p => (some o.id, p)).filterMap (announces o.id) = payloads := by
    rw [List.filterMap_map]
    simp [Function.comp_def, announces]
  simp only [view, record, keeps, hattempts, List.filterMap_append, hannounced, List.map_nil]

/-- A record that ends no attempt leaves the running ones of its operation. -/
theorem view_record_untouched {o : OperationRow} (keeps : (f o).id = o.id)
    (none : ∀ a ∈ l.attempts, ends a = false) (payloads : List RawJson) :
    (l.record o.id f ends g (payloads.map fun p => (some o.id, p))).view (f o) =
      { row := f o, running := (l.view o).running,
        announced := (l.view o).announced ++ payloads } := by
  have hannounced : (payloads.map fun p => (some o.id, p)).filterMap (announces o.id) = payloads := by
    rw [List.filterMap_map]
    simp [Function.comp_def, announces]
  simp only [view, record, keeps, Table.update_of_none none, List.filterMap_append, hannounced]

end

/-- Start an attempt, under a lease of its operation; the attempts that run for it are ended. -/
def claim (l : Ledger) (id : OperationId) (lease : Lease)
    (g : OperationAttemptRow → OperationAttemptRow) (a : OperationAttemptRow) : Ledger :=
  { operations := Table.update (fun o => o.id = id) (·.claimed lease) l.operations
    attempts := Table.update (runs id) g l.attempts ++ [a]
    completions := l.completions }

/-- Another operation reads the same after a claim. -/
theorem view_claim_other {l : Ledger} {o : OperationRow} {id : OperationId} {lease : Lease}
    {g : OperationAttemptRow → OperationAttemptRow} {a : OperationAttemptRow}
    (finishes : Finishes g) (ho : o.id ≠ id) (operation : a.operationId = id) :
    (l.claim id lease g a).view o = l.view o := by
  have hended : (l.record id (·.claimed lease) (runs id) g []).view o = l.view o := by
    refine view_record_other finishes ho (fun a _ hruns => ?_) (by simp)
    simp only [runs, Bool.and_eq_true, decide_eq_true_eq] at hruns
    exact hruns.1
  have hnot : [a].filter (runs o.id) = [] := by
    simp [runs, operation, ho.symm]
  rw [← hended]
  simp only [claim, record, view, List.filter_append, hnot, List.append_nil]

/-- The claimed operation has the new attempt running, and no other. -/
theorem view_claim_own {l : Ledger} {o : OperationRow} {lease : Lease}
    {g : OperationAttemptRow → OperationAttemptRow} {a : OperationAttemptRow}
    (finishes : Finishes g) (operation : a.operationId = o.id) (running : a.status = .running) :
    (l.claim o.id lease g a).view (o.claimed lease) =
      { l.view o with row := o.claimed lease, running := [a.leaseToken] } := by
  have hended := view_record_own (l := l) (f := (·.claimed lease)) (o := o) rfl finishes
    (fun _ _ (h : runs o.id _ = true) => h) []
  have hruns : [a].filter (runs o.id) = [a] := by
    simp [runs, operation, running]
  have hnone := congrArg OperationView.running hended
  have hid : (o.claimed lease).id = o.id := rfl
  simp only [view, record, List.map_eq_nil_iff, hid] at hnone
  simp only [claim, view, hid, List.filter_append, hruns, hnone, List.nil_append, List.map_cons,
    List.map_nil]

/-! ## The invariant of a ledger -/

/-- Operations have different ids, each is sound, and attempts and completions are of operations
that exist. -/
structure Sound (l : Ledger) : Prop where
  unique : (l.operations.map (·.id)).Nodup
  views : ∀ o ∈ l.operations, (l.view o).Sound
  attempted : ∀ a ∈ l.attempts, ∃ o ∈ l.operations, a.operationId = o.id
  owned : ∀ c ∈ l.completions, ∃ o ∈ l.operations, c.1 = some o.id

/-- What an issued claim can rely on: its operation as it was staged, and that its token names
attempts of that operation only. -/
structure Knows (l : Ledger) (claim : ClaimedOperation) : Prop where
  staged : ∃ o ∈ l.operations, o.id = claim.operation.id ∧ o.kind = claim.operation.kind ∧
    o.gatewayIdempotencyKey = claim.operation.gatewayIdempotencyKey
  token : ∀ a ∈ l.attempts, a.leaseToken = claim.leaseToken → a.operationId = claim.operation.id

/-- What one call makes of a ledger: every operation takes a step, and `staged` are added. -/
structure Step (base : Uuid) (call : StoreCall) (reply : Reply) (staged : List OperationRow)
    (l l' : Ledger) : Prop where
  ids : l'.operations.map (·.id) = l.operations.map (·.id) ++ staged.map (·.id)
  follows : ∀ o ∈ l.operations, ∃ o' ∈ l'.operations,
    OperationStep base call reply (l.view o) (l'.view o')
  staged : ∀ o ∈ staged, o ∈ l'.operations ∧ o.Fresh
  attempts : ∀ a ∈ l'.attempts,
    (∃ a₀ ∈ l.attempts, a.operationId = a₀.operationId ∧ a.leaseToken = a₀.leaseToken) ∨
      a.leaseToken = base ∧ ∃ claim, reply = .claimedOperation (some claim) ∧
        a.operationId = claim.operation.id
  completions : ∀ c ∈ l'.completions, c ∈ l.completions ∨ ∃ o ∈ l.operations, c.1 = some o.id
  issued : ∀ claim, reply = .claimedOperation (some claim) → claim.leaseToken = base ∧
    ∃ o ∈ l.operations, o.id = claim.operation.id ∧ o.kind = claim.operation.kind ∧
      o.gatewayIdempotencyKey = claim.operation.gatewayIdempotencyKey

namespace Step

variable {base : Uuid} {call : StoreCall} {reply : Reply} {staged : List OperationRow}
  {l l' : Ledger}

/-- An operation of the next ledger took a step or was staged. -/
theorem back (step : Step base call reply staged l l') (unique : (l'.operations.map (·.id)).Nodup)
    {o' : OperationRow} (ho' : o' ∈ l'.operations) :
    (∃ o ∈ l.operations, OperationStep base call reply (l.view o) (l'.view o')) ∨ o' ∈ staged := by
  have hid : o'.id ∈ l.operations.map (·.id) ++ staged.map (·.id) :=
    step.ids ▸ List.mem_map_of_mem ho'
  rcases List.mem_append.mp hid with hold | hnew
  · obtain ⟨o, ho, heq⟩ := List.mem_map.mp hold
    obtain ⟨o'', ho'', hstep⟩ := step.follows o ho
    have hsame : o''.id = o'.id := hstep.id_eq.trans heq
    rw [Table.eq_of_key unique ho'' ho' hsame] at hstep
    exact .inl ⟨o, ho, hstep⟩
  · obtain ⟨o, ho, heq⟩ := List.mem_map.mp hnew
    rw [← Table.eq_of_key unique (step.staged o ho).1 ho' heq]
    exact .inr ho

/-- An operation is still there, as it was staged. -/
theorem keeps (step : Step base call reply staged l l') {o : OperationRow} (ho : o ∈ l.operations) :
    ∃ o' ∈ l'.operations, o'.effect = o.effect := by
  obtain ⟨o', ho', hstep⟩ := step.follows o ho
  exact ⟨o', ho', hstep.effect⟩

/-- A step keeps a ledger sound when the staged ids are new. -/
theorem sound (step : Step base call reply staged l l') (h : l.Sound)
    (distinct : (staged.map (·.id)).Nodup)
    (fresh : ∀ o ∈ staged, ∀ o' ∈ l.operations, o'.id ≠ o.id) : l'.Sound := by
  have unique : (l'.operations.map (·.id)).Nodup := by
    rw [step.ids, List.nodup_append]
    refine ⟨h.unique, distinct, ?_⟩
    rintro x hx y hy rfl
    obtain ⟨o, ho, rfl⟩ := List.mem_map.mp hy
    obtain ⟨o', ho', heq⟩ := List.mem_map.mp hx
    exact fresh o ho o' ho' heq
  have attempted : ∀ a ∈ l'.attempts, ∃ o ∈ l.operations, a.operationId = o.id := by
    intro a ha
    rcases step.attempts a ha with ⟨a₀, ha₀, hop, -⟩ | ⟨-, claim, hreply, hop⟩
    · obtain ⟨o, ho, heq⟩ := h.attempted a₀ ha₀
      exact ⟨o, ho, hop.trans heq⟩
    · obtain ⟨-, o, ho, hid, -⟩ := step.issued claim hreply
      exact ⟨o, ho, hop.trans hid.symm⟩
  have owned : ∀ c ∈ l'.completions, ∃ o ∈ l.operations, c.1 = some o.id := by
    intro c hc
    rcases step.completions c hc with hold | hnew
    · exact h.owned c hold
    · exact hnew
  refine ⟨unique, fun o' ho' => ?_, fun a ha => ?_, fun c hc => ?_⟩
  · rcases step.back unique ho' with ⟨o, ho, hstep⟩ | hnew
    · exact hstep.sound (h.views o ho)
    · have hfresh := (step.staged o' hnew).2
      have hrunning : l'.attempts.filter (runs o'.id) = [] := by
        refine List.filter_eq_nil_iff.mpr fun a ha hruns => ?_
        obtain ⟨o, ho, heq⟩ := attempted a ha
        simp only [runs, Bool.and_eq_true, decide_eq_true_eq] at hruns
        exact fresh o' hnew o ho (heq.symm.trans hruns.1)
      have hannounced : l'.completions.filterMap (announces o'.id) = [] := by
        refine List.filterMap_eq_nil_iff.mpr fun c hc => ?_
        obtain ⟨o, ho, heq⟩ := owned c hc
        simp [announces, heq, fresh o' hnew o ho]
      refine ⟨?_, fun hleased => ?_, fun haccepted => ?_, hfresh.key, ?_⟩
      · simp [view, hrunning, hfresh.lease]
      · rw [show (l'.view o').row = o' from rfl, hfresh.lease] at hleased
        cases hleased
      · rw [show (l'.view o').row = o' from rfl, hfresh.status] at haccepted
        cases haccepted
      · simp [view, hannounced, hfresh.status, OperationStatus.terminal]
  · obtain ⟨o, ho, heq⟩ := attempted a ha
    obtain ⟨o', ho', hkept⟩ := step.keeps ho
    exact ⟨o', ho', heq.trans (congrArg (·.id) hkept).symm⟩
  · obtain ⟨o, ho, heq⟩ := owned c hc
    obtain ⟨o', ho', hkept⟩ := step.keeps ho
    exact ⟨o', ho', heq.trans (congrArg (fun fx => some fx.id) hkept).symm⟩

/-- A claim whose token is not drawn again stays known. -/
theorem knows (step : Step base call reply staged l l') {claim : ClaimedOperation}
    (h : l.Knows claim) (fresh : claim.leaseToken ≠ base) : l'.Knows claim where
  staged := by
    obtain ⟨o, ho, hid, hkind, hkey⟩ := h.staged
    obtain ⟨o', ho', hkept⟩ := step.keeps ho
    exact ⟨o', ho', (congrArg (·.id) hkept).trans hid, (congrArg (·.kind) hkept).trans hkind,
      (congrArg (·.gatewayIdempotencyKey) hkept).trans hkey⟩
  token a ha heq := by
    rcases step.attempts a ha with ⟨a₀, ha₀, hop, htoken⟩ | ⟨htoken, -⟩
    · exact hop.trans (h.token a₀ ha₀ (htoken.symm.trans heq))
    · exact absurd (heq.symm.trans htoken) fresh

/-- The claim that a step issues is known. -/
theorem knows_issued (step : Step base call reply staged l l') {claim : ClaimedOperation}
    (issued : reply = .claimedOperation (some claim))
    (fresh : ∀ a ∈ l.attempts, a.leaseToken ≠ base) : l'.Knows claim where
  staged := by
    obtain ⟨-, o, ho, hid, hkind, hkey⟩ := step.issued claim issued
    obtain ⟨o', ho', hkept⟩ := step.keeps ho
    exact ⟨o', ho', (congrArg (·.id) hkept).trans hid, (congrArg (·.kind) hkept).trans hkind,
      (congrArg (·.gatewayIdempotencyKey) hkept).trans hkey⟩
  token a ha heq := by
    rw [(step.issued claim issued).1] at heq
    rcases step.attempts a ha with ⟨a₀, ha₀, -, htoken⟩ | ⟨-, claim', hreply, hop⟩
    · exact absurd (htoken.symm.trans heq) (fresh a₀ ha₀)
    · rw [issued] at hreply
      cases hreply
      exact hop

end Step

end Ledger

end AgentPlatform.Store
