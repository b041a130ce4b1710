import AgentPlatform.Harness.PromptPrefix
import AgentPlatform.Harness.ShellSessions

/-!
# The sessions that calls hold

Which calls of a plan hold which session: a call in progress holds one that is tracked, and no other
call in progress holds the same. The scheduler and the completions keep it so.
-/

namespace AgentPlatform.Harness

namespace ToolExecution

open ShellTools (sessionIds Tracks Assigns Counted)
open ToolPlanState

variable {agent : Agent}

/-! ## The sessions that a plan holds -/

/-- The session that a call in progress works on. -/
def heldSession (call : ToolCallState) : Option Int :=
  call.status.inProgress.bind ToolCallProgress.sessionId

theorem heldSession_some {call : ToolCallState} {n : Int} : heldSession call = some n ↔
    ∃ progress, call.status.inProgress = some progress ∧ progress.sessionId = some n :=
  Option.bind_eq_some_iff

theorem active_of_held {call : ToolCallState} {n : Int} (h : heldSession call = some n) :
    call.status.isActive = true := by
  obtain ⟨progress, hprogress, -⟩ := heldSession_some.mp h
  unfold ToolCallStatus.isActive
  rw [hprogress]
  rfl

/-- The calls of a plan and the sessions. A `write_stdin` call that waits in the active segment names
a session from before every other call that is active there. -/
structure Holds (ids : List Int) (next : Int) (plan : ToolPlanState) : Prop where
  tracked : ∀ (i : Nat) (call : ToolCallState) (n : Int), plan.calls[i]? = some call →
    heldSession call = some n → n ∈ ids
  apart : ∀ (i j : Nat) (ci cj : ToolCallState) (n : Int), plan.calls[i]? = some ci →
    plan.calls[j]? = some cj → heldSession ci = some n → heldSession cj = some n → i = j
  waiting : ∀ segment, plan.currentSegment = some segment →
    ∀ (i j : Nat) (ci cj : ToolCallState) (n : Int), plan.calls[i]? = some ci →
      plan.calls[j]? = some cj → ci.status.isActive = true → ci.name ≠ "write_stdin" →
      j ∈ segment.callOrdinals → cj.name = "write_stdin" → cj.status.isPending = true →
      inputSessionId cj.input = some n → n < next ∧ heldSession ci ≠ some n

namespace Holds

variable {ids : List Int} {next : Int} {plan plan' : ToolPlanState}

/-- A plan on which nothing runs holds nothing. -/
theorem of_idle (idle : ∀ (i : Nat) (call : ToolCallState), plan.calls[i]? = some call →
    call.status.isActive = false) : Holds ids next plan where
  tracked i call n hcall hheld := by
    have := active_of_held hheld
    rw [idle i call hcall] at this
    cases this
  apart i _ ci _ n hi _ hheld _ := by
    have := active_of_held hheld
    rw [idle i ci hi] at this
    cases this
  waiting _ _ i _ ci _ _ hi _ hactive := by
    rw [idle i ci hi] at hactive
    cases hactive

/-- Completing calls leaves the others what they hold. -/
theorem fewer (holds : Holds ids next plan)
    (calls : ∀ (i : Nat) (call : ToolCallState), plan'.calls[i]? = some call →
      plan.calls[i]? = some call ∨ call.status.isCompleted = true)
    (current : plan'.currentSegment = plan.currentSegment) : Holds ids next plan' := by
  have before {i : Nat} {call : ToolCallState} (hcall : plan'.calls[i]? = some call)
      (hactive : call.status.isActive = true) : plan.calls[i]? = some call := by
    rcases calls i call hcall with hsame | hdone
    · exact hsame
    · rw [ToolCallStatus.not_active_of_completed hdone] at hactive
      cases hactive
  refine ⟨?_, ?_, ?_⟩
  · intro i call n hcall hheld
    exact holds.tracked i call n (before hcall (active_of_held hheld)) hheld
  · intro i j ci cj n hi hj hheld hheld'
    exact holds.apart i j ci cj n (before hi (active_of_held hheld))
      (before hj (active_of_held hheld')) hheld hheld'
  · intro segment hsegment i j ci cj n hi hj hactive hname hmem hwrite hpending hinput
    rw [current] at hsegment
    rcases calls j cj hj with hsame | hdone
    · exact holds.waiting segment hsegment i j ci cj n (before hi hactive) hsame hactive hname hmem
        hwrite hpending hinput
    · rw [ToolCallStatus.not_completed_of_pending hpending] at hdone
      cases hdone

/-- What is active stays in the active segment as the plan advances. -/
theorem advance (holds : Holds ids next plan) (sound : plan.Sound) :
    Holds ids next plan.advanceCompletedSegments where
  tracked := holds.tracked
  apart := holds.apart
  waiting segment hsegment i j ci cj n hi hj hactive := by
    obtain ⟨s, hs, his⟩ := sound.active_mem hi hactive
    obtain ⟨t, ht, hit⟩ := sound.advance.active_mem hi hactive
    cases hsegment.symm.trans ht
    have hsame := sound.segment_unique (by exact hs) (by exact ht) his hit
    refine holds.waiting segment ?_ i j ci cj n hi hj hactive
    rw [currentSegment, hsame]
    exact ht

end Holds

/-! ## Scheduling -/

/-- The session that a prepared call works on: the one that it holds, or a tracked one that its
arguments name. -/
def Claims (ids : List Int) (call : ToolCallState) (prepared : PreparedCall) : Prop :=
  ∀ n, prepared.progress.sessionId = some n → n ∈ ids ∧
    (heldSession call = some n ∨ call.status.isPending = true ∧ call.name = "write_stdin" ∧
      inputSessionId call.input = some n)

section

variable {executions : List TrackedExecution} {invocation : Invocation} {turnId : Uuid}

theorem prepareNew_tracked {call : ToolCallState} {draw : Uuid} {prepared : PreparedCall}
    {ordinal : Nat} (hname : call.name = "write_stdin") (hpending : call.status.isPending = true)
    (h : prepareCall agent executions invocation turnId call ordinal draw = some (.ok prepared))
    {n : Int} (hn : prepared.progress.sessionId = some n) : n ∈ sessionIds executions := by
  unfold prepareCall at h
  cases hstatus : call.status with
  | pending =>
    simp only [hstatus, Option.some.injEq] at h
    split at h
    next operation hop =>
      cases h
      obtain ⟨written, hsome, hwritten⟩ := ShellTools.prepareNew_write hname hop
      cases hsome
      exact ShellTools.prepareWrite_tracked hwritten hn
    next hop =>
      obtain ⟨written, hsome, -⟩ := ShellTools.prepareNew_write hname hop
      cases hsome
    next => cases h
  | ready progress | submitted id progress | completed snapshot =>
    rw [hstatus] at hpending
    cases hpending

theorem resource_cases {call : ToolCallState} {n : Int} (h : resourceSessionId call = some n) :
    heldSession call = some n ∨ call.status.isPending = true ∧ call.name = "write_stdin" ∧
      inputSessionId call.input = some n := by
  unfold resourceSessionId at h
  split at h
  next progress hstatus =>
    exact .inl (heldSession_some.mpr ⟨progress, by rw [hstatus]; rfl, h⟩)
  next id progress hstatus =>
    exact .inl (heldSession_some.mpr ⟨progress, by rw [hstatus]; rfl, h⟩)
  next hstatus =>
    split at h
    next hname => exact .inr ⟨by rw [hstatus]; rfl, hname, h⟩
    · cases h
  next => cases h

theorem prepareCall_claims {plan : ToolPlanState} {next : Int} (sound : plan.Sound)
    (holds : Holds (sessionIds executions) next plan) {o : Nat} {call : ToolCallState} {draw : Uuid}
    {prepared : PreparedCall} (hcall : plan.calls[o]? = some call)
    (h : prepareCall agent executions invocation turnId call o draw = some (.ok prepared)) :
    prepared.ordinal = o ∧ Claims (sessionIds executions) call prepared ∧
      ∀ n, resourceSessionId call = some n → n ∈ sessionIds executions := by
  have hfrom := prepareCall_ok (fun hname hpending => sound.objects o call hcall hname hpending)
    (fun progress hname hprogress => sound.writing o call progress hcall hname hprogress) h
  have hresource : ∀ n, resourceSessionId call = some n → n ∈ sessionIds executions := by
    intro n hn
    rcases resource_cases hn with hheld | ⟨hpending, hname, hinput⟩
    · exact holds.tracked o call n hcall hheld
    · have hsession := (hfrom.writing hname).2
      exact prepareNew_tracked hname hpending h (hsession.trans hinput)
  refine ⟨hfrom.ordinal, ?_, hresource⟩
  intro n hn
  have hn' := hfrom.resource n hn
  exact ⟨hresource n hn', resource_cases hn'⟩

/-- What a pass over the active segment has made of the sessions. -/
structure Round.Claims (ids : List Int) (before : ToolPlanState) (round : Round) : Prop where
  calls : ∀ (i : Nat) (call : ToolCallState), round.plan.calls[i]? = some call →
    before.calls[i]? = some call ∨ call.status.isCompleted = true
  current : round.plan.currentSegment = before.currentSegment
  busy : ∀ n ∈ round.busy, n ∈ ids
  prepared : ∀ p ∈ round.prepared, ∃ call, before.calls[p.ordinal]? = some call ∧
    ToolExecution.Claims ids call p

theorem Round.Claims.start {ids : List Int} {next : Int} {plan : ToolPlanState}
    (holds : Holds ids next plan) (nextId : Uuid) :
    Round.Claims ids plan (Round.start plan nextId) where
  calls _ _ h := .inl h
  current := rfl
  busy n hn := by
    obtain ⟨i, call, hcall, hsession⟩ := mem_submittedResources.mp hn
    obtain ⟨id, progress, hstatus, hprogress⟩ := submittedSession_some.mp hsession
    refine holds.tracked i call n hcall (heldSession_some.mpr ⟨progress, ?_, hprogress⟩)
    rw [hstatus]
    rfl
  prepared _ hp := absurd hp List.not_mem_nil

theorem Round.Claims.visit {before : ToolPlanState} {next : Int} {round round' : Round} {o : Nat}
    (claims : Round.Claims (sessionIds executions) before round) (sound : before.Sound)
    (holds : Holds (sessionIds executions) next before)
    (h : ToolExecution.visit agent executions invocation turnId round o = .ok round') :
    Round.Claims (sessionIds executions) before round' := by
  unfold ToolExecution.visit at h
  split at h
  · cases h
  next call hcall =>
  dsimp only at h
  split at h
  · cases h
    exact claims
  split at h
  · cases h
    exact claims
  next snapshot hsnapshot =>
    cases h
    refine ⟨?_, claims.current, claims.busy, claims.prepared⟩
    intro i c hc
    obtain ⟨c', hc', rfl⟩ := get_setStatus hc
    by_cases hio : i = o
    · simp [hio, ToolCallStatus.isCompleted]
    · simpa [hio] using claims.calls i c' hc'
  next prepared hprepared =>
    cases h
    have hbefore : before.calls[o]? = some call := by
      rcases claims.calls o call hcall with hsame | hdone
      · exact hsame
      · rw [prepareCall_none.mpr (.inl hdone)] at hprepared
        cases hprepared
    obtain ⟨hordinal, hclaims, hresource⟩ := prepareCall_claims sound holds hbefore hprepared
    refine ⟨claims.calls, claims.current, ?_, ?_⟩
    · intro n hn
      rcases List.mem_append.mp hn with hn | hn
      · rcases Option.or_eq_some_iff.mp (Option.mem_toList.mp hn) with hn | ⟨-, hn⟩
        · exact hresource n hn
        · exact (hclaims n hn).1
      · exact claims.busy n hn
    · intro p hp
      rcases List.mem_append.mp hp with hp | hp
      · exact claims.prepared p hp
      · rw [List.mem_singleton.mp hp, hordinal]
        exact ⟨call, hbefore, hclaims⟩

theorem Round.Claims.pass {before : ToolPlanState} {next : Int} {ordinals : List Nat}
    {round round' : Round} (claims : Round.Claims (sessionIds executions) before round)
    (sound : before.Sound) (holds : Holds (sessionIds executions) next before)
    (h : ordinals.foldlM (ToolExecution.visit agent executions invocation turnId) round =
      .ok round') : Round.Claims (sessionIds executions) before round' := by
  induction ordinals generalizing round with
  | nil =>
    cases h
    exact claims
  | cons o rest ih =>
    obtain ⟨after, hafter, h⟩ := Fallible.bind_ok h
    exact ih (claims.visit sound holds hafter) h

/-- What the submissions of a pass make of each call. -/
theorem submit_calls {S : Type} {plan : ToolPlanState} {prepared : List PreparedCall}
    (b : OutcomeBuilder S) {i : Nat} {call' : ToolCallState}
    (h : (prepared.foldl (submit agent) (plan, b)).1.calls[i]? = some call') :
    plan.calls[i]? = some call' ∨ ∃ p ∈ prepared, p.ordinal = i ∧ ∃ call id,
      plan.calls[i]? = some call ∧ call' = { call with status := .submitted id p.progress } := by
  induction prepared generalizing plan b with
  | nil => exact .inl h
  | cons p rest ih =>
    have before {c : ToolCallState}
        (hc : (plan.setStatus p.ordinal (.submitted b.nextId p.progress)).calls[i]? = some c) :
        ∃ call, plan.calls[i]? = some call ∧ c = if i = p.ordinal
          then { call with status := .submitted b.nextId p.progress } else call := get_setStatus hc
    rcases ih _ h with hsame | ⟨q, hq, hordinal, c, id, hc, rfl⟩
    · obtain ⟨call, hcall, rfl⟩ := before hsame
      by_cases hi : i = p.ordinal
      · rw [if_pos hi]
        exact .inr ⟨p, List.mem_cons_self, hi.symm, call, b.nextId, hcall, rfl⟩
      · rw [if_neg hi]
        exact .inl hcall
    · obtain ⟨call, hcall, rfl⟩ := before hc
      refine .inr ⟨q, List.mem_cons_of_mem _ hq, hordinal, call, id, hcall, ?_⟩
      split <;> rfl

theorem Apart.symm {p q : PreparedCall} (apart : Apart p q) : Apart q p :=
  ⟨apart.1.symm, fun n hq hp => apart.2 n hp hq⟩

instance : Std.Symm Apart := ⟨fun _ _ => Apart.symm⟩

/-- A plan after the submissions of a pass over its active segment. -/
structure Passed (ids : List Int) (before : ToolPlanState) (segment : ToolSegment) (round : Round)
    (plan : ToolPlanState) : Prop where
  sound : Round.Sound segment segment.callOrdinals round
  claims : Round.Claims ids before round
  calls : ∀ (i : Nat) (call' : ToolCallState), plan.calls[i]? = some call' →
    round.plan.calls[i]? = some call' ∨ ∃ p ∈ round.prepared, p.ordinal = i ∧ ∃ call id,
      round.plan.calls[i]? = some call ∧ call' = { call with status := .submitted id p.progress }
  current : plan.currentSegment = round.plan.currentSegment

namespace Passed

variable {ids : List Int} {next : Int} {before plan : ToolPlanState} {segment : ToolSegment}
  {round : Round}

/-- A call of the pass that is not completed is as it was. -/
theorem unchanged (passed : Passed ids before segment round plan) {i : Nat}
    {call : ToolCallState} (hcall : round.plan.calls[i]? = some call)
    (hopen : call.status.isCompleted = false) : before.calls[i]? = some call := by
  rcases passed.claims.calls i call hcall with hsame | hdone
  · exact hsame
  · rw [hopen] at hdone
    cases hdone

/-- What a call that holds a session was before. -/
theorem held (passed : Passed ids before segment round plan) {i : Nat} {call' : ToolCallState}
    {n : Int} (hcall : plan.calls[i]? = some call') (hheld : heldSession call' = some n) :
    ∃ call, before.calls[i]? = some call ∧ round.plan.calls[i]? = some call ∧
      call.name = call'.name ∧
      (heldSession call = some n ∨ ∃ p ∈ round.prepared, p.ordinal = i ∧
        p.progress.sessionId = some n ∧ n ∈ ids ∧ call.status.isPending = true ∧
        call.name = "write_stdin" ∧ inputSessionId call.input = some n) := by
  rcases passed.calls i call' hcall with hsame | ⟨p, hp, hordinal, call, id, hfound, rfl⟩
  · have hactive := active_of_held hheld
    have hopen : call'.status.isCompleted = false := by
      cases hdone : call'.status.isCompleted with
      | false => rfl
      | true =>
        rw [ToolCallStatus.not_active_of_completed hdone] at hactive
        cases hactive
    exact ⟨call', passed.unchanged hsame hopen, hsame, rfl, .inl hheld⟩
  · obtain ⟨-, -, found, submittable⟩ := passed.sound.prepared p hp
    have hsame := submittable.found
    rw [hordinal, hfound] at hsame
    cases hsame
    have hbefore := passed.unchanged hfound submittable.open
    obtain ⟨claimed, hclaimed, hclaims⟩ := passed.claims.prepared p hp
    rw [hordinal, hbefore] at hclaimed
    cases hclaimed
    have hn : p.progress.sessionId = some n := hheld
    obtain ⟨hmem, hold | ⟨hpending, hname, hinput⟩⟩ := hclaims n hn
    · exact ⟨call, hbefore, hfound, rfl, .inl hold⟩
    · exact ⟨call, hbefore, hfound, rfl,
        .inr ⟨p, hp, hordinal, hn, hmem, hpending, hname, hinput⟩⟩

/-- A session that a call held before the pass is not the one that a waiting call goes on to. -/
theorem not_both (passed : Passed ids before segment round plan) (sound : before.Sound)
    (holds : Holds ids next before) {i : Nat} {ci cj : ToolCallState} {n : Int} {p : PreparedCall}
    (hi : before.calls[i]? = some ci) (hkept : round.plan.calls[i]? = some ci)
    (hj : before.calls[p.ordinal]? = some cj) (hfound : round.plan.calls[p.ordinal]? = some cj)
    (hheld : heldSession ci = some n) (hp : p ∈ round.prepared)
    (hpending : cj.status.isPending = true) (hname : cj.name = "write_stdin")
    (hinput : inputSessionId cj.input = some n) : False := by
  have hactive := active_of_held hheld
  obtain ⟨-, -, call, submittable⟩ := passed.sound.prepared p hp
  cases submittable.found.symm.trans hfound
  by_cases hwrite : ci.name = "write_stdin"
  · -- the writes to one session run in their order
    obtain ⟨progress, hprogress, hsession⟩ := heldSession_some.mp hheld
    have hci : inputSessionId ci.input = some n :=
      (sound.writing i ci progress hi hwrite hprogress).2.symm.trans hsession
    rcases Nat.lt_trichotomy i p.ordinal with hlt | heq | hgt
    · have hdone := submittable.order hname n hinput i ci hlt hkept hwrite hci
      rw [ToolCallStatus.not_active_of_completed hdone] at hactive
      cases hactive
    · rw [heq, hj] at hi
      cases hi
      rw [ToolCallStatus.not_active_of_pending hpending] at hactive
      cases hactive
    · have hdone := sound.writeOrder p.ordinal i cj ci n hgt hj hi hname hwrite hinput hci hactive
      rw [ToolCallStatus.not_completed_of_pending hpending] at hdone
      cases hdone
  · have hcurrent := passed.claims.current.symm.trans passed.sound.current
    exact (holds.waiting segment hcurrent i p.ordinal ci cj n hi hj hactive hwrite submittable.mem
      hname hpending hinput).2 hheld

/-- The pass and its submissions keep what the calls hold. -/
theorem holds (passed : Passed ids before segment round plan) (sound : before.Sound)
    (holds : Holds ids next before) (below : ∀ n ∈ ids, n < next) : Holds ids next plan where
  tracked i call' n hcall hheld := by
    obtain ⟨call, hbefore, -, -, hold | ⟨-, -, -, -, hmem, -⟩⟩ := passed.held hcall hheld
    · exact holds.tracked i call n hbefore hold
    · exact hmem
  apart i j ci' cj' n hi hj hheld hheld' := by
    obtain ⟨ci, hci, hki, -, hold | ⟨p, hp, hpi, hpn, -, hpending, hname, hinput⟩⟩ :=
      passed.held hi hheld
    · obtain ⟨cj, hcj, hkj, -, hold' | ⟨q, hq, hqj, -, -, hpending, hname, hinput⟩⟩ :=
        passed.held hj hheld'
      · exact holds.apart i j ci cj n hci hcj hold hold'
      · subst hqj
        exact (passed.not_both sound holds hci hki hcj hkj hold hq hpending hname hinput).elim
    · obtain ⟨cj, hcj, hkj, -, hold' | ⟨q, hq, hqj, hqn, -⟩⟩ := passed.held hj hheld'
      · subst hpi
        exact (passed.not_both sound holds hcj hkj hci hki hold' hp hpending hname hinput).elim
      · by_contra hne
        have hpq : p ≠ q := by
          rintro rfl
          exact hne (hpi.symm.trans hqj)
        have apart := passed.sound.apart.forall hp hq hpq
        exact apart.2 n hpn hqn
  waiting s hs i j ci' cj' n hi hj hactive hname hmem hwrite hpending hinput := by
    rw [passed.current, passed.sound.current] at hs
    cases hs
    -- a call that waits was not submitted
    have hkj : round.plan.calls[j]? = some cj' := by
      rcases passed.calls j cj' hj with hsame | ⟨p, -, -, call, id, -, rfl⟩
      · exact hsame
      · cases hpending
    have hopen := ToolCallStatus.not_completed_of_pending hpending
    have hbusy : n ∈ round.busy := by
      rcases passed.sound.waiting j hmem cj' hkj hwrite with hdone | hwaits
      · rw [hopen] at hdone
        cases hdone
      · exact hwaits n hinput
    refine ⟨below n (passed.claims.busy n hbusy), ?_⟩
    intro hheld
    obtain ⟨ci, hci, hki, hsame, hold | ⟨p, hp, hpi, hpn, -, -, hwritten, -⟩⟩ :=
      passed.held hi hheld
    · have hcurrent := passed.claims.current.symm.trans passed.sound.current
      exact (holds.waiting segment hcurrent i j ci cj' n hci (passed.unchanged hkj hopen)
        (active_of_held hold) (hsame ▸ hname) hmem hwrite hpending hinput).2 hold
    · exact hname (hsame ▸ hwritten)

end Passed

theorem scheduleLoop_holds {S : Type} {rounds : Nat} {next : Int} {plan plan' : ToolPlanState}
    {b b' : OutcomeBuilder S} (sound : plan.Sound)
    (holds : Holds (sessionIds executions) next plan)
    (below : ∀ n ∈ sessionIds executions, n < next)
    (h : scheduleLoop agent executions invocation turnId rounds plan b = .ok (plan', b')) :
    Holds (sessionIds executions) next plan' := by
  induction rounds generalizing plan b with
  | zero =>
    cases h
    exact holds
  | succ rounds ih =>
    unfold scheduleLoop at h
    split at h
    · cases h
      exact holds
    next segment hcurrent =>
    split at h
    · cases h
    next round hpass =>
    have hround := (Round.Sound.start sound hcurrent b.nextId).pass (by simp) hpass
    have hclaims := (Round.Claims.start holds b.nextId).pass sound holds hpass
    have hholds := holds.fewer hclaims.calls hclaims.current
    dsimp only at h
    split at h
    · split at h
      · exact ih hround.plan.advance (hholds.advance hround.plan) h
      · cases h
        exact hholds
    · simp only [Except.ok.injEq] at h
      have hsubmitted := submit_all agent hround.plan hround.current
        (fun p hp => (hround.prepared p hp).2.2) hround.apart { b with nextId := round.nextId }
      have hcalls := @submit_calls agent _ round.plan round.prepared { b with nextId := round.nextId }
      rw [h] at hsubmitted hcalls
      have hsame : plan'.currentSegment = round.plan.currentSegment := by
        unfold currentSegment
        rw [hsubmitted.segments, hsubmitted.active]
      have passed : Passed (sessionIds executions) plan segment round plan' :=
        ⟨hround, hclaims, fun i call' => hcalls, hsame⟩
      exact passed.holds sound holds below

end

/-! ## Completions -/

/-- A state whose plan, where it has one, holds tracked sessions. -/
def HoldsSessions (state : BasicCodexState) : Prop :=
  ∀ plan, planOf state = some plan →
    Holds (sessionIds state.executions) state.nextExecutionSessionId plan

theorem scheduleReady_holds {b b' : OutcomeBuilder BasicCodexState} {invocation : Invocation}
    {plan : ToolPlanState} (hplan : planOf b.state = some plan) (sound : plan.Sound)
    (counted : Counted b.state) (holds : HoldsSessions b.state)
    (h : scheduleReady agent b invocation = .ok b') :
    HoldsSessions b'.state ∧ b'.state.executions = b.state.executions ∧
      b'.state.nextExecutionSessionId = b.state.nextExecutionSessionId := by
  obtain ⟨active, staged, plan', schedules⟩ := scheduleReady_schedules hplan sound h
  have hstate := schedules.state
  obtain ⟨active', p, plan'', builder, hactive, hphase, hloop, hsame⟩ := scheduleReady_ok h
  obtain ⟨_, hactive', hphase'⟩ := planOf_some.mp hplan
  cases hactive.symm.trans hactive'
  cases hphase.symm.trans hphase'
  have hexecutions : b'.state.executions = b.state.executions := by rw [hstate]
  have hnext : b'.state.nextExecutionSessionId = b.state.nextExecutionSessionId := by rw [hstate]
  refine ⟨?_, hexecutions, hnext⟩
  intro q hq
  rw [hexecutions, hnext]
  rw [hsame] at hq
  cases hq
  exact scheduleLoop_holds sound (holds plan hplan) counted.below hloop

/-- What the end of its operation makes of the session of a call. -/
structure Resumes (before after : BasicCodexState) (session : Option Int)
    (status : ToolCallStatus) : Prop where
  assigns : Assigns before after
  kept : ∀ n ∈ sessionIds before.executions, n ∈ sessionIds after.executions ∨
    session = some n ∧ status.isCompleted = true
  session : ∀ progress, status.inProgress = some progress → ∀ n, progress.sessionId = some n →
    session = some n ∨ n = before.nextExecutionSessionId ∧ n ∈ sessionIds after.executions

theorem Resumes.completed (state : BasicCodexState) (session : Option Int)
    (snapshot : ToolResultSnapshot) : Resumes state state session (.completed snapshot) where
  assigns := .same rfl rfl
  kept _ hn := .inl hn
  session _ h := by cases h

theorem Resumes.file (state : BasicCodexState) (session : Option Int) (progress : FileToolState) :
    Resumes state state session (.ready (.filesystem progress)) where
  assigns := .same rfl rfl
  kept _ hn := .inl hn
  session _ h n hn := by
    cases h
    cases hn

theorem applyResponse_resumes (agent : Agent) (response : Execution.Response) (turnId : Uuid)
    (callId : String) (at_ : Int) {progress : ToolCallProgress} {state : BasicCodexState}
    (counted : Counted state)
    (held : ∀ n, progress.sessionId = some n → n ∈ sessionIds state.executions) :
    Resumes state (applyResponse agent progress response state turnId callId at_).2
      progress.sessionId (applyResponse agent progress response state turnId callId at_).1 := by
  have shell {p : ShellCallState} {result : AppliedShellResult} {state' : BasicCodexState}
      {status : ToolCallStatus} (hp : ∀ n, p.sessionId = some n → n ∈ sessionIds state.executions)
      (h : ShellTools.applyResponse agent.lib p response state turnId at_ = .ok (result, state'))
      (hready : ∀ p', result = .ready p' → status = .ready (.shell p'))
      (hdone : ∀ snapshot, result = .completed snapshot → status = .completed snapshot) :
      Resumes state state' p.sessionId status := by
    obtain ⟨observation, output, tracked, -, -, -, htrack, hresult⟩ :=
      ShellTools.applyResponse_ok h
    have tracks := ShellTools.track_ok htrack
    refine ⟨tracks.assigns counted hp, ?_, ?_⟩
    · intro n hn
      rcases tracks.kept hn with hkept | ⟨hsession, hlast⟩
      · exact .inl hkept
      · rw [if_neg (by simp [hlast])] at hresult
        rw [hdone _ hresult]
        exact .inr ⟨hsession, rfl⟩
    · intro progress' hprogress n hn
      split at hresult
      · rw [hready _ hresult] at hprogress
        cases hprogress
        exact tracks.session hn
      · rw [hdone _ hresult] at hprogress
        cases hprogress
  unfold applyResponse
  cases progress with
  | shell progress =>
    simp only
    split
    next h => exact shell held h (fun _ hr => by cases hr; rfl) (fun _ hr => by cases hr)
    next h => exact shell held h (fun _ hr => by cases hr) (fun _ hr => by cases hr; rfl)
    next => exact .completed _ _ _
  | filesystem progress =>
    simp only
    split
    · exact .file _ _ _
    · exact .completed _ _ _
    · exact .completed _ _ _

theorem applyOutcome_resumes {progress : ToolCallProgress} {outcome : OperationOutcome}
    {state state' : BasicCodexState} {turnId : Uuid} {callId : String} {at_ : Int}
    {status : ToolCallStatus} (counted : Counted state)
    (held : ∀ n, progress.sessionId = some n → n ∈ sessionIds state.executions)
    (h : applyOutcome agent progress outcome state turnId callId at_ = .ok (status, state')) :
    Resumes state state' progress.sessionId status := by
  have response (response : Execution.Response)
      (h : applyResponse agent progress response state turnId callId at_ = (status, state')) :
      Resumes state state' progress.sessionId status := by
    have := applyResponse_resumes agent response turnId callId at_ counted held
    rw [h] at this
    exact this
  unfold applyOutcome at h
  split at h
  · exact response _ (Except.ok.inj h)
  · cases h
  · split at h
    · exact response _ (Except.ok.inj h)
    · cases h
      exact .completed _ _ _
  · split at h
    · split at h <;> cases h
      · exact .file _ _ _
      · exact .completed _ _ _
      · exact .completed _ _ _
    · cases h
      exact .completed _ _ _
  · cases h
    exact .completed _ _ _

/-- The completion of a submitted call leaves the others what they hold. -/
theorem Holds.resume {before after : BasicCodexState} {plan : ToolPlanState} {o : Nat}
    {call : ToolCallState} {id : OperationId} {progress : ToolCallProgress}
    {status : ToolCallStatus}
    (holds : Holds (sessionIds before.executions) before.nextExecutionSessionId plan)
    (counted : Counted before) (hcall : plan.calls[o]? = some call)
    (hstatus : call.status = .submitted id progress) (goesOn : GoesOn progress status)
    (resumes : Resumes before after progress.sessionId status) :
    Holds (sessionIds after.executions) after.nextExecutionSessionId (plan.setStatus o status) := by
  have hactive : call.status.isActive = true := by rw [hstatus]; rfl
  have hpending : status.isPending = false := by
    rcases goesOn with hdone | ⟨progress', rfl, -⟩
    · cases status <;> simp_all [ToolCallStatus.isPending, ToolCallStatus.isCompleted]
    · rfl
  have own {n : Int} (hn : progress.sessionId = some n) : heldSession call = some n :=
    heldSession_some.mpr ⟨progress, by rw [hstatus]; rfl, hn⟩
  -- the session of the call afterwards
  have resumed {n : Int} (hn : heldSession { call with status } = some n) :
      heldSession call = some n ∨
        n = before.nextExecutionSessionId ∧ n ∈ sessionIds after.executions := by
    obtain ⟨progress', hprogress, hsession⟩ := heldSession_some.mp hn
    exact (resumes.session progress' hprogress n hsession).imp_left own
  have fresh {n : Int} {i : Nat} {c : ToolCallState} (hc : plan.calls[i]? = some c)
      (hn : heldSession c = some n) : n ≠ before.nextExecutionSessionId := by
    intro heq
    exact absurd (counted.below n (holds.tracked i c n hc hn)) (heq ▸ lt_irrefl _)
  refine ⟨?_, ?_, ?_⟩
  · intro i call' n hcall' hheld
    obtain ⟨c, hc, rfl⟩ := get_setStatus hcall'
    by_cases hi : i = o
    · subst hi
      cases hcall.symm.trans hc
      rw [if_pos rfl] at hheld
      rcases resumed hheld with hold | ⟨-, hnew⟩
      · rcases resumes.kept n (holds.tracked i call n hcall hold) with hkept | ⟨-, hdone⟩
        · exact hkept
        · have hstill : status.isActive = true := active_of_held hheld
          rw [ToolCallStatus.not_active_of_completed hdone] at hstill
          cases hstill
      · exact hnew
    · rw [if_neg hi] at hheld
      rcases resumes.kept n (holds.tracked i c n hc hheld) with hkept | ⟨hsession, -⟩
      · exact hkept
      · exact absurd (holds.apart i o c call n hc hcall hheld (own hsession)) hi
  · intro i j ci' cj' n hi hj hheld hheld'
    obtain ⟨ci, hci, rfl⟩ := get_setStatus hi
    obtain ⟨cj, hcj, rfl⟩ := get_setStatus hj
    by_cases hio : i = o <;> by_cases hjo : j = o
    · rw [hio, hjo]
    · subst hio
      cases hcall.symm.trans hci
      rw [if_pos rfl] at hheld
      rw [if_neg hjo] at hheld'
      rcases resumed hheld with hold | ⟨hnew, -⟩
      · exact holds.apart i j call cj n hcall hcj hold hheld'
      · exact absurd hnew (fresh hcj hheld')
    · subst hjo
      cases hcall.symm.trans hcj
      rw [if_pos rfl] at hheld'
      rw [if_neg hio] at hheld
      rcases resumed hheld' with hold | ⟨hnew, -⟩
      · exact holds.apart i j ci call n hci hcall hheld hold
      · exact absurd hnew (fresh hci hheld)
    · rw [if_neg hio] at hheld
      rw [if_neg hjo] at hheld'
      exact holds.apart i j ci cj n hci hcj hheld hheld'
  · intro segment hsegment i j ci' cj' n hi hj hactive' hname hmem hwrite hpending' hinput
    obtain ⟨ci, hci, rfl⟩ := get_setStatus hi
    obtain ⟨cj, hcj, rfl⟩ := get_setStatus hj
    have hjo : j ≠ o := by
      rintro rfl
      rw [if_pos rfl] at hpending'
      cases hpending.symm.trans hpending'
    rw [if_neg hjo] at hwrite hpending' hinput
    by_cases hio : i = o
    · subst hio
      cases hcall.symm.trans hci
      rw [if_pos rfl] at hname ⊢
      obtain ⟨hbelow, hother⟩ := holds.waiting segment hsegment i j call cj n hcall hcj hactive
        hname hmem hwrite hpending' hinput
      refine ⟨lt_of_lt_of_le hbelow resumes.assigns.later, ?_⟩
      intro hheld
      rcases resumed hheld with hold | ⟨hnew, -⟩
      · exact hother hold
      · exact absurd hbelow (hnew ▸ lt_irrefl _)
    · rw [if_neg hio] at hactive' hname ⊢
      obtain ⟨hbelow, hother⟩ := holds.waiting segment hsegment i j ci cj n hci hcj hactive' hname
        hmem hwrite hpending' hinput
      exact ⟨lt_of_lt_of_le hbelow resumes.assigns.later, hother⟩

/-- The end of an operation keeps the sessions of the plan. -/
theorem applyCompletion_holds {state state' : BasicCodexState} {operationId : OperationId}
    {outcome : OperationOutcome} {at_ : Int} {plan : ToolPlanState}
    (hplan : planOf state = some plan) (sound : plan.Sound) (counted : Counted state)
    (holds : HoldsSessions state)
    (h : applyCompletion agent state operationId outcome at_ = .ok state') :
    Assigns state state' ∧ HoldsSessions state' := by
  obtain ⟨active, p, call, progress, status, state'', hactive, hphase, hcall, happly, rfl⟩ :=
    applyCompletion_ok h
  obtain ⟨_, hactive', hphase'⟩ := planOf_some.mp hplan
  cases hactive.symm.trans hactive'
  cases hphase.symm.trans hphase'
  obtain ⟨hmem, hstatus⟩ := submittedCall_some hcall
  obtain ⟨o, ho⟩ := List.mem_iff_getElem?.mp hmem
  have held : ∀ n, progress.sessionId = some n → n ∈ sessionIds state.executions := by
    intro n hn
    refine (holds plan hplan).tracked o call n ho (heldSession_some.mpr ⟨progress, ?_, hn⟩)
    rw [hstatus]
    rfl
  have resumes := applyOutcome_resumes counted held happly
  refine ⟨resumes.assigns.congr rfl rfl, ?_⟩
  intro q hq
  cases hq
  rw [sound.ordinals o call ho]
  have goesOn := applyOutcome_goesOn happly
  exact ((holds plan hplan).resume counted ho hstatus goesOn resumes).advance
    (sound_of_goesOn sound ho hstatus goesOn)

end ToolExecution

/-! ## Every session -/

namespace Handler

open ShellTools (sessionIds Assigns Counted)
open ToolExecution (planOf HoldsSessions)

variable {agent : Agent} {state : BasicCodexState} {event : SessionEvent}
  {context : HarnessContext} {nextId : Uuid} {b r : OutcomeBuilder BasicCodexState}

/-- Two states that track the same processes. -/
structure TracksAs (before after : BasicCodexState) : Prop where
  executions : after.executions = before.executions
  next : after.nextExecutionSessionId = before.nextExecutionSessionId

theorem TracksAs.trans {a b c : BasicCodexState} (first : TracksAs a b) (second : TracksAs b c) :
    TracksAs a c where
  executions := second.executions.trans first.executions
  next := second.next.trans first.next

theorem recordResponse_tracksAs (state : BasicCodexState) (response : AssistantResponse) :
    TracksAs state (recordResponse state response) := by
  unfold recordResponse
  dsimp only
  split <;> exact ⟨rfl, rfl⟩

theorem addLatestProjectionEstimate_tracksAs (agent : Agent) (state : BasicCodexState) :
    TracksAs state (addLatestProjectionEstimate agent state) := by
  unfold addLatestProjectionEstimate
  dsimp only
  split
  · exact ⟨rfl, rfl⟩
  · split <;> exact ⟨rfl, rfl⟩

theorem appendResults_tracksAs (agent : Agent) (b : OutcomeBuilder BasicCodexState)
    (messages : List Message) : TracksAs b.state (appendResults agent b messages).state := by
  unfold appendResults
  rw [appendMessages_state]
  exact ⟨rfl, rfl⟩

theorem Boundary.tracksAs {active : ActiveTurn} {through : HistorySequence} {sid : SessionId}
    (boundary : Boundary agent b active through sid r) : TracksAs b.state r.state := by
  cases boundary <;> exact ⟨rfl, rfl⟩

theorem holds_of_none (h : planOf state = none) : HoldsSessions state := by
  intro plan hplan
  rw [h] at hplan
  cases hplan

/-- No call of an accepted plan holds a session yet. -/
theorem holds_of_parsed {id : OperationId} {message : Message} {stopReason : StopReason}
    {plan : ToolPlanState} (planned : ToolPlan.parse agent.lib id message stopReason =
      .ok (some plan)) {active : ActiveTurn} :
    HoldsSessions { state with
      activeTurn := some { active with phase := .executingTools plan } } := by
  intro p hp
  cases hp
  apply ToolExecution.Holds.of_idle
  intro i call hcall
  rcases ToolPlan.parse_fresh planned hcall with hpending | hdone
  · exact ToolCallStatus.not_active_of_pending hpending
  · exact ToolCallStatus.not_active_of_completed hdone

/-- Running a plan leaves the tracked processes alone. -/
theorem PlanRan.holds {invocation : Invocation} {plan : ToolPlanState}
    (ran : PlanRan agent b invocation r) (hplan : planOf b.state = some plan)
    (sound : plan.Sound) (counted : Counted b.state) (holds : HoldsSessions b.state) :
    HoldsSessions r.state ∧ TracksAs b.state r.state := by
  cases ran with
  | waits schedule _ _ =>
    obtain ⟨hholds, hexecutions, hnext⟩ :=
      ToolExecution.scheduleReady_holds hplan sound counted holds schedule
    exact ⟨hholds, hexecutions, hnext⟩
  | finished schedule _ _ _ _ boundary =>
    obtain ⟨-, hexecutions, hnext⟩ :=
      ToolExecution.scheduleReady_holds hplan sound counted holds schedule
    have scheduled : TracksAs b.state _ := ⟨hexecutions, hnext⟩
    exact ⟨holds_of_none boundary.planOf,
      (scheduled.trans (appendResults_tracksAs agent _ _)).trans boundary.tracksAs⟩

/-- A cleanup forgets processes at most. -/
theorem setLifecycleStatus_executions (c : Cleanup) (emit : Bool) :
    (Cancellation.setLifecycleStatus c emit).state.executions.Sublist c.result.state.executions ∧
      (Cancellation.setLifecycleStatus c emit).state.nextExecutionSessionId =
        c.result.state.nextExecutionSessionId := by
  unfold Cancellation.setLifecycleStatus
  dsimp only
  split
  · split <;> exact ⟨List.nil_sublist _, rfl⟩
  · exact ⟨List.Sublist.refl _, rfl⟩

theorem moves_assigns {c c' : Cleanup} (moves : Cleanup.Moves c c') (emit : Bool) :
    Assigns c.result.state (Cancellation.setLifecycleStatus c' emit).state := by
  obtain ⟨hfewer, hnext⟩ := setLifecycleStatus_executions c' emit
  refine .fewer ((hfewer.trans moves.executions).map _) (hnext.trans ?_)
  rw [moves.state]

/-- What a branch does to the tracked processes. While the session is not being cancelled, the plan
holds tracked sessions. -/
theorem Handled.assigns (handled : Handled agent state event context nextId r)
    (sound : PlanSound state) (counted : Counted state) (holds : HoldsSessions state) :
    Assigns state r.state ∧ (r.state.cancellation = none → HoldsSessions r.state) := by
  have quiet (tracks : TracksAs state r.state) (noPlan : planOf r.state = none) :
      Assigns state r.state ∧ (r.state.cancellation = none → HoldsSessions r.state) :=
    ⟨.same tracks.executions tracks.next, fun _ => holds_of_none noPlan⟩
  cases handled with
  | @steered message active kind user turn =>
    refine ⟨.same rfl rfl, fun _ plan hplan => ?_⟩
    obtain ⟨_, hactive, hphase⟩ := ToolExecution.planOf_some.mp hplan
    cases hactive
    exact holds plan (ToolExecution.planOf_some.mpr ⟨active, turn, hphase⟩)
  | compactFirst | failCompacting | retry | install | compactAgain => exact quiet ⟨rfl, rfl⟩ rfl
  | @start message =>
    have estimated := addLatestProjectionEstimate_tracksAs agent (pushMessage state message)
    exact quiet ⟨estimated.executions, estimated.next⟩ rfl
  | failAwaiting _ _ _ _ base =>
    rcases base with rfl | ⟨response, rfl⟩
    · exact quiet ⟨rfl, rfl⟩ rfl
    · have recorded := recordResponse_tracksAs state response
      exact quiet ⟨recorded.executions, recorded.next⟩ rfl
  | @idle _ response =>
    have recorded := recordResponse_tracksAs state response
    exact quiet ⟨recorded.executions, recorded.next⟩ rfl
  | @respond _ response _ _ _ _ _ _ _ _ _ boundary =>
    exact quiet ((recordResponse_tracksAs state response).trans boundary.tracksAs) boundary.planOf
  | @refused _ response _ _ _ messages _ _ _ _ _ _ _ _ _ boundary =>
    have appended := appendResults_tracksAs agent (recorded state response nextId) messages
    exact quiet (((recordResponse_tracksAs state response).trans appended).trans
      boundary.tracksAs) boundary.planOf
  | @plan _ response active _ plan _ _ _ _ _ planned _ ran =>
    have recorded := recordResponse_tracksAs state response
    have planning : TracksAs state { recordResponse state response with
        activeTurn := some { active with phase := .executingTools plan } } :=
      ⟨recorded.executions, recorded.next⟩
    obtain ⟨hrest, htracks⟩ := ran.holds rfl (ToolPlan.parse_sound planned).1
      (counted.step (.same planning.executions planning.next)) (holds_of_parsed planned)
    have tracks := planning.trans htracks
    exact ⟨.same tracks.executions tracks.next, fun _ => hrest⟩
  | execution _ applied ran =>
    obtain ⟨active, plan, call, progress, status, state'', hactive, hphase, -⟩ :=
      ToolExecution.applyCompletion_ok applied
    have hplan := ToolExecution.planOf_some.mpr ⟨active, hactive, hphase⟩
    obtain ⟨hassigns, hholds⟩ :=
      ToolExecution.applyCompletion_holds hplan (sound plan hplan).1 counted holds applied
    obtain ⟨plan', hplan', hsound, -⟩ :=
      ToolExecution.applyCompletion_sound hplan (sound plan hplan).1 applied
    obtain ⟨hrest, tracks⟩ := ran.holds hplan' hsound (counted.step hassigns) hholds
    exact ⟨hassigns.congr tracks.executions tracks.next, fun _ => hrest⟩
  | cancel _ begun =>
    obtain ⟨c, targets, -, moves, rfl⟩ := begin_cleanup begun
    have fewer := moves.executions
    have next := congrArg BasicCodexState.nextExecutionSessionId moves.state
    obtain ⟨hfewer, hnext⟩ := setLifecycleStatus_executions { c with
      result := c.result.emitProgress (.object [("type", .string "cancellation_started"),
        ("targets", .nat targets.length), ("processes", .nat c.cancellation.processes.length)]) }
      true
    refine ⟨.fewer ((hfewer.trans fewer).map _) (hnext.trans next), fun uncancelled => ?_⟩
    rw [setLifecycleStatus_cancellation] at uncancelled
    cases uncancelled

/-- What an invocation that returns an outcome does to the tracked processes. -/
theorem Answered.assigns (answered : Answered agent state event context nextId r)
    (sound : PlanSound state) (counted : Counted state)
    (holds : state.cancellation = none → HoldsSessions state) :
    Assigns state r.state ∧ (r.state.cancellation = none → HoldsSessions r.state) := by
  cases answered with
  | failed _ silent | routed _ _ _ silent =>
    rw [silent.state]
    exact ⟨.same rfl rfl, holds⟩
  | @cleaned _ _ _ _ c _ _ _ applied =>
    have moves := Cancellation.applyCompletion_moves applied
    obtain ⟨hfewer, hnext⟩ := setLifecycleStatus_executions c true
    have next := congrArg BasicCodexState.nextExecutionSessionId moves.state
    refine ⟨.fewer ((hfewer.trans moves.executions).map _) (hnext.trans next), ?_⟩
    intro uncancelled
    rw [setLifecycleStatus_cancellation] at uncancelled
    cases uncancelled
  | running _ uncancelled handled => exact handled.assigns sound counted (holds uncancelled)

end Handler

namespace Session

open ShellTools (Assigns Counted)

variable {agent : Agent} {s t : Session} {d : Delivery}

/-- The tracked processes of a session and what its plan holds of them. -/
structure HoldsTracked (s : Session) : Prop where
  counted : Counted s.state
  holds : s.state.cancellation = none → ToolExecution.HoldsSessions s.state

theorem HoldsTracked.step (tracked : s.HoldsTracked) (reach : Reachable agent s)
    (step : Step agent s d t) : Assigns s.state t.state ∧ t.HoldsTracked := by
  obtain ⟨-, r, rfl, answered⟩ := step.answered
  rw [reach.dated.fillDate] at answered
  obtain ⟨assigns, holds⟩ := answered.assigns reach.kept.plans tracked.counted tracked.holds
  exact ⟨assigns, tracked.counted.step assigns, holds⟩

theorem Reachable.holdsTracked (reach : Reachable agent s) : s.HoldsTracked := by
  refine reach.induct ?_ ?_
  · intro id nextId
    refine ⟨⟨?_, List.nodup_nil⟩, fun _ => Handler.holds_of_none rfl⟩
    intro n hn
    cases hn
  · intro s d t reach tracked step
    exact (tracked.step reach step).2

end Session

end AgentPlatform.Harness
