import AgentPlatform.Store.OperationInvariant

/-!
# The book of waits

The waits of a session, and what its `wait_resumed` events announce of them. Whatever call runs, it
creates waits and finishes pending ones; `WaitBook.Step` says which, and at which clock each may.
-/

namespace AgentPlatform.Store

/-! ## Finished waits -/

/-- How a wait that is no longer pending was finished. -/
def WaitStatus.finish : WaitStatus → Option WaitFinish
  | .pending => none
  | .resolved => some .resolved
  | .expired => some .expired
  | .cancelled => some .cancelled

@[simp] theorem WaitFinish.finish_status (finish : WaitFinish) :
    finish.status.finish = some finish := by
  cases finish <;> rfl

/-- The entry finished the wait: the row of the wait is as the entry left it. -/
inductive Entry.Finished (codec : Codec) (entry : Entry) (w : WaitRow) : Prop
  /-- A response won, before the deadline. -/
  | resolved (key : String) (response : RawJson) (resolution : WaitResolution)
      (call : entry.call = .resolveWait w.id key response)
      (reply : entry.reply = .waitResolved resolution) (won : resolution.newlyResolved = true)
      (status : w.status = .resolved) (payload : w.resolutionPayload = some response)
      (winner : w.resolutionIdempotencyKey = some key)
      (hash : w.resolutionHash = some (codec.fingerprint response))
      (mode : WaitMode.resolvable w.mode = true)
      (before : ∀ deadline ∈ w.expiresAt, entry.clock.reading 0 < deadline)
  /-- The deadline had been reached. -/
  | expired (event : EventRecord) (call : entry.call = .expireWait w.id)
      (reply : entry.reply = .waitExpired (some event)) (status : w.status = .expired)
      (mode : WaitMode.expires w.mode = true) (deadline : Timestamp)
      (due : w.expiresAt = some deadline) (reached : deadline ≤ entry.clock.reading 0)
  /-- A handler cancelled it after the deadline. -/
  | overdue (claim : HandlerClaim) (outcome : OutcomeCommit)
      (call : entry.call = .commitHandlerOutcome claim outcome) (reply : entry.reply = .done)
      (asked : w.id ∈ outcome.cancelledWaits) (status : w.status = .expired)
      (mode : WaitMode.expires w.mode = true) (tick : Nat) (deadline : Timestamp)
      (due : w.expiresAt = some deadline) (reached : deadline ≤ entry.clock.reading tick)
  /-- A handler cancelled it, and no deadline had been reached. -/
  | cancelled (claim : HandlerClaim) (outcome : OutcomeCommit)
      (call : entry.call = .commitHandlerOutcome claim outcome) (reply : entry.reply = .done)
      (asked : w.id ∈ outcome.cancelledWaits) (status : w.status = .cancelled) (tick : Nat)
      (before : ∀ deadline ∈ w.expiresAt, entry.clock.reading tick < deadline)

/-- The same wait, which did not change if it had finished. -/
structure WaitRow.Later (w w' : WaitRow) : Prop where
  effect : w'.effect = w.effect
  settled : w.status ≠ .pending → w' = w

theorem WaitRow.Later.refl (w : WaitRow) : w.Later w := ⟨rfl, fun _ => rfl⟩

theorem WaitRow.Later.trans {w w' w'' : WaitRow} (h : w.Later w') (h' : w'.Later w'') :
    w.Later w'' where
  effect := h'.effect.trans h.effect
  settled hw := by
    have heq := h.settled hw
    rw [h'.settled (heq ▸ hw), heq]

theorem WaitRow.Later.id_eq {w w' : WaitRow} (h : w.Later w') : w'.id = w.id :=
  congrArg WaitEffect.id h.effect

/-! ## The book -/

/-- What a `wait_resumed` event announces: its wait, and the payload. -/
def EventRow.resumption (e : EventRow) : Option (Option WaitId × RawJson) :=
  if e.eventType = .waitResumed then some (e.waitId, e.payload) else none

/-- The waits of a session and the resumptions that its events announce, in order. -/
structure WaitBook where
  waits : List WaitRow
  resumed : List (Option WaitId × RawJson)

def Session.waitBook (s : Session) : WaitBook where
  waits := s.waits
  resumed := s.events.filterMap (·.resumption)

theorem Session.waitBook_of_sansUpdates {s s' : Session} (h : s'.sansUpdates = s.sansUpdates) :
    s'.waitBook = s.waitBook := by
  have : s'.sansUpdates.waitBook = s.sansUpdates.waitBook := congrArg Session.waitBook h
  exact this

/-- The same waits, under events that announce the same resumptions. -/
theorem Session.waitBook_of_events {s s' : Session} {events : List EventRow}
    (waits : s'.waits = s.waits) (added : s'.events = s.events ++ events)
    (silent : ∀ e ∈ events, e.resumption = none) : s'.waitBook = s.waitBook := by
  rw [Session.waitBook, Session.waitBook, waits, added, List.filterMap_append,
    List.filterMap_eq_nil_iff.mpr silent, List.append_nil]

/-- The same waits, under events that were rewritten in other columns. -/
theorem Session.waitBook_of_update {s s' : Session} {p : EventRow → Bool}
    {f : EventRow → EventRow} (waits : s'.waits = s.waits)
    (events : s'.events = Table.update p f s.events)
    (keeps : ∀ e, (f e).resumption = e.resumption) : s'.waitBook = s.waitBook := by
  rw [Session.waitBook, Session.waitBook, waits, events, Table.filterMap_update_of_eq keeps]

namespace WaitBook

/-- The payloads that the book announces for a wait. -/
def announced (b : WaitBook) (id : WaitId) : List RawJson :=
  b.resumed.filterMap fun r => if r.1 = some id then some r.2 else none

/-- Create a wait. -/
def create (b : WaitBook) (w : WaitRow) : WaitBook := { b with waits := b.waits ++ [w] }

/-- Finish a wait. -/
def finish (b : WaitBook) (id : WaitId) (f : WaitRow → WaitRow) (finish : WaitFinish) :
    WaitBook where
  waits := Table.update (·.id = id) f b.waits
  resumed := b.resumed ++ [(some id, waitPayload id finish)]

/-- What an entry does to a book; `taken` are the waits of the other sessions. -/
inductive Step (codec : Codec) (entry : Entry) (taken : WaitId → Prop) :
    WaitBook → WaitBook → Prop
  | create {b : WaitBook} (w : WaitRow) (pending : w.status = .pending)
      (deadline : WaitMode.expires w.mode = w.expiresAt.isSome)
      (fresh : ∀ w' ∈ b.waits, w'.id ≠ w.id) (untaken : ¬taken w.id) :
      Step codec entry taken b (b.create w)
  | finish {b : WaitBook} (w : WaitRow) (found : w ∈ b.waits) (pending : w.status = .pending)
      (f : WaitRow → WaitRow) (finish : WaitFinish) (keeps : ∀ w, (f w).effect = w.effect)
      (status : ∀ w, (f w).status = finish.status) (cause : entry.Finished codec (f w)) :
      Step codec entry taken b (b.finish w.id f finish)

/-- What an entry does to a book, all in all. -/
abbrev Steps (codec : Codec) (entry : Entry) (taken : WaitId → Prop) :
    WaitBook → WaitBook → Prop :=
  Relation.ReflTransGen (Step codec entry taken)

/-- Waits have different ids, exactly the modes with a deadline have one, and the book announces
the end of a wait exactly when it ended. -/
structure Sound (b : WaitBook) : Prop where
  unique : (b.waits.map (·.id)).Nodup
  deadline : ∀ w ∈ b.waits, WaitMode.expires w.mode = w.expiresAt.isSome
  announced : ∀ w ∈ b.waits, b.announced w.id = w.status.finish.toList.map (waitPayload w.id)
  owned : ∀ r ∈ b.resumed, ∃ w ∈ b.waits, r.1 = some w.id

variable {codec : Codec} {entry : Entry} {taken : WaitId → Prop} {b b' : WaitBook}

theorem announced_finish (b : WaitBook) (id id' : WaitId) (f : WaitRow → WaitRow)
    (finish : WaitFinish) :
    (b.finish id f finish).announced id' =
      b.announced id' ++ if id = id' then [waitPayload id finish] else [] := by
  by_cases h : id = id' <;> simp [announced, WaitBook.finish, h]

/-- A book that owns its resumptions announces nothing for a wait that it does not hold. -/
theorem Sound.announced_none (h : b.Sound) {id : WaitId} (absent : ∀ w ∈ b.waits, w.id ≠ id) :
    b.announced id = [] := by
  refine List.filterMap_eq_nil_iff.mpr fun r hr => ?_
  obtain ⟨w, hw, heq⟩ := h.owned r hr
  simp [heq, absent w hw]

theorem Step.sound (step : Step codec entry taken b b') (h : b.Sound) : b'.Sound := by
  cases step with
  | create w pending deadline fresh untaken =>
    refine ⟨?_, ?_, ?_, ?_⟩
    · show ((b.waits ++ [w]).map (·.id)).Nodup
      rw [List.map_append, List.nodup_append]
      refine ⟨h.unique, by simp, ?_⟩
      rintro x hx y hy rfl
      obtain ⟨w', hw', rfl⟩ := List.mem_map.mp hx
      exact fresh w' hw' (by simpa using hy)
    · intro w' hw'
      rcases List.mem_append.mp hw' with hold | hnew
      · exact h.deadline w' hold
      · exact List.mem_singleton.mp hnew ▸ deadline
    · intro w' hw'
      rcases List.mem_append.mp hw' with hold | hnew
      · exact h.announced w' hold
      · rw [List.mem_singleton.mp hnew, pending]
        exact h.announced_none fresh
    · intro r hr
      obtain ⟨w', hw', heq⟩ := h.owned r hr
      exact ⟨w', List.mem_append_left _ hw', heq⟩
  | finish w found pending f finish keeps status cause =>
    have hid (w' : WaitRow) : (f w').id = w'.id := congrArg WaitEffect.id (keeps w')
    refine ⟨?_, ?_, ?_, ?_⟩
    · show ((Table.update _ f b.waits).map (·.id)).Nodup
      rw [Table.map_update_of_eq hid]
      exact h.unique
    · intro w' hw'
      obtain ⟨w₀, hw₀, rfl⟩ := Table.mem_update.mp hw'
      have hmode : (f w₀).mode = w₀.mode := congrArg WaitEffect.mode (keeps w₀)
      have hexpires : (f w₀).expiresAt = w₀.expiresAt := congrArg WaitEffect.expiresAt (keeps w₀)
      split
      · rw [hmode, hexpires]
        exact h.deadline w₀ hw₀
      · exact h.deadline w₀ hw₀
    · intro w' hw'
      obtain ⟨w₀, hw₀, rfl⟩ := Table.mem_update.mp hw'
      by_cases hsame : w₀.id = w.id
      · have := Table.eq_of_key h.unique hw₀ found hsame
        subst this
        rw [if_pos (by simp), hid, status, announced_finish, if_pos rfl, h.announced w₀ hw₀,
          pending, WaitFinish.finish_status]
        rfl
      · rw [if_neg (by simpa using hsame), announced_finish, if_neg (Ne.symm hsame),
          List.append_nil]
        exact h.announced w₀ hw₀
    · intro r hr
      have hkept (w' : WaitRow) (hw' : w' ∈ b.waits) :
          ∃ w'' ∈ (b.finish w.id f finish).waits, w''.id = w'.id :=
        ⟨_, Table.mem_update.mpr ⟨w', hw', rfl⟩, by split <;> simp [hid]⟩
      rcases List.mem_append.mp hr with hold | hnew
      · obtain ⟨w', hw', heq⟩ := h.owned r hold
        obtain ⟨w'', hw'', hid'⟩ := hkept w' hw'
        exact ⟨w'', hw'', heq.trans (congrArg some hid'.symm)⟩
      · obtain ⟨w'', hw'', hid'⟩ := hkept w found
        exact ⟨w'', hw'', by rw [List.mem_singleton.mp hnew, hid']⟩

/-- No wait is lost, and a finished one does not change. -/
theorem Step.later (step : Step codec entry taken b b') (h : b.Sound) {w : WaitRow}
    (hw : w ∈ b.waits) : ∃ w' ∈ b'.waits, w.Later w' := by
  cases step with
  | create w' => exact ⟨w, List.mem_append_left _ hw, .refl w⟩
  | finish w₀ found pending f finish keeps status cause =>
    refine ⟨_, Table.mem_update.mpr ⟨w, hw, rfl⟩, ?_⟩
    by_cases hsame : w.id = w₀.id
    · have := Table.eq_of_key h.unique hw found hsame
      subst this
      rw [if_pos (by simp)]
      exact ⟨keeps w, fun hsettled => absurd pending hsettled⟩
    · rw [if_neg (by simpa using hsame)]
      exact .refl w

/-- A wait that is no longer pending was so before, or the entry finished it. -/
theorem Step.finished (step : Step codec entry taken b b') (h : b.Sound) {w' : WaitRow}
    (hw' : w' ∈ b'.waits) (settled : w'.status ≠ .pending) :
    w' ∈ b.waits ∨ entry.Finished codec w' := by
  cases step with
  | create w pending =>
    rcases List.mem_append.mp hw' with hold | hnew
    · exact .inl hold
    · exact absurd pending (List.mem_singleton.mp hnew ▸ settled)
  | finish w found pending f finish keeps status cause =>
    obtain ⟨w₀, hw₀, rfl⟩ := Table.mem_update.mp hw'
    by_cases hsame : w₀.id = w.id
    · have := Table.eq_of_key h.unique hw₀ found hsame
      subst this
      rw [if_pos (by simp)]
      exact .inr cause
    · rw [if_neg (by simpa using hsame)]
      exact .inl hw₀

/-- A new wait has an id that no other session uses. -/
theorem Step.origin (step : Step codec entry taken b b') {w' : WaitRow} (hw' : w' ∈ b'.waits) :
    (∃ w ∈ b.waits, w.id = w'.id) ∨ ¬taken w'.id := by
  cases step with
  | create w pending deadline fresh untaken =>
    rcases List.mem_append.mp hw' with hold | hnew
    · exact .inl ⟨w', hold, rfl⟩
    · exact .inr (List.mem_singleton.mp hnew ▸ untaken)
  | finish w found pending f finish keeps status cause =>
    obtain ⟨w₀, hw₀, rfl⟩ := Table.mem_update.mp hw'
    refine .inl ⟨w₀, hw₀, ?_⟩
    split
    · exact (congrArg WaitEffect.id (keeps w₀)).symm
    · rfl

theorem Steps.sound (steps : Steps codec entry taken b b') (h : b.Sound) : b'.Sound := by
  induction steps with
  | refl => exact h
  | tail _ step ih => exact step.sound ih

theorem Steps.later (steps : Steps codec entry taken b b') (h : b.Sound) {w : WaitRow}
    (hw : w ∈ b.waits) : ∃ w' ∈ b'.waits, w.Later w' := by
  induction steps with
  | refl => exact ⟨w, hw, .refl w⟩
  | tail before step ih =>
    obtain ⟨w₁, hw₁, hlater₁⟩ := ih
    obtain ⟨w₂, hw₂, hlater₂⟩ := step.later (Steps.sound before h) hw₁
    exact ⟨w₂, hw₂, hlater₁.trans hlater₂⟩

theorem Steps.finished (steps : Steps codec entry taken b b') (h : b.Sound) {w' : WaitRow}
    (hw' : w' ∈ b'.waits) (settled : w'.status ≠ .pending) :
    w' ∈ b.waits ∨ entry.Finished codec w' := by
  induction steps with
  | refl => exact .inl hw'
  | tail before step ih =>
    rcases step.finished (Steps.sound before h) hw' settled with hold | hfinished
    · exact ih hold
    · exact .inr hfinished

theorem Steps.origin (steps : Steps codec entry taken b b') {w' : WaitRow} (hw' : w' ∈ b'.waits) :
    (∃ w ∈ b.waits, w.id = w'.id) ∨ ¬taken w'.id := by
  induction steps generalizing w' with
  | refl => exact .inl ⟨w', hw', rfl⟩
  | tail before step ih =>
    rcases step.origin hw' with ⟨w₁, hw₁, hid⟩ | huntaken
    · rw [← hid]
      exact ih hw₁
    · exact .inr huntaken

end WaitBook

end AgentPlatform.Store
