import AgentPlatform.Lib.FencedQueue
import AgentPlatform.Store.Run

/-!
# The inbox as a fenced queue

The part of a session that the inbox is made of, what a transaction can do to it, and the queue that
it stands for. The queue is the purpose of the component: events are handled once each, in the order
of their sequences, by one worker at a time. `Represents` reads a queue off the columns of the
tables, and every step of the tables is a step of the queue.
-/

namespace AgentPlatform.Store

/-- The columns and tables of a session that order and own its events. -/
structure Inbox where
  events : List EventRow
  attempts : List EventAttemptRow
  lease : Option SessionLease
  enabled : Bool
  next : EventSequence
  version : StateVersion

/-- The inbox of a session. -/
def Session.inbox (s : Session) : Inbox where
  events := s.events
  attempts := s.eventAttempts
  lease := s.lease
  enabled := s.processingEnabled
  next := s.nextEventSequence
  version := s.stateVersion

/-- The attempt of a worker, named by its id and its lease token. -/
abbrev AttemptKey := Uuid × Uuid

/-- The queue of a session: its events, its attempts, and the outcomes they commit. -/
abbrev EventQueue := FencedQueue EventId AttemptKey OutcomeCommit

abbrev EventAction := QueueAction EventId AttemptKey OutcomeCommit

/-! ## Steps of the tables -/

namespace Inbox

/-- The first event that is not handled. -/
def head (i : Inbox) : Option EventRow :=
  Table.firstBy (·.sequence) (i.events.filter fun e => e.status ≠ .handled)

/-- The attempts of a claim that still run. -/
def runs (key : AttemptKey) (a : EventAttemptRow) : Bool :=
  a.id = key.1 && a.leaseToken = key.2 && a.status = .running

/-- A rewriting of an event row that only moves it to `status`. -/
structure Moves (f : EventRow → EventRow) (status : EventStatus) : Prop where
  id : ∀ e, (f e).id = e.id
  sequence : ∀ e, (f e).sequence = e.sequence
  status : ∀ e, (f e).status = status

/-- A rewriting of an attempt row that only ends it with `status`. -/
structure Ends (g : EventAttemptRow → EventAttemptRow) (status : HandlerAttemptStatus) : Prop where
  key : ∀ a, ((g a).eventId, (g a).id, (g a).leaseToken) = (a.eventId, a.id, a.leaseToken)
  status : ∀ a, (g a).status = status

/-- What a transaction can do to an inbox. -/
inductive Step : Inbox → EventAction → Inbox → Prop
  /-- A new event, under the next sequence. -/
  | arrive {i : Inbox} (e : EventRow) (pending : e.status = .pending)
      (sequence : e.sequence = i.next) (fresh : ∀ e' ∈ i.events, e'.id ≠ e.id) :
      Step i (.arrive e.id) { i with events := i.events ++ [e], next := i.next + 1 }
  /-- A claim of the head event: a running attempt is abandoned, a new one starts. -/
  | claim {i : Inbox} (e : EventRow) (head : i.head = some e) (enabled : i.enabled = true)
      {f : EventRow → EventRow} (moves : Moves f .processing)
      {g : EventAttemptRow → EventAttemptRow} (ends : Ends g .abandoned)
      (lease : SessionLease) (event : lease.eventId = e.id)
      (a : EventAttemptRow) (runs : a.status = .running) (attempts : a.eventId = e.id)
      (token : a.leaseToken = lease.token) :
      Step i (.claim (a.id, a.leaseToken))
        { i with
          events := Table.update (fun e' => e'.id = e.id) f i.events
          attempts :=
            Table.update (fun a' => a'.eventId = e.id && a'.status = .running) g i.attempts ++ [a]
          lease := some lease }
  /-- A renewal moves the end of the lease. -/
  | renew {i : Inbox} (lease lease' : SessionLease) (held : i.lease = some lease)
      (event : lease'.eventId = lease.eventId) (token : lease'.token = lease.token) :
      Step i .keep { i with lease := some lease' }
  /-- The holder gives the event back. -/
  | release {i : Inbox} (lease : SessionLease) (held : i.lease = some lease) {eventId : EventId}
      (event : lease.eventId = eventId) (key : AttemptKey)
      (current : ∃ a ∈ i.attempts, Inbox.runs key a) {f : EventRow → EventRow}
      (moves : Moves f .pending) {g : EventAttemptRow → EventAttemptRow}
      {status : HandlerAttemptStatus} (ends : Ends g status)
      (ended : status = .errored ∨ status = .abandoned) :
      Step i .release
        { i with
          events := Table.update (fun e => e.id = eventId) f i.events
          attempts := Table.update (Inbox.runs key) g i.attempts
          lease := none }
  /-- The holder blocks the session on the event. -/
  | block {i : Inbox} (lease : SessionLease) (held : i.lease = some lease) {eventId : EventId}
      (event : lease.eventId = eventId) (key : AttemptKey)
      (current : ∃ a ∈ i.attempts, Inbox.runs key a) {f : EventRow → EventRow}
      (moves : Moves f .blocked) {g : EventAttemptRow → EventAttemptRow} (ends : Ends g .errored) :
      Step i .block
        { i with
          events := Table.update (fun e => e.id = eventId) f i.events
          attempts := Table.update (Inbox.runs key) g i.attempts
          lease := none
          enabled := false }
  /-- An operator lets the blocked event be tried again. -/
  | retry {i : Inbox} (e : EventRow) (head : i.head = some e) (blocked : e.status = .blocked)
      {f : EventRow → EventRow} (moves : Moves f .pending) :
      Step i .retry
        { i with events := Table.update (fun e' => e'.id = e.id) f i.events, enabled := true }
  /-- The holder commits an outcome. -/
  | commit {i : Inbox} (lease : SessionLease) (held : i.lease = some lease) {eventId : EventId}
      (event : lease.eventId = eventId) (key : AttemptKey)
      (current : ∃ a ∈ i.attempts, Inbox.runs key a) {f : EventRow → EventRow}
      (moves : Moves f .handled) {g : EventAttemptRow → EventAttemptRow} (ends : Ends g .committed)
      (outcome : OutcomeCommit) :
      Step i (.complete eventId key outcome)
        { i with
          events := Table.update (fun e => e.id = eventId) f i.events
          attempts := Table.update (Inbox.runs key) g i.attempts
          lease := none
          version := i.version + 1 }

end Inbox

/-! ## The queue that an inbox stands for -/

/-- The status of the front event. -/
def focusStatus : Focus AttemptKey → EventStatus
  | .free => .pending
  | .held _ => .processing
  | .blocked => .blocked

/-- The statuses of the events that wait: only the front one may be more than pending. -/
def waitingStatuses (q : EventQueue) : List EventStatus :=
  match q.waiting with
  | [] => []
  | _ :: rest => focusStatus q.focus :: rest.map fun _ => .pending

/-- The event and the key of an attempt. -/
def EventAttemptRow.key (a : EventAttemptRow) : EventId × AttemptKey := (a.eventId, a.id, a.leaseToken)

/-- Only the current attempt runs, and it is the newest. -/
def OnlyRuns (attempts : List EventAttemptRow) : Option (EventId × AttemptKey) → Prop
  | none => ∀ a ∈ attempts, a.status ≠ .running
  | some current => ∃ before a, attempts = before ++ [a] ∧ a.status = .running ∧ a.key = current ∧
      ∀ b ∈ before, b.status ≠ .running

/-- The attempts that committed, by event and key. -/
def committedKeys (attempts : List EventAttemptRow) : List (EventId × AttemptKey) :=
  (attempts.filter fun a => a.status = .committed).map (·.key)

/-- Ending the running attempts of the current event leaves no attempt running and commits none. -/
theorem OnlyRuns.abandon {attempts : List EventAttemptRow} {current : Option (EventId × AttemptKey)}
    (h : OnlyRuns attempts current) {x : EventId} (front : ∀ c ∈ current, c.1 = x)
    {g : EventAttemptRow → EventAttemptRow} (ends : Inbox.Ends g .abandoned) :
    let ended := Table.update (fun a => a.eventId = x && a.status = .running) g attempts
    (∀ a ∈ ended, a.status ≠ .running) ∧ committedKeys ended = committedKeys attempts := by
  constructor
  · intro a ha
    obtain ⟨a₀, ha₀, rfl⟩ := Table.mem_update.mp ha
    split
    · rw [ends.status]
      simp
    · rename_i hsel
      intro hrun
      cases current with
      | none => exact h a₀ ha₀ hrun
      | some c =>
        obtain ⟨before, last, rfl, -, hkey, hbefore⟩ := h
        rcases List.mem_append.mp ha₀ with hin | hlast
        · exact hbefore a₀ hin hrun
        · rw [List.mem_singleton.mp hlast] at hsel hrun
          have : last.eventId = x := by
            rw [← front c rfl, ← hkey]
            rfl
          simp [this, hrun] at hsel
  · unfold committedKeys
    rw [Table.filter_update_of_not]
    intro a _ hsel
    simp only [Bool.and_eq_true, decide_eq_true_eq] at hsel
    simp [hsel.2, ends.status]

/-- The key of an attempt that runs names the newest attempt, and an update under it writes that one
alone. -/
theorem OnlyRuns.update_runs {attempts : List EventAttemptRow} {c : EventId × AttemptKey}
    (h : OnlyRuns attempts (some c)) {key : AttemptKey}
    (current : ∃ a ∈ attempts, Inbox.runs key a = true) (g : EventAttemptRow → EventAttemptRow) :
    key = c.2 ∧ ∃ before last, attempts = before ++ [last] ∧ last.status = .running ∧
      last.key = c ∧ (∀ b ∈ before, b.status ≠ .running) ∧
      Table.update (Inbox.runs key) g attempts = before ++ [g last] := by
  obtain ⟨before, last, rfl, hlast, hkey, hbefore⟩ := h
  have hnot : ∀ b ∈ before, Inbox.runs key b = false := by
    intro b hb
    simp [Inbox.runs, hbefore b hb]
  have hruns : Inbox.runs key last = true := by
    obtain ⟨a, ha, hrun⟩ := current
    rcases List.mem_append.mp ha with hin | hin
    · rw [hnot a hin] at hrun
      cases hrun
    · rwa [List.mem_singleton.mp hin] at hrun
  refine ⟨?_, before, last, rfl, hlast, hkey, hbefore, ?_⟩
  · simp only [Inbox.runs, Bool.and_eq_true, decide_eq_true_eq] at hruns
    rw [← hkey]
    exact Prod.ext hruns.1.1.symm hruns.1.2.symm
  · rw [Table.update_append, Table.update_of_none hnot, Table.update_cons]
    simp [hruns]

/-- Ending the attempt of the holder ends the one that runs, which is the newest. -/
theorem OnlyRuns.finish {attempts : List EventAttemptRow} {c : EventId × AttemptKey}
    (h : OnlyRuns attempts (some c)) {key : AttemptKey}
    (current : ∃ a ∈ attempts, Inbox.runs key a = true) {g : EventAttemptRow → EventAttemptRow}
    {status : HandlerAttemptStatus} (ends : Inbox.Ends g status) (ended : status ≠ .running) :
    key = c.2 ∧ (∀ a ∈ Table.update (Inbox.runs key) g attempts, a.status ≠ .running) ∧
      committedKeys (Table.update (Inbox.runs key) g attempts) =
        committedKeys attempts ++ if status = .committed then [c] else [] := by
  obtain ⟨hk, before, last, hattempts, hlast, hkey, hbefore, hupdate⟩ := h.update_runs current g
  have hgkey : (g last).key = c := (ends.key last).trans hkey
  rw [hupdate, hattempts]
  refine ⟨hk, ?_, ?_⟩
  · intro a ha
    rcases List.mem_append.mp ha with hin | hin
    · exact hbefore a hin
    · rw [List.mem_singleton.mp hin, ends.status]
      exact ended
  · by_cases hc : status = .committed
    · simp [committedKeys, List.filter_append, hlast, ends.status, hc, hgkey]
    · simp [committedKeys, List.filter_append, hlast, ends.status, hc]

/-- The columns of an inbox spell a queue. -/
structure Represents (i : Inbox) (q : EventQueue) : Prop where
  ids : i.events.map (·.id) = q.items
  distinct : q.items.Nodup
  statuses : i.events.map (·.status) = q.done.map (fun _ => .handled) ++ waitingStatuses q
  sequences : i.events.map (·.sequence) = List.range' 1 i.events.length
  next : i.next = i.events.length + 1
  version : i.version = q.done.length
  enabled : i.enabled = true ↔ q.focus ≠ .blocked
  lease : i.lease.map (fun l => (l.eventId, l.token)) = q.current.map fun c => (c.1, c.2.2)
  running : OnlyRuns i.attempts q.current
  committed : committedKeys i.attempts = q.done.map fun d => (d.1, d.2.1)
  attempted : ∀ a ∈ i.attempts, a.eventId ∈ q.done.map (·.1) ∨ q.waiting.head? = some a.eventId

namespace Represents

variable {i : Inbox} {q : EventQueue}

/-- The inbox of a new session is the empty queue. -/
theorem create (clock : Clock) (session : NewSession) :
    Represents (Session.create clock session).inbox FencedQueue.empty where
  ids := rfl
  distinct := List.nodup_nil
  statuses := rfl
  sequences := rfl
  next := rfl
  version := rfl
  enabled := by simp [Session.inbox, Session.create, FencedQueue.empty]
  lease := rfl
  running := nofun
  committed := rfl
  attempted := by simp [Session.inbox, Session.create]

/-- The events of an inbox ascend. -/
theorem ascending (h : Represents i q) :
    i.events.Pairwise fun a b => a.sequence < b.sequence := by
  have : (i.events.map (·.sequence)).Pairwise (· < ·) := by
    rw [h.sequences]
    exact List.pairwise_lt_range'
  exact List.pairwise_map.mp this

/-- The rows split where the queue does: handled events, then the waiting ones. -/
theorem split (h : Represents i q) :
    ∃ handled waiting, i.events = handled ++ waiting ∧ handled.map (·.id) = q.done.map (·.1) ∧
      waiting.map (·.id) = q.waiting ∧ handled.map (·.status) = q.done.map (fun _ => .handled) ∧
      waiting.map (·.status) = waitingStatuses q := by
  obtain ⟨handled, waiting, hevents, hids, hwaiting⟩ := List.map_eq_append_iff.mp h.ids
  have hstatuses := h.statuses
  rw [hevents, List.map_append] at hstatuses
  have hlen : handled.length = q.done.length := by simpa using congrArg List.length hids
  obtain ⟨hhandled, hrest⟩ := List.append_inj hstatuses (by simpa using hlen)
  exact ⟨handled, waiting, hevents, hids, hwaiting, hhandled, hrest⟩

/-- No waiting event is handled. -/
theorem waiting_not_handled {q : EventQueue} {status : EventStatus}
    (h : status ∈ waitingStatuses q) : status ≠ .handled := by
  unfold waitingStatuses at h
  cases hw : q.waiting with
  | nil => simp [hw] at h
  | cons x rest =>
    simp only [hw, List.mem_cons, List.mem_map] at h
    rcases h with rfl | ⟨_, _, rfl⟩
    · cases q.focus <;> simp [focusStatus]
    · simp

/-- The head of the inbox is the front of the queue, in the status of its focus. -/
theorem head_eq (h : Represents i q) :
    i.head.map (fun e => (e.id, e.status)) =
      q.waiting.head?.map fun item => (item, focusStatus q.focus) := by
  obtain ⟨handled, waiting, hevents, -, hids, hhandled, hstatuses⟩ := h.split
  have hascending := h.ascending
  rw [hevents] at hascending
  have hfilter : i.events.filter (fun e => e.status ≠ .handled) = waiting := by
    have hnone : handled.filter (fun e => e.status ≠ .handled) = [] := by
      refine List.filter_eq_nil_iff.mpr fun e he => ?_
      have : e.status ∈ q.done.map fun _ => EventStatus.handled :=
        hhandled ▸ List.mem_map_of_mem he
      obtain ⟨_, _, hstatus⟩ := List.mem_map.mp this
      simp [← hstatus]
    have hall : waiting.filter (fun e => e.status ≠ .handled) = waiting := by
      refine List.filter_eq_self.mpr fun e he => ?_
      have := waiting_not_handled (hstatuses ▸ List.mem_map_of_mem (f := fun e : EventRow => e.status) he)
      simpa using this
    rw [hevents, List.filter_append, hnone, hall, List.nil_append]
  have hhead : i.head = waiting.head? := by
    unfold Inbox.head
    rw [hfilter]
    exact Table.firstBy_of_ascending (List.pairwise_append.mp hascending).2.1
  rw [hhead]
  cases waiting with
  | nil => simp [← hids]
  | cons e rest =>
    have hw : q.waiting = e.id :: rest.map (·.id) := by simpa using hids.symm
    have hs : e.status = focusStatus q.focus := by
      simp only [List.map_cons, waitingStatuses, hw] at hstatuses
      exact (List.cons.inj hstatuses).1
    simp [hw, hs]

/-- What the head of the inbox says about the queue. -/
theorem of_head (h : Represents i q) {e : EventRow} (head : i.head = some e) :
    ∃ rest, q.waiting = e.id :: rest ∧ focusStatus q.focus = e.status := by
  have heq := h.head_eq
  rw [head] at heq
  cases hw : q.waiting with
  | nil => simp [hw] at heq
  | cons item rest =>
    simp only [hw, List.head?_cons, Option.map_some, Option.some.injEq, Prod.mk.injEq] at heq
    exact ⟨rest, by rw [heq.1], heq.2.symm⟩

/-- What a lease says about the queue: the front event is held under its token. -/
theorem of_lease (h : Represents i q) {lease : SessionLease} (held : i.lease = some lease) :
    ∃ rest attemptId, q.waiting = lease.eventId :: rest ∧
      q.focus = .held (attemptId, lease.token) := by
  have heq := h.lease
  rw [held] at heq
  unfold FencedQueue.current at heq
  split at heq
  · rename_i item rest token hw hf
    simp only [Option.map_some, Option.some.injEq, Prod.mk.injEq] at heq
    exact ⟨rest, token.1, by rw [hw, heq.1], by rw [hf, heq.2]⟩
  · simp at heq

/-! ## One step of each kind -/

theorem arrive {done : List (EventId × AttemptKey × OutcomeCommit)} {waiting : List EventId}
    {focus : Focus AttemptKey} {idle : waiting = [] → focus = .free}
    (h : Represents i ⟨done, waiting, focus, idle⟩) (e : EventRow) (pending : e.status = .pending)
    (sequence : e.sequence = i.next) (fresh : ∀ e' ∈ i.events, e'.id ≠ e.id)
    (idle' : waiting ++ [e.id] = [] → focus = .free) :
    Represents { i with events := i.events ++ [e], next := i.next + 1 }
      ⟨done, waiting ++ [e.id], focus, idle'⟩ where
  ids := by simp [FencedQueue.items, h.ids]
  distinct := by
    have hnot : e.id ∉ i.events.map (·.id) := by simpa using fresh
    rw [h.ids] at hnot
    have : FencedQueue.items ⟨done, waiting ++ [e.id], focus, idle'⟩ =
        FencedQueue.items ⟨done, waiting, focus, idle⟩ ++ [e.id] := by
      simp [FencedQueue.items]
    rw [this, List.nodup_append]
    refine ⟨h.distinct, by simp, ?_⟩
    rintro x hx y hy rfl
    exact hnot (by simpa [List.mem_singleton.mp hy] using hx)
  statuses := by
    rw [List.map_append, h.statuses]
    cases waiting with
    | nil => simp [waitingStatuses, idle rfl, focusStatus, pending]
    | cons x rest => simp [waitingStatuses, pending]
  sequences := by
    simp [h.sequences, sequence, h.next, List.range'_concat, Nat.add_comm]
  next := by simp [h.next]
  version := h.version
  enabled := h.enabled
  lease := by
    have := h.lease
    cases waiting with
    | nil => simpa [FencedQueue.current, idle rfl] using this
    | cons x rest => cases focus <;> simpa [FencedQueue.current] using this
  running := by
    have := h.running
    cases waiting with
    | nil => simpa [FencedQueue.current, idle rfl] using this
    | cons x rest => cases focus <;> simpa [FencedQueue.current] using this
  committed := h.committed
  attempted := by
    intro a ha
    rcases h.attempted a ha with hdone | hfront
    · exact .inl hdone
    · refine .inr ?_
      cases waiting with
      | nil => simp at hfront
      | cons x rest => simpa using hfront

/-- The status column after the front event moves. -/
theorem move_front {done : List (EventId × AttemptKey × OutcomeCommit)} {x : EventId}
    {rest : List EventId} {focus : Focus AttemptKey} {idle : x :: rest = [] → focus = .free}
    (h : Represents i ⟨done, x :: rest, focus, idle⟩) {f : EventRow → EventRow}
    {status : EventStatus} (moves : Inbox.Moves f status) :
    (Table.update (fun e => e.id = x) f i.events).map (·.status) =
      done.map (fun _ => .handled) ++ status :: rest.map fun _ => .pending := by
  have unique : (i.events.map (·.id)).Nodup := h.ids ▸ h.distinct
  exact Table.map_update_key unique h.ids h.statuses (by simp) moves.status

theorem claim {done : List (EventId × AttemptKey × OutcomeCommit)} {rest : List EventId}
    {focus : Focus AttemptKey} (e : EventRow) {idle : e.id :: rest = [] → focus = .free}
    (h : Represents i ⟨done, e.id :: rest, focus, idle⟩) (unblocked : focus ≠ .blocked)
    {f : EventRow → EventRow} (moves : Inbox.Moves f .processing)
    {g : EventAttemptRow → EventAttemptRow} (ends : Inbox.Ends g .abandoned)
    (lease : SessionLease) (event : lease.eventId = e.id) (a : EventAttemptRow)
    (runs : a.status = .running) (attempts : a.eventId = e.id) (token : a.leaseToken = lease.token)
    (idle' : e.id :: rest = [] → Focus.held (a.id, a.leaseToken) = .free) :
    Represents
      { i with
        events := Table.update (fun e' => e'.id = e.id) f i.events
        attempts :=
          Table.update (fun a' => a'.eventId = e.id && a'.status = .running) g i.attempts ++ [a]
        lease := some lease }
      ⟨done, e.id :: rest, .held (a.id, a.leaseToken), idle'⟩ := by
  have hfront : ∀ c ∈ FencedQueue.current ⟨done, e.id :: rest, focus, idle⟩, c.1 = e.id := by
    intro c hc
    cases focus <;> simp [FencedQueue.current] at hc
    rw [← hc]
  obtain ⟨hnone, hcommitted⟩ := h.running.abandon hfront ends
  refine
    { ids := by rw [Table.map_update_of_eq moves.id]; exact h.ids
      distinct := h.distinct
      statuses := h.move_front moves
      sequences := by
        rw [Table.map_update_of_eq moves.sequence, Table.length_update]
        exact h.sequences
      next := by rw [Table.length_update]; exact h.next
      version := h.version
      enabled := ?_
      lease := by simp [FencedQueue.current, event, token]
      running := ⟨_, a, rfl, runs, by simp [EventAttemptRow.key, attempts], hnone⟩
      committed := ?_
      attempted := ?_ }
  · simpa [unblocked] using h.enabled
  · have : committedKeys [a] = [] := by simp [committedKeys, runs]
    unfold committedKeys at *
    rw [List.filter_append, List.map_append, this, List.append_nil, hcommitted]
    exact h.committed
  · intro b hb
    rcases List.mem_append.mp hb with hin | hin
    · obtain ⟨b₀, hb₀, rfl⟩ := Table.mem_update.mp hin
      have heq : (if (b₀.eventId = e.id && b₀.status = .running) = true then g b₀ else b₀).eventId =
          b₀.eventId := by
        split
        · exact congrArg Prod.fst (ends.key b₀)
        · rfl
      rw [heq]
      exact h.attempted b₀ hb₀
    · rw [List.mem_singleton.mp hin, attempts]
      exact .inr rfl

theorem renew (h : Represents i q) {lease lease' : SessionLease} (held : i.lease = some lease)
    (event : lease'.eventId = lease.eventId) (token : lease'.token = lease.token) :
    Represents { i with lease := some lease' } q :=
  { h with
    lease := by
      have := h.lease
      rw [held] at this
      simpa [event, token] using this }

/-- The holder ends its attempt and lets go of the front event. -/
theorem leave {done : List (EventId × AttemptKey × OutcomeCommit)} {x : EventId}
    {rest : List EventId} {k : AttemptKey} {idle : x :: rest = [] → Focus.held k = .free}
    (h : Represents i ⟨done, x :: rest, .held k, idle⟩) {key : AttemptKey}
    (current : ∃ a ∈ i.attempts, Inbox.runs key a = true) {f : EventRow → EventRow}
    {status : EventStatus} (moves : Inbox.Moves f status) {g : EventAttemptRow → EventAttemptRow}
    {ended : HandlerAttemptStatus} (ends : Inbox.Ends g ended) (stopped : ended ≠ .running)
    {q' : EventQueue} (items : q'.items = done.map (·.1) ++ x :: rest)
    (front : q'.current = none)
    (statuses : q'.done.map (fun _ => EventStatus.handled) ++ waitingStatuses q' =
      done.map (fun _ => .handled) ++ status :: rest.map fun _ => .pending)
    (completed : (q'.done.map fun d => (d.1, d.2.1)) =
      (done.map fun d => (d.1, d.2.1)) ++ if ended = .committed then [(x, k)] else [])
    (attempted : ∀ e, e ∈ done.map (·.1) ∨ e = x →
      e ∈ q'.done.map (·.1) ∨ q'.waiting.head? = some e)
    {enabled : Bool} (focus : enabled = true ↔ q'.focus ≠ .blocked) {version : StateVersion}
    (counted : version = q'.done.length) :
    Represents
      { i with
        events := Table.update (fun e => e.id = x) f i.events
        attempts := Table.update (Inbox.runs key) g i.attempts
        lease := none
        enabled
        version } q' := by
  have hrunning : OnlyRuns i.attempts (some (x, k)) := h.running
  obtain ⟨-, hnone, hcommitted⟩ := hrunning.finish current ends stopped
  refine
    { ids := by rw [Table.map_update_of_eq moves.id, items]; exact h.ids
      distinct := items ▸ h.distinct
      statuses := by rw [h.move_front moves, statuses]
      sequences := by
        rw [Table.map_update_of_eq moves.sequence, Table.length_update]
        exact h.sequences
      next := by rw [Table.length_update]; exact h.next
      version := counted
      enabled := focus
      lease := by simp [front]
      running := by rw [front]; exact hnone
      committed := by rw [hcommitted, completed, h.committed]
      attempted := ?_ }
  intro b hb
  obtain ⟨b₀, hb₀, rfl⟩ := Table.mem_update.mp hb
  have heq : (if Inbox.runs key b₀ = true then g b₀ else b₀).eventId = b₀.eventId := by
    split
    · exact congrArg Prod.fst (ends.key b₀)
    · rfl
  rw [heq]
  refine attempted _ ?_
  rcases h.attempted b₀ hb₀ with hdone | hfront
  · exact .inl hdone
  · exact .inr (by simpa using hfront.symm)

/-- A blocked front event becomes pending again. -/
theorem retry {done : List (EventId × AttemptKey × OutcomeCommit)} {x : EventId}
    {rest : List EventId} {idle : x :: rest = [] → Focus.blocked = .free}
    (h : Represents i ⟨done, x :: rest, .blocked, idle⟩) {f : EventRow → EventRow}
    (moves : Inbox.Moves f .pending) (idle' : x :: rest = [] → Focus.free = .free) :
    Represents { i with events := Table.update (fun e => e.id = x) f i.events, enabled := true }
      ⟨done, x :: rest, .free, idle'⟩ where
  ids := by rw [Table.map_update_of_eq moves.id]; exact h.ids
  distinct := h.distinct
  statuses := h.move_front moves
  sequences := by
    rw [Table.map_update_of_eq moves.sequence, Table.length_update]
    exact h.sequences
  next := by rw [Table.length_update]; exact h.next
  version := h.version
  enabled := by simp
  lease := h.lease
  running := h.running
  committed := h.committed
  attempted := h.attempted

/-- Every step of the tables is the step of the queue with the same label. -/
theorem step (h : Represents i q) {a : EventAction} {i' : Inbox} (step : Inbox.Step i a i') :
    ∃ q', FencedQueue.Step q a q' ∧ Represents i' q' := by
  cases step with
  | arrive e pending sequence fresh =>
    exact ⟨_, .arrive e.id, h.arrive e pending sequence fresh _⟩
  | claim e head enabled moves ends lease event a runs attempts token =>
    obtain ⟨done, waiting, focus, idle⟩ := q
    obtain ⟨rest, rfl, -⟩ := h.of_head head
    have unblocked : focus ≠ .blocked := h.enabled.mp enabled
    exact ⟨_, .claim (a.id, a.leaseToken) unblocked,
      h.claim e unblocked moves ends lease event a runs attempts token _⟩
  | renew lease lease' held event token => exact ⟨q, .keep q, h.renew held event token⟩
  | release lease held event key current moves ends ended =>
    subst event
    obtain ⟨done, waiting, focus, idle⟩ := q
    obtain ⟨rest, attemptId, rfl, rfl⟩ := h.of_lease held
    refine ⟨_, .release, h.leave current moves ends (by rcases ended with rfl | rfl <;> simp)
      rfl rfl rfl ?_ (by simp [eq_comm]) ?_ h.version⟩
    · rcases ended with rfl | rfl <;> simp
    · simpa using h.enabled
  | block lease held event key current moves ends =>
    subst event
    obtain ⟨done, waiting, focus, idle⟩ := q
    obtain ⟨rest, attemptId, rfl, rfl⟩ := h.of_lease held
    exact ⟨_, .block, h.leave current moves ends (by simp) rfl rfl rfl (by simp)
      (by simp [eq_comm]) (by simp) h.version⟩
  | retry e head blocked moves =>
    obtain ⟨done, waiting, focus, idle⟩ := q
    obtain ⟨rest, rfl, hfocus⟩ := h.of_head head
    have : focus = .blocked := by
      cases focus <;> simp_all [focusStatus]
    subst this
    exact ⟨_, .retry, h.retry moves _⟩
  | commit lease held event key current moves ends outcome =>
    subst event
    obtain ⟨done, waiting, focus, idle⟩ := q
    obtain ⟨rest, attemptId, rfl, rfl⟩ := h.of_lease held
    have hrunning : OnlyRuns i.attempts (some (lease.eventId, attemptId, lease.token)) := h.running
    obtain ⟨rfl, -, -⟩ := hrunning.finish current ends (by simp)
    refine ⟨_, .complete outcome, h.leave current moves ends (by simp) (by simp [FencedQueue.items])
      (by cases rest <;> rfl) ?_ (by simp) ?_ ?_ (by simp [h.version])⟩
    · cases rest <;> simp [waitingStatuses, focusStatus]
    · rintro e (hdone | rfl)
      · exact .inl (by simpa using .inl (by simpa using hdone))
      · exact .inl (by simp)
    · simpa using h.enabled

end Represents

end AgentPlatform.Store
