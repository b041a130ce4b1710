import AgentPlatform.Store.Inbox

/-!
# Waits

A wait is pending until an external response resolves it, its deadline passes, or a handler cancels
it; each of the three inserts one `wait_resumed` event. `resolve_wait` and `expire_wait` find the
session through the wait and then lock its row.
-/

namespace AgentPlatform.Store

inductive WaitFinish where
  | resolved
  | expired
  | cancelled
deriving DecidableEq, Repr

/-- The `reason` that `insert_wait_event` writes. -/
def WaitFinish.reason : WaitFinish → String
  | .resolved => "resolved"
  | .expired => "expired"
  | .cancelled => "cancelled"

/-- The status a wait is left in. -/
def WaitFinish.status : WaitFinish → WaitStatus
  | .resolved => .resolved
  | .expired => .expired
  | .cancelled => .cancelled

structure WaitResolution where
  event : EventRecord
  newlyResolved : Bool
deriving DecidableEq, Repr

/-- The modes in which a deadline ends a wait. -/
def WaitMode.expires : WaitMode → Bool
  | .expiration | .either => true
  | .external => false

/-- The modes in which a response ends a wait. -/
def WaitMode.resolvable : WaitMode → Bool
  | .external | .either => true
  | .expiration => false

/-- The payload of a `wait.changed` update. -/
def waitChanged (waitId : WaitId) : Value := .object [("wait_id", .uuid waitId)]

/-- The payload of an `event.changed` update that only names the event. -/
def eventTouched (eventId : EventId) : Value := .object [("event_id", .uuid eventId)]

/-- The payload of a `wait_resumed` event. -/
def waitPayload (waitId : WaitId) (finish : WaitFinish) : RawJson :=
  "\x7b\"wait_id\":\"" ++ waitId.toText ++ "\",\"reason\":\"" ++ finish.reason ++ "\"\x7d"

/-- The row that `insert_wait_event` inserts. -/
def waitEvent (clock : Clock) (eventId : EventId) (waitId : WaitId) (sequence : EventSequence)
    (finish : WaitFinish) : EventRow :=
  { EventRow.new clock eventId sequence .waitResumed (waitPayload waitId finish) with
    waitId := some waitId }

/-- The session that owns a wait. -/
def Db.sessionOfWait (db : Db) (waitId : WaitId) : Option SessionId :=
  (db.sessions.find? fun s => s.waits.any (·.id = waitId)).map (·.id)

/-- Finish a pending wait and insert its event; the session row still counts the events. -/
def Session.finishWait (s : Session) (clock : Clock) (eventId : EventId) (waitId : WaitId)
    (sequence : EventSequence) (finish : WaitFinish) (finished : WaitRow → WaitRow) :
    Result (EventRow × Session) :=
  let s := s.updateWaits (·.id = waitId) fun w => { finished w with status := finish.status }
  let e := waitEvent clock eventId waitId sequence finish
  match s.insertEvent e with
  | .error error => .error error
  | .ok s => .ok (e, s)

/-- The two updates that announce a finished wait and its event. -/
def Session.announceWait (s : Session) (clock : Clock) (waitId : WaitId) (eventId : EventId) :
    Session :=
  (s.emitUpdate clock .waitChanged (waitChanged waitId)).emitUpdate clock .eventChanged
    (eventTouched eventId)

/-- A wait that a response may resolve now. -/
def WaitRow.resolvable (w : WaitRow) (now : Timestamp) : Bool :=
  w.status = .pending && WaitMode.resolvable w.mode && w.expiresAt.all fun deadline => now < deadline

/-- A wait whose deadline has passed. -/
def WaitRow.expired (w : WaitRow) (now : Timestamp) : Bool :=
  WaitMode.expires w.mode && w.expiresAt.any fun deadline => deadline ≤ now

/-- The body of `Store::resolve_wait`. -/
def Session.resolveWait (s : Session) (codec : Codec) (clock : Clock) (eventId : EventId)
    (waitId : WaitId) (idempotencyKey : String) (response : RawJson) :
    Result (WaitResolution × Session) :=
  match s.waits.find? (·.id = waitId) with
  | none => .error (.waitNotFound waitId)
  | some w =>
    if w.status = .resolved then
      if w.resolutionIdempotencyKey ≠ some idempotencyKey ∨
          w.resolutionHash ≠ some (codec.fingerprint response) then
        .error .idempotencyConflict
      else
        match s.events.find? fun e => e.waitId = some waitId && e.eventType = .waitResumed with
        | none => .error (.database .other)
        | some e => .ok ({ event := e.record s.id, newlyResolved := false }, s)
    else if !w.resolvable (clock.reading 0) then .error .waitNotResolvable
    else
      match s.finishWait clock eventId waitId s.nextEventSequence .resolved fun w =>
          { w with
            resolutionPayload := some response
            resolutionIdempotencyKey := some idempotencyKey
            resolutionHash := some (codec.fingerprint response)
            finishedAt := some clock.now } with
      | .error error => .error error
      | .ok (e, s) =>
        .ok ({ event := e.record s.id, newlyResolved := true },
          (s.advanceEventSequence clock).announceWait clock waitId eventId)

/-- `Store::resolve_wait`. -/
def Db.resolveWait (db : Db) (codec : Codec) (clock : Clock) (waitId : WaitId)
    (idempotencyKey : String) (response : RawJson) : Result (WaitResolution × Db) :=
  match db.sessionOfWait waitId with
  | none => .error (.waitNotFound waitId)
  | some sessionId =>
    db.transact sessionId 1 fun eventId s =>
      s.resolveWait codec clock eventId waitId idempotencyKey response

/-- The body of `Store::expire_wait`. -/
def Session.expireWait (s : Session) (clock : Clock) (eventId : EventId) (waitId : WaitId) :
    Result (Option EventRecord × Session) :=
  match s.waits.find? (·.id = waitId) with
  | none => .error (.waitNotFound waitId)
  | some w =>
    if w.status ≠ .pending ∨ !w.expired (clock.reading 0) then .ok (none, s)
    else
      match s.finishWait clock eventId waitId s.nextEventSequence .expired fun w =>
          { w with finishedAt := some clock.now } with
      | .error error => .error error
      | .ok (e, s) =>
        .ok (some (e.record s.id),
          (s.advanceEventSequence clock).announceWait clock waitId eventId)

/-- `Store::expire_wait`. -/
def Db.expireWait (db : Db) (clock : Clock) (waitId : WaitId) : Result (Option EventRecord × Db) :=
  match db.sessionOfWait waitId with
  | none => .error (.waitNotFound waitId)
  | some sessionId =>
    db.transact sessionId 1 fun eventId s => s.expireWait clock eventId waitId

end AgentPlatform.Store
