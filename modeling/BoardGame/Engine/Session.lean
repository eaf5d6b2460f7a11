import BoardGame.Engine.Evaluation

/-!
Sessions: an engine with the snapshot that play has reached. Handling an event never changes a session:
an ignored event gives the very same session back, an applied one a new session. Which is which does not
depend on the snapshots, so a session bears a mark of its origin: the number that the caller gives to the
call that made it, and the count of events applied before it, which sets apart the sessions that one
call makes.
-/

namespace BoardGame

structure Session where
  engine : Engine
  snapshot : Snapshot
  lastEvent : Option Event := none
  lastDecision : Option Decision := none
  /-- How many events were applied. It has no bound here; that of a counter of 64 bits is out of reach. -/
  applied : Nat := 0
  /-- The number of the call that made the session. -/
  origin : Nat := 0

/-- Where a run of events stopped, and why. -/
structure Interruption where
  session : Session
  failure : Failure

namespace Session

/-- Whether two values are the same session, whatever their snapshots. The marks tell sessions apart
that are made in one line of play, by calls that bear different numbers. -/
def isSame (p q : Session) : Bool := p.origin = q.origin && p.applied = q.applied

def advance (p : Session) (call : Nat) (event : Event) (snapshot : Snapshot)
    (decision : Decision) : Session where
  engine := p.engine
  snapshot
  lastEvent := some event
  lastDecision := some decision
  applied := p.applied + 1
  origin := call

def handle (p : Session) (call : Nat) (event : Event) : Noted Note (Except Failure Session) := do
  match ← p.engine.evaluate p.snapshot event with
  | .ok .ignored =>
    Noted.note (.concluded .ignored)
    pure (.ok p)
  | .ok (.applied snapshot decision) =>
    Noted.note (.concluded (.applied decision))
    pure (.ok (p.advance call event snapshot decision))
  | .error failure =>
    Noted.note (.concluded (.failed failure))
    pure (.error failure)

/-- Handles events in order up to the first failure. -/
def handleAll (p : Session) (call : Nat) :
    List Event → Noted Note (Except Interruption Session)
  | [] => pure (.ok p)
  | event :: rest => do
    match ← p.handle call event with
    | .ok next => handleAll next call rest
    | .error failure => pure (.error ⟨p, failure⟩)

def inspect (p : Session) : String :=
  Inspect.openRecord "GameProgress"
    [("applied_events", toString p.applied),
      ("last_event", Inspect.option (p.lastEvent.map Event.inspect)),
      ("state", toString p.snapshot.fingerprint)]

end Session

end BoardGame
