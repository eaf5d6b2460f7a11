import BoardGame.Event
import BoardGame.Game
import BoardGame.Guard.Tree
import BoardGame.Snapshot.Basic

/-!
Tests of an event against a snapshot, which guard rules. The tests of moves have no opinion on any other
event, so they can stand beside tests written for other events.
-/

namespace BoardGame

structure CustomEventTest where
  name : String
  /-- The outcome that it always has, if it declares one. -/
  declared : Option Outcome := none
  /-- Whether its name is noted each time that it is asked. -/
  watched : Bool := false
  judge : Setting → Snapshot → Event → Verdict

inductive EventTest where
  | always
  | never
  | abstain
  /-- The moving piece belongs to the player who is to act. -/
  | ownedByActive
  | onSource
  | targetEmpty
  | routeClear
  /-- A piece of another owner stands where the move ends. -/
  | targetOpposed
  /-- The route is the one that the piece's movements give. -/
  | followsMovement
  | custom (t : CustomEventTest)

namespace MoveTest

variable (c : Setting) (s : Snapshot) (m : Move)

def ownedByActive : Verdict :=
  match s.activePlayer? with
  | none => .ignoring "no active player"
  | some player =>
    let owned := match c.game.artifact? m.piece with
      | some a => a.isOwnedBy player
      | none => false
    .check owned (m.piece ++ " is not owned by " ++ player)

def onSource : Verdict :=
  match s.tileOf? m.piece with
  | some tile =>
    .check (tile = m.source) (m.piece ++ " is on " ++ tile ++ ", not " ++ m.source)
  | none => .fail (m.piece ++ " is not on the board")

def targetEmpty : Verdict := .check (!s.isOccupied m.target) (m.target ++ " is occupied")

def routeClear : Verdict :=
  match m.route.between.find? s.isOccupied with
  | some tile => .fail ("path blocked at " ++ tile)
  | none => .valid

def targetOpposed : Verdict :=
  let others := (s.piecesOn m.target).filter (· ≠ m.piece)
  if others.isEmpty then .ignoring "destination is empty"
  else
    .check (others.any fun p => c.game.ownerOf? p ≠ c.game.ownerOf? m.piece)
      (m.target ++ " holds a friendly piece")

def followsMovement : Verdict :=
  match c.route? m.piece m.source m.target with
  | some route => .check (route = m.route) "path differs from the piece's movement pattern"
  | none => .fail (m.piece ++ " cannot reach " ++ m.target ++ " from " ++ m.source)

end MoveTest

namespace EventTest

def name : EventTest → String
  | always => "always"
  | never => "never"
  | abstain => "abstain"
  | ownedByActive => "piece-owned-by-active-player"
  | onSource => "piece-is-on-origin"
  | targetEmpty => "destination-is-empty"
  | routeClear => "path-is-clear"
  | targetOpposed => "destination-has-opponent"
  | followsMovement => "follows-movement-pattern"
  | custom t => t.name

def declared : EventTest → Option Outcome
  | always => some .valid
  | never => some .invalid
  | abstain => some .ignore
  | custom t => t.declared
  | _ => none

/-- The answer of a test of moves; no opinion on any other event. -/
def onMove (judge : Move → Verdict) : Event → Verdict
  | .move m => judge m
  | _ => .ignore

def judge (c : Setting) (s : Snapshot) (e : Event) : EventTest → Verdict
  | always => .valid
  | never => .fail "never"
  | abstain => .ignore
  | ownedByActive => onMove (MoveTest.ownedByActive c s) e
  | onSource => onMove (MoveTest.onSource s) e
  | targetEmpty => onMove (MoveTest.targetEmpty s) e
  | routeClear => onMove (MoveTest.routeClear s) e
  | targetOpposed => onMove (MoveTest.targetOpposed c s) e
  | followsMovement => onMove (MoveTest.followsMovement c) e
  | custom t => t.judge c s e

/-- A watched test notes its name. -/
def ask (c : Setting) (s : Snapshot) (e : Event) (t : EventTest) : Noted String Verdict :=
  ⟨t.judge c s e,
    match t with
    | custom { name, watched := true, .. } => [name]
    | _ => []⟩

end EventTest

abbrev EventGuard := Guard EventTest

namespace EventGuard

def always : EventGuard := .test .always

def settled? (g : EventGuard) : Option Outcome := Guard.settled? EventTest.declared g

def require (g h : EventGuard) : EventGuard := Guard.require EventTest.declared g h

def ask (c : Setting) (s : Snapshot) (e : Event) (g : EventGuard) : Noted String Verdict :=
  Guard.run (EventTest.ask c s e) g

def inspect (g : EventGuard) : String := Guard.inspect EventTest.name g

end EventGuard

end BoardGame
