import BoardGame.Event
import BoardGame.Game
import BoardGame.Snapshot.Edit

/-!
What rules do to a snapshot. An effect never fails: refusals belong in guards. Given an event that it is
not made for, a built-in effect leaves the snapshot as it is.
-/

namespace BoardGame

structure CustomEffect where
  name : String
  run : Setting → Snapshot → Event → Snapshot

inductive Effect where
  /-- Puts the moving piece on the tile where the move ends. -/
  | movePiece
  /-- Takes every other piece off that tile and marks it captured. -/
  | capture
  | setDice
  | rollDice
  | passTurn
  | custom (f : CustomEffect)

namespace Snapshot

def capture (s : Snapshot) (piece : ArtifactId) : Snapshot :=
  (s.remove piece .piece).putAll [.captured piece]

def captureAt (s : Snapshot) (m : Move) : Snapshot :=
  ((s.piecesOn m.target).filter (· ≠ m.piece)).foldl capture s

def moveTo (s : Snapshot) (m : Move) : Snapshot := s.putAll [.piece m.piece m.target]

def showFaces (s : Snapshot) (faces : List (ArtifactId × Int64)) : Snapshot :=
  s.putAll (faces.map fun p => .dice p.1 (some p.2))

/-- Without an active player the turn goes to the first player. -/
def passTurn (g : Game) (s : Snapshot) : Snapshot :=
  match s.activePlayer? with
  | some player =>
    match g.nextPlayer? player with
    | some next => s.putAll [.activePlayer player false, .activePlayer next true]
    | none => s
  | none =>
    match g.players.head? with
    | some next => s.putAll [.activePlayer next true]
    | none => s

end Snapshot

namespace Game

/-- The faces rolled for the dice among some names, each roll going on where the one before ended. -/
def rollAll (g : Game) : List ArtifactId → RollStream → List Status × RollStream
  | [], r => ([], r)
  | id :: rest, r =>
    match g.die? id with
    | none => rollAll g rest r
    | some die =>
      let (face, r) := r.roll die.faces
      let (statuses, r) := rollAll g rest r
      (.dice id (some face) :: statuses, r)

end Game

namespace Snapshot

/-- Rolls dice and keeps the position that the stream has reached. -/
def rollDice (g : Game) (s : Snapshot) (dice : List ArtifactId) : Snapshot :=
  let (statuses, r) := g.rollAll dice (RollStream.resume s.rolls)
  (s.putAll statuses).setRolls r.state

end Snapshot

namespace Effect

def name : Effect → String
  | movePiece => "move-piece"
  | capture => "capture-at-destination"
  | setDice => "set-dice-values"
  | rollDice => "roll-random-dice"
  | passTurn => "next-active-player"
  | custom f => f.name

def run (c : Setting) (s : Snapshot) (e : Event) : Effect → Snapshot
  | movePiece =>
    match e with
    | .move m => s.moveTo m
    | _ => s
  | capture =>
    match e with
    | .move m => s.captureAt m
    | _ => s
  | setDice =>
    match e with
    | .setDice faces => s.showFaces faces
    | _ => s
  | rollDice =>
    match e with
    | .rollDice dice => s.rollDice c.game dice
    | _ => s
  | passTurn => s.passTurn c.game
  | custom f => f.run c s e

/-- Effects in order, each on the snapshot that the one before left. -/
def runAll (c : Setting) (e : Event) (effects : List Effect) (s : Snapshot) : Snapshot :=
  effects.foldl (fun s f => f.run c s e) s

end Effect

end BoardGame
