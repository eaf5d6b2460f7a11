import BoardGame.Board.Movement
import BoardGame.Board.Route
import BoardGame.Sorted.Map

/-!
The fixed part of a game: its board, its players in turn order, and its artifacts, among them pieces
with their movements and dice with their faces.
-/

namespace BoardGame

structure Piece where
  artifact : Artifact
  movements : List Movement
  deriving Repr

structure Die where
  artifact : Artifact
  faces : UInt32
  deriving Repr

structure Game where
  board : Board := {}
  /-- In turn order. -/
  players : List ArtifactId := []
  artifacts : SortedMap ArtifactId Artifact := .empty
  pieces : SortedMap ArtifactId Piece := .empty
  dice : SortedMap ArtifactId Die := .empty

namespace Game

variable (g : Game)

def artifact? (id : ArtifactId) : Option Artifact := g.artifacts.get? id
def piece? (id : ArtifactId) : Option Piece := g.pieces.get? id
def die? (id : ArtifactId) : Option Die := g.dice.get? id

def ownerOf? (id : ArtifactId) : Option ArtifactId := (g.artifact? id).bind Artifact.owner

def isKind (id : ArtifactId) (kind : ArtifactKind) : Bool :=
  match g.artifact? id with
  | some a => a.kind = kind
  | none => false

/-- The player whose turn follows that of a player; after the last comes the first. -/
def nextPlayer? (player : ArtifactId) : Option ArtifactId := do
  let i ← g.players.idxOf? player
  g.players[(i + 1) % g.players.length]?

end Game

/-- What tests and effects may consult beside snapshot and event: the fixed part of the game and the
routes that its pieces have. Those that a game defines for itself are functions of these alone: that
none reads the configuration, the agenda or the observer is part of their type. -/
structure Setting where
  game : Game
  route? : (piece source target : ArtifactId) → Option Route

namespace Piece

def inspect (p : Piece) : String :=
  Inspect.record "Piece"
    [("artifact", p.artifact.inspect), ("patterns", Inspect.list (p.movements.map Movement.inspect))]

end Piece

namespace Die

def inspect (d : Die) : String :=
  Inspect.record "Dice" [("artifact", d.artifact.inspect), ("faces", toString d.faces)]

end Die

namespace Game

def inspectTable {α : Type} (inspect : α → String) (m : SortedMap ArtifactId α) : String :=
  Inspect.map (m.entries.map fun e => (Artifact.inspectId e.1, inspect e.2))

def inspect (g : Game) : String :=
  Inspect.record "Game"
    [("board", g.board.inspect), ("players", Inspect.list (g.players.map Artifact.inspectId)),
      ("artifacts", inspectTable Artifact.inspect g.artifacts),
      ("pieces", inspectTable Piece.inspect g.pieces), ("dice", inspectTable Die.inspect g.dice)]

end Game

end BoardGame
