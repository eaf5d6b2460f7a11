import BoardGame.Engine.Basic
import BoardGame.Snapshot.Basic

/-!
Blueprints: the declarations that describe a game, in the order in which they were made within each
kind. Declaring something touches only the list of its kind.
-/

namespace BoardGame

/-- A movement as declared: directions and the shape that they are meant in. -/
structure MovementDecl where
  directions : List DirectionId
  repeatable : Bool := false
  sequence : Bool := false
  deriving DecidableEq, Repr

namespace MovementDecl

def direction (d : DirectionId) : MovementDecl := { directions := [d] }
def anyOf (directions : List DirectionId) : MovementDecl := { directions }
def steps (directions : List DirectionId) : MovementDecl := { directions, sequence := true }
def repeated (m : MovementDecl) : MovementDecl := { m with repeatable := true }

def assemble (m : MovementDecl) : Movement := Movement.assemble m.directions m.repeatable m.sequence

end MovementDecl

structure PieceDecl where
  id : ArtifactId
  owner : Option ArtifactId := none
  /-- Tried in this order. -/
  movements : List MovementDecl := []
  deriving DecidableEq, Repr

namespace PieceDecl

def artifact (p : PieceDecl) : Artifact := { id := p.id, kind := .piece, owner := p.owner }

def piece (p : PieceDecl) : Piece := ⟨p.artifact, p.movements.map MovementDecl.assemble⟩

end PieceDecl

structure LeafDecl where
  id : PhaseId
  guard : StateGuard := StateGuard.always
  rule : Rule

def LeafDecl.require (p : LeafDecl) (g : StateGuard) : LeafDecl :=
  { p with guard := StateGuard.require p.guard g }

inductive PhaseDecl where
  | leaf (p : LeafDecl)
  | group (id : PhaseId) (children : List PhaseDecl)

def PhaseDecl.id : PhaseDecl → PhaseId
  | leaf p => p.id
  | group id _ => id

structure Blueprint where
  tiles : List ArtifactId := []
  directions : List DirectionId := []
  relations : List Relation := []
  players : List ArtifactId := []
  dice : List (ArtifactId × UInt32) := []
  pieces : List PieceDecl := []
  /-- Artifacts of kinds that the game names. -/
  customs : List (ArtifactId × String) := []
  statuses : List Status := []
  activePlayer : Option ArtifactId := none
  extras : List (String × Value) := []
  phases : List PhaseDecl := []
  config : Config := {}
  observer : Option Observer := none

inductive Declaration where
  | tile (id : ArtifactId)
  | direction (id : DirectionId)
  | relation (r : Relation)
  | player (id : ArtifactId)
  | dice (id : ArtifactId) (faces : UInt32)
  | piece (p : PieceDecl)
  | custom (id : ArtifactId) (kind : String)
  | status (s : Status)
  | activePlayer (id : ArtifactId)
  | extra (key : String) (value : Value)
  | phase (p : PhaseDecl)
  | config (c : Config)
  | observer (o : Observer)

namespace Declaration

def pieceAt (piece tile : ArtifactId) : Declaration := status (.piece piece tile)
def diceValue (dice : ArtifactId) (face : Int64) : Declaration := status (.dice dice (some face))
def customStatus (artifact : ArtifactId) (name : String) (value : Value) : Declaration :=
  status (.custom artifact name value)

end Declaration

namespace Blueprint

def add (b : Blueprint) : Declaration → Blueprint
  | .tile id => { b with tiles := b.tiles ++ [id] }
  | .direction id => { b with directions := b.directions ++ [id] }
  | .relation r => { b with relations := b.relations ++ [r] }
  | .player id => { b with players := b.players ++ [id] }
  | .dice id faces => { b with dice := b.dice ++ [(id, faces)] }
  | .piece p => { b with pieces := b.pieces ++ [p] }
  | .custom id kind => { b with customs := b.customs ++ [(id, kind)] }
  | .status s => { b with statuses := b.statuses ++ [s] }
  | .activePlayer id => { b with activePlayer := some id }
  | .extra key value => { b with extras := b.extras ++ [(key, value)] }
  | .phase p => { b with phases := b.phases ++ [p] }
  | .config c => { b with config := c }
  | .observer o => { b with observer := some o }

end Blueprint

end BoardGame
