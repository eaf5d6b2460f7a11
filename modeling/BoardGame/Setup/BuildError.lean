import BoardGame.Board.Graph

/-! Why declarations do not make a game. -/

namespace BoardGame

/-- What a name was declared, or expected, to name. -/
inductive NameKind where
  | artifact
  | tile
  | player
  | piece
  | dice
  | direction
  | relation
  | phase
  | rule
  deriving DecidableEq, Repr

def NameKind.text : NameKind → String
  | artifact => "artifact"
  | tile => "tile"
  | player => "player"
  | piece => "piece"
  | dice => "dice"
  | direction => "direction"
  | relation => "relation"
  | phase => "phase"
  | rule => "rule"

inductive Referrer where
  | piece (id : ArtifactId)
  | relation (r : Relation)
  | activePlayer
  | startingState
  deriving DecidableEq, Repr

def Referrer.text : Referrer → String
  | piece id => "piece " ++ id
  | relation r => "relation " ++ r.source ++ " -> " ++ r.target ++ " (" ++ r.direction ++ ")"
  | activePlayer => "active player"
  | startingState => "starting state"

inductive BuildError where
  | duplicate (kind : NameKind) (id : String)
  | unknown (kind : NameKind) (id : String) (referrer : Referrer)
  | noFaces (dice : ArtifactId)
  | impossibleFace (dice : ArtifactId) (face : Int64)
  deriving DecidableEq, Repr

namespace BuildError

def family : BuildError → String
  | duplicate .. => "DuplicateIdentifier"
  | unknown .. => "UnknownIdentifier"
  | noFaces _ | impossibleFace .. => "InvalidStartingState"

def message : BuildError → String
  | duplicate kind id => "duplicate " ++ kind.text ++ " identifier `" ++ id ++ "`"
  | unknown kind id referrer =>
    "unknown " ++ kind.text ++ " `" ++ id ++ "` referenced by " ++ referrer.text
  | noFaces dice => "invalid starting state: dice " ++ dice ++ " has no faces"
  | impossibleFace dice face =>
    "invalid starting state: dice " ++ dice ++ " cannot show " ++ toString face

end BuildError

end BoardGame
