import BoardGame.Binary.Codec
import BoardGame.Json
import BoardGame.Text.Inspect
import BoardGame.Text.Quoted

/-!
The objects of a game: tiles, players, pieces, dice and whatever else a game names. An artifact is an
identity; everything that changes during play is kept in snapshots under its name.
-/

namespace BoardGame

abbrev ArtifactId := String
abbrev DirectionId := String
abbrev RuleId := String
abbrev PhaseId := String

inductive ArtifactKind where
  | tile
  | player
  | piece
  | dice
  | custom (name : String)
  deriving DecidableEq, Repr

namespace ArtifactKind

def name : ArtifactKind → String
  | tile => "tile"
  | player => "player"
  | piece => "piece"
  | dice => "dice"
  | custom name => name

def inspect : ArtifactKind → String
  | tile => "Tile"
  | player => "Player"
  | piece => "Piece"
  | dice => "Dice"
  | custom name => Inspect.tuple "Custom" [Text.quoted name]

end ArtifactKind

instance : JsonForm ArtifactKind where
  toJson
    | .tile => .text "Tile"
    | .player => .text "Player"
    | .piece => .text "Piece"
    | .dice => .text "Dice"
    | .custom name => .tagged "Custom" (toJson name)
  ofJson? document :=
    match document.case? with
    | some ("Custom", some carried) => (ofJson? carried).map .custom
    | _ => document.ofTable?
      [("Tile", .tile), ("Player", .player), ("Piece", .piece), ("Dice", .dice)]

instance : Binary ArtifactKind where
  encode
    | .tile => Binary.encodeCase 0
    | .player => Binary.encodeCase 1
    | .piece => Binary.encodeCase 2
    | .dice => Binary.encodeCase 3
    | .custom name => Binary.encodeCase 4 ++ encode name
  decode := do
    match ← Binary.decodeCase with
    | 0 => return .tile
    | 1 => return .player
    | 2 => return .piece
    | 3 => return .dice
    | 4 => return .custom (← Binary.decode)
    | _ => Binary.fail .badCase

structure Artifact where
  id : ArtifactId
  kind : ArtifactKind
  owner : Option ArtifactId := none
  deriving DecidableEq, Repr

namespace Artifact

/-- Artifacts are the same when their names are; kind and owner are not compared. -/
def isSame (a b : Artifact) : Bool := a.id = b.id

def isOwnedBy (a : Artifact) (player : ArtifactId) : Bool := a.owner = some player

def text (a : Artifact) : String := a.kind.name ++ "(" ++ a.id ++ ")"

def inspectId (id : ArtifactId) : String := Inspect.tuple "ArtifactId" [Text.quoted id]

def inspect (a : Artifact) : String :=
  Inspect.record "Artifact"
    [("id", inspectId a.id), ("kind", a.kind.inspect),
      ("owner", Inspect.option (a.owner.map inspectId))]

end Artifact

instance : JsonForm Artifact where
  toJson a := .object [("id", toJson a.id), ("kind", toJson a.kind), ("owner", toJson a.owner)]
  ofJson? document := do
    match ← document.fields? ["id", "kind", "owner"] with
    | [id, kind, owner] =>
      return ⟨← Json.required? id, ← Json.required? kind, ← Json.defaulted? none owner⟩
    | _ => none

instance : Binary Artifact where
  encode a := encode a.id ++ encode a.kind ++ encode a.owner
  decode := return ⟨← Binary.decode, ← Binary.decode, ← Binary.decode⟩

end BoardGame
