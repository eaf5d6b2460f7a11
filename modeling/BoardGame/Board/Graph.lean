import BoardGame.Artifact

/-!
Boards: tiles joined by directed relations, at most one from each tile in each direction.
-/

namespace BoardGame

structure Relation where
  source : ArtifactId
  target : ArtifactId
  direction : DirectionId
  /-- What the step costs. -/
  distance : UInt32 := 1
  deriving DecidableEq, Repr

structure Board where
  tiles : List ArtifactId := []
  directions : List DirectionId := []
  relations : List Relation := []
  deriving Repr

namespace Board

def hasTile (b : Board) (tile : ArtifactId) : Bool := b.tiles.contains tile

def step? (b : Board) (tile : ArtifactId) (direction : DirectionId) : Option Relation :=
  b.relations.find? fun r => r.source = tile ∧ r.direction = direction

def relationsFrom (b : Board) (tile : ArtifactId) : List Relation :=
  b.relations.filter fun r => r.source = tile

/-- As many steps as there are tiles, but at least one; a longer walk repeats itself. -/
def reach (b : Board) : Nat := max b.tiles.length 1

end Board

def inspectDirection (id : DirectionId) : String := Inspect.tuple "DirectionId" [Text.quoted id]

def Relation.inspect (r : Relation) : String :=
  Inspect.record "TileRelation"
    [("from", Artifact.inspectId r.source), ("to", Artifact.inspectId r.target),
      ("direction", inspectDirection r.direction), ("distance", toString r.distance)]

namespace Board

/-- For each tile, the positions of the relations that leave it, by direction. -/
def inspectOutgoing (b : Board) : String :=
  let numbered := b.relations.zipIdx
  Inspect.map ((b.relations.map Relation.source).eraseDups.map fun tile =>
    (Artifact.inspectId tile, Inspect.map ((numbered.filter fun p => p.1.source = tile).map fun p =>
      (inspectDirection p.1.direction, toString p.2))))

def inspect (b : Board) : String :=
  Inspect.record "Board"
    [("tiles", Inspect.list (b.tiles.map Artifact.inspectId)),
      ("directions", Inspect.list (b.directions.map inspectDirection)),
      ("relations", Inspect.list (b.relations.map Relation.inspect)),
      ("outgoing", b.inspectOutgoing)]

end Board

instance : JsonForm Relation where
  toJson r :=
    .object [("from", toJson r.source), ("to", toJson r.target),
      ("direction", toJson r.direction), ("distance", toJson r.distance)]
  ofJson? document := do
    match ← document.fields? ["from", "to", "direction", "distance"] with
    | [source, target, direction, distance] =>
      return ⟨← Json.required? source, ← Json.required? target, ← Json.required? direction,
        ← Json.required? distance⟩
    | _ => none

instance : Binary Relation where
  encode r := encode r.source ++ encode r.target ++ encode r.direction ++ encode r.distance
  decode := return ⟨← Binary.decode, ← Binary.decode, ← Binary.decode, ← Binary.decode⟩

end BoardGame
