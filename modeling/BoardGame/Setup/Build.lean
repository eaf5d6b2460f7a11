import BoardGame.Engine.Session
import BoardGame.Setup.Blueprint
import BoardGame.Setup.BuildError

/-!
Building a game from its blueprint. Names are resolved in a fixed order, and the first fault found is the
one reported: artifacts, directions, pieces, relations, dice; then the active player and the starting
statuses; then phases and rules, depth first.
-/

namespace BoardGame

namespace Blueprint

abbrev ArtifactTable := SortedMap ArtifactId Artifact

def register (table : ArtifactTable) (a : Artifact) : Except BuildError ArtifactTable :=
  if table.contains a.id then .error (.duplicate .artifact a.id) else .ok (table.insert a.id a)

def isKind (table : ArtifactTable) (id : ArtifactId) (kind : ArtifactKind) : Bool :=
  match table.get? id with
  | some a => a.kind = kind
  | none => false

/-- Every artifact but the pieces, in the order of their registration. -/
def plainArtifacts (b : Blueprint) : List Artifact :=
  b.tiles.map (fun id => { id, kind := .tile }) ++
    b.players.map (fun id => { id, kind := .player }) ++
    b.dice.map (fun d => { id := d.1, kind := .dice }) ++
    b.customs.map fun c => { id := c.1, kind := .custom c.2 }

def checkDirections : List DirectionId → List DirectionId → Except BuildError Unit
  | _, [] => .ok ()
  | seen, d :: rest =>
    if d ∈ seen then .error (.duplicate .direction d) else checkDirections (d :: seen) rest

def checkMovement (directions : List DirectionId) (referrer : Referrer) (m : MovementDecl) :
    Except BuildError Unit :=
  match m.directions.find? (· ∉ directions) with
  | some missing => .error (.unknown .direction missing referrer)
  | none => .ok ()

def checkOwner (table : ArtifactTable) (p : PieceDecl) : Except BuildError Unit :=
  match p.owner with
  | some owner =>
    if isKind table owner .player then .ok ()
    else .error (.unknown .player owner (.piece p.id))
  | none => .ok ()

def registerPiece (directions : List DirectionId) (table : ArtifactTable) (p : PieceDecl) :
    Except BuildError ArtifactTable := do
  checkOwner table p
  p.movements.forM (checkMovement directions (.piece p.id))
  register table p.artifact

def checkTile (table : ArtifactTable) (r : Relation) (tile : ArtifactId) :
    Except BuildError Unit :=
  if isKind table tile .tile then .ok () else .error (.unknown .tile tile (.relation r))

def checkDirection (directions : List DirectionId) (r : Relation) : Except BuildError Unit :=
  if r.direction ∈ directions then .ok ()
  else .error (.unknown .direction r.direction (.relation r))

def checkFresh (seen : List (ArtifactId × DirectionId)) (r : Relation) : Except BuildError Unit :=
  if (r.source, r.direction) ∈ seen then
    .error (.duplicate .relation (r.source ++ " " ++ r.direction))
  else .ok ()

/-- Refuses the first relation with an unknown end or direction, or that leaves a tile in the direction
of an earlier one. -/
def checkRelations (table : ArtifactTable) (directions : List DirectionId) :
    List (ArtifactId × DirectionId) → List Relation → Except BuildError Unit
  | _, [] => .ok ()
  | seen, r :: rest => do
    checkTile table r r.source
    checkTile table r r.target
    checkDirection directions r
    checkFresh seen r
    checkRelations table directions ((r.source, r.direction) :: seen) rest

def checkDie (d : ArtifactId × UInt32) : Except BuildError Unit :=
  if d.2 = 0 then .error (.noFaces d.1) else .ok ()

def buildGame (b : Blueprint) : Except BuildError Game := do
  let table ← b.plainArtifacts.foldlM register .empty
  checkDirections [] b.directions
  let table ← b.pieces.foldlM (registerPiece b.directions) table
  checkRelations table b.directions [] b.relations
  b.dice.forM checkDie
  return {
    board := ⟨b.tiles, b.directions, b.relations⟩
    players := b.players
    artifacts := table
    pieces := .ofList (b.pieces.map fun p => (p.id, p.piece))
    dice := .ofList (b.dice.map fun d => (d.1, ⟨{ id := d.1, kind := .dice }, d.2⟩)) }

def requireKind (g : Game) (id : ArtifactId) (kind : ArtifactKind) (name : NameKind) :
    Except BuildError Unit :=
  if g.isKind id kind then .ok () else .error (.unknown name id .startingState)

def checkStatus (g : Game) : Status → Except BuildError Unit
  | .piece piece tile => do
    requireKind g piece .piece .piece
    requireKind g tile .tile .tile
  | .dice dice face =>
    match g.die? dice with
    | none => .error (.unknown .dice dice .startingState)
    | some die =>
      match face with
      | some face =>
        if 1 ≤ face.toInt ∧ face.toInt ≤ die.faces.toNat then .ok ()
        else .error (.impossibleFace dice face)
      | none => .ok ()
  | .activePlayer player _ => requireKind g player .player .player
  | .captured piece => requireKind g piece .piece .piece
  | .custom artifact _ _ =>
    match g.artifact? artifact with
    | some _ => .ok ()
    | none => .error (.unknown .artifact artifact .startingState)

/-- The turn markers of all players once an active player is declared. -/
def turnMarkers (b : Blueprint) : List Status :=
  match b.activePlayer with
  | some active => b.players.map fun player => .activePlayer player (player = active)
  | none => []

def checkActivePlayer (b : Blueprint) (g : Game) : Except BuildError Unit :=
  match b.activePlayer with
  | some active =>
    if g.isKind active .player then .ok () else .error (.unknown .player active .activePlayer)
  | none => .ok ()

def buildSnapshot (b : Blueprint) (g : Game) : Except BuildError Snapshot := do
  b.checkActivePlayer g
  b.statuses.forM (checkStatus g)
  let s := (Snapshot.seeded b.config.seed).putAll (b.turnMarkers ++ b.statuses)
  return b.extras.foldl (fun s e => s.setExtra e.1 e.2) s

/-- What building phases keeps track of: names used so far and the ordinal of the next leaf. -/
structure PhaseTally where
  phases : List PhaseId
  rules : List RuleId := []
  next : Nat := 0

def claimRules : List RuleId → List Rule → Except BuildError (List RuleId)
  | seen, [] => .ok seen
  | seen, r :: rest =>
    if r.id ∈ seen then .error (.duplicate .rule r.id) else claimRules (r.id :: seen) rest

def claimPhase (t : PhaseTally) (id : PhaseId) : Except BuildError PhaseTally :=
  if id ∈ t.phases then .error (.duplicate .phase id)
  else .ok { t with phases := id :: t.phases }

mutual

def buildPhase (t : PhaseTally) : PhaseDecl → Except BuildError (Phase × PhaseTally)
  | .leaf p => do
    let t ← claimPhase t p.id
    let rules ← claimRules t.rules p.rule.withDescendants
    return (.leaf ⟨p.id, t.next, p.guard, p.rule⟩, { t with rules, next := t.next + 1 })
  | .group id children => do
    let t ← claimPhase t id
    let (children, t) ← buildPhases t children
    return (.group id children, t)

def buildPhases (t : PhaseTally) : List PhaseDecl → Except BuildError (List Phase × PhaseTally)
  | [] => return ([], t)
  | p :: rest => do
    let (p, t) ← buildPhase t p
    let (rest, t) ← buildPhases t rest
    return (p :: rest, t)

end

/-- The name of the group that holds all declared phases; no declared phase may have it. -/
def rootName : PhaseId := "root"

def buildRoot (b : Blueprint) : Except BuildError Phase := do
  let (children, _) ← buildPhases { phases := [rootName] } b.phases
  return .group rootName children

/-- The session with which play starts. -/
def build (b : Blueprint) : Except BuildError Session := do
  let game ← b.buildGame
  let snapshot ← b.buildSnapshot game
  let phases ← b.buildRoot
  return { engine := Engine.ofGame game phases b.config (b.observer.getD .logging), snapshot }

end Blueprint

end BoardGame
