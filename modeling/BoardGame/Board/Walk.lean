import BoardGame.Board.Movement
import BoardGame.Board.Route

/-!
Finding the route of a movement by walking the board. A repeated direction is followed until it arrives,
falls off the board, or has taken as many steps as the board has tiles.
-/

namespace BoardGame

namespace Board

/-- The steps in one direction up to the first arrival, at most `steps` of them. -/
def slide (b : Board) (direction : DirectionId) (target : ArtifactId) :
    Nat → ArtifactId → Option (List Relation)
  | 0, _ => none
  | steps + 1, tile => do
    let r ← b.step? tile direction
    if r.target = target then return [r]
    let rest ← slide b direction target steps r.target
    return r :: rest

/-- The given steps in order, which must all exist. -/
def follow (b : Board) : List DirectionId → ArtifactId → Option (List Relation)
  | [], _ => some []
  | direction :: steps, tile => do
    let r ← b.step? tile direction
    let rest ← follow b steps r.target
    return r :: rest

def walkAlong (b : Board) (source target : ArtifactId) (repeatable : Bool)
    (direction : DirectionId) : Option Route := do
  let steps := if repeatable then b.reach else 1
  Route.ofList? (← b.slide direction target steps source)

def walkSteps (b : Board) (source target : ArtifactId) (steps : List DirectionId) :
    Option Route := do
  let route ← Route.ofList? (← b.follow steps source)
  if route.target = target then some route else none

/-- The route of a movement between two tiles; there is none from a tile to itself. -/
def walk (b : Board) (m : Movement) (source target : ArtifactId) : Option Route :=
  if source = target then none
  else
    match m with
    | .still => none
    | .along direction repeatable => b.walkAlong source target repeatable direction
    | .alongAny directions repeatable =>
      directions.findSome? (b.walkAlong source target repeatable)
    | .jump steps => b.walkSteps source target steps

end Board

end BoardGame
