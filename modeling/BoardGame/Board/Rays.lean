import BoardGame.Board.Movement
import BoardGame.Board.Route

/-!
Rays: for every tile and direction of a board, the relations met by going on in that direction, laid
out once. A directional movement is then a cut through a ray. Fixed sequences of steps have no rays.
-/

namespace BoardGame

structure Rays where
  table : List ((ArtifactId × DirectionId) × List Relation)

namespace Board

/-- The relations met in one direction, at most `steps` of them. -/
def ray (b : Board) (direction : DirectionId) : Nat → ArtifactId → List Relation
  | 0, _ => []
  | steps + 1, tile =>
    match b.step? tile direction with
    | none => []
    | some r => r :: ray b direction steps r.target

end Board

/-- A list up to and including the first item with a property, if there is one. -/
def throughFirst? {α : Type} (p : α → Bool) : List α → Option (List α)
  | [] => none
  | x :: rest => if p x then some [x] else (throughFirst? p rest).map (x :: ·)

namespace Rays

/-- The rays of a board, without the empty ones. -/
def ofBoard (b : Board) : Rays where
  table :=
    (b.tiles.flatMap fun tile => b.directions.map fun direction =>
      ((tile, direction), b.ray direction b.reach tile)).filter fun e => !e.2.isEmpty

def count (rays : Rays) : Nat := rays.table.length

def cutAlong (rays : Rays) (source target : ArtifactId) (repeatable : Bool)
    (direction : DirectionId) : Option Route := do
  let ray ← Entries.lookup (source, direction) rays.table
  let reachable := if repeatable then ray else ray.take 1
  Route.ofList? (← throughFirst? (fun r => r.target = target) reachable)

def cut (rays : Rays) (m : Movement) (source target : ArtifactId) : Option Route :=
  if source = target then none
  else
    match m with
    | .along direction repeatable => rays.cutAlong source target repeatable direction
    | .alongAny directions repeatable =>
      directions.findSome? (rays.cutAlong source target repeatable)
    | .still | .jump _ => none

end Rays

end BoardGame
