import BoardGame.Board.Graph

/-!
How a piece may travel: along one direction, along any one of several, or by a fixed sequence of steps.
Sliding movements may repeat their direction.
-/

namespace BoardGame

inductive Movement where
  /-- Leads nowhere. -/
  | still
  | along (direction : DirectionId) (repeatable : Bool)
  /-- Any one of the directions, never mixed; the first that leads to the target is taken. -/
  | alongAny (directions : List DirectionId) (repeatable : Bool)
  | jump (steps : List DirectionId)
  deriving DecidableEq, Repr

namespace Movement

/-- The movement that a list of directions stands for, in its simplest shape. -/
def assemble (directions : List DirectionId) (repeatable sequence : Bool) : Movement :=
  match directions with
  | [] => still
  | directions =>
    if sequence then jump directions
    else
      match directions with
      | [direction] => along direction repeatable
      | directions => alongAny directions repeatable

def isStill (m : Movement) : Bool := m = still

def directions : Movement → List DirectionId
  | still => []
  | along direction _ => [direction]
  | alongAny directions _ => directions
  | jump steps => steps

def inspect : Movement → String
  | still => "Null"
  | along direction repeatable =>
    Inspect.record "Direction"
      [("direction", inspectDirection direction), ("repeatable", toString repeatable)]
  | alongAny directions repeatable =>
    Inspect.record "MultiDirection"
      [("directions", Inspect.list (directions.map inspectDirection)),
        ("repeatable", toString repeatable)]
  | jump steps => Inspect.record "Fixed" [("steps", Inspect.list (steps.map inspectDirection))]

end Movement

instance : JsonForm Movement where
  toJson
    | .still => .text "Null"
    | .along direction repeatable =>
      .tagged "Direction"
        (.object [("direction", toJson direction), ("repeatable", toJson repeatable)])
    | .alongAny directions repeatable =>
      .tagged "MultiDirection"
        (.object [("directions", toJson directions), ("repeatable", toJson repeatable)])
    | .jump steps => .tagged "Fixed" (.object [("steps", toJson steps)])
  ofJson? document := do
    match ← document.case? with
    | ("Null", carried) => if Json.isBare carried then return .still else none
    | ("Direction", some carried) =>
      match ← carried.named? ["direction", "repeatable"] with
      | [direction, repeatable] =>
        return .along (← Json.required? direction) (← Json.required? repeatable)
      | _ => none
    | ("MultiDirection", some carried) =>
      match ← carried.named? ["directions", "repeatable"] with
      | [directions, repeatable] =>
        return .alongAny (← Json.required? directions) (← Json.required? repeatable)
      | _ => none
    | ("Fixed", some carried) =>
      match ← carried.named? ["steps"] with
      | [steps] => return .jump (← Json.required? steps)
      | _ => none
    | _ => none

instance : Binary Movement where
  encode
    | .still => Binary.encodeCase 0
    | .along direction repeatable => Binary.encodeCase 1 ++ encode direction ++ encode repeatable
    | .alongAny directions repeatable =>
      Binary.encodeCase 2 ++ encode directions ++ encode repeatable
    | .jump steps => Binary.encodeCase 3 ++ encode steps
  decode := do
    match ← Binary.decodeCase with
    | 0 => return .still
    | 1 => return .along (← Binary.decode) (← Binary.decode)
    | 2 => return .alongAny (← Binary.decode) (← Binary.decode)
    | 3 => return .jump (← Binary.decode)
    | _ => Binary.fail .badCase

end BoardGame
