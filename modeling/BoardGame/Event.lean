import BoardGame.Board.Route

/-!
Events: moves along a route, dice set to faces or rolled, the end of a turn, and events that a game
defines. Event types are told apart by their full name; diagnostics show a short name, which different
types may share.
-/

namespace BoardGame

structure Move where
  piece : ArtifactId
  source : ArtifactId
  target : ArtifactId
  route : Route
  deriving DecidableEq

/-- An event that a game defines. -/
structure CustomEvent where
  /-- The full name of its type. -/
  typeName : String
  /-- The name shown for it instead of its type's. -/
  label : Option String := none
  text : String
  deriving DecidableEq, Repr

inductive Event where
  | move (m : Move)
  | setDice (faces : List (ArtifactId × Int64))
  | rollDice (dice : List ArtifactId)
  | endTurn
  | custom (e : CustomEvent)
  deriving DecidableEq

inductive EventType where
  | move
  | setDice
  | rollDice
  | endTurn
  | custom (typeName : String)
  deriving DecidableEq, Repr

namespace EventType

/-- A full name without its arguments and without the path in front. -/
def shortName (typeName : String) : String :=
  let base := (typeName.splitOn "<").headD typeName
  (base.splitOn "::").getLastD base

def name : EventType → String
  | move => "MovePieceEvent"
  | setDice => "RollDiceEvent"
  | rollDice => "RollRandomDiceEvent"
  | endTurn => "EndTurnEvent"
  | custom typeName => shortName typeName

end EventType

namespace Event

def type : Event → EventType
  | move _ => .move
  | setDice _ => .setDice
  | rollDice _ => .rollDice
  | endTurn => .endTurn
  | custom e => .custom e.typeName

def name : Event → String
  | custom { label := some label, .. } => label
  | e => e.type.name

def inspect : Event → String
  | move m =>
    Inspect.record "MovePieceEvent"
      [("piece", Artifact.inspectId m.piece), ("from", Artifact.inspectId m.source),
        ("to", Artifact.inspectId m.target), ("path", m.route.inspect)]
  | setDice faces =>
    Inspect.record "RollDiceEvent"
      [("values", Inspect.list (faces.map fun p =>
        Inspect.tuple "" [Artifact.inspectId p.1, toString p.2]))]
  | rollDice dice =>
    Inspect.record "RollRandomDiceEvent" [("dice", Inspect.list (dice.map Artifact.inspectId))]
  | endTurn => "EndTurnEvent"
  | custom e => e.text

end Event

end BoardGame
