import BoardGame.Board.Rays
import BoardGame.Board.Walk
import BoardGame.Engine.Config
import BoardGame.Phase.Agenda

/-!
Engines: everything that stays fixed while a game is played, laid out for evaluation.
-/

namespace BoardGame

/-- What is done with the notices of an evaluation. Observers never influence an evaluation. -/
inductive Observer where
  | silent
  /-- Writes every notice to the log. -/
  | logging
  /-- Keeps every notice as a line of text. -/
  | recording
  deriving DecidableEq, Repr

structure Engine where
  game : Game
  phases : Phase
  /-- In order of precedence; positions are ordinals. -/
  leaves : List LeafPhase
  agenda : Option Agenda
  config : Config
  rays : Option Rays
  observer : Observer

namespace Engine

def ofGame (game : Game) (phases : Phase) (config : Config) (observer : Observer) : Engine where
  game
  phases
  leaves := phases.leaves
  agenda := if config.useAgenda then some (Agenda.ofPhase phases config.indexTypes) else none
  config
  rays := if config.useRays then some (Rays.ofBoard game.board) else none
  observer

variable (e : Engine)

/-- The name of what finds routes before the board is walked. -/
def accelerator? : Option String := e.rays.map fun _ => "compiled-rays"

/-- The route of one movement: from the rays if they have it, else by walking the board. -/
def routeBy? (source target : ArtifactId) (m : Movement) : Option Route :=
  (e.rays.bind fun rays => rays.cut m source target) <|> e.game.board.walk m source target

/-- The route of a piece between two tiles, by the first of its movements that has one. -/
def route? (piece source target : ArtifactId) : Option Route := do
  let p ← e.game.piece? piece
  p.movements.findSome? (e.routeBy? source target)

def setting : Setting := ⟨e.game, e.route?⟩

/-- The move of a piece from where it stands, if it can get to the target. -/
def move? (s : Snapshot) (piece target : ArtifactId) : Option Move := do
  let source ← s.tileOf? piece
  let route ← e.route? piece source target
  return { piece, source, target, route }

def inspect : String :=
  Inspect.openRecord "GameEngine"
    [("game", e.game.inspect), ("leaves", toString e.leaves.length),
      ("plan", Inspect.option (e.agenda.map fun a => toString a.length)),
      ("config", e.config.inspect),
      ("accelerator", Inspect.option (e.accelerator?.map Text.quoted))]

end Engine

end BoardGame
