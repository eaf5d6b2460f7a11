import BoardGame.Setup.Build
import BoardGame.Proofs.Board.WellFormed

/-!
Well-formed blueprints. What is asked of a blueprint is said about its declarations alone, without the
tables that building fills and whatever the order in which it looks at them: names do not repeat, and
whatever is referred to is declared and of the right kind.
-/

namespace BoardGame

namespace Rule

mutual

/-- The names of a rule and of every rule within it. -/
def ids : Rule → List RuleId
  | simple head _ => [head.id]
  | all head children => head.id :: idsOf children
  | any head children => head.id :: idsOf children

def idsOf : List Rule → List RuleId
  | [] => []
  | r :: rest => r.ids ++ idsOf rest

end

end Rule

namespace PhaseDecl

mutual

def ids : PhaseDecl → List PhaseId
  | leaf p => [p.id]
  | group id children => id :: idsOf children

def idsOf : List PhaseDecl → List PhaseId
  | [] => []
  | p :: rest => p.ids ++ idsOf rest

end

mutual

/-- The names of all rules in a phase, those within other rules included. -/
def ruleIds : PhaseDecl → List RuleId
  | leaf p => p.rule.ids
  | group _ children => ruleIdsOf children

def ruleIdsOf : List PhaseDecl → List RuleId
  | [] => []
  | p :: rest => p.ruleIds ++ ruleIdsOf rest

end

end PhaseDecl

namespace Blueprint

/-- The names of all artifacts, of whatever kind. -/
def artifactIds (b : Blueprint) : List ArtifactId :=
  b.tiles ++ b.players ++ b.dice.map Prod.fst ++ b.customs.map Prod.fst ++ b.pieces.map PieceDecl.id

def board (b : Blueprint) : Board := ⟨b.tiles, b.directions, b.relations⟩

/-- A starting status is about artifacts that are declared, of the kinds that it speaks of. -/
def Fits (b : Blueprint) : Status → Prop
  | .piece piece tile => piece ∈ b.pieces.map PieceDecl.id ∧ tile ∈ b.tiles
  | .dice dice face =>
    ∃ d ∈ b.dice, d.1 = dice ∧ ∀ shown ∈ face, 1 ≤ shown.toInt ∧ shown.toInt ≤ d.2.toNat
  | .activePlayer player _ => player ∈ b.players
  | .captured piece => piece ∈ b.pieces.map PieceDecl.id
  | .custom artifact _ _ => artifact ∈ b.artifactIds

instance (b : Blueprint) (s : Status) : Decidable (b.Fits s) :=
  match s with
  | .piece .. => inferInstanceAs (Decidable (_ ∧ _))
  | .dice .. => inferInstanceAs (Decidable (∃ d ∈ b.dice, _))
  | .activePlayer .. => inferInstanceAs (Decidable (_ ∈ b.players))
  | .captured _ => inferInstanceAs (Decidable (_ ∈ b.pieces.map PieceDecl.id))
  | .custom .. => inferInstanceAs (Decidable (_ ∈ b.artifactIds))

@[mk_iff] structure WellFormed (b : Blueprint) : Prop where
  artifacts_distinct : b.artifactIds.Nodup
  directions_distinct : b.directions.Nodup
  owners_declared : ∀ p ∈ b.pieces, ∀ owner ∈ p.owner, owner ∈ b.players
  movements_declared : ∀ p ∈ b.pieces, ∀ m ∈ p.movements, ∀ d ∈ m.directions, d ∈ b.directions
  board_wellFormed : b.board.WellFormed
  dice_have_faces : ∀ d ∈ b.dice, d.2 ≠ 0
  active_declared : ∀ active ∈ b.activePlayer, active ∈ b.players
  statuses_fit : ∀ s ∈ b.statuses, b.Fits s
  phases_distinct : (PhaseDecl.idsOf b.phases).Nodup
  root_reserved : rootName ∉ PhaseDecl.idsOf b.phases
  rules_distinct : (PhaseDecl.ruleIdsOf b.phases).Nodup

instance (b : Blueprint) : Decidable b.WellFormed := decidable_of_iff' _ (wellFormed_iff b)

end Blueprint

end BoardGame
