import BoardGame.Board.Graph
import Mathlib.Data.List.Nodup
import Mathlib.Tactic.MkIffOfInductiveProp

/-!
Well-formed boards: relations join declared tiles along declared directions, and no two of them leave a
tile in the same direction. On such a board a step is one relation, found wherever it is listed.
-/

namespace BoardGame

def Relation.exit (r : Relation) : ArtifactId × DirectionId := (r.source, r.direction)

namespace Board

@[mk_iff] structure WellFormed (b : Board) : Prop where
  source_declared : ∀ r ∈ b.relations, r.source ∈ b.tiles
  target_declared : ∀ r ∈ b.relations, r.target ∈ b.tiles
  direction_declared : ∀ r ∈ b.relations, r.direction ∈ b.directions
  exits_distinct : (b.relations.map Relation.exit).Nodup

instance (b : Board) : Decidable b.WellFormed := decidable_of_iff' _ (wellFormed_iff b)

variable {b : Board} {tile : ArtifactId} {direction : DirectionId} {r : Relation}

def Joins (b : Board) (direction : DirectionId) (tile : ArtifactId) (r : Relation) : Prop :=
  r ∈ b.relations ∧ r.source = tile ∧ r.direction = direction

theorem joins_of_step? (h : b.step? tile direction = some r) : b.Joins direction tile r := by
  have hmem := List.mem_of_find?_eq_some h
  have hexit := List.find?_some h
  simp only [decide_eq_true_eq] at hexit
  exact ⟨hmem, hexit⟩

theorem WellFormed.relation_unique (hb : b.WellFormed) {q : Relation}
    (hr : b.Joins direction tile r) (hq : b.Joins direction tile q) : r = q := by
  obtain ⟨hr, rfl, rfl⟩ := hr
  obtain ⟨hq, hsource, hdirection⟩ := hq
  have hexit : r.exit = q.exit := by rw [Relation.exit, Relation.exit, hsource, hdirection]
  exact List.inj_on_of_nodup_map hb.exits_distinct hr hq hexit

theorem WellFormed.step?_eq_some_iff (hb : b.WellFormed) :
    b.step? tile direction = some r ↔ b.Joins direction tile r := by
  constructor
  · exact joins_of_step?
  · intro hr
    cases hstep : b.step? tile direction with
    | none =>
      have hnone := List.find?_eq_none.mp hstep r hr.1
      simp [hr.2.1, hr.2.2] at hnone
    | some q => rw [hb.relation_unique (joins_of_step? hstep) hr]

theorem WellFormed.step?_of_undeclared_tile (hb : b.WellFormed) (h : tile ∉ b.tiles) :
    b.step? tile direction = none := by
  cases hstep : b.step? tile direction with
  | none => rfl
  | some r =>
    obtain ⟨hr, rfl, -⟩ := joins_of_step? hstep
    exact absurd (hb.source_declared r hr) h

theorem WellFormed.step?_of_undeclared_direction (hb : b.WellFormed)
    (h : direction ∉ b.directions) : b.step? tile direction = none := by
  cases hstep : b.step? tile direction with
  | none => rfl
  | some r =>
    obtain ⟨hr, -, rfl⟩ := joins_of_step? hstep
    exact absurd (hb.direction_declared r hr) h

end Board

end BoardGame
