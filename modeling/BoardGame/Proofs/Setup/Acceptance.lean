import BoardGame.Proofs.Setup.Declarations
import BoardGame.Proofs.Setup.Engine
import BoardGame.Proofs.Setup.Statuses
import BoardGame.Setup.Draft

/-!
Which declarations make a game. Building succeeds exactly on the well-formed blueprints; a draft takes
every declaration until it is compiled, so compiling succeeds exactly when what was declared is
well-formed. The game that is built has the declared dice and pieces and no others.
-/

namespace BoardGame

namespace Blueprint

variable {b : Blueprint}

theorem WellFormed.gameFits (h : b.WellFormed) : b.GameFits where
  directions_distinct := h.directions_distinct
  pieces_fit p hp := ⟨h.owners_declared p hp, h.movements_declared p hp⟩
  board_wellFormed := h.board_wellFormed
  dice_have_faces := h.dice_have_faces

theorem wellFormed_of_build {start : Session} (h : b.build = .ok start) : b.WellFormed := by
  obtain ⟨game, snapshot, root, hgame, hsnapshot, hroot, -⟩ := build_eq_ok_iff.mp h
  obtain ⟨table, hholds, hfits, rfl⟩ := buildGame_eq_ok_iff.mp hgame
  obtain ⟨hactive, hstatuses⟩ := hholds.exists_buildSnapshot_iff.mp ⟨snapshot, hsnapshot⟩
  obtain ⟨hphases, hreserved, hrules⟩ := exists_buildRoot_iff.mp ⟨root, hroot⟩
  constructor
  · exact hholds.artifactIds_nodup
  · exact hfits.directions_distinct
  · intro p hp
    exact (hfits.pieces_fit p hp).1
  · intro p hp
    exact (hfits.pieces_fit p hp).2
  · exact hfits.board_wellFormed
  · exact hfits.dice_have_faces
  · exact hactive
  · exact hstatuses
  · exact hphases
  · exact hreserved
  · exact hrules

theorem WellFormed.exists_build (h : b.WellFormed) : ∃ start, b.build = .ok start := by
  have hdistinct : (b.artifacts.map Artifact.id).Nodup := by
    rw [map_id_artifacts]
    exact h.artifacts_distinct
  obtain ⟨table, hholds⟩ := exists_holds_iff.mpr hdistinct
  have hgame : b.buildGame = .ok (b.gameWith table) :=
    buildGame_eq_ok_iff.mpr ⟨table, hholds, h.gameFits, rfl⟩
  obtain ⟨snapshot, hsnapshot⟩ :=
    hholds.exists_buildSnapshot_iff.mpr ⟨h.active_declared, h.statuses_fit⟩
  obtain ⟨root, hroot⟩ :=
    exists_buildRoot_iff.mpr ⟨h.phases_distinct, h.root_reserved, h.rules_distinct⟩
  exact ⟨_, build_eq_ok_iff.mpr ⟨_, snapshot, root, hgame, hsnapshot, hroot, rfl⟩⟩

section Built

variable {start : Session} {id : ArtifactId}

theorem exists_table_of_build (h : b.build = .ok start) :
    ∃ table, Holds table b.artifacts ∧ start.engine.game = b.gameWith table := by
  obtain ⟨game, snapshot, phases, hgame, -, -, rfl⟩ := build_eq_ok_iff.mp h
  obtain ⟨table, hholds, -, rfl⟩ := buildGame_eq_ok_iff.mp hgame
  exact ⟨table, hholds, rfl⟩

theorem piece?_eq_some_iff_of_build (h : b.build = .ok start) {piece : Piece} :
    start.engine.game.piece? id = some piece ↔ ∃ p ∈ b.pieces, p.id = id ∧ p.piece = piece := by
  obtain ⟨table, hholds, hgame⟩ := exists_table_of_build h
  rw [hgame]
  exact hholds.piece?_eq_some_iff

end Built

theorem exists_build_iff : (∃ start, b.build = .ok start) ↔ b.WellFormed := by
  constructor
  · rintro ⟨start, h⟩
    exact wellFormed_of_build h
  · exact WellFormed.exists_build

end Blueprint

namespace Draft

theorem foldlM_declare (b : Blueprint) (declarations : List Declaration) :
    declarations.foldlM declare { blueprint := b } =
      .ok { blueprint := declarations.foldl Blueprint.add b } := by
  induction declarations generalizing b with
  | nil => rfl
  | cons x rest ih =>
    rw [List.foldlM_cons, List.foldl_cons]
    exact ih (b.add x)

/-- A new draft takes any sequence of declarations, and compiling it then gives a session exactly when
the blueprint that they add up to is well-formed. -/
theorem compile_accepts_iff_wellFormed (declarations : List Declaration) :
    ∃ draft : Draft, declarations.foldlM declare {} = .ok draft ∧
      draft.blueprint = declarations.foldl Blueprint.add {} ∧
      draft.blueprint = Blueprint.ofDeclarations declarations ∧
      ((∃ start, draft.compile.value.1 = .ok start) ↔ draft.blueprint.WellFormed) := by
  refine ⟨_, foldlM_declare {} declarations, rfl, ?_, ?_⟩
  · exact Blueprint.foldl_add_eq_ofDeclarations declarations
  · exact Blueprint.exists_build_iff

/-- A piece may share its name with no other artifact. -/
example : ¬ (Blueprint.ofDeclarations
    [.tile "a", .player "p", .piece { id := "a", owner := some "p" }]).WellFormed := by decide

end Draft

end BoardGame
