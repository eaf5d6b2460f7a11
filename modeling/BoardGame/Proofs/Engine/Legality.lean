import BoardGame.Proofs.Engine.Routes
import BoardGame.Proofs.Rule.Conservation
import BoardGame.Proofs.Setup.Acceptance

/-!
Moves that were made by hand. Two tests together let a move pass exactly when it is the one that the engine
itself would make of the piece and the target: the one test compares where the piece stands with where the
move begins, the other compares the whole route with the one that is found for the piece.
-/

namespace BoardGame

namespace Engine

variable {e : Engine} {s : Snapshot} {m : Move} {piece target : ArtifactId}

theorem move?_eq_some_iff : e.move? s piece target = some m ↔
    (m.piece = piece ∧ m.target = target) ∧ s.tileOf? piece = some m.source ∧
      e.route? piece m.source target = some m.route := by
  simp only [move?, Option.bind_eq_bind, Option.bind_eq_some_iff, Option.pure_def, Option.some.injEq]
  constructor
  · rintro ⟨source, hsource, route, hroute, rfl⟩
    exact ⟨⟨rfl, rfl⟩, hsource, hroute⟩
  · rintro ⟨⟨rfl, rfl⟩, hsource, hroute⟩
    exact ⟨m.source, hsource, m.route, hroute, rfl⟩

end Engine

namespace Blueprint

variable {b : Blueprint} {start : Session} {piece source target : ArtifactId} {route : Route}

theorem exists_first_movement_of_route? (hbuild : b.build = .ok start)
    (hroute : start.engine.route? piece source target = some route) :
    ∃ p ∈ b.pieces, p.id = piece ∧ ∃ before used after, p.movements = before ++ used :: after ∧
      (∀ x ∈ before, start.engine.game.board.walk x.assemble source target = none) ∧
      start.engine.game.board.walk used.assemble source target = some route := by
  rw [Engine.route?_eq_walk (board_wellFormed_of_build hbuild) (knowsRays_of_build hbuild)] at hroute
  obtain ⟨known, hknown, hfound⟩ := Option.bind_eq_some_iff.mp hroute
  obtain ⟨p, hp, hid, rfl⟩ := (piece?_eq_some_iff_of_build hbuild).mp hknown
  have hmovements : p.movements.findSome? (fun x =>
      start.engine.game.board.walk x.assemble source target) = some route := by
    rw [PieceDecl.piece, List.findSome?_map] at hfound
    exact hfound
  obtain ⟨before, used, after, hsplit, hused, hbefore⟩ := List.findSome?_eq_some_iff.mp hmovements
  exact ⟨p, hp, hid, before, used, after, hsplit, hbefore, hused⟩

/-- A move, made by the engine or by hand, begins where its piece stands and follows the movements of the
piece exactly when it is the move that the engine makes of that piece and that target, with rays or without
them. Such a move leads elsewhere, over relations of the board from its source to its target, and its route
is that of the first movement declared for the piece that leads from the one to the other. -/
theorem legal_iff_own_move (hbuild : b.build = .ok start) (s : Snapshot) (m : Move) :
    let c := start.engine.setting
    let board := start.engine.game.board
    let legal := (EventTest.onSource.judge c s (.move m)).isValid = true ∧
      (EventTest.followsMovement.judge c s (.move m)).isValid = true
    (legal ↔ start.engine.move? s m.piece m.target = some m) ∧
    (legal → m.source ≠ m.target ∧
      ∃ p ∈ b.pieces, p.id = m.piece ∧ ∃ before used after, p.movements = before ++ used :: after ∧
        (∀ x ∈ before, board.walk x.assemble m.source m.target = none) ∧
        board.walk used.assemble m.source m.target = some m.route ∧
        m.route.Serves board used.assemble m.source m.target) := by
  intro c board legal
  have hlegal : legal ↔ s.tileOf? m.piece = some m.source ∧
      start.engine.route? m.piece m.source m.target = some m.route :=
    and_congr EventTest.isValid_onSource_iff EventTest.isValid_followsMovement_iff
  constructor
  · rw [hlegal, Engine.move?_eq_some_iff]
    exact (and_iff_right ⟨rfl, rfl⟩).symm
  · intro h
    obtain ⟨-, hroute⟩ := hlegal.mp h
    obtain ⟨p, hp, hid, before, used, after, hsplit, hbefore, hused⟩ :=
      exists_first_movement_of_route? hbuild hroute
    have hne : m.source ≠ m.target := Board.ne_of_walk hused
    exact ⟨hne, p, hp, hid, before, used, after, hsplit, hbefore, hused,
      Board.serves_of_walk (board_wellFormed_of_build hbuild) hne hused⟩

/-- One step into the ring, which the token takes by the second of its movements. -/
def intoRing : Move :=
  { piece := "token", source := "head", target := "left", route := ⟨⟨"head", "left", "on", 1⟩, [], rfl⟩ }

/-- The same step, given out as a move to the tile after. -/
def shortcut : Move := { intoRing with target := "right" }

/-- The token may take its own step into the ring, and may not pass it off as the jump beyond. -/
theorem lasso_refuses_shortcut : ∃ start, tokenOnLasso.build = .ok start ∧
    let c := start.engine.setting
    let s := start.snapshot.putAll [.piece "token" "head"]
    ((EventTest.onSource.judge c s (.move intoRing)).isValid = true ∧
      (EventTest.followsMovement.judge c s (.move intoRing)).isValid = true) ∧
    (∃ p ∈ tokenOnLasso.pieces, p.id = "token" ∧ ∃ used ∈ p.movements,
      start.engine.game.board.walk used.assemble "head" "left" = some intoRing.route) ∧
    ¬ ((EventTest.onSource.judge c s (.move shortcut)).isValid = true ∧
      (EventTest.followsMovement.judge c s (.move shortcut)).isValid = true) := by
  refine ⟨_, rfl, ?_⟩
  intro c s
  obtain ⟨hown, hfirst⟩ := legal_iff_own_move (b := tokenOnLasso) rfl s intoRing
  obtain ⟨hforged, -⟩ := legal_iff_own_move (b := tokenOnLasso) rfl s shortcut
  have hlegal := hown.mpr (by decide +kernel)
  obtain ⟨-, p, hp, hid, before, used, after, hsplit, -, hused, -⟩ := hfirst hlegal
  have hmember : used ∈ p.movements := hsplit ▸ List.mem_append_right _ List.mem_cons_self
  exact ⟨hlegal, ⟨p, hp, hid, used, hmember, hused⟩, fun h => absurd (hforged.mp h) (by decide +kernel)⟩

end Blueprint

end BoardGame
