import BoardGame.Proofs.Board.Rays
import BoardGame.Proofs.Board.Walk

/-!
Routes of an engine. Whether it asks rays first or not, a movement has the route that walking the board
finds, so a piece has the route of the first of its movements that walking finds one for.
-/

namespace BoardGame

namespace Engine

/-- An engine whose rays, if it has any, are those of its own board. -/
def KnowsRays (e : Engine) : Prop := ∀ rays, e.rays = some rays → rays = Rays.ofBoard e.game.board

variable {e : Engine}

theorem routeBy?_eq_walk (hb : e.game.board.WellFormed) (hrays : e.KnowsRays)
    (source target : ArtifactId) (m : Movement) :
    e.routeBy? source target m = e.game.board.walk m source target := by
  unfold routeBy?
  cases hknown : e.rays with
  | none => rfl
  | some rays =>
    have hown : rays = Rays.ofBoard e.game.board := hrays rays hknown
    rw [hown, Option.bind_some]
    exact hb.cut_orElse_walk m

theorem route?_eq_walk (hb : e.game.board.WellFormed) (hrays : e.KnowsRays)
    (piece source target : ArtifactId) :
    e.route? piece source target = (e.game.piece? piece).bind fun p =>
      p.movements.findSome? fun m => e.game.board.walk m source target := by
  have hby : e.routeBy? source target = fun m => e.game.board.walk m source target := by
    funext m
    exact routeBy?_eq_walk hb hrays source target m
  rw [route?, hby]
  rfl

def withRays (e : Engine) (rays : Option Rays) : Engine := { e with rays }

theorem knowsRays_withRays : (e.withRays (some (Rays.ofBoard e.game.board))).KnowsRays := by
  intro rays hrays
  exact (Option.some.inj hrays).symm

theorem knowsRays_withoutRays : (e.withRays none).KnowsRays := by
  intro rays hrays
  cases hrays

theorem knowsRays_ofGame {game : Game} {phases : Phase} {c : Config} {o : Observer} :
    (ofGame game phases c o).KnowsRays := by
  intro rays hrays
  change (if c.useRays then some (Rays.ofBoard game.board) else none) = some rays at hrays
  by_cases huse : c.useRays = true
  · rw [if_pos huse] at hrays
    exact (Option.some.inj hrays).symm
  · rw [if_neg huse] at hrays
    cases hrays

end Engine

namespace Blueprint

theorem knowsRays_of_build {b : Blueprint} {start : Session} (h : b.build = .ok start) :
    start.engine.KnowsRays := by
  obtain ⟨game, snapshot, phases, -, -, -, rfl⟩ := build_eq_ok_iff.mp h
  exact Engine.knowsRays_ofGame

/-- On the board of a built game cutting the rays gives the route that walking gives, whatever the tiles
and directions asked for, and none for a fixed sequence of steps. So a piece has the same routes with rays
as without them, and the engine of the game either has these rays or has none. -/
theorem rays_agree_with_walk {b : Blueprint} {start : Session} (h : b.build = .ok start) :
    let board := start.engine.game.board
    let rays := Rays.ofBoard board
    (∀ source target,
      rays.cut .still source target = board.walk .still source target ∧
      (∀ direction repeatable, rays.cut (.along direction repeatable) source target =
        board.walk (.along direction repeatable) source target) ∧
      (∀ choices repeatable, rays.cut (.alongAny choices repeatable) source target =
        board.walk (.alongAny choices repeatable) source target) ∧
      ∀ steps, rays.cut (.jump steps) source target = none) ∧
    (∀ piece source target, (start.engine.withRays (some rays)).route? piece source target =
      (start.engine.withRays none).route? piece source target) ∧
    start.engine.rays = if b.config.useRays then some rays else none := by
  intro board rays
  have hboard : board.WellFormed := board_wellFormed_of_build h
  refine ⟨fun source target => ⟨?_, ?_, ?_, ?_⟩, ?_, ?_⟩
  · exact hboard.cut_eq_walk (by simp)
  · intro direction repeatable
    exact hboard.cut_eq_walk (by simp)
  · intro choices repeatable
    exact hboard.cut_eq_walk (by simp)
  · intro steps
    exact ite_self _
  · intro piece source target
    have hwith := Engine.route?_eq_walk (e := start.engine.withRays (some rays)) hboard
      Engine.knowsRays_withRays piece source target
    have hwithout := Engine.route?_eq_walk (e := start.engine.withRays none) hboard
      Engine.knowsRays_withoutRays piece source target
    exact hwith.trans hwithout.symm
  · obtain ⟨game, snapshot, phases, -, -, -, rfl⟩ := build_eq_ok_iff.mp h
    rfl

/-- The lasso with a token that jumps two steps ahead or else runs on. -/
def tokenOnLasso : Blueprint where
  tiles := lasso.tiles
  directions := lasso.directions
  relations := lasso.relations
  pieces := [{ id := "token", movements := [.steps ["on", "on"], (MovementDecl.direction "on").repeated] }]

/-- Directions and tiles that the board does not have are asked for in vain either way; a run into the
ring is found either way, also by the token, which needs one step where its jump takes two. -/
theorem rays_on_lasso : ∃ start, tokenOnLasso.build = .ok start ∧
    let board := start.engine.game.board
    let rays := Rays.ofBoard board
    rays.cut (.alongAny ["off", "on"] true) "head" "right" =
      board.walk (.alongAny ["off", "on"] true) "head" "right" ∧
    (board.walk (.alongAny ["off", "on"] true) "head" "right").isSome = true ∧
    rays.cut (.along "on" true) "nowhere" "right" = board.walk (.along "on" true) "nowhere" "right" ∧
    (start.engine.withRays (some rays)).route? "token" "head" "left" =
      (start.engine.withRays none).route? "token" "head" "left" ∧
    ((start.engine.withRays none).route? "token" "head" "left").isSome = true := by
  refine ⟨_, rfl, ?_⟩
  obtain ⟨hcut, hroute, -⟩ := rays_agree_with_walk (b := tokenOnLasso) rfl
  obtain ⟨-, -, hany, -⟩ := hcut "head" "right"
  obtain ⟨-, halong, -, -⟩ := hcut "nowhere" "right"
  exact ⟨hany ["off", "on"] true, by decide, halong "on" true, hroute "token" "head" "left", by decide⟩

end Blueprint

end BoardGame
