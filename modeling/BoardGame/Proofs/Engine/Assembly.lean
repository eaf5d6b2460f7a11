import BoardGame.Proofs.Engine.Routes

/-!
Movements in their simplest shape. A declared movement is a choice of directions or a sequence of steps.
One of no direction becomes a movement that leads nowhere, and a choice of one direction a movement along
it; these are found by other ways through the walker, and through the rays, but to the same routes.
-/

namespace BoardGame

namespace Movement

theorem directions_assemble (choices : List DirectionId) (repeatable sequence : Bool) :
    (assemble choices repeatable sequence).directions = choices := by
  unfold assemble
  cases choices with
  | nil => rfl
  | cons d rest =>
    cases sequence with
    | true => rfl
    | false => cases rest <;> rfl

end Movement

namespace Board

variable {b : Board} {source target : ArtifactId}

theorem walk_alongAny_nil {repeatable : Bool} :
    b.walk (.alongAny [] repeatable) source target = b.walk .still source target := rfl

theorem walk_alongAny_singleton {direction : DirectionId} {repeatable : Bool} :
    b.walk (.alongAny [direction] repeatable) source target =
      b.walk (.along direction repeatable) source target := by
  by_cases hsame : source = target
  · rw [walk, walk, if_pos hsame, if_pos hsame]
  · rw [walk_alongAny hsame, walk_along hsame, List.findSome?_singleton]

/-- Without steps there is no route, even though nothing stands in the way. -/
theorem walk_jump_nil : b.walk (.jump []) source target = b.walk .still source target := rfl

theorem walkSteps_singleton {direction : DirectionId} :
    b.walkSteps source target [direction] = b.walkAlong source target false direction := by
  unfold walkSteps walkAlong
  cases hstep : b.step? source direction with
  | none => simp [follow, slide, hstep]
  | some r =>
    by_cases harrived : r.target = target <;>
      simp [follow, slide, hstep, harrived, Route.ofList?, Connected, Route.target, Route.relations]

theorem walk_jump_singleton {direction : DirectionId} :
    b.walk (.jump [direction]) source target = b.walk (.along direction false) source target := by
  by_cases hsame : source = target
  · rw [walk, walk, if_pos hsame, if_pos hsame]
  · rw [walk_jump hsame, walk_along hsame, walkSteps_singleton]

theorem walk_assemble_choice (choices : List DirectionId) (repeatable : Bool) :
    b.walk (.assemble choices repeatable false) source target =
      b.walk (.alongAny choices repeatable) source target := by
  cases choices with
  | nil => exact walk_alongAny_nil.symm
  | cons d rest =>
    cases rest with
    | nil => exact walk_alongAny_singleton.symm
    | cons => rfl

theorem walk_assemble_sequence (steps : List DirectionId) (repeatable : Bool) :
    b.walk (.assemble steps repeatable true) source target = b.walk (.jump steps) source target := by
  cases steps with
  | nil => exact walk_jump_nil.symm
  | cons => rfl

end Board

namespace Engine

/-- One movement has the routes that another has on the board: by walking, by what the engine looks up
first, and for a piece that moves in no other way. -/
structure RoutesAs (e : Engine) (m n : Movement) : Prop where
  walked : ∀ source target, e.game.board.walk m source target = e.game.board.walk n source target
  found : ∀ source target, e.routeBy? source target m = e.game.board.walk n source target
  travelled : ∀ id p, e.game.piece? id = some p → p.movements = [m] →
    ∀ source target, e.route? id source target = e.game.board.walk n source target

variable {e : Engine} {m n : Movement}

theorem routesAs_of_walk (hb : e.game.board.WellFormed) (hrays : e.KnowsRays)
    (h : ∀ source target, e.game.board.walk m source target = e.game.board.walk n source target) :
    e.RoutesAs m n := by
  refine ⟨h, fun source target => ?_, fun id p hp hm source target => ?_⟩
  · rw [routeBy?_eq_walk hb hrays, h]
  · rw [route?_eq_walk hb hrays, hp, Option.bind_some, hm, List.findSome?_singleton, h]

end Engine

namespace Blueprint

/-- In a built game a movement in its simplest shape has the routes of the choice or of the sequence that
it was declared as: no directions lead nowhere, a choice of one direction is a movement along it, and a
sequence of one step goes one step. Its directions are those declared. -/
theorem assembled_like_declared {b : Blueprint} {start : Session} (h : b.build = .ok start) :
    let e := start.engine
    (∀ directions repeatable,
      e.RoutesAs (.assemble directions repeatable false) (.alongAny directions repeatable) ∧
      e.RoutesAs (.assemble directions repeatable true) (.jump directions)) ∧
    (∀ direction repeatable,
      e.RoutesAs (.alongAny [] repeatable) .still ∧ e.RoutesAs (.jump []) .still ∧
      e.RoutesAs (.alongAny [direction] repeatable) (.along direction repeatable) ∧
      e.RoutesAs (.jump [direction]) (.along direction false)) ∧
    ∀ directions repeatable sequence,
      (Movement.assemble directions repeatable sequence).directions = directions := by
  intro e
  have halike : ∀ {m n : Movement},
      (∀ source target, e.game.board.walk m source target = e.game.board.walk n source target) →
      e.RoutesAs m n :=
    Engine.routesAs_of_walk (board_wellFormed_of_build h) (knowsRays_of_build h)
  refine ⟨fun directions repeatable => ⟨?_, ?_⟩, fun direction repeatable => ⟨?_, ?_, ?_, ?_⟩,
    Movement.directions_assemble⟩
  · exact halike fun _ _ => Board.walk_assemble_choice directions repeatable
  · exact halike fun _ _ => Board.walk_assemble_sequence directions repeatable
  · exact halike fun _ _ => Board.walk_alongAny_nil
  · exact halike fun _ _ => Board.walk_jump_nil
  · exact halike fun _ _ => Board.walk_alongAny_singleton
  · exact halike fun _ _ => Board.walk_jump_singleton

/-- A gate that can be passed either way, with a way round on one side that leads back at once. -/
def turnstile : Blueprint where
  tiles := ["in", "out"]
  directions := ["round", "on"]
  relations := [⟨"in", "in", "round", 1⟩, ⟨"in", "out", "on", 1⟩, ⟨"out", "in", "on", 1⟩]
  pieces := [
    { id := "stepper", movements := [.steps ["on"]] },
    { id := "roamer", movements := [(MovementDecl.anyOf ["round", "on"]).repeated] },
    { id := "post", movements := [.anyOf []] }]

/-- A sequence of one step passes the gate and does not come back to where it started. Roaming goes round
in vain before it passes, and a post stays where it is. -/
theorem turnstile_passed : ∃ start, turnstile.build = .ok start ∧
    let e := start.engine
    let board := e.game.board
    e.route? "stepper" "in" "out" = board.walk (.jump ["on"]) "in" "out" ∧
    board.walk (.jump ["on"]) "in" "out" = board.walk (.along "on" false) "in" "out" ∧
    (e.route? "stepper" "in" "out").isSome = true ∧ e.route? "stepper" "in" "in" = none ∧
    e.route? "roamer" "in" "out" = board.walk (.alongAny ["round", "on"] true) "in" "out" ∧
    (e.route? "roamer" "in" "out").isSome = true ∧
    e.route? "post" "in" "out" = board.walk (.alongAny [] false) "in" "out" ∧
    e.route? "post" "in" "out" = none := by
  refine ⟨_, rfl, ?_⟩
  obtain ⟨hroutes, hsimplest, -⟩ := assembled_like_declared (b := turnstile) rfl
  have hstepper := (hroutes ["on"] false).2.travelled "stepper" _ rfl rfl "in" "out"
  have hroamer := (hroutes ["round", "on"] true).1.travelled "roamer" _ rfl rfl "in" "out"
  have hpost := (hroutes [] false).1.travelled "post" _ rfl rfl "in" "out"
  obtain ⟨-, -, -, hstep⟩ := hsimplest "on" false
  exact ⟨hstepper, hstep.walked "in" "out", by decide, by decide, hroamer, by decide, hpost, by decide⟩

end Blueprint

end BoardGame
