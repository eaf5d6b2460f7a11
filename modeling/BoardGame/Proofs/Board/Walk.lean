import BoardGame.Board.Walk
import BoardGame.Proofs.Setup.Engine
import Mathlib.Data.List.Chain

/-!
Walking a board is sound and complete. A trail is a list of relations, each leaving the tile that the one
before it reached; the walker returns trails, and it returns one whenever there is any. That it may stop
after as many steps as there are tiles rests on a walk never meeting a tile twice before it arrives:
from a tile met twice it would go on as it did the first time.
-/

namespace BoardGame

theorem connected_iff_isChain {l : List Relation} :
    Connected l = true ↔ l.IsChain fun r q => r.target = q.source := by
  induction l with
  | nil => simp [Connected]
  | cons r rest ih =>
    cases rest with
    | nil => simp [Connected]
    | cons q rest => simp [Connected, List.isChain_cons_cons, ih]

theorem Route.ofList?_eq_some_iff {l : List Relation} {p : Route} :
    Route.ofList? l = some p ↔ p.relations = l := by
  constructor
  · exact Route.relations_of_ofList?
  · rintro rfl
    exact Route.ofList?_relations p

namespace Board

/-- Relations of the board that lead from a tile to another in the given directions, one after the
other. -/
inductive Trail (b : Board) : List DirectionId → ArtifactId → ArtifactId → List Relation → Prop where
  | stay (tile) : Trail b [] tile tile []
  | step {direction directions tile target r l} : b.Joins direction tile r →
      Trail b directions r.target target l → Trail b (direction :: directions) tile target (r :: l)

def Leads (b : Board) (directions : List DirectionId) (source target : ArtifactId) : Prop :=
  ∃ l, b.Trail directions source target l

variable {b : Board} {direction : DirectionId} {directions : List DirectionId}
  {tile source target : ArtifactId} {l : List Relation} {p : Route}

namespace Trail

theorem on_board (h : b.Trail directions source target l) : ∀ r ∈ l, r ∈ b.relations := by
  induction h with
  | stay => simp
  | step hr _ ih => exact List.forall_mem_cons.mpr ⟨hr.1, ih⟩

theorem map_direction (h : b.Trail directions source target l) :
    l.map Relation.direction = directions := by
  induction h with
  | stay => rfl
  | step hr _ ih => rw [List.map_cons, hr.2.2, ih]

theorem source_eq {r : Relation} (h : b.Trail directions source target (r :: l)) :
    r.source = source := by
  cases h with
  | step hr _ => exact hr.2.1

theorem isChain (h : b.Trail directions source target l) :
    l.IsChain fun r q => r.target = q.source := by
  induction h with
  | stay => exact List.isChain_nil
  | @step _ _ _ _ r l hr hl ih =>
    cases l with
    | nil => exact List.isChain_singleton r
    | cons q l => exact List.isChain_cons_cons.mpr ⟨hl.source_eq.symm, ih⟩

theorem target_eq (h : b.Trail directions source target l) (hne : l ≠ []) :
    (l.getLast hne).target = target := by
  induction h with
  | stay => exact absurd rfl hne
  | @step _ _ _ _ r l hr hl ih =>
    cases hl with
    | stay => rfl
    | step hq hl => exact ih (List.cons_ne_nil _ _)

theorem length_eq (h : b.Trail directions source target l) : directions.length = l.length := by
  rw [← h.map_direction, List.length_map]

theorem exists_route (h : b.Trail directions source target l) (hne : l ≠ []) :
    ∃ p : Route, p.relations = l := by
  obtain ⟨r, rest, rfl⟩ := List.exists_cons_of_ne_nil hne
  exact ⟨⟨r, rest, connected_iff_isChain.mpr h.isChain⟩, rfl⟩

theorem route_source (h : b.Trail directions source target p.relations) : p.source = source :=
  h.source_eq

theorem route_target (h : b.Trail directions source target p.relations) : p.target = target :=
  h.target_eq (List.cons_ne_nil _ _)

end Trail

/-! ### Sliding in one direction -/

theorem slide_succ_eq_some_iff {n : Nat} :
    b.slide direction target (n + 1) tile = some l ↔
      ∃ r, b.step? tile direction = some r ∧
        ((r.target = target ∧ l = [r]) ∨
          (r.target ≠ target ∧ ∃ rest, b.slide direction target n r.target = some rest ∧
            l = r :: rest)) := by
  simp only [slide, Option.bind_eq_bind, Option.bind_eq_some_iff]
  refine exists_congr fun r => and_congr_right fun _ => ?_
  by_cases harrived : r.target = target
  · simp [harrived, eq_comm]
  · rw [if_neg harrived, Option.bind_eq_some_iff]
    simp [harrived, @eq_comm _ l]

theorem slide_ne_nil {n : Nat} (h : b.slide direction target n tile = some l) : l ≠ [] := by
  cases n with
  | zero => cases h
  | succ n =>
    obtain ⟨r, -, ⟨-, rfl⟩ | ⟨-, rest, -, rfl⟩⟩ := slide_succ_eq_some_iff.mp h
    · exact List.cons_ne_nil _ _
    · exact List.cons_ne_nil _ _

theorem trail_of_slide {n : Nat} (h : b.slide direction target n tile = some l) :
    b.Trail (List.replicate l.length direction) tile target l := by
  induction n generalizing tile l with
  | zero => cases h
  | succ n ih =>
    obtain ⟨r, hstep, ⟨rfl, rfl⟩ | ⟨-, rest, hrest, rfl⟩⟩ := slide_succ_eq_some_iff.mp h
    · exact .step (joins_of_step? hstep) (.stay _)
    · exact .step (joins_of_step? hstep) (ih hrest)

theorem slide_mono {n m : Nat} (h : b.slide direction target n tile = some l) (hnm : n ≤ m) :
    b.slide direction target m tile = some l := by
  induction n generalizing tile l m with
  | zero => cases h
  | succ n ih =>
    obtain ⟨m, rfl⟩ : ∃ k, m = k + 1 := ⟨m - 1, by omega⟩
    obtain ⟨r, hstep, harrived | ⟨hne, rest, hrest, rfl⟩⟩ := slide_succ_eq_some_iff.mp h
    · exact slide_succ_eq_some_iff.mpr ⟨r, hstep, Or.inl harrived⟩
    · have hlater := ih hrest (m := m) (by omega)
      exact slide_succ_eq_some_iff.mpr ⟨r, hstep, Or.inr ⟨hne, rest, hlater, rfl⟩⟩

theorem slide_length {n : Nat} (h : b.slide direction target n tile = some l) :
    b.slide direction target l.length tile = some l := by
  induction n generalizing tile l with
  | zero => cases h
  | succ n ih =>
    obtain ⟨r, hstep, ⟨harrived, rfl⟩ | ⟨hne, rest, hrest, rfl⟩⟩ := slide_succ_eq_some_iff.mp h
    · exact slide_succ_eq_some_iff.mpr ⟨r, hstep, Or.inl ⟨harrived, rfl⟩⟩
    · exact slide_succ_eq_some_iff.mpr ⟨r, hstep, Or.inr ⟨hne, rest, ih hrest, rfl⟩⟩

theorem slide_unique {n m : Nat} {k : List Relation}
    (hl : b.slide direction target n tile = some l)
    (hk : b.slide direction target m tile = some k) : l = k := by
  have hl' := slide_mono hl (Nat.le_max_left n m)
  rw [slide_mono hk (Nat.le_max_right n m)] at hl'
  exact (Option.some.inj hl').symm

/-- From a tile passed on the way the walk goes on as it would from there. -/
theorem slide_from_passed {n : Nat} {passed : ArtifactId}
    (h : b.slide direction target n tile = some l) (hmem : passed ∈ l.map Relation.target)
    (hne : passed ≠ target) :
    ∃ m rest, b.slide direction target m passed = some rest ∧ rest.length < l.length := by
  induction n generalizing tile l with
  | zero => cases h
  | succ n ih =>
    obtain ⟨r, -, ⟨rfl, rfl⟩ | ⟨-, rest, hrest, rfl⟩⟩ := slide_succ_eq_some_iff.mp h
    · simp [hne] at hmem
    · rcases List.mem_cons.mp hmem with rfl | hmem
      · exact ⟨n, rest, hrest, by simp⟩
      · obtain ⟨m, later, hlater, hlt⟩ := ih hrest hmem
        exact ⟨m, later, hlater, hlt.trans (by simp)⟩

/-- A walk meets no tile twice: from a tile met twice it would be as long as a part of itself. -/
theorem slide_nodup {n : Nat} (h : b.slide direction target n tile = some l)
    (hne : tile ≠ target) : (tile :: l.map Relation.target).Nodup := by
  induction n generalizing tile l with
  | zero => cases h
  | succ n ih =>
    have hfresh : tile ∉ l.map Relation.target := by
      intro hmem
      -- the walk from the later visit is the same walk, and yet shorter
      obtain ⟨m, rest, hrest, hlt⟩ := slide_from_passed h hmem hne
      rw [slide_unique hrest h] at hlt
      exact Nat.lt_irrefl _ hlt
    refine List.nodup_cons.mpr ⟨hfresh, ?_⟩
    obtain ⟨r, -, ⟨rfl, rfl⟩ | ⟨hpassed, rest, hrest, rfl⟩⟩ := slide_succ_eq_some_iff.mp h
    · simp
    · exact ih hrest hpassed

variable (hb : b.WellFormed)
include hb

theorem slide_of_trail {n : Nat} (h : b.Trail (List.replicate l.length direction) tile target l)
    (hne : l ≠ []) (hn : l.length ≤ n) :
    ∃ found, b.slide direction target n tile = some found := by
  induction l generalizing tile n with
  | nil => exact absurd rfl hne
  | cons r rest ih =>
    obtain ⟨n, rfl⟩ : ∃ k, n = k + 1 := ⟨n - 1, by simp at hn; omega⟩
    cases h with
    | step hr hrest =>
      have hstep := hb.step?_eq_some_iff.mpr hr
      by_cases harrived : r.target = target
      · exact ⟨[r], slide_succ_eq_some_iff.mpr ⟨r, hstep, Or.inl ⟨harrived, rfl⟩⟩⟩
      · have hrest_ne : rest ≠ [] := by
          rintro rfl
          cases hrest
          exact harrived rfl
        obtain ⟨found, hfound⟩ := ih hrest hrest_ne (Nat.le_of_succ_le_succ hn)
        exact ⟨r :: found, slide_succ_eq_some_iff.mpr
          ⟨r, hstep, Or.inr ⟨harrived, found, hfound, rfl⟩⟩⟩

/-- A walk has fewer steps than the board has tiles, since it meets each at most once. -/
theorem slide_length_lt {n : Nat} (h : b.slide direction target n tile = some l)
    (hne : tile ≠ target) : l.length < b.tiles.length := by
  have htrail := trail_of_slide h
  obtain ⟨r, rest, rfl⟩ := List.exists_cons_of_ne_nil (slide_ne_nil h)
  have hdeclared : tile :: (r :: rest).map Relation.target ⊆ b.tiles := by
    intro passed hpassed
    rcases List.mem_cons.mp hpassed with rfl | hpassed
    · rw [← htrail.source_eq]
      exact hb.source_declared r (htrail.on_board r (List.mem_cons_self ..))
    · obtain ⟨q, hq, rfl⟩ := List.mem_map.mp hpassed
      exact hb.target_declared q (htrail.on_board q hq)
  have hlength := (slide_nodup h hne).length_le_of_subset hdeclared
  simpa [Nat.succ_le_iff] using hlength

/-- The bound on the number of steps loses no target, however many steps lead to it. -/
theorem exists_slide_iff (hne : source ≠ target) :
    (∃ l, b.slide direction target b.reach source = some l) ↔
      ∃ k, 1 ≤ k ∧ b.Leads (List.replicate k direction) source target := by
  constructor
  · rintro ⟨l, hl⟩
    exact ⟨l.length, List.length_pos_of_ne_nil (slide_ne_nil hl), l, trail_of_slide hl⟩
  · rintro ⟨k, hk, l, htrail⟩
    have hlength : k = l.length := by simpa using htrail.length_eq
    subst hlength
    obtain ⟨found, hfound⟩ :=
      slide_of_trail hb htrail (List.ne_nil_of_length_pos hk) (Nat.le_refl _)
    -- the walk found may need fewer steps than the trail, which may run in circles
    have hlt := slide_length_lt hb hfound hne
    refine ⟨found, slide_mono (slide_length hfound) ?_⟩
    exact (Nat.le_of_lt hlt).trans (Nat.le_max_left _ _)

/-! ### Routes of movements -/

omit hb in
theorem walkAlong_eq_some_iff {repeatable : Bool} :
    b.walkAlong source target repeatable direction = some p ↔
      b.slide direction target (if repeatable then b.reach else 1) source = some p.relations := by
  simp only [walkAlong, Option.bind_eq_bind, Option.bind_eq_some_iff, Route.ofList?_eq_some_iff]
  constructor
  · rintro ⟨l, hl, rfl⟩
    exact hl
  · intro h
    exact ⟨_, h, rfl⟩

omit hb in
theorem isSome_walkAlong_iff {repeatable : Bool} :
    (b.walkAlong source target repeatable direction).isSome ↔
      ∃ l, b.slide direction target (if repeatable then b.reach else 1) source = some l := by
  rw [Option.isSome_iff_exists]
  constructor
  · rintro ⟨p, hp⟩
    exact ⟨_, walkAlong_eq_some_iff.mp hp⟩
  · rintro ⟨l, hl⟩
    obtain ⟨p, rfl⟩ := (trail_of_slide hl).exists_route (slide_ne_nil hl)
    exact ⟨p, walkAlong_eq_some_iff.mpr hl⟩

theorem follow_eq_some_iff :
    b.follow directions source = some l ↔ ∃ target, b.Trail directions source target l := by
  induction directions generalizing source l with
  | nil =>
    constructor
    · rintro h
      cases h
      exact ⟨source, .stay source⟩
    · rintro ⟨target, h⟩
      cases h
      rfl
  | cons direction directions ih =>
    simp only [follow, Option.bind_eq_bind, Option.bind_eq_some_iff, hb.step?_eq_some_iff, ih]
    constructor
    · rintro ⟨r, hr, rest, ⟨target, hrest⟩, h⟩
      cases h
      exact ⟨target, .step hr hrest⟩
    · rintro ⟨target, h⟩
      cases h with
      | @step _ _ _ _ r rest hr hrest => exact ⟨r, hr, rest, ⟨target, hrest⟩, rfl⟩

theorem walkSteps_eq_some_iff :
    b.walkSteps source target directions = some p ↔
      b.Trail directions source target p.relations := by
  simp only [walkSteps, Option.bind_eq_bind, Option.bind_eq_some_iff, follow_eq_some_iff hb,
    Route.ofList?_eq_some_iff]
  constructor
  · rintro ⟨l, ⟨reached, htrail⟩, q, rfl, hq⟩
    split at hq
    · rename_i htarget
      cases hq
      rw [htrail.route_target] at htarget
      exact htarget ▸ htrail
    · cases hq
  · intro htrail
    refine ⟨p.relations, ⟨target, htrail⟩, p, rfl, ?_⟩
    rw [if_pos htrail.route_target]

theorem isSome_walkSteps_iff (hne : source ≠ target) :
    (b.walkSteps source target directions).isSome ↔ b.Leads directions source target := by
  rw [Option.isSome_iff_exists]
  constructor
  · rintro ⟨p, hp⟩
    exact ⟨_, (walkSteps_eq_some_iff hb).mp hp⟩
  · rintro ⟨l, htrail⟩
    have hl : l ≠ [] := by
      rintro rfl
      cases htrail
      exact hne rfl
    obtain ⟨p, rfl⟩ := htrail.exists_route hl
    exact ⟨p, (walkSteps_eq_some_iff hb).mpr htrail⟩

end Board

/-- The directions that a single run along a direction may take. -/
def RunAlong (direction : DirectionId) (repeatable : Bool) (directions : List DirectionId) : Prop :=
  (∀ d ∈ directions, d = direction) ∧ (repeatable = false → directions.length = 1)

/-- The directions that a movement may take, step by step. -/
def Movement.Takes (directions : List DirectionId) : Movement → Prop
  | still => False
  | along direction repeatable => RunAlong direction repeatable directions
  | alongAny choices repeatable => ∃ d ∈ choices, RunAlong d repeatable directions
  | jump steps => directions = steps

/-- A route as a movement between two tiles of a board should be. -/
structure Route.Serves (p : Route) (b : Board) (m : Movement) (source target : ArtifactId) : Prop where
  on_board : ∀ r ∈ p.relations, r ∈ b.relations
  chained : p.relations.IsChain fun r q => r.target = q.source
  starts : p.source = source
  arrives : p.target = target
  directed : m.Takes (p.relations.map Relation.direction)
  /-- Only a fixed sequence of steps may cross itself. -/
  distinct : (∀ steps, m ≠ .jump steps) → p.tiles.Nodup

namespace Board

variable {b : Board} {direction : DirectionId} {source target : ArtifactId} {p : Route}
  {repeatable : Bool}

theorem ne_of_walk {m : Movement} (h : b.walk m source target = some p) : source ≠ target := by
  rintro rfl
  simp [walk] at h

theorem walk_along (hne : source ≠ target) :
    b.walk (.along direction repeatable) source target =
      b.walkAlong source target repeatable direction := if_neg hne

theorem walk_alongAny {choices : List DirectionId} (hne : source ≠ target) :
    b.walk (.alongAny choices repeatable) source target =
      choices.findSome? (b.walkAlong source target repeatable) := if_neg hne

theorem walk_jump {steps : List DirectionId} (hne : source ≠ target) :
    b.walk (.jump steps) source target = b.walkSteps source target steps := if_neg hne

/-- Without repetition the one relation in the direction has to arrive. -/
theorem exists_slide_one_iff :
    (∃ l, b.slide direction target 1 source = some l) ↔
      ∃ r, b.step? source direction = some r ∧ r.target = target := by
  constructor
  · rintro ⟨l, hl⟩
    obtain ⟨r, hstep, ⟨harrived, -⟩ | ⟨-, rest, hrest, -⟩⟩ := slide_succ_eq_some_iff.mp hl
    · exact ⟨r, hstep, harrived⟩
    · cases hrest
  · rintro ⟨r, hstep, harrived⟩
    exact ⟨[r], slide_succ_eq_some_iff.mpr ⟨r, hstep, Or.inl ⟨harrived, rfl⟩⟩⟩

theorem length_of_slide_one {l : List Relation} (h : b.slide direction target 1 source = some l) :
    l.length = 1 := by
  obtain ⟨r, -, ⟨-, rfl⟩ | ⟨-, rest, hrest, -⟩⟩ := slide_succ_eq_some_iff.mp h
  · rfl
  · cases hrest

theorem trail_of_walkAlong (h : b.walkAlong source target repeatable direction = some p) :
    b.Trail (List.replicate p.length direction) source target p.relations :=
  trail_of_slide (walkAlong_eq_some_iff.mp h)

theorem runAlong_of_walkAlong (h : b.walkAlong source target repeatable direction = some p) :
    RunAlong direction repeatable (p.relations.map Relation.direction) := by
  constructor
  · rw [(trail_of_walkAlong h).map_direction]
    intro d hd
    exact List.eq_of_mem_replicate hd
  · rintro rfl
    rw [List.length_map]
    exact length_of_slide_one (walkAlong_eq_some_iff.mp h)

theorem tiles_nodup_of_walkAlong (h : b.walkAlong source target repeatable direction = some p)
    (hne : source ≠ target) : p.tiles.Nodup := by
  rw [Route.tiles, (trail_of_walkAlong h).route_source]
  exact slide_nodup (walkAlong_eq_some_iff.mp h) hne

theorem serves_of_walk (hb : b.WellFormed) {m : Movement} (hne : source ≠ target)
    (h : b.walk m source target = some p) : p.Serves b m source target := by
  cases m with
  | still => simp [walk] at h
  | along direction repeatable =>
    rw [walk_along hne] at h
    have htrail := trail_of_walkAlong h
    exact ⟨htrail.on_board, htrail.isChain, htrail.route_source, htrail.route_target,
      runAlong_of_walkAlong h, fun _ => tiles_nodup_of_walkAlong h hne⟩
  | alongAny choices repeatable =>
    rw [walk_alongAny hne] at h
    obtain ⟨direction, hmem, hwalk⟩ := List.exists_of_findSome?_eq_some h
    have htrail := trail_of_walkAlong hwalk
    exact ⟨htrail.on_board, htrail.isChain, htrail.route_source, htrail.route_target,
      ⟨direction, hmem, runAlong_of_walkAlong hwalk⟩, fun _ => tiles_nodup_of_walkAlong hwalk hne⟩
  | jump steps =>
    rw [walk_jump hne] at h
    have htrail := (walkSteps_eq_some_iff hb).mp h
    exact ⟨htrail.on_board, htrail.isChain, htrail.route_source, htrail.route_target,
      htrail.map_direction, fun hjump => absurd rfl (hjump steps)⟩

end Board

namespace Blueprint

/-- On the board of a built game a movement has a route between two tiles exactly when its directions
lead from the one to the other, in any number of steps if it repeats its direction, and the routes that
are found serve their movement. -/
theorem walk_sound_and_complete {b : Blueprint} {start : Session} (h : b.build = .ok start) :
    let board := start.engine.game.board
    (∀ m tile, board.walk m tile tile = none) ∧
    (∀ source target, board.walk .still source target = none) ∧
    ∀ source target, source ≠ target →
      (∀ direction, (board.walk (.along direction true) source target).isSome ↔
        ∃ k, 1 ≤ k ∧ board.Leads (List.replicate k direction) source target) ∧
      (∀ direction, (board.walk (.along direction false) source target).isSome ↔
        ∃ r, board.Joins direction source r ∧ r.target = target) ∧
      (∀ choices repeatable, board.walk (.alongAny choices repeatable) source target =
        choices.findSome? fun d => board.walk (.along d repeatable) source target) ∧
      (∀ steps, (board.walk (.jump steps) source target).isSome ↔
        board.Leads steps source target) ∧
      ∀ m p, board.walk m source target = some p → p.Serves board m source target := by
  intro board
  have hboard : board.WellFormed := board_wellFormed_of_build h
  refine ⟨fun m tile => by simp [Board.walk], fun source target => by simp [Board.walk], ?_⟩
  intro source target hne
  refine ⟨fun direction => ?_, fun direction => ?_, fun choices repeatable => ?_, fun steps => ?_,
    fun m p hp => Board.serves_of_walk hboard hne hp⟩
  · rw [Board.walk_along hne, Board.isSome_walkAlong_iff]
    exact Board.exists_slide_iff hboard hne
  · rw [Board.walk_along hne, Board.isSome_walkAlong_iff]
    simp only [← hboard.step?_eq_some_iff]
    exact Board.exists_slide_one_iff
  · simp only [Board.walk_alongAny hne, Board.walk_along hne]
  · rw [Board.walk_jump hne]
    exact Board.isSome_walkSteps_iff hboard hne

/-- Three tiles of which the last two form a ring that never leads back to the first. -/
def lasso : Blueprint where
  tiles := ["head", "left", "right"]
  directions := ["on"]
  relations :=
    [⟨"head", "left", "on", 1⟩, ⟨"left", "right", "on", 1⟩, ⟨"right", "left", "on", 1⟩]

/-- The walker finds the ring from outside, and that it finds no way back excludes any number of
steps. -/
theorem walk_on_lasso : ∃ start, lasso.build = .ok start ∧
    (start.engine.game.board.walk (.along "on" true) "head" "right").isSome = true ∧
    ¬ ∃ k, 1 ≤ k ∧ start.engine.game.board.Leads (List.replicate k "on") "left" "head" := by
  refine ⟨_, rfl, rfl, ?_⟩
  have hback := (walk_sound_and_complete (b := lasso) rfl).2.2 "left" "head" (by decide)
  rw [← hback.1 "on"]
  decide

end Blueprint

end BoardGame
