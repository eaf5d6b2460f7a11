import BoardGame.Proofs.Engine.Handle
import BoardGame.Proofs.Engine.Routes

/-!
Runs do not show how an engine is accelerated. Two engines that agree on everything but the index of their
agendas and their rays give tests and effects the same routes, scan an event with the same result and so
come to the same end; what a step preserves is that two sessions differ in nothing but such engines.
-/

namespace BoardGame

namespace Engine

/-- Engines that may differ in their agendas and in the way in which they find their routes. -/
structure Agree (e e' : Engine) : Prop where
  planned : e.Planned
  planned' : e'.Planned
  phases_eq : e'.phases = e.phases
  setting_eq : e'.setting = e.setting
  strategy_eq : e'.config.strategy = e.config.strategy

variable {e e' : Engine} {s : Snapshot} {event : Event}

theorem Agree.scanLeaf_eq (h : e.Agree e') : e'.scanLeaf s event = e.scanLeaf s event := by
  funext scan p
  rw [scanLeaf, scanLeaf, admits_congr h.setting_eq, answer_congr h.setting_eq]

theorem Agree.value_scan_eq (h : e.Agree e') : (e'.scan s event).value = (e.scan s event).value := by
  rw [h.planned'.value_scan, h.planned.value_scan, h.scanLeaf_eq, h.phases_eq]

theorem Agree.perform_eq (h : e.Agree e') : e'.perform event = e.perform event := by
  have hleaves : e'.leaves = e.leaves := by
    rw [h.planned'.leaves_eq, h.planned.leaves_eq, h.phases_eq]
  funext s c
  rw [perform, perform, hleaves, h.setting_eq]

theorem Agree.value_evaluate_eq (h : e.Agree e') :
    (e'.evaluate s event).value = (e.evaluate s event).value := by
  rw [value_evaluate, value_evaluate, h.value_scan_eq]
  simp only [conclude, resolve, h.strategy_eq, h.perform_eq]

theorem Agree.move?_eq (h : e.Agree e') (piece target : ArtifactId) :
    e'.move? s piece target = e.move? s piece target := by
  have hroute : e'.route? = e.route? := congrArg Setting.route? h.setting_eq
  rw [move?, move?, hroute]

/-- Engines of which one can be put in the place of the other: they make the same of every event, and find
the same moves. -/
structure Interchangeable (e e' : Engine) : Prop where
  value_evaluate_eq : ∀ s event, (e'.evaluate s event).value = (e.evaluate s event).value
  move?_eq : ∀ s piece target, e'.move? s piece target = e.move? s piece target

theorem Agree.interchangeable (h : e.Agree e') : e.Interchangeable e' :=
  ⟨fun _ _ => h.value_evaluate_eq, fun _ => h.move?_eq⟩

variable {game : Game} {phases : Phase} {c c' : Config} {o o' : Observer}

theorem routeBy?_ofGame (hb : game.board.WellFormed) (source target : ArtifactId) (m : Movement) :
    (ofGame game phases c o).routeBy? source target m = game.board.walk m source target :=
  routeBy?_eq_walk hb knowsRays_ofGame source target m

theorem setting_ofGame (hb : game.board.WellFormed) :
    (ofGame game phases c o).setting = (ofGame game phases c' o').setting := by
  have hroute : (ofGame game phases c o).route? = (ofGame game phases c' o').route? := by
    funext piece source target
    have hby : (ofGame game phases c o).routeBy? source target =
        (ofGame game phases c' o').routeBy? source target := by
      funext m
      rw [routeBy?_ofGame hb, routeBy?_ofGame hb]
    rw [route?, route?, hby]
    rfl
  exact congrArg (Setting.mk game) hroute

end Engine

/-- What a run is fed with: an event, or the wish that a piece moves to a tile. -/
inductive Input where
  | event (e : Event)
  | request (piece target : ArtifactId)

/-- What can be seen of a step: the event that the input came to, if it came to one; whether the event was
applied, or why it failed; and the play that the step leads to. -/
structure Report where
  event : Option Event
  ending : Option (Except Failure Bool)
  snapshot : Snapshot
  lastEvent : Option Event
  lastDecision : Option Decision
  applied : Nat

namespace Session

def eventOf? (p : Session) : Input → Option Event
  | .event e => some e
  | .request piece target => (p.engine.move? p.snapshot piece target).map Event.move

/-- The answer to an input. A wish that no movement fulfils is not handled at all. -/
def answer? (p : Session) (call : Nat) (i : Input) : Option (Except Failure Session) :=
  (p.eventOf? i).map fun event => (p.handle call event).value

/-- After an input that was not handled, or that failed, play goes on from the same session. -/
def next (p : Session) (call : Nat) (i : Input) : Session :=
  match p.answer? call i with
  | some (.ok q) => q
  | _ => p

def report (p : Session) (call : Nat) (i : Input) : Report where
  event := p.eventOf? i
  ending := (p.answer? call i).map (Except.map fun q => !q.isSame p)
  snapshot := (p.next call i).snapshot
  lastEvent := (p.next call i).lastEvent
  lastDecision := (p.next call i).lastDecision
  applied := (p.next call i).applied

def run (p : Session) (call : Nat) : List Input → List Report
  | [] => []
  | i :: rest => p.report call i :: run (p.next call i) (call + 1) rest

def under (p : Session) (e : Engine) : Session := { p with engine := e }

variable {p : Session} {e : Engine} {call : Nat} {i : Input}

theorem value_handle_under (h : p.engine.Interchangeable e) (event : Event) :
    ((p.under e).handle call event).value = (p.handle call event).value.map (under · e) := by
  have hvalue : ((p.under e).engine.evaluate (p.under e).snapshot event).value =
      (p.engine.evaluate p.snapshot event).value := h.value_evaluate_eq p.snapshot event
  rw [value_handle, value_handle, hvalue]
  cases (p.engine.evaluate p.snapshot event).value with
  | error failure => rfl
  | ok evaluation =>
    cases evaluation with
    | ignored => rfl
    | applied snapshot decision => rfl

theorem eventOf?_under (h : p.engine.Interchangeable e) : (p.under e).eventOf? i = p.eventOf? i := by
  cases i with
  | event event => rfl
  | request piece target => exact congrArg (Option.map Event.move) (h.move?_eq p.snapshot piece target)

theorem answer?_under (h : p.engine.Interchangeable e) :
    (p.under e).answer? call i = (p.answer? call i).map (Except.map (under · e)) := by
  rw [answer?, answer?, eventOf?_under h, Option.map_map]
  congr 1
  funext event
  exact value_handle_under h event

theorem next_under (h : p.engine.Interchangeable e) :
    (p.under e).next call i = (p.next call i).under e := by
  rw [next, next, answer?_under h]
  match p.answer? call i with
  | none => rfl
  | some (.error failure) => rfl
  | some (.ok q) => rfl

theorem report_under (h : p.engine.Interchangeable e) :
    (p.under e).report call i = p.report call i := by
  rw [report, report, eventOf?_under h, answer?_under h, next_under h]
  match p.answer? call i with
  | none => rfl
  | some (.error failure) => rfl
  | some (.ok q) => rfl

theorem engine_of_handle {event : Event} {q : Session} (h : (p.handle call event).value = .ok q) :
    q.engine = p.engine := by
  rw [value_handle] at h
  split at h <;> cases h <;> rfl

theorem engine_next : (p.next call i).engine = p.engine := by
  rw [next, answer?]
  cases p.eventOf? i with
  | none => rfl
  | some event =>
    rw [Option.map_some]
    cases hvalue : (p.handle call event).value with
    | error failure => rfl
    | ok q => exact engine_of_handle hvalue

theorem run_interchanged (h : p.engine.Interchangeable e) (inputs : List Input) :
    (p.under e).run call inputs = p.run call inputs := by
  -- the invariant is that the two sessions differ in their engines alone, which are interchangeable
  induction inputs generalizing p call with
  | nil => rfl
  | cons i rest ih =>
    have hnext : (p.next call i).engine.Interchangeable e := by
      rw [engine_next]
      exact h
    rw [run, run, report_under h, next_under h, ih hnext]

theorem run_under (h : p.engine.Agree e) (inputs : List Input) :
    (p.under e).run call inputs = p.run call inputs := run_interchanged h.interchangeable inputs

end Session

namespace Blueprint

def accelerated (b : Blueprint) (indexTypes useRays : Bool) : Blueprint :=
  { b with config := { b.config with indexTypes, useRays } }

/-- However a game is accelerated, it builds alike, and every run of it reports the same. -/
theorem run_accelerated {b : Blueprint} {start : Session} (hbuild : b.build = .ok start)
    (hagenda : b.config.useAgenda = true) (indexTypes useRays : Bool) :
    ∃ other, (b.accelerated indexTypes useRays).build = .ok other ∧
      other.snapshot = start.snapshot ∧
      ∀ call inputs, other.run call inputs = start.run call inputs := by
  have hplanned := planned_of_build hbuild hagenda
  have hboard := board_wellFormed_of_build hbuild
  obtain ⟨game, snapshot, phases, hgame, hsnapshot, hroot, hstart⟩ := build_eq_ok_iff.mp hbuild
  let e := Engine.ofGame game phases (b.accelerated indexTypes useRays).config
    (b.observer.getD .logging)
  -- the flags play no part in what building checks, nor in what it makes beside the engine
  have hother : (b.accelerated indexTypes useRays).build = .ok (start.under e) := by
    rw [hstart]
    exact build_eq_ok_iff.mpr ⟨game, snapshot, phases, hgame, hsnapshot, hroot, rfl⟩
  have hagree : start.engine.Agree e := by
    refine ⟨hplanned, planned_of_build hother hagenda, ?_, ?_, ?_⟩
    · rw [hstart]
      rfl
    · rw [hstart] at hboard ⊢
      exact Engine.setting_ofGame hboard
    · rw [hstart]
      rfl
  exact ⟨start.under e, hother, rfl, fun call inputs => Session.run_under hagree inputs⟩

def tick : Event := .custom { typeName := "Wrapped<Tick>", label := some "Wrapped", text := "tick" }
def tock : Event := .custom { typeName := "Wrapped<Tock>", label := some "Wrapped", text := "tock" }

/-- A rule for each of two types of event that are shown by one name, and a pawn that may go up. -/
def wrapped : Blueprint where
  tiles := ["a1", "a2"]
  directions := ["up"]
  relations := [{ source := "a1", target := "a2", direction := "up" }]
  pieces := [{ id := "pawn", movements := [(MovementDecl.direction "up").repeated] }]
  statuses := [.piece "pawn" "a1"]
  phases := [
    .leaf { id := "ticking", rule := Rule.on tick.type "tick" },
    .leaf { id := "tocking", rule := (Rule.on tock.type "tock").require (.test .never) },
    .leaf {
      id := "moving"
      rule := .simple { id := "go", type := some .move, guard := .test .followsMovement } [.movePiece] }]

/-- A tick is applied, a tock is refused, the pawn goes up, and then it cannot go back. -/
theorem run_wrapped :
    let inputs := [.event tick, .event tock, .request "pawn" "a2", .request "pawn" "a1"]
    tick.name = tock.name ∧ tick.type ≠ tock.type ∧
    ∃ start other, wrapped.build = .ok start ∧ wrapped.config.useAgenda = true ∧
      (wrapped.accelerated false false).build = .ok other ∧
      other.run 1 inputs = start.run 1 inputs ∧
      (start.run 1 inputs).map Report.applied = [1, 1, 2, 2] := by
  intro inputs
  refine ⟨rfl, by decide, ?_⟩
  obtain ⟨other, hother, -, hrun⟩ := run_accelerated (b := wrapped) rfl rfl false false
  exact ⟨_, other, rfl, rfl, hother, hrun 1 inputs, by decide⟩

end Blueprint

end BoardGame
