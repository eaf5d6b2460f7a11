import BoardGame.Proofs.Engine.Acceleration
import BoardGame.Proofs.Engine.Applied
import BoardGame.Proofs.Rule.Conservation
import BoardGame.Proofs.Setup.Start

/-!
Runs conserve the pieces. If the guards of all rules answer for what their effects need, then no run of
events puts two pieces on one tile, and none loses a piece or brings one back. Guards are asked before any
rule is carried out; what carries over from one rule to the next within an event is that the moving piece
is still on the board and that a tile once clear for it stays so.
-/

namespace BoardGame

open Snapshot

namespace Engine

variable {e : Engine} {s t : Snapshot} {event : Event} {chosen : List LeafPhase}

/-- All chosen rules were valid on one snapshot, and each is carried out on what those before left. -/
theorem orderly_foldl_after (hconserves : ∀ p ∈ chosen, p.rule.Conserves e.setting event)
    (hvalid : ∀ p ∈ chosen, (e.answer s event p).isValid = true) (hs : s.Indexed)
    (ht : t.Orderly e.game) (hst : Follows event s t) :
    (chosen.foldl (e.after event) t).Orderly e.game ∧
      Follows event s (chosen.foldl (e.after event) t) := by
  induction chosen generalizing t with
  | nil => exact ⟨ht, hst⟩
  | cons p rest ih =>
    obtain ⟨hp, hrest⟩ := List.forall_mem_cons.mp hconserves
    obtain ⟨hpvalid, hrestvalid⟩ := List.forall_mem_cons.mp hvalid
    obtain ⟨hnext, hfollows⟩ := hp s t hs ht hst hpvalid
    exact ih hrest hrestvalid hnext (hst.trans hfollows)

end Engine

namespace Session

variable {p q : Session} {call : Nat} {event : Event} {i : Input}

theorem handle_cases (h : (p.handle call event).value = .ok q) :
    q = p ∨ ∃ snapshot decision,
      (p.engine.evaluate p.snapshot event).value = .ok (.applied snapshot decision) ∧
      q = p.advance call event snapshot decision := by
  rw [value_handle] at h
  split at h
  · exact Or.inl (Except.ok.inj h).symm
  · rename_i snapshot decision happlied
    exact Or.inr ⟨snapshot, decision, happlied, (Except.ok.inj h).symm⟩
  · cases h

theorem next_cases (p : Session) (call : Nat) (i : Input) :
    p.next call i = p ∨ ∃ event, (p.handle call event).value = .ok (p.next call i) := by
  unfold next answer?
  cases p.eventOf? i with
  | none => exact Or.inl rfl
  | some event =>
    cases hvalue : (p.handle call event).value with
    | error failure => exact Or.inl (by simp [hvalue])
    | ok q => exact Or.inr ⟨event, by simp [hvalue]⟩

/-- What every step keeps holds of everything that a run reports. -/
theorem forall_mem_run {P : Session → Prop} (hnext : ∀ p call i, P p → P (p.next call i))
    (hp : P p) (inputs : List Input) :
    ∀ report ∈ p.run call inputs, ∃ q, P q ∧ report.snapshot = q.snapshot := by
  induction inputs generalizing p call with
  | nil => exact List.forall_mem_nil _
  | cons i rest ih =>
    have hq := hnext p call i hp
    exact List.forall_mem_cons.mpr ⟨⟨p.next call i, hq, rfl⟩, ih hq⟩

end Session

namespace Blueprint

variable {b : Blueprint} {start p q : Session} {call : Nat} {event : Event}

theorem staysOnBoard_of_build (h : b.build = .ok start) : start.engine.setting.StaysOnBoard := by
  have hboard := board_wellFormed_of_build h
  intro piece source target route hroute
  have hwalk : (start.engine.game.piece? piece).bind (fun p =>
      p.movements.findSome? fun m => start.engine.game.board.walk m source target) = some route := by
    rw [← Engine.route?_eq_walk hboard (knowsRays_of_build h)]
    exact hroute
  obtain ⟨declared, -, hfound⟩ := Option.bind_eq_some_iff.mp hwalk
  obtain ⟨m, -, hm⟩ := List.exists_of_findSome?_eq_some hfound
  have hserves := Board.serves_of_walk hboard (Board.ne_of_walk hm) hm
  have hlast := List.getLast_mem (List.cons_ne_nil route.first route.rest)
  rw [← hserves.arrives]
  exact hboard.target_declared _ (hserves.on_board _ hlast)

theorem orderly_of_handle (hbuild : b.build = .ok start)
    (hcovered : ∀ leaf ∈ start.engine.phases.leaves, leaf.rule.Covered start.engine.setting)
    (hengine : p.engine = start.engine) (hp : p.snapshot.Orderly start.engine.game)
    (hq : (p.handle call event).value = .ok q) :
    q.snapshot.Orderly start.engine.game ∧
      ∀ piece, q.snapshot.InPlay piece ↔ p.snapshot.InPlay piece := by
  rcases Session.handle_cases hq with rfl | ⟨snapshot, decision, happlied, rfl⟩
  · exact ⟨hp, fun _ => Iff.rfl⟩
  · rw [hengine] at happlied
    obtain ⟨chosen, hchosen, rfl⟩ :=
      Engine.exists_chosen_of_applied (scans_of_build hbuild) (laidOut_of_build hbuild) happlied
    have hleaf := fun leaf hmem => (List.mem_filter.mp (hchosen leaf hmem)).1
    have hvalid := fun leaf hmem => (List.mem_filter.mp (hchosen leaf hmem)).2
    have hconserves : ∀ leaf ∈ chosen, leaf.rule.Conserves start.engine.setting event :=
      fun leaf hmem => (hcovered leaf (hleaf leaf hmem)).conserves (staysOnBoard_of_build hbuild)
    obtain ⟨horderly, hfollows⟩ :=
      Engine.orderly_foldl_after hconserves hvalid hp.toIndexed hp (Follows.refl event p.snapshot)
    exact ⟨horderly, hfollows.inPlay_iff⟩

/-- What a run preserves, from the session `p` on: the engine of a game, order among the pieces, and which
of them are in play. -/
structure Steady (start p q : Session) : Prop where
  engine_eq : q.engine = start.engine
  orderly : q.snapshot.Orderly start.engine.game
  inPlay_iff : ∀ piece, q.snapshot.InPlay piece ↔ p.snapshot.InPlay piece

theorem Steady.next (h : Steady start p q) (hbuild : b.build = .ok start)
    (hcovered : ∀ leaf ∈ start.engine.phases.leaves, leaf.rule.Covered start.engine.setting)
    (call : Nat) (i : Input) : Steady start p (q.next call i) := by
  rcases q.next_cases call i with hstay | ⟨event, hhandled⟩
  · rw [hstay]
    exact h
  · obtain ⟨horderly, hsame⟩ := orderly_of_handle hbuild hcovered h.engine_eq h.orderly hhandled
    exact ⟨Session.engine_next.trans h.engine_eq, horderly,
      fun piece => (hsame piece).trans (h.inPlay_iff piece)⟩

/-- Whatever events a built game is given, and however it selects among its rules and finds them, the
pieces stay in order, and those on the board or captured are the same throughout. -/
theorem run_conserves_pieces (hbuild : b.build = .ok start)
    (hcovered : ∀ leaf ∈ start.engine.phases.leaves, leaf.rule.Covered start.engine.setting)
    (hengine : p.engine = start.engine) (horderly : p.snapshot.Orderly start.engine.game)
    (call : Nat) (inputs : List Input) :
    ∀ report ∈ p.run call inputs, report.snapshot.Orderly start.engine.game ∧
      ∀ piece, report.snapshot.InPlay piece ↔ p.snapshot.InPlay piece := by
  have hp : Steady start p p := ⟨hengine, horderly, fun _ => Iff.rfl⟩
  have hnext : ∀ q call i, Steady start p q → Steady start p (q.next call i) :=
    fun _ call i hq => hq.next hbuild hcovered call i
  intro report hreport
  obtain ⟨q, hq, hsnapshot⟩ := Session.forall_mem_run hnext hp inputs report hreport
  rw [hsnapshot]
  exact ⟨hq.orderly, hq.inPlay_iff⟩

def onRoute : List EventGuard := [.test .onSource, .test .followsMovement]

/-- Moving to an empty tile, or else capturing on arrival. -/
def arrive : Rule :=
  Rule.anyOf "arrive" [
    .simple { id := "enter", guard := .all (onRoute ++ [.test .targetEmpty]) } [.movePiece],
    .simple { id := "take", guard := .all onRoute } [.movePiece, .capture]]

/-- Capturing once more, and then passing the turn on. -/
def sweep : Rule :=
  Rule.allOf "sweep" [
    .simple { id := "clear", guard := .all onRoute } [.capture],
    .simple { id := "pass", guard := .all onRoute } [.passTurn]]

/-- Three tiles in a row, a rook and, ahead of it, a pawn. Both rules are carried out for every move. -/
def skirmish : Blueprint where
  tiles := ["a1", "a2", "a3"]
  directions := ["up"]
  relations := [⟨"a1", "a2", "up", 1⟩, ⟨"a2", "a3", "up", 1⟩]
  players := ["black", "white"]
  activePlayer := some "white"
  pieces := [
    { id := "rook", owner := some "white", movements := [(MovementDecl.direction "up").repeated] },
    { id := "pawn", owner := some "black" }]
  statuses := [.piece "rook" "a1", .piece "pawn" "a2"]
  phases := [.leaf { id := "arriving", rule := arrive }, .leaf { id := "sweeping", rule := sweep }]
  config := { strategy := .applyAll }

theorem covered_arrive (c : Setting) : arrive.Covered c := by
  refine Rule.covered_any_iff.mpr (List.forall_mem_cons.mpr ⟨?_, List.forall_mem_singleton.mpr ?_⟩)
  · exact Rule.covered_simple_iff.mpr (RuleHead.covers_of_tests c rfl (by simp) (by simp [onRoute])
      (by simp [onRoute]) (Or.inr (by simp)))
  · exact Rule.covered_simple_iff.mpr (RuleHead.covers_of_tests c rfl (by simp) (by simp [onRoute])
      (by simp [onRoute]) (Or.inl (by simp)))

theorem covered_sweep (c : Setting) : sweep.Covered c := by
  refine Rule.covered_all_iff.mpr (List.forall_mem_cons.mpr ⟨?_, List.forall_mem_singleton.mpr ?_⟩)
  · exact Rule.covered_simple_iff.mpr (RuleHead.covers_of_tests c rfl (by simp) (by simp [onRoute])
      (by simp [onRoute]) (Or.inl (by simp)))
  · exact Rule.covered_simple_iff.mpr ⟨by simp, by simp, by simp⟩

theorem covered_skirmish (h : skirmish.build = .ok start) :
    ∀ leaf ∈ start.engine.phases.leaves, leaf.rule.Covered start.engine.setting := by
  cases h
  intro leaf hleaf
  rcases List.mem_cons.mp hleaf with rfl | hleaf
  · exact covered_arrive _
  · obtain rfl := List.mem_singleton.mp hleaf
    exact covered_sweep _

theorem orderly_skirmish (h : skirmish.build = .ok start) :
    start.snapshot.Orderly start.engine.game := by
  rw [(indexed_of_build h).orderly_iff]
  cases h
  decide

/-- A move by a relation that the board does not have. -/
def forged : Event :=
  .move { piece := "rook", source := "a1", target := "a3", route := ⟨⟨"a1", "a3", "up", 1⟩, [], rfl⟩ }

/-- The forged move is refused; then the rook takes the pawn and goes on. -/
theorem skirmish_conserves_pieces :
    let inputs := [.event forged, .request "rook" "a2", .request "rook" "a3"]
    ∃ start, skirmish.build = .ok start ∧
      (∀ leaf ∈ start.engine.phases.leaves, leaf.rule.Covered start.engine.setting) ∧
      start.snapshot.Orderly start.engine.game ∧
      (∀ report ∈ start.run 1 inputs, report.snapshot.Orderly start.engine.game ∧
        ∀ piece, report.snapshot.InPlay piece ↔ start.snapshot.InPlay piece) ∧
      (start.run 1 inputs).map (fun r => (r.snapshot.tileOf? "rook", r.snapshot.isCaptured "pawn")) =
        [(some "a1", false), (some "a2", true), (some "a3", true)] := by
  intro inputs
  refine ⟨_, rfl, covered_skirmish rfl, orderly_skirmish rfl, ?_, by decide +kernel⟩
  exact run_conserves_pieces (b := skirmish) rfl (covered_skirmish rfl) rfl (orderly_skirmish rfl) 1 inputs

end Blueprint

end BoardGame
