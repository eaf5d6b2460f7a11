import BoardGame.Proofs.Engine.Applied
import BoardGame.Proofs.Rule.Completion

/-!
Whether the rules of an applied event are carried out in full. All of them were valid on the snapshot that
the event met, and each is carried out on what those before it have left. The event is counted as applied
by all of them either way; but an effect may take the last choice of a later rule away, which then does
nothing.
-/

namespace BoardGame

namespace Blueprint

/-- A valid rule, and all rules that a decision selects, are carried out in full exactly where every choice
that they come to has a valid child. Each of these choices was valid at an earlier moment of the same event,
and only an effect that is run before it can have left it none. -/
theorem completes_unless_choice_lost (s : Snapshot) (event : Event) :
    (∀ (c : Setting) (r : Rule), (r.check c s event).value.isValid = true →
        (r.completes c event s = true ↔ ∀ x ∈ r.choices c event s, x.Open c event s) ∧
        ∀ x ∈ r.choices c event s, x.before <+: r.performed c event s ∧ x.Promised c event s ∧
          (x.before = [] → x.Open c event s)) ∧
    ∀ (b : Blueprint) (start : Session) (t : Snapshot) (decision : Decision),
      b.build = .ok start →
      (start.engine.evaluate s event).value = .ok (.applied t decision) →
      let c := start.engine.setting
      let rules := (start.engine.carriedOut decision).map LeafPhase.rule
      (start.engine.carriedOut decision).map Candidate.ofLeaf = decision.selected ∧
      (∀ r ∈ rules, (r.check c s event).value.isValid = true) ∧
      t = (Rule.applyAll c event rules s).value ∧
      (Rule.completesAll c event rules s = true ↔
        ∀ x ∈ Rule.choicesAll c event rules s, x.Open c event s) ∧
      ∀ x ∈ Rule.choicesAll c event rules s,
        x.before <+: start.engine.performed event s decision ∧ x.Promised c event s ∧
          (x.before = [] → x.Open c event s) := by
  constructor
  · intro c r hvalid
    refine ⟨Rule.completes_iff r s, fun x hx => ?_⟩
    have hpromised : x.Promised c event s := Rule.promised_choices hvalid [] x hx
    exact ⟨Rule.before_prefix_performed r s x hx, hpromised, hpromised.open_of_no_effects⟩
  · intro b start t decision hbuild happlied c rules
    obtain ⟨hselected, hleaves⟩ :=
      Engine.map_ofLeaf_carriedOut (scans_of_build hbuild) (laidOut_of_build hbuild) happlied
    have hvalid : ∀ r ∈ rules, (r.check c s event).value.isValid = true :=
      List.forall_mem_map.mpr fun p hp => (List.mem_filter.mp (hleaves p hp)).2
    refine ⟨hselected, hvalid, ?_, ?_, fun x hx => ?_⟩
    · rw [Rule.value_applyAll]
      exact Engine.runAll_performed happlied
    · exact Rule.completesAll_iff (fun r _ => Rule.completes_iff r) s
    · have hpromised : x.Promised c event s :=
        Rule.promised_choicesAll (fun r hr => Rule.promised_choices (hvalid r hr)) [] x hx
      refine ⟨?_, hpromised, hpromised.open_of_no_effects⟩
      exact Rule.before_prefix_performedAll (fun r _ => Rule.before_prefix_performed r) s x hx

def advance : Rule :=
  .simple { id := "advance", type := some .move, guard := .test .onSource } [.movePiece]

/-- Passes the turn on after a move, in the one way that there is. -/
def finish : Rule :=
  Rule.anyOf "finish" [
    .simple { id := "pass", type := some .move, guard := .test .onSource } [.passTurn]]

/-- A pawn with one step ahead of it. Both rules are carried out for every move. -/
def relay : Blueprint where
  tiles := ["a1", "a2"]
  directions := ["up"]
  relations := [⟨"a1", "a2", "up", 1⟩]
  players := ["white", "black"]
  activePlayer := some "white"
  pieces := [{ id := "pawn", owner := some "white", movements := [MovementDecl.direction "up"] }]
  statuses := [.piece "pawn" "a1"]
  phases := [.leaf { id := "moving", rule := advance }, .leaf { id := "finishing", rule := finish }]
  config := { strategy := .applyAll }

def stepUp : Event :=
  .move { piece := "pawn", source := "a1", target := "a2", route := ⟨⟨"a1", "a2", "up", 1⟩, [], rfl⟩ }

/-- Once the pawn has moved, it does not stand any more where the second rule wants it: the decision names
both rules, but the turn is not passed on. -/
theorem relay_drops_pass : ∃ start t decision, relay.build = .ok start ∧
    (start.engine.evaluate start.snapshot stepUp).value = .ok (.applied t decision) ∧
    decision.rules = ["advance", "finish"] ∧ t.activePlayer? = start.snapshot.activePlayer? ∧
    Rule.completesAll start.engine.setting stepUp
      ((start.engine.carriedOut decision).map LeafPhase.rule) start.snapshot = false ∧
    let both := Rule.allOf "both" [advance, finish]
    (both.check start.engine.setting start.snapshot stepUp).value.isValid = true ∧
    both.completes start.engine.setting stepUp start.snapshot = false :=
  ⟨_, _, _, rfl, rfl, by decide +kernel, by decide +kernel, by decide +kernel, by decide +kernel,
    by decide +kernel⟩

/-- The choice that the second rule comes to was valid when the event came in, in one rule as in two. The
other way round, both rules are carried out in full. -/
theorem relay_promises_pass : ∃ start t decision, relay.build = .ok start ∧
    (start.engine.evaluate start.snapshot stepUp).value = .ok (.applied t decision) ∧
    let c := start.engine.setting
    let both := Rule.allOf "both" [advance, finish]
    let rules := (start.engine.carriedOut decision).map LeafPhase.rule
    (∃ x ∈ both.choices c stepUp start.snapshot,
      x.Promised c stepUp start.snapshot ∧ ¬x.Open c stepUp start.snapshot) ∧
    (∃ x ∈ Rule.choicesAll c stepUp rules start.snapshot,
      x.Promised c stepUp start.snapshot ∧ ¬x.Open c stepUp start.snapshot) ∧
    Rule.completesAll c stepUp rules.reverse start.snapshot = true := by
  have hrun : ∃ start t decision, relay.build = .ok start ∧
      (start.engine.evaluate start.snapshot stepUp).value = .ok (.applied t decision) ∧
      let c := start.engine.setting
      let both := Rule.allOf "both" [advance, finish]
      let rules := (start.engine.carriedOut decision).map LeafPhase.rule
      (both.check c start.snapshot stepUp).value.isValid = true ∧
      both.completes c stepUp start.snapshot = false ∧
      Rule.completesAll c stepUp rules start.snapshot = false ∧
      Rule.completesAll c stepUp rules.reverse start.snapshot = true :=
    ⟨_, _, _, rfl, rfl, by decide +kernel, by decide +kernel, by decide +kernel, by decide +kernel⟩
  obtain ⟨start, t, decision, hbuild, happlied, hvalid, hboth, hrules, hreverse⟩ := hrun
  obtain ⟨hrule, hpipeline⟩ := completes_unless_choice_lost start.snapshot stepUp
  refine ⟨start, t, decision, hbuild, happlied, ?_, ?_, hreverse⟩
  · obtain ⟨hcompletes, hchoices⟩ := hrule start.engine.setting _ hvalid
    exact Choice.exists_lost hcompletes hboth fun x hx => (hchoices x hx).2.1
  · obtain ⟨-, -, -, hcompletes, hchoices⟩ := hpipeline relay start t decision hbuild happlied
    exact Choice.exists_lost hcompletes hrules fun x hx => (hchoices x hx).2.1

end Blueprint

end BoardGame
