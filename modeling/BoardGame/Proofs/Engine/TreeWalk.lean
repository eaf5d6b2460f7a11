import BoardGame.Proofs.Engine.Handle

/-!
Walking the tree instead of following an agenda. A tree walk stops at the first leaf that applies, so it
finds what a scan of all leaves would find if no other leaf applied. Where the first wins, an engine with
an agenda therefore goes along with every tree walk that applies an event; it may only do more, by a later
leaf, where the tree walk ignores the event or refuses it.
-/

namespace BoardGame

namespace Phase

variable (c : Setting) (s : Snapshot)

mutual

theorem value_activeLeaf? : (p : Phase) →
    (activeLeaf? c s p).value = p.leaves.find? fun q => (q.ask c s).value.isValid
  | .leaf p => by
    rw [activeLeaf?, Noted.value_bind, leaves, List.find?_singleton]
    rfl
  | .group _ children => value_activeLeafOf? children

theorem value_activeLeafOf? : (children : List Phase) →
    (activeLeafOf? c s children).value =
      (leavesOf children).find? fun q => (q.ask c s).value.isValid
  | [] => rfl
  | p :: rest => by
    rw [activeLeafOf?, Noted.value_bind, value_activeLeaf? p, leavesOf, List.find?_append]
    cases p.leaves.find? fun q => (q.ask c s).value.isValid with
    | none => exact value_activeLeafOf? rest
    | some found => rfl

end

end Phase

namespace Strategy

theorem exists_select_firstWins (c : Candidate) (rest : List Candidate) :
    ∃ d, firstWins.select (c :: rest) = .ok d ∧ d.selected = [c] := by
  cases rest with
  | nil => exact ⟨_, rfl, rfl⟩
  | cons d rest => exact ⟨_, rfl, rfl⟩

end Strategy

namespace Engine

variable {e walk plan : Engine} {s next : Snapshot} {event : Event} {p : LeafPhase}
  {rest l : List LeafPhase}

def found (e : Engine) (s : Snapshot) (event : Event) (l : List LeafPhase) : Scan where
  candidates := (l.filter fun p => (e.answer s event p).isValid).map Candidate.ofLeaf
  rejection := (l.find? fun p => (e.answer s event p).isInvalid).map
    fun p => (p, e.answer s event p)

theorem candidates_found_cons_of_valid (h : (e.answer s event p).outcome = .valid) :
    (e.found s event (p :: rest)).candidates =
      Candidate.ofLeaf p :: (e.found s event rest).candidates := by
  simp [found, Verdict.isValid, h]

theorem found_cons_of_ignore (h : (e.answer s event p).outcome = .ignore) :
    e.found s event (p :: rest) = e.found s event rest := by
  simp [found, Verdict.isValid, Verdict.isInvalid, h]

theorem found_cons_of_invalid (h : (e.answer s event p).outcome = .invalid) :
    e.found s event (p :: rest) =
      { candidates := (e.found s event rest).candidates
        rejection := some (p, e.answer s event p) } := by
  simp [found, Verdict.isValid, Verdict.isInvalid, h]

theorem value_activeLeaf?_eq (e : Engine) (s : Snapshot) :
    (e.phases.activeLeaf? e.setting s).value = (e.active s).head? := by
  rw [active, List.head?_filter]
  exact Phase.value_activeLeaf? e.setting s e.phases

theorem value_scan_of_walk (h : e.agenda = none) :
    (e.scan s event).value = e.found s event ((e.active s).take 1) := by
  have hasked : ((e.phases.activeLeaf? e.setting s).asking).value = (e.active s).head? :=
    value_activeLeaf?_eq e s
  have hscan : (e.scan s event).value =
      ((e.active s).take 1).foldl (fun scan p => scan.record p (e.answer s event p)) {} := by
    rw [scan, h]
    simp only [Noted.value_bind, hasked]
    cases e.active s with
    | nil => rfl
    | cons p rest => rfl
  rw [hscan, foldl_record]
  rfl

/-- Where the first wins, it is carried out, and the other candidates do not matter. -/
theorem conclude_firstWins (s : Snapshot) (event : Event)
    (hfirst : e.config.strategy = .firstWins) {scan : Scan} {c : Candidate} {rest : List Candidate}
    (hscan : scan.candidates = c :: rest) :
    ∃ decision, e.conclude s event scan = .ok (.applied (e.perform event s c).value decision) ∧
      decision.winner? = some c := by
  have hsome : scan.candidates ≠ [] := by
    rw [hscan]
    exact List.cons_ne_nil c rest
  obtain ⟨decision, hselect, hselected⟩ := Strategy.exists_select_firstWins c rest
  refine ⟨decision, ?_, ?_⟩
  · rw [conclude_of_candidates hsome, resolve, hfirst, hscan, hselect]
    simp only [hselected, List.foldl_cons, List.foldl_nil]
  · rw [Decision.winner?, hselected]
    rfl

theorem Planned.active_ordered (h : e.Planned) (s : Snapshot) :
    (e.active s).Pairwise fun p q => p.ordinal < q.ordinal := by
  have hleaves : e.phases.leaves.Pairwise fun p q => p.ordinal < q.ordinal := by
    have hrange := h.numbered
    rw [h.leaves_eq] at hrange
    have hpairwise := List.pairwise_lt_range' (s := 0) (n := e.phases.leaves.length) 1
    rw [← hrange, List.pairwise_map] at hpairwise
    exact hpairwise
  exact hleaves.filter _

/-- Two engines for one game, of which the first walks the tree and the second follows an agenda. -/
structure Counterparts (walk plan : Engine) : Prop where
  walks : walk.agenda = none
  planned : plan.Planned
  keeps : plan.KeepsDeclared
  phases_eq : walk.phases = plan.phases
  leaves_eq : walk.leaves = plan.leaves
  setting_eq : walk.setting = plan.setting
  strategy_eq : walk.config.strategy = plan.config.strategy

namespace Counterparts

theorem active_eq (h : walk.Counterparts plan) : walk.active s = plan.active s := by
  rw [active, active, h.phases_eq, applies_congr h.setting_eq]

theorem found_eq (h : walk.Counterparts plan) : walk.found s event l = plan.found s event l := by
  rw [found, found, answer_congr h.setting_eq]

theorem conclude_eq (h : walk.Counterparts plan) (scan : Scan) :
    walk.conclude s event scan = plan.conclude s event scan := by
  have hperform : walk.perform event = plan.perform event := by
    funext s c
    rw [perform, perform, h.leaves_eq, h.setting_eq]
  simp only [conclude, resolve, h.strategy_eq, hperform]

/-- The two differ in this alone: how many of the leaves that apply they ask. -/
theorem value_walk (h : walk.Counterparts plan) : (walk.evaluate s event).value =
    plan.conclude s event (plan.found s event ((plan.active s).take 1)) := by
  rw [value_evaluate, h.conclude_eq, value_scan_of_walk h.walks, h.active_eq, h.found_eq]

theorem value_plan (h : walk.Counterparts plan) : (plan.evaluate s event).value =
    plan.conclude s event (plan.found s event (plan.active s)) := by
  rw [value_evaluate, h.planned.value_scan_eq h.keeps]
  rfl

theorem evaluate_eq (h : walk.Counterparts plan) (hone : (plan.active s).length ≤ 1) :
    (walk.evaluate s event).value = (plan.evaluate s event).value := by
  have htake : (plan.active s).take 1 = plan.active s := List.take_of_length_le hone
  rw [h.value_walk, h.value_plan, htake]

theorem walk_cases (h : walk.Counterparts plan) (hfirst : plan.config.strategy = .firstWins) :
    ((walk.evaluate s event).value = .ok .ignored) ∨
    (∃ p rest decision, plan.active s = p :: rest ∧ (plan.answer s event p).outcome = .valid ∧
      (walk.evaluate s event).value =
        .ok (.applied (plan.perform event s (Candidate.ofLeaf p)).value decision) ∧
      decision.winner? = some (Candidate.ofLeaf p)) ∨
    (∃ p rest, plan.active s = p :: rest ∧ (plan.answer s event p).outcome = .invalid ∧
      (walk.evaluate s event).value = .error (.rejected
        { event, verdict := plan.answer s event p, phase := p.id, rule := p.rule.id,
          snapshot := s })) := by
  rw [h.value_walk]
  cases hactive : plan.active s with
  | nil => exact Or.inl rfl
  | cons p rest =>
    rw [List.take_succ_cons, List.take_zero]
    cases hanswer : (plan.answer s event p).outcome with
    | ignore =>
      left
      rw [found_cons_of_ignore hanswer]
      rfl
    | valid =>
      obtain ⟨decision, hconclude, hwinner⟩ :=
        conclude_firstWins s event hfirst (candidates_found_cons_of_valid hanswer)
      exact Or.inr (Or.inl ⟨p, rest, decision, rfl, hanswer, hconclude, hwinner⟩)
    | invalid =>
      right
      right
      refine ⟨p, rest, rfl, hanswer, ?_⟩
      rw [found_cons_of_invalid hanswer]
      rfl

/-- An event that the tree walk applies is applied alike with the agenda: the leaf that the walk stops at
comes first among all that accept the event. -/
theorem applied_of_walk (h : walk.Counterparts plan) (hfirst : plan.config.strategy = .firstWins)
    {decision : Decision} (hwalk : (walk.evaluate s event).value = .ok (.applied next decision)) :
    ∃ decision' winner, (plan.evaluate s event).value = .ok (.applied next decision') ∧
      decision.winner? = some winner ∧ decision'.winner? = some winner := by
  rcases h.walk_cases hfirst with hignored | ⟨p, rest, d, hactive, hvalid, happlied, hwinner⟩ |
    ⟨p, rest, -, -, hrejected⟩
  · rw [hignored] at hwalk
    cases hwalk
  · rw [happlied] at hwalk
    cases hwalk
    obtain ⟨decision', hconclude, hwinner'⟩ :=
      conclude_firstWins s event hfirst (candidates_found_cons_of_valid hvalid)
    rw [← hactive, ← h.value_plan] at hconclude
    exact ⟨decision', Candidate.ofLeaf p, hconclude, hwinner, hwinner'⟩
  · rw [hrejected] at hwalk
    cases hwalk

/-- After a rejection at the first leaf that applies, the agenda comes to the same rejection or to a later
leaf. -/
theorem plan_of_invalid (h : walk.Counterparts plan) (hfirst : plan.config.strategy = .firstWins)
    (hactive : plan.active s = p :: rest) (hinvalid : (plan.answer s event p).outcome = .invalid) :
    (plan.evaluate s event).value = .error (.rejected
      { event, verdict := plan.answer s event p, phase := p.id, rule := p.rule.id, snapshot := s }) ∨
    ∃ q decision, q ∈ plan.phases.leaves ∧ p.ordinal < q.ordinal ∧
      (plan.evaluate s event).value = .ok (.applied (plan.after event s q) decision) ∧
      decision.winner? = some (Candidate.ofLeaf q) := by
  rw [h.value_plan, hactive, found_cons_of_invalid hinvalid]
  cases hcandidates : (plan.found s event rest).candidates with
  | nil => exact Or.inl rfl
  | cons c others =>
    right
    have hc : c ∈ (plan.found s event rest).candidates := by
      rw [hcandidates]
      exact List.mem_cons_self ..
    obtain ⟨q, hq, rfl⟩ := List.mem_map.mp hc
    have hrest : q ∈ rest := (List.mem_filter.mp hq).1
    have hleaf : q ∈ plan.phases.leaves := by
      have hqactive : q ∈ plan.active s := by
        rw [hactive]
        exact List.mem_cons_of_mem p hrest
      exact (List.mem_filter.mp hqactive).1
    have hlater : p.ordinal < q.ordinal := by
      have hordered := h.planned.active_ordered s
      rw [hactive] at hordered
      exact (List.pairwise_cons.mp hordered).1 q hrest
    have hscan : (Scan.mk (Candidate.ofLeaf q :: others)
        (some (p, plan.answer s event p))).candidates = Candidate.ofLeaf q :: others := rfl
    obtain ⟨decision, hconclude, hwinner⟩ := conclude_firstWins s event hfirst hscan
    rw [h.planned.value_perform hleaf] at hconclude
    exact ⟨q, decision, hleaf, hlater, hconclude, hwinner⟩

theorem rejected_of_walk (h : walk.Counterparts plan) (hfirst : plan.config.strategy = .firstWins)
    {r : Rejection} (hwalk : (walk.evaluate s event).value = .error (.rejected r)) :
    (plan.evaluate s event).value = .error (.rejected r) ∨
    ∃ p q decision, p ∈ plan.phases.leaves ∧ r.phase = p.id ∧ r.rule = p.rule.id ∧
      q ∈ plan.phases.leaves ∧ p.ordinal < q.ordinal ∧
      (plan.evaluate s event).value = .ok (.applied (plan.after event s q) decision) ∧
      decision.winner? = some (Candidate.ofLeaf q) := by
  rcases h.walk_cases hfirst with hignored | ⟨p, rest, d, -, -, happlied, -⟩ |
    ⟨p, rest, hactive, hinvalid, hrejected⟩
  · rw [hignored] at hwalk
    cases hwalk
  · rw [happlied] at hwalk
    cases hwalk
  · rw [hrejected] at hwalk
    cases hwalk
    have hleaf : p ∈ plan.phases.leaves := by
      have hpactive : p ∈ plan.active s := by
        rw [hactive]
        exact List.mem_cons_self ..
      exact (List.mem_filter.mp hpactive).1
    rcases h.plan_of_invalid hfirst hactive hinvalid with hplan | ⟨q, decision, hplan⟩
    · exact Or.inl hplan
    · exact Or.inr ⟨p, q, decision, hleaf, rfl, rfl, hplan⟩

/-- An event that is ignored with the agenda is ignored by the tree walk, which could find nothing that the
agenda overlooks. -/
theorem ignored_of_plan (h : walk.Counterparts plan) (hfirst : plan.config.strategy = .firstWins)
    (hplan : (plan.evaluate s event).value = .ok .ignored) :
    (walk.evaluate s event).value = .ok .ignored := by
  rcases h.walk_cases hfirst with hignored | ⟨p, rest, d, -, -, happlied, -⟩ |
    ⟨p, rest, -, -, hrejected⟩
  · exact hignored
  · obtain ⟨decision, winner, happlied', -⟩ := h.applied_of_walk hfirst happlied
    rw [happlied'] at hplan
    cases hplan
  · rcases h.rejected_of_walk hfirst hrejected with hrejected' |
      ⟨p, q, decision, -, -, -, -, -, happlied', -⟩
    · rw [hrejected'] at hplan
      cases hplan
    · rw [happlied'] at hplan
      cases hplan

end Counterparts

end Engine

namespace Blueprint

def inMode (b : Blueprint) (useAgenda : Bool) (strategy : Strategy) : Blueprint :=
  { b with config := { b.config with useAgenda, strategy } }

end Blueprint

namespace Engine

def inMode (e : Engine) (useAgenda : Bool) (strategy : Strategy) : Engine :=
  ofGame e.game e.phases { e.config with useAgenda, strategy } e.observer

end Engine

namespace Blueprint

variable {b : Blueprint} {start : Session}

/-- How events are evaluated plays no part in what building checks, nor in what it makes beside the
engine. -/
theorem build_inMode (hbuild : b.build = .ok start) (useAgenda : Bool) (strategy : Strategy) :
    (b.inMode useAgenda strategy).build =
      .ok { start with engine := start.engine.inMode useAgenda strategy } := by
  obtain ⟨game, snapshot, phases, hgame, hsnapshot, hroot, rfl⟩ := build_eq_ok_iff.mp hbuild
  exact build_eq_ok_iff.mpr ⟨game, snapshot, phases, hgame, hsnapshot, hroot, rfl⟩

theorem counterparts_inMode (hbuild : b.build = .ok start) (hkeep : start.engine.KeepsDeclared)
    (strategy : Strategy) :
    (start.engine.inMode false strategy).Counterparts (start.engine.inMode true strategy) := by
  have hplanned : (start.engine.inMode true strategy).Planned :=
    planned_of_build (build_inMode hbuild true strategy) rfl
  exact ⟨rfl, hplanned, hkeep, rfl, rfl, rfl, rfl⟩

theorem setting_inMode (hbuild : b.build = .ok start) (useAgenda : Bool) (strategy : Strategy) :
    (start.engine.inMode useAgenda strategy).setting = start.engine.setting := by
  obtain ⟨game, snapshot, phases, -, -, -, rfl⟩ := build_eq_ok_iff.mp hbuild
  rfl

theorem active_inMode (hbuild : b.build = .ok start) (useAgenda : Bool) (strategy : Strategy)
    (s : Snapshot) : (start.engine.inMode useAgenda strategy).active s = start.engine.active s := by
  have happlies : (start.engine.inMode useAgenda strategy).applies s = start.engine.applies s := by
    funext p
    rw [Engine.applies, Engine.applies, setting_inMode hbuild]
  rw [Engine.active, Engine.active, happlies]
  rfl

theorem after_inMode (hbuild : b.build = .ok start) (useAgenda : Bool) (strategy : Strategy)
    (event : Event) (s : Snapshot) :
    (start.engine.inMode useAgenda strategy).after event s = start.engine.after event s := by
  funext p
  rw [Engine.after, Engine.after, setting_inMode hbuild]

/-- Both ways of evaluating events build alike. Where the first wins, what a tree walk applies is applied
with an agenda by the same winner and to the same end; what is ignored with an agenda is ignored by a tree
walk; and what a tree walk refuses is refused alike, or applied by a later leaf. Where no two leaves apply,
the two agree in everything, whatever the strategy. -/
theorem plan_simulates_treeWalk (hbuild : b.build = .ok start) (hkeep : start.engine.KeepsDeclared) :
    let mode := start.engine.inMode
    (∀ useAgenda strategy, (b.inMode useAgenda strategy).build =
      .ok { start with engine := mode useAgenda strategy }) ∧
    ∀ s event,
      let walked := ((mode false .firstWins).evaluate s event).value
      let planned := ((mode true .firstWins).evaluate s event).value
      (∀ next decision, walked = .ok (.applied next decision) →
        ∃ decision' winner, planned = .ok (.applied next decision') ∧
          decision.winner? = some winner ∧ decision'.winner? = some winner) ∧
      (planned = .ok .ignored → walked = .ok .ignored) ∧
      (∀ r, walked = .error (.rejected r) →
        planned = .error (.rejected r) ∨
        ∃ p q decision, p ∈ start.engine.phases.leaves ∧ r.phase = p.id ∧ r.rule = p.rule.id ∧
          q ∈ start.engine.phases.leaves ∧ p.ordinal < q.ordinal ∧
          planned = .ok (.applied (start.engine.after event s q) decision) ∧
          decision.winner? = some (Candidate.ofLeaf q)) ∧
      ((start.engine.active s).length ≤ 1 → ∀ strategy,
        ((mode false strategy).evaluate s event).value =
          ((mode true strategy).evaluate s event).value) := by
  intro mode
  have hpair := counterparts_inMode hbuild hkeep
  refine ⟨build_inMode hbuild, fun s event => ⟨?_, ?_, ?_, ?_⟩⟩
  · intro next decision happlied
    exact (hpair .firstWins).applied_of_walk rfl happlied
  · intro hignored
    exact (hpair .firstWins).ignored_of_plan rfl hignored
  · intro r hrejected
    have hplan := (hpair .firstWins).rejected_of_walk rfl hrejected
    simp only [after_inMode hbuild] at hplan
    exact hplan
  · intro hone strategy
    apply (hpair strategy).evaluate_eq
    rw [active_inMode hbuild]
    exact hone

/-- A leaf that lets no turn end, an unlocked one that does, and one that applies to nothing. -/
def gated : Blueprint where
  phases := [
    .leaf { id := "gate", rule := (Rule.on .endTurn "hold").require (.test .never) },
    .leaf { id := "way", guard := .test unlocked, rule := Rule.on .endTurn "pass" },
    .leaf { id := "ruin", guard := .test .never, rule := Rule.on .endTurn "fall" }]

theorem gated_keepsDeclared {start : Session} (h : gated.build = .ok start) :
    start.engine.KeepsDeclared := by
  cases h
  intro p hp t ht
  -- the gate and the ruin have no test of the game's own
  rcases List.mem_cons.mp hp with rfl | hp
  · cases List.mem_singleton.mp ht
  · rcases List.mem_cons.mp hp with rfl | hp
    · rw [List.mem_singleton.mp ht]
      exact unlocked_keepsDeclared
    · obtain rfl := List.mem_singleton.mp hp
      cases List.mem_singleton.mp ht

/-- The tree walk is refused at the gate, which the agenda gets past. -/
theorem gated_way : ∃ start, gated.build = .ok start ∧ start.engine.KeepsDeclared ∧
    ((start.engine.inMode false .firstWins).evaluate (.seeded 0) .endTurn).value =
      .error (.rejected
        { event := .endTurn, verdict := .fail "never", phase := "gate", rule := "hold",
          snapshot := .seeded 0 }) ∧
    ∃ next decision, ((start.engine.inMode true .firstWins).evaluate (.seeded 0) .endTurn).value =
      .ok (.applied next decision) := by
  refine ⟨_, rfl, gated_keepsDeclared rfl, rfl, ?_⟩
  obtain ⟨-, hsim⟩ := plan_simulates_treeWalk (b := gated) rfl (gated_keepsDeclared rfl)
  obtain ⟨-, -, hrejected, -⟩ := hsim (.seeded 0) .endTurn
  rcases hrejected _ rfl with hplan | ⟨p, q, decision, -, -, -, -, -, happlied, -⟩
  · cases hplan
  · exact ⟨_, decision, happlied⟩

end Blueprint

end BoardGame
