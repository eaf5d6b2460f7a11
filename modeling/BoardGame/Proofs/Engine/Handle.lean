import BoardGame.Engine.Session
import BoardGame.Proofs.Engine.Scan
import BoardGame.Proofs.Rule.Decision

/-!
What handling an event comes to. It is said in terms of the leaves that apply to the snapshot: those whose
rules accept the event, and the first that rejects it. The selected candidates name leaves by position,
and since leaves are numbered as they are listed, the rule carried out is the selected leaf's own.
-/

namespace BoardGame

/-- Candidates made of given leaves, in whatever order and number, are those of a list of such leaves. -/
theorem exists_map_ofLeaf {leaves : List LeafPhase} {candidates : List Candidate}
    (h : ∀ c ∈ candidates, c ∈ leaves.map Candidate.ofLeaf) :
    ∃ chosen : List LeafPhase, candidates = chosen.map Candidate.ofLeaf ∧ ∀ p ∈ chosen, p ∈ leaves := by
  induction candidates with
  | nil => exact ⟨[], rfl, List.forall_mem_nil _⟩
  | cons c rest ih =>
    obtain ⟨hc, hrest⟩ := List.forall_mem_cons.mp h
    obtain ⟨p, hp, rfl⟩ := List.mem_map.mp hc
    obtain ⟨chosen, rfl, hchosen⟩ := ih hrest
    exact ⟨p :: chosen, rfl, List.forall_mem_cons.mpr ⟨hp, hchosen⟩⟩

namespace Engine

def after (e : Engine) (event : Event) (s : Snapshot) (p : LeafPhase) : Snapshot :=
  (p.rule.apply e.setting event s).value

def resolve (e : Engine) (s : Snapshot) (event : Event) (candidates : List Candidate) :
    Except Failure Evaluation :=
  match e.config.strategy.select candidates with
  | .error conflict =>
    .error (.conflict
      { event, rules := conflict.map Candidate.rule, phases := conflict.map Candidate.phase })
  | .ok decision =>
    .ok (.applied (decision.selected.foldl (fun s c => (e.perform event s c).value) s) decision)

def conclude (e : Engine) (s : Snapshot) (event : Event) (scan : Scan) :
    Except Failure Evaluation :=
  match scan.candidates, scan.rejection with
  | [], none => .ok .ignored
  | [], some (p, verdict) =>
    .error (.rejected { event, verdict, phase := p.id, rule := p.rule.id, snapshot := s })
  | candidates, _ => e.resolve s event candidates

variable {e : Engine} {s : Snapshot} {event : Event} {p : LeafPhase}

theorem conclude_of_candidates {scan : Scan} (hsome : scan.candidates ≠ []) :
    e.conclude s event scan = e.resolve s event scan.candidates := by
  unfold conclude
  split
  · rename_i hnone _
    exact absurd hnone hsome
  · rename_i hnone _
    exact absurd hnone hsome
  · rfl

theorem value_evaluate : (e.evaluate s event).value = e.conclude s event (e.scan s event).value := by
  rw [evaluate, Noted.value_bind]
  generalize (e.scan s event).value = scan
  obtain ⟨candidates, rejection⟩ := scan
  cases candidates with
  | nil =>
    cases rejection with
    | none => rfl
    | some first => rfl
  | cons c rest =>
    rw [conclude_of_candidates (List.cons_ne_nil _ _), resolve]
    simp only [List.isEmpty_cons, Bool.false_eq_true, if_false]
    cases e.config.strategy.select (c :: rest) with
    | error conflict => rfl
    | ok decision => rw [Noted.value_bind, Noted.value_bind, Noted.value_foldlM, Noted.value_pure]

/-- An engine that finds the leaves of its tree by their ordinals. -/
structure LaidOut (e : Engine) : Prop where
  leaves_eq : e.leaves = e.phases.leaves
  numbered : Numbered 0 e.leaves

theorem LaidOut.value_perform (h : e.LaidOut) (hp : p ∈ e.phases.leaves) :
    (e.perform event s (Candidate.ofLeaf p)).value = e.after event s p := by
  have hfound : e.leaves[(Candidate.ofLeaf p).position]? = some p :=
    h.numbered.getElem?_ordinal (h.leaves_eq ▸ hp)
  rw [perform, hfound]
  rfl

theorem LaidOut.foldl_perform (h : e.LaidOut) {chosen : List LeafPhase}
    (hchosen : ∀ p ∈ chosen, p ∈ e.phases.leaves) :
    (chosen.map Candidate.ofLeaf).foldl (fun s c => (e.perform event s c).value) s =
      chosen.foldl (e.after event) s := by
  rw [List.foldl_map]
  apply List.foldl_ext
  intro s p hp
  exact h.value_perform (hchosen p hp)

theorem Planned.laidOut (h : e.Planned) : e.LaidOut := ⟨h.leaves_eq, h.numbered⟩

theorem Planned.value_perform (h : e.Planned) (hp : p ∈ e.phases.leaves) :
    (e.perform event s (Candidate.ofLeaf p)).value = e.after event s p := h.laidOut.value_perform hp

theorem Planned.foldl_perform (h : e.Planned) {chosen : List LeafPhase}
    (hchosen : ∀ p ∈ chosen, p ∈ e.phases.leaves) :
    (chosen.map Candidate.ofLeaf).foldl (fun s c => (e.perform event s c).value) s =
      chosen.foldl (e.after event) s := h.laidOut.foldl_perform hchosen

theorem mem_leaves_of_mem_accepting (hp : p ∈ e.accepting s event) : p ∈ e.phases.leaves :=
  (List.mem_filter.mp (List.mem_filter.mp hp).1).1

end Engine

namespace Session

variable {p : Session} {call : Nat} {event : Event}

theorem value_handle : (p.handle call event).value =
    match (p.engine.evaluate p.snapshot event).value with
    | .ok .ignored => .ok p
    | .ok (.applied snapshot decision) => .ok (p.advance call event snapshot decision)
    | .error failure => .error failure := by
  rw [handle, Noted.value_bind]
  cases (p.engine.evaluate p.snapshot event).value with
  | error failure => rfl
  | ok evaluation =>
    cases evaluation with
    | ignored => rfl
    | applied snapshot decision => rfl

end Session

namespace Blueprint

/-- Handling an event refines asking all leaves of the tree: it is ignored if none of those that apply
has an opinion, refused with the first rejection if none accepts it, a conflict if several accept it where
one may, and otherwise carried out by the rules selected among those that accept it. -/
theorem handle_refines_leaves {b : Blueprint} {start p : Session} (hbuild : b.build = .ok start)
    (hagenda : b.config.useAgenda = true) (hkeep : start.engine.KeepsDeclared)
    (hengine : p.engine = start.engine) (call : Nat) (event : Event) :
    let e := start.engine
    let accepting := e.accepting p.snapshot event
    (accepting = [] → e.refusing? p.snapshot event = none →
      (p.handle call event).value = .ok p) ∧
    (∀ q, accepting = [] → e.refusing? p.snapshot event = some q →
      (p.handle call event).value = .error (.rejected
        { event, verdict := e.answer p.snapshot event q, phase := q.id, rule := q.rule.id,
          snapshot := p.snapshot })) ∧
    (b.config.strategy = .exclusive → 1 < accepting.length →
      (p.handle call event).value = .error (.conflict
        { event, rules := accepting.map fun q => q.rule.id, phases := accepting.map LeafPhase.id })) ∧
    (accepting ≠ [] → ¬(b.config.strategy = .exclusive ∧ 1 < accepting.length) →
      ∃ (decision : Decision) (chosen : List LeafPhase) (next : Session),
        b.config.strategy.select (accepting.map Candidate.ofLeaf) = .ok decision ∧
        decision.selected = chosen.map Candidate.ofLeaf ∧ (∀ q ∈ chosen, q ∈ accepting) ∧
        (p.handle call event).value = .ok next ∧
        next.snapshot = chosen.foldl (e.after event) p.snapshot ∧
        next.lastDecision = some decision ∧ next.lastEvent = some event ∧
        next.engine = e ∧ next.applied = p.applied + 1) := by
  intro e accepting
  have hplanned : e.Planned := planned_of_build hbuild hagenda
  have hstrategy : e.config.strategy = b.config.strategy := by
    obtain ⟨game, snapshot, phases, -, -, -, rfl⟩ := build_eq_ok_iff.mp hbuild
    rfl
  have hvalue : (p.engine.evaluate p.snapshot event).value =
      e.conclude p.snapshot event
        { candidates := accepting.map Candidate.ofLeaf
          rejection := (e.refusing? p.snapshot event).map fun q =>
            (q, e.answer p.snapshot event q) } := by
    rw [hengine, Engine.value_evaluate, hplanned.value_scan_eq hkeep]
  rw [Session.value_handle, hvalue]
  -- what remains is to read off the end for what the scan has found
  refine ⟨?_, ?_, ?_, ?_⟩
  · intro hnone hrefusing
    simp only [hnone, hrefusing, Engine.conclude, List.map_nil, Option.map_none]
  · intro q hnone hrefusing
    simp only [hnone, hrefusing, Engine.conclude, List.map_nil, Option.map_some]
  · intro hexclusive hmany
    have hlength : 1 < (accepting.map Candidate.ofLeaf).length := by rwa [List.length_map]
    have hselect := Strategy.select_eq_error_iff.mpr ⟨hstrategy.trans hexclusive, hlength, rfl⟩
    have hsome : accepting.map Candidate.ofLeaf ≠ [] := List.ne_nil_of_length_pos (by omega)
    rw [Engine.conclude_of_candidates hsome, Engine.resolve, hselect]
    dsimp only
    rw [List.map_map, List.map_map]
    rfl
  · intro hsome hsingle
    have hcandidates : accepting.map Candidate.ofLeaf ≠ [] := by rwa [Ne, List.map_eq_nil_iff]
    cases hselect : b.config.strategy.select (accepting.map Candidate.ofLeaf) with
    | error conflict =>
      obtain ⟨hexclusive, hmany, -⟩ := Strategy.select_eq_error_iff.mp hselect
      exact absurd ⟨hexclusive, by rwa [List.length_map] at hmany⟩ hsingle
    | ok decision =>
      -- the decision holds candidates only; the leaves they were made of are found by position
      obtain ⟨chosen, hchosen, haccepting⟩ :=
        exists_map_ofLeaf fun c hc => Strategy.mem_of_mem_select hselect hc
      have hleaves : ∀ q ∈ chosen, q ∈ e.phases.leaves := fun q hq =>
        Engine.mem_leaves_of_mem_accepting (haccepting q hq)
      rw [Engine.conclude_of_candidates hcandidates, Engine.resolve, hstrategy, hselect]
      dsimp only
      rw [hchosen, hplanned.foldl_perform hleaves]
      exact ⟨decision, chosen, _, rfl, hchosen, haccepting, rfl, rfl, rfl, rfl, hengine, rfl⟩

/-- A test of the game's own that declares what it answers. -/
def unlocked : StateTest :=
  .custom { name := "open", declared := some .valid, judge := fun _ _ => .valid }

theorem unlocked_keepsDeclared : unlocked.KeepsDeclared := fun _ _ _ ho => Option.some.inj ho

/-- Two phases accept the end of a turn where one may; the guard of the first is settled and never asked. -/
def rivals : Blueprint where
  phases := [
    .leaf { id := "early", guard := .test unlocked, rule := Rule.on .endTurn "first" },
    .leaf { id := "late", rule := Rule.on .endTurn "second" }]
  config := { strategy := .exclusive }

theorem rivals_keepsDeclared {start : Session} (h : rivals.build = .ok start) :
    start.engine.KeepsDeclared := by
  cases h
  intro p hp t ht
  rcases List.mem_cons.mp hp with rfl | hp
  · rw [List.mem_singleton.mp ht]
    exact unlocked_keepsDeclared
  · obtain rfl := List.mem_singleton.mp hp
    cases List.mem_singleton.mp ht

theorem rivals_conflict : ∃ start, rivals.build = .ok start ∧ rivals.config.useAgenda = true ∧
    start.engine.KeepsDeclared ∧
    (start.handle 1 .endTurn).value = .error (.conflict
      { event := .endTurn, rules := ["first", "second"], phases := ["early", "late"] }) := by
  refine ⟨_, rfl, rfl, rivals_keepsDeclared rfl, ?_⟩
  have hcases := handle_refines_leaves (b := rivals) rfl rfl (rivals_keepsDeclared rfl) rfl 1 .endTurn
  exact hcases.2.2.1 rfl (by decide)

end Blueprint

end BoardGame
