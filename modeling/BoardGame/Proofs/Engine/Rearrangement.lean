import BoardGame.Effect.Ready
import BoardGame.Proofs.Engine.Applied
import BoardGame.Proofs.Rule.Selection
import BoardGame.Proofs.Setup.Layout

/-!
Phases in another order. What an event finds at a leaf depends on what was declared of the leaf and not on
where it stands, so however the leaves are grouped and ordered, the same of them are eligible. Their order
settles which goes first among those of one priority; where no two have the same priority, it settles
nothing.
-/

namespace BoardGame

/-- A declared leaf as if it stood first. -/
def LeafDecl.placed (d : LeafDecl) : LeafPhase := ⟨d.id, 0, d.guard, d.rule⟩

/-- What does not depend on the places of leaves selects among their declarations. -/
theorem LeafPhase.map_decl_filter {a : LeafPhase → Bool} (ha : ∀ p, a p.decl.placed = a p)
    (l : List LeafPhase) :
    (l.filter a).map decl = (l.map decl).filter fun d => a d.placed := by
  rw [List.filter_map]
  congr 1
  exact List.filter_congr fun p _ => (ha p).symm

theorem LeafPhase.length_eq_of_perm {l l' : List LeafPhase} (h : (l'.map decl).Perm (l.map decl)) :
    l'.length = l.length := by
  rw [← List.length_map decl, h.length_eq, List.length_map]

/-- Where priorities do not repeat, at most one leaf has a given one, so that order does not matter. -/
theorem LeafDecl.filter_priority_eq {l l' : List LeafDecl} (hperm : l'.Perm l)
    (hdistinct : l.Pairwise fun d d' => d.rule.priority ≠ d'.rule.priority) (r : Priority) :
    l'.filter (fun d => d.rule.priority = r) = l.filter fun d => d.rule.priority = r := by
  have hdistinct' : l'.Pairwise fun d d' => d.rule.priority ≠ d'.rule.priority :=
    (hperm.pairwise_iff Ne.symm).mpr hdistinct
  have hof : ∀ {m : List LeafDecl} {d}, d ∈ m.filter (fun d => d.rule.priority = r) →
      d.rule.priority = r := fun hd => of_decide_eq_true (List.mem_filter.mp hd).2
  refine List.Perm.eq_of_pairwise (fun d d' hd hd' hne _ => ?_) (hdistinct'.filter _)
    (hdistinct.filter _) (hperm.filter _)
  exact absurd ((hof hd).trans (hof hd').symm) hne

namespace Engine

variable {e e' : Engine} {s : Snapshot} {event : Event} {p : LeafPhase}

def heard (e : Engine) (s : Snapshot) : List LeafPhase := e.phases.leaves.filter (e.admits s)

def eligible (e : Engine) (s : Snapshot) (event : Event) : List LeafPhase :=
  (e.heard s).filter fun p => (e.answer s event p).isValid

def refusing (e : Engine) (s : Snapshot) (event : Event) : List LeafPhase :=
  (e.heard s).filter fun p => (e.answer s event p).isInvalid

def ranked (e : Engine) (s : Snapshot) (event : Event) : List LeafPhase :=
  Priority.descending.flatMap fun r => (e.eligible s event).filter fun p => p.rule.priority = r

/-- The leaves that are carried out where priorities decide. -/
def prevailing (e : Engine) (s : Snapshot) (event : Event) : List LeafPhase :=
  if e.config.strategy = .applyAll then e.ranked s event else (e.ranked s event).take 1

theorem heard_eq_active (h : e.KeepsDeclared) : e.heard s = e.active s :=
  List.filter_congr fun _ hp => admits_eq_applies h hp

theorem mem_leaves_of_mem_eligible (hp : p ∈ e.eligible s event) : p ∈ e.phases.leaves :=
  (List.mem_filter.mp (List.mem_filter.mp hp).1).1

theorem mem_leaves_of_mem_ranked (hp : p ∈ e.ranked s event) : p ∈ e.phases.leaves := by
  obtain ⟨r, -, hr⟩ := List.mem_flatMap.mp hp
  exact mem_leaves_of_mem_eligible (List.mem_filter.mp hr).1

theorem mem_leaves_of_mem_prevailing (hp : p ∈ e.prevailing s event) : p ∈ e.phases.leaves := by
  rw [prevailing] at hp
  split at hp
  · exact mem_leaves_of_mem_ranked hp
  · exact mem_leaves_of_mem_ranked (List.mem_of_mem_take hp)

/-! ### One engine -/

theorem Planned.value_evaluate_eq (h : e.Planned) :
    (e.evaluate s event).value = e.conclude s event (e.found s event (e.heard s)) := by
  have hscan : (e.scan s event).value = e.found s event (e.heard s) := by
    rw [h.value_scan_admits, foldl_record]
    rfl
  rw [value_evaluate, hscan]

theorem Planned.value_evaluate_of_eligible (h : e.Planned) (hsome : e.eligible s event ≠ []) :
    (e.evaluate s event).value = e.resolve s event ((e.eligible s event).map Candidate.ofLeaf) := by
  have hcandidates : (e.found s event (e.heard s)).candidates ≠ [] := by
    rwa [found, Ne, List.map_eq_nil_iff]
  rw [h.value_evaluate_eq, conclude_of_candidates hcandidates]
  rfl

theorem Planned.evaluate_cases (h : e.Planned) (s : Snapshot) (event : Event) :
    (e.eligible s event = [] ∧ e.refusing s event = [] ∧
      (e.evaluate s event).value = .ok .ignored) ∨
    (e.eligible s event = [] ∧ e.refusing s event ≠ [] ∧
      ∃ r, (e.evaluate s event).value = .error (.rejected r)) ∨
    (e.config.strategy = .exclusive ∧ 1 < (e.eligible s event).length ∧
      (e.evaluate s event).value = .error (.conflict
        { event
          rules := (e.eligible s event).map fun p => p.rule.id
          phases := (e.eligible s event).map LeafPhase.id })) ∨
    (e.eligible s event ≠ [] ∧ ∃ d,
      e.config.strategy.select ((e.eligible s event).map Candidate.ofLeaf) = .ok d ∧
      (e.evaluate s event).value = .ok (.applied ((e.carriedOut d).foldl (e.after event) s) d)) := by
  by_cases hnone : e.eligible s event = []
  · have hcandidates : (e.found s event (e.heard s)).candidates = [] :=
      List.map_eq_nil_iff.mpr hnone
    have hrejection : (e.found s event (e.heard s)).rejection =
        (e.refusing s event).head?.map fun p => (p, e.answer s event p) := by
      rw [refusing, List.head?_filter]
      rfl
    rw [h.value_evaluate_eq]
    simp only [conclude, hcandidates, hrejection]
    cases hrefusing : e.refusing s event with
    | nil => exact Or.inl ⟨hnone, rfl, rfl⟩
    | cons p rest => exact Or.inr (Or.inl ⟨hnone, List.cons_ne_nil p rest, _, rfl⟩)
  · right
    right
    rw [h.value_evaluate_of_eligible hnone, resolve]
    cases hselect : e.config.strategy.select ((e.eligible s event).map Candidate.ofLeaf) with
    | error conflict =>
      obtain ⟨hexclusive, hmany, rfl⟩ := Strategy.select_eq_error_iff.mp hselect
      rw [List.length_map] at hmany
      refine Or.inl ⟨hexclusive, hmany, ?_⟩
      simp only [List.map_map]
      rfl
    | ok d =>
      refine Or.inr ⟨hnone, d, rfl, ?_⟩
      dsimp only
      rw [foldl_perform_selected]

theorem Planned.ignored_iff (h : e.Planned) : (e.evaluate s event).value = .ok .ignored ↔
    e.eligible s event = [] ∧ e.refusing s event = [] := by
  rcases h.evaluate_cases s event with ⟨hnone, hquiet, hvalue⟩ | ⟨-, hrefusing, r, hvalue⟩ |
    ⟨-, hmany, hvalue⟩ | ⟨hsome, d, -, hvalue⟩
  · simp [hvalue, hnone, hquiet]
  · simp [hvalue, hrefusing]
  · simp [hvalue, List.ne_nil_of_length_pos (Nat.zero_lt_of_lt hmany)]
  · simp [hvalue, hsome]

theorem Planned.rejected_iff (h : e.Planned) :
    (∃ r, (e.evaluate s event).value = .error (.rejected r)) ↔
      e.eligible s event = [] ∧ e.refusing s event ≠ [] := by
  rcases h.evaluate_cases s event with ⟨hnone, hquiet, hvalue⟩ | ⟨hnone, hrefusing, r, hvalue⟩ |
    ⟨-, hmany, hvalue⟩ | ⟨hsome, d, -, hvalue⟩
  · simp [hvalue, hquiet]
  · simp [hvalue, hnone, hrefusing]
  · simp [hvalue, List.ne_nil_of_length_pos (Nat.zero_lt_of_lt hmany)]
  · simp [hvalue, hsome]

theorem Planned.conflict_iff (h : e.Planned) {c : Conflict} :
    (e.evaluate s event).value = .error (.conflict c) ↔
      e.config.strategy = .exclusive ∧ 1 < (e.eligible s event).length ∧
        c = { event
              rules := (e.eligible s event).map fun p => p.rule.id
              phases := (e.eligible s event).map LeafPhase.id } := by
  rcases h.evaluate_cases s event with ⟨hnone, -, hvalue⟩ | ⟨hnone, -, r, hvalue⟩ |
    ⟨hexclusive, hmany, hvalue⟩ | ⟨-, d, hselect, hvalue⟩
  · simp [hvalue, hnone]
  · simp [hvalue, hnone]
  · simp [hvalue, hexclusive, hmany, eq_comm]
  · rw [hvalue]
    constructor
    · intro hconflict
      cases hconflict
    · rintro ⟨hexclusive, hmany, -⟩
      rw [Strategy.select_eq_error_iff.mpr ⟨hexclusive, by rwa [List.length_map], rfl⟩] at hselect
      cases hselect

theorem byPriority_eligible : Strategy.byPriority ((e.eligible s event).map Candidate.ofLeaf) =
    (e.ranked s event).map Candidate.ofLeaf := by
  rw [Strategy.byPriority, ranked, List.map_flatMap]
  simp only [List.filter_map]
  rfl

theorem exists_select_prevailing
    (hpriority : e.config.strategy = .highestPriority ∨ e.config.strategy = .applyAll)
    (hsome : e.eligible s event ≠ []) : ∃ d,
    e.config.strategy.select ((e.eligible s event).map Candidate.ofLeaf) = .ok d ∧
      d.selected = (e.prevailing s event).map Candidate.ofLeaf := by
  rcases hpriority with hstrategy | hstrategy
  · have hcandidates : (e.eligible s event).map Candidate.ofLeaf ≠ [] := by
      rwa [Ne, List.map_eq_nil_iff]
    obtain ⟨d, i, c, hselect, hselected, hbest⟩ :=
      Strategy.exists_select_highestPriority hcandidates
    have hfirst := hbest.head?_byPriority
    rw [byPriority_eligible] at hfirst
    have hnotAll : e.config.strategy ≠ .applyAll := by
      rw [hstrategy]
      decide
    refine ⟨d, hstrategy ▸ hselect, ?_⟩
    rw [prevailing, if_neg hnotAll, List.map_take, List.take_one, hfirst, hselected]
    rfl
  · obtain ⟨d, hselect, hselected⟩ := Strategy.exists_select_applyAll
      ((e.eligible s event).map Candidate.ofLeaf)
    refine ⟨d, hstrategy ▸ hselect, ?_⟩
    rw [prevailing, if_pos hstrategy, hselected, byPriority_eligible]

theorem Planned.exists_applied (h : e.Planned)
    (hpriority : e.config.strategy = .highestPriority ∨ e.config.strategy = .applyAll)
    (hsome : e.eligible s event ≠ []) : ∃ d,
    (e.evaluate s event).value =
      .ok (.applied ((e.prevailing s event).foldl (e.after event) s) d) ∧
    d.selected = (e.prevailing s event).map Candidate.ofLeaf ∧
    e.carriedOut d = e.prevailing s event := by
  obtain ⟨d, hselect, hselected⟩ := exists_select_prevailing hpriority hsome
  have hcarried : e.carriedOut d = e.prevailing s event :=
    h.laidOut.carriedOut_eq hselected fun p => mem_leaves_of_mem_prevailing
  refine ⟨d, ?_, hselected, hcarried⟩
  rw [h.value_evaluate_of_eligible hsome, resolve, hselect]
  dsimp only
  rw [foldl_perform_selected, hcarried]

/-! ### Two engines -/

/-- Engines that follow agendas of the same leaves, which may stand elsewhere. -/
structure Rearranged (e e' : Engine) : Prop where
  planned : e.Planned
  planned' : e'.Planned
  setting_eq : e'.setting = e.setting
  strategy_eq : e'.config.strategy = e.config.strategy
  leaves_perm : (e'.phases.leaves.map LeafPhase.decl).Perm (e.phases.leaves.map LeafPhase.decl)

namespace Rearranged

theorem after_eq (h : e.Rearranged e') : e'.after event = e.after event := by
  funext s p
  rw [after, after, h.setting_eq]

theorem perm_filter (h : e.Rearranged e') {a b : LeafPhase → Bool}
    (ha : ∀ p, a p.decl.placed = a p) (hb : ∀ p, b p.decl.placed = b p) :
    (((e'.phases.leaves.filter a).filter b).map LeafPhase.decl).Perm
      (((e.phases.leaves.filter a).filter b).map LeafPhase.decl) := by
  simp only [LeafPhase.map_decl_filter ha, LeafPhase.map_decl_filter hb]
  exact (h.leaves_perm.filter _).filter _

theorem perm_accepting (h : e.Rearranged e') : ((e'.accepting s event).map LeafPhase.decl).Perm
    ((e.accepting s event).map LeafPhase.decl) := by
  rw [accepting, accepting, active, active, applies_congr h.setting_eq, answer_congr h.setting_eq]
  exact h.perm_filter (fun _ => rfl) (fun _ => rfl)

theorem perm_eligible (h : e.Rearranged e') : ((e'.eligible s event).map LeafPhase.decl).Perm
    ((e.eligible s event).map LeafPhase.decl) := by
  rw [eligible, eligible, heard, heard, admits_congr h.setting_eq, answer_congr h.setting_eq]
  exact h.perm_filter (fun _ => rfl) (fun _ => rfl)

theorem perm_refusing (h : e.Rearranged e') : ((e'.refusing s event).map LeafPhase.decl).Perm
    ((e.refusing s event).map LeafPhase.decl) := by
  rw [refusing, refusing, heard, heard, admits_congr h.setting_eq, answer_congr h.setting_eq]
  exact h.perm_filter (fun _ => rfl) (fun _ => rfl)

/-- Without a priority that repeats, the order of the leaves is settled by their priorities. -/
theorem map_decl_ranked (h : e.Rearranged e') (hdistinct : (e.eligible s event).Pairwise
    fun p q => p.rule.priority ≠ q.rule.priority) :
    (e'.ranked s event).map LeafPhase.decl = (e.ranked s event).map LeafPhase.decl := by
  have hof : ∀ (e : Engine) (r : Priority),
      ((e.eligible s event).filter fun p => p.rule.priority = r).map LeafPhase.decl =
        ((e.eligible s event).map LeafPhase.decl).filter fun d => d.rule.priority = r :=
    fun e r => LeafPhase.map_decl_filter (fun _ => rfl) _
  have hdistinct' : ((e.eligible s event).map LeafPhase.decl).Pairwise
      fun d d' => d.rule.priority ≠ d'.rule.priority := List.pairwise_map.mpr hdistinct
  rw [ranked, ranked, List.map_flatMap, List.map_flatMap]
  simp only [hof, LeafDecl.filter_priority_eq h.perm_eligible hdistinct']

theorem map_decl_prevailing (h : e.Rearranged e') (hdistinct : (e.eligible s event).Pairwise
    fun p q => p.rule.priority ≠ q.rule.priority) :
    (e'.prevailing s event).map LeafPhase.decl = (e.prevailing s event).map LeafPhase.decl := by
  have hranked := h.map_decl_ranked hdistinct
  rw [prevailing, prevailing, h.strategy_eq]
  split
  · exact hranked
  · rw [List.map_take, List.map_take, hranked]

theorem foldl_after_eq (h : e.Rearranged e') {l l' : List LeafPhase}
    (halike : l'.map LeafPhase.decl = l.map LeafPhase.decl) :
    l'.foldl (e'.after event) s = l.foldl (e.after event) s := by
  have hdecl : ∀ m : List LeafPhase, m.foldl (e.after event) s =
      (m.map LeafPhase.decl).foldl (fun s d => e.after event s d.placed) s := by
    intro m
    rw [List.foldl_map]
    rfl
  rw [h.after_eq, hdecl l', hdecl l, halike]

theorem symm (h : e.Rearranged e') : e'.Rearranged e :=
  ⟨h.planned', h.planned, h.setting_eq.symm, h.strategy_eq.symm, h.leaves_perm.symm⟩

theorem eligible_eq_nil_iff (h : e.Rearranged e') :
    e'.eligible s event = [] ↔ e.eligible s event = [] := by
  rw [← List.length_eq_zero_iff, LeafPhase.length_eq_of_perm h.perm_eligible,
    List.length_eq_zero_iff]

theorem refusing_eq_nil_iff (h : e.Rearranged e') :
    e'.refusing s event = [] ↔ e.refusing s event = [] := by
  rw [← List.length_eq_zero_iff, LeafPhase.length_eq_of_perm h.perm_refusing,
    List.length_eq_zero_iff]

theorem ignored_alike (h : e.Rearranged e') : (e.evaluate s event).value = .ok .ignored ↔
    (e'.evaluate s event).value = .ok .ignored := by
  rw [h.planned.ignored_iff, h.planned'.ignored_iff, h.eligible_eq_nil_iff, h.refusing_eq_nil_iff]

/-- The rejections may differ: each engine reports the first that it finds. -/
theorem rejected_alike (h : e.Rearranged e') :
    (∃ r, (e.evaluate s event).value = .error (.rejected r)) ↔
      ∃ r, (e'.evaluate s event).value = .error (.rejected r) := by
  rw [h.planned.rejected_iff, h.planned'.rejected_iff, h.eligible_eq_nil_iff, Ne, Ne,
    h.refusing_eq_nil_iff]

theorem exists_conflict (h : e.Rearranged e') {c : Conflict}
    (hconflict : (e.evaluate s event).value = .error (.conflict c)) : ∃ c',
    (e'.evaluate s event).value = .error (.conflict c') ∧
      c'.rules.Perm c.rules ∧ c'.phases.Perm c.phases := by
  obtain ⟨hexclusive, hmany, rfl⟩ := h.planned.conflict_iff.mp hconflict
  have hperm : ((e'.eligible s event).map LeafPhase.decl).Perm
      ((e.eligible s event).map LeafPhase.decl) := h.perm_eligible
  refine ⟨_, h.planned'.conflict_iff.mpr ⟨h.strategy_eq.trans hexclusive, ?_, rfl⟩, ?_, ?_⟩
  · rwa [LeafPhase.length_eq_of_perm hperm]
  · have hrules := hperm.map fun d => d.rule.id
    rw [List.map_map, List.map_map] at hrules
    exact hrules
  · have hphases := hperm.map LeafDecl.id
    rw [List.map_map, List.map_map] at hphases
    exact hphases

theorem applied_alike (h : e.Rearranged e')
    (hpriority : e.config.strategy = .highestPriority ∨ e.config.strategy = .applyAll)
    (hsome : e.eligible s event ≠ []) (hdistinct : (e.eligible s event).Pairwise
      fun p q => p.rule.priority ≠ q.rule.priority) : ∃ next d d',
    (e.evaluate s event).value = .ok (.applied next d) ∧
    (e'.evaluate s event).value = .ok (.applied next d') ∧ d'.rules = d.rules ∧
    (e'.carriedOut d').map LeafPhase.decl = (e.carriedOut d).map LeafPhase.decl := by
  have hsome' : e'.eligible s event ≠ [] := fun hnone => hsome (h.eligible_eq_nil_iff.mp hnone)
  obtain ⟨d, hvalue, hselected, hcarried⟩ := h.planned.exists_applied hpriority hsome
  obtain ⟨d', hvalue', hselected', hcarried'⟩ :=
    h.planned'.exists_applied (h.strategy_eq ▸ hpriority) hsome'
  have halike := h.map_decl_prevailing hdistinct
  refine ⟨_, d, d', hvalue, ?_, ?_, ?_⟩
  · rw [hvalue', h.foldl_after_eq halike]
  · have hrules : ∀ l : List LeafPhase, (l.map Candidate.ofLeaf).map Candidate.rule =
        (l.map LeafPhase.decl).map fun d => d.rule.id := by
      intro l
      rw [List.map_map, List.map_map]
      rfl
    rw [Decision.rules, Decision.rules, hselected, hselected', hrules, hrules, halike]
  · rw [hcarried, hcarried', halike]

end Rearranged

end Engine

namespace Blueprint

variable {b : Blueprint} {phases : List PhaseDecl} {start start' : Session}

def withPhases (b : Blueprint) (phases : List PhaseDecl) : Blueprint := { b with phases }

theorem built_alike_withPhases (hbuild : b.build = .ok start)
    (hbuild' : (b.withPhases phases).build = .ok start') :
    start'.snapshot = start.snapshot ∧ start'.engine.setting = start.engine.setting ∧
      start'.engine.config = start.engine.config := by
  obtain ⟨game, snapshot, root, hgame, hsnapshot, -, rfl⟩ := build_eq_ok_iff.mp hbuild
  obtain ⟨game', snapshot', root', hgame', hsnapshot', -, rfl⟩ := build_eq_ok_iff.mp hbuild'
  obtain rfl : game' = game := Except.ok.inj (hgame'.symm.trans hgame)
  obtain rfl : snapshot' = snapshot := Except.ok.inj (hsnapshot'.symm.trans hsnapshot)
  exact ⟨rfl, rfl, rfl⟩

theorem rearranged_of_build (hbuild : b.build = .ok start)
    (hbuild' : (b.withPhases phases).build = .ok start') (hagenda : b.config.useAgenda = true)
    (hperm : (PhaseDecl.leavesOf phases).Perm (PhaseDecl.leavesOf b.phases)) :
    start.engine.Rearranged start'.engine := by
  obtain ⟨-, hsetting, hconfig⟩ := built_alike_withPhases hbuild hbuild'
  refine ⟨planned_of_build hbuild hagenda, planned_of_build hbuild' hagenda, hsetting,
    congrArg Config.strategy hconfig, ?_⟩
  rw [map_decl_leaves_of_build hbuild, map_decl_leaves_of_build hbuild']
  exact hperm

/-- Games with an agenda whose phases differ in grouping and order only begin alike, and on any snapshot
and event the same leaves are eligible in both. Whatever the strategy, both ignore the event or neither
does, both refuse it or neither does, and a conflict in one is a conflict over the same rules in the other.
Where priorities decide and no two eligible rules have the same one, both carry out the same rules in the
same order, with the same result. -/
theorem evaluates_alike_rearranged (hbuild : b.build = .ok start)
    (hbuild' : (b.withPhases phases).build = .ok start') (hagenda : b.config.useAgenda = true)
    (hperm : (PhaseDecl.leavesOf phases).Perm (PhaseDecl.leavesOf b.phases)) (s : Snapshot)
    (event : Event) :
    let e := start.engine
    let e' := start'.engine
    let outcome := (e.evaluate s event).value
    let outcome' := (e'.evaluate s event).value
    start'.snapshot = start.snapshot ∧
    ((e'.eligible s event).map LeafPhase.decl).Perm ((e.eligible s event).map LeafPhase.decl) ∧
    ((e'.accepting s event).map LeafPhase.decl).Perm ((e.accepting s event).map LeafPhase.decl) ∧
    (e.KeepsDeclared → e.eligible s event = e.accepting s event) ∧
    (outcome = .ok .ignored ↔ outcome' = .ok .ignored) ∧
    ((∃ r, outcome = .error (.rejected r)) ↔ ∃ r, outcome' = .error (.rejected r)) ∧
    (∀ c, outcome = .error (.conflict c) → ∃ c', outcome' = .error (.conflict c') ∧
      c'.rules.Perm c.rules ∧ c'.phases.Perm c.phases) ∧
    (∀ c', outcome' = .error (.conflict c') → ∃ c, outcome = .error (.conflict c) ∧
      c.rules.Perm c'.rules ∧ c.phases.Perm c'.phases) ∧
    (b.config.strategy = .highestPriority ∨ b.config.strategy = .applyAll →
      e.eligible s event ≠ [] →
      (e.eligible s event).Pairwise (fun p q => p.rule.priority ≠ q.rule.priority) →
      ∃ next d d', outcome = .ok (.applied next d) ∧ outcome' = .ok (.applied next d') ∧
        d'.rules = d.rules ∧
        (e'.carriedOut d').map LeafPhase.decl = (e.carriedOut d).map LeafPhase.decl) := by
  intro e e' outcome outcome'
  have halike : e.Rearranged e' := rearranged_of_build hbuild hbuild' hagenda hperm
  have hstrategy : e.config.strategy = b.config.strategy := by
    obtain ⟨game, snapshot, root, -, -, -, rfl⟩ := build_eq_ok_iff.mp hbuild
    rfl
  refine ⟨(built_alike_withPhases hbuild hbuild').1, halike.perm_eligible, halike.perm_accepting,
    ?_, halike.ignored_alike, halike.rejected_alike, fun c => halike.exists_conflict,
    fun c => halike.symm.exists_conflict, ?_⟩
  · intro hkeep
    rw [Engine.eligible, Engine.heard_eq_active hkeep]
    rfl
  · intro hpriority hsome hdistinct
    rw [← hstrategy] at hpriority
    exact halike.applied_alike hpriority hsome hdistinct

/-- A rule for the end of a turn that leaves its name on the trail. -/
def errand (id : RuleId) (priority : Priority) : Rule :=
  .simple { id, priority, type := some .endTurn } [.leaveTrail id]

/-- Three rules that are carried out by priority, and one for a phase that does not apply. -/
def errands : Blueprint where
  phases := [
    .group "home" [
      .leaf { id := "kitchen", rule := errand "cook" .low },
      .leaf { id := "hall", rule := errand "sweep" .high }],
    .leaf { id := "ruin", guard := .test .never, rule := errand "fall" .highest },
    .leaf { id := "garden", rule := errand "mow" .normal }]
  config := { strategy := .applyAll }

/-- The phases of the errands in another order and in other groups. -/
def detour : List PhaseDecl := [
  .group "far" [
    .group "near" [.leaf { id := "ruin", guard := .test .never, rule := errand "fall" .highest }],
    .leaf { id := "garden", rule := errand "mow" .normal }],
  .leaf { id := "kitchen", rule := errand "cook" .low },
  .group "home" [.leaf { id := "hall", rule := errand "sweep" .high }]]

/-- The errands are run in the same order on the detour. -/
theorem errands_alike_on_detour : ∃ start start' next d d', errands.build = .ok start ∧
    (errands.withPhases detour).build = .ok start' ∧ errands.config.useAgenda = true ∧
    (PhaseDecl.leavesOf detour).Perm (PhaseDecl.leavesOf errands.phases) ∧
    (start.engine.evaluate start.snapshot .endTurn).value = .ok (.applied next d) ∧
    (start'.engine.evaluate start.snapshot .endTurn).value = .ok (.applied next d') ∧
    d.rules = ["sweep", "mow", "cook"] ∧ d'.rules = d.rules ∧
    next.extra? "trail" = some (.texts ["sweep", "mow", "cook"]) := by
  obtain ⟨start, hbuild⟩ : ∃ start, errands.build = .ok start := ⟨_, rfl⟩
  obtain ⟨start', hbuild'⟩ : ∃ start', (errands.withPhases detour).build = .ok start' := ⟨_, rfl⟩
  have hperm : (PhaseDecl.leavesOf detour).Perm (PhaseDecl.leavesOf errands.phases) :=
    @List.perm_append_comm _ [_, _] [_, _]
  obtain ⟨-, -, -, -, -, -, -, -, hpriority⟩ :=
    evaluates_alike_rearranged hbuild hbuild' rfl hperm start.snapshot .endTurn
  have hthree : (start.engine.eligible start.snapshot .endTurn).length = 3 := by
    cases hbuild
    decide +kernel
  have hdistinct : (start.engine.eligible start.snapshot .endTurn).Pairwise
      fun p q => p.rule.priority ≠ q.rule.priority := by
    cases hbuild
    decide +kernel
  obtain ⟨next, d, d', hvalue, hvalue', hrules, -⟩ :=
    hpriority (Or.inr rfl) (List.ne_nil_of_length_eq_add_one hthree) hdistinct
  have hread : d.rules = ["sweep", "mow", "cook"] ∧
      next.extra? "trail" = some (.texts ["sweep", "mow", "cook"]) := by
    cases hbuild
    cases hvalue
    decide +kernel
  exact ⟨start, start', next, d, d', hbuild, hbuild', rfl, hperm, hvalue, hvalue', hread.1, hrules,
    hread.2⟩

end Blueprint

end BoardGame
